-- SUMMARY: Database sessions: the statements of one transaction, exceptions that leave the transaction open, and commit or roll back at its end.
import Mathlib.Order.Defs.Unbundled

/-!
# Sessions

A session runs the statements of one transaction against the rows the
transaction sees. An exception does not undo anything by itself: what was
written before it stays in the session until the code that opened the
transaction commits or rolls back. A write the database refuses is noticed at
the next flush; after a failed flush every further flush fails until roll back.
-/

/-- What a session can raise: an exception of the program, a refused write, or
    the use of a transaction whose flush has already failed. -/
inductive Exn (ε : Type) where
  | raised (e : ε)
  | flushFailed
  | pendingRollback
  deriving DecidableEq, Repr

/-- The state of a session inside a transaction: the rows as the transaction
    sees them, whether a pending write will be refused, and whether a flush has
    failed. -/
structure SessionState (D : Type) where
  view : D
  refused : Bool
  failed : Bool

/-- No write was refused and no flush has failed. -/
def SessionState.Clean {D : Type} (s : SessionState D) : Prop :=
  s.refused = false ∧ s.failed = false

/-- A computation in a session over the database `D`. -/
def Session (D ε α : Type) : Type :=
  SessionState D → Except (Exn ε) α × SessionState D

namespace Session

variable {D ε α β : Type}

protected def pure (a : α) : Session D ε α := fun s => (.ok a, s)

protected def bind (m : Session D ε α) (f : α → Session D ε β) : Session D ε β := fun s =>
  match m s with
  | (.ok a, s') => f a s'
  | (.error e, s') => (.error e, s')

instance : Monad (Session D ε) where
  pure := Session.pure
  bind := Session.bind

/-- Raise an exception of the program. -/
def raise (e : ε) : Session D ε α := fun s => (.error (.raised e), s)

/-- Raise again what was caught. -/
def throw (x : Exn ε) : Session D ε α := fun s => (.error x, s)

/-- Return a value or raise, as a pure function of the program decided. -/
def ofExcept : Except ε α → Session D ε α
  | .ok a => Session.pure a
  | .error e => raise e

/-- `try ... except Exception`: the handler runs in the same open transaction. -/
protected def tryCatch (m : Session D ε α) (handler : Exn ε → Session D ε α) : Session D ε α := fun s =>
  match m s with
  | (.ok a, s') => (.ok a, s')
  | (.error e, s') => handler e s'

/-- Send the pending writes to the database. -/
def flush : Session D ε Unit := fun s =>
  if s.failed then (.error .pendingRollback, s)
  else if s.refused then (.error .flushFailed, { s with failed := true })
  else (.ok (), s)

/-- Queue a write. The database may refuse it, which shows at the next flush. -/
def write (w : D → Option D) : Session D ε Unit := fun s =>
  match w s.view with
  | some view => (.ok (), { s with view })
  | none => (.ok (), { s with refused := true })

/-- Queue writes in order. -/
def writeAll : List (D → Option D) → Session D ε Unit
  | [] => Session.pure ()
  | w :: ws => Session.bind (write w) fun _ => writeAll ws

/-- The rows after writes that are all accepted. -/
def applyAll : List (D → Option D) → D → Option D
  | [], d => some d
  | w :: ws, d => (w d).bind (applyAll ws)

/-- Queue a write that the database accepts. -/
def update (w : D → D) : Session D ε Unit := write fun d => some (w d)

/-- A query. Pending writes are flushed first. -/
def select (q : D → α) : Session D ε α := fun s =>
  match flush (ε := ε) s with
  | (.ok (), s') => (.ok (q s'.view), s')
  | (.error e, s') => (.error e, s')

/-- One transaction: commit when the body returns, roll back when it raises.
    The commit flushes, and can fail like any flush. -/
def transaction (m : Session D ε α) (db : D) : Except (Exn ε) α × D :=
  match m ⟨db, false, false⟩ with
  | (.ok a, s) =>
    match flush (ε := ε) s with
    | (.ok (), s') => (.ok a, s'.view)
    | (.error e, _) => (.error e, db)
  | (.error e, _) => (.error e, db)

/-! ### What is outside the database

A state may have a part that no transaction covers, such as files. What a body does
to it takes effect at once and stays when the transaction is rolled back. -/

/-- A look at the part outside the database: nothing is flushed. -/
def inspect (q : D → α) : Session D ε α := fun s => (.ok (q s.view), s)

/-- One transaction. `undo before after` is the state `after` with its database as it
    is in `before`. -/
def transactionWith (undo : D → D → D) (m : Session D ε α) (d : D) : Except (Exn ε) α × D :=
  match m ⟨d, false, false⟩ with
  | (.ok a, s) =>
    match flush (ε := ε) s with
    | (.ok (), s') => (.ok a, s'.view)
    | (.error e, s') => (.error e, undo d s'.view)
  | (.error e, s) => (.error e, undo d s.view)

/-! ## Running the statements -/

section
variable {s : SessionState D} {m : Session D ε α} {f : α → Session D ε β} {a : α} {e : ε}
  {x : Exn ε} {db db' : D}

@[simp] theorem run_pure : (Pure.pure a : Session D ε α) s = (.ok a, s) := rfl

@[simp] theorem run_bind :
    (m >>= f) s = match m s with
      | (.ok a, s') => f a s'
      | (.error e, s') => (.error e, s') := rfl

@[simp] theorem run_raise : (raise e : Session D ε α) s = (.error (.raised e), s) := rfl

@[simp] theorem run_ofExcept_ok : (ofExcept (.ok a) : Session D ε α) s = (.ok a, s) := rfl

@[simp] theorem run_ofExcept_error :
    (ofExcept (.error e) : Session D ε α) s = (.error (.raised e), s) := rfl

@[simp] theorem run_update {w : D → D} :
    (update w : Session D ε Unit) s = (.ok (), { s with view := w s.view }) := rfl

@[simp] theorem run_inspect {q : D → α} :
    (inspect q : Session D ε α) s = (.ok (q s.view), s) := rfl

@[simp] theorem run_flush {d : D} :
    (flush : Session D ε Unit) ⟨d, false, false⟩ = (.ok (), ⟨d, false, false⟩) := rfl

@[simp] theorem run_flush_refused {d : D} :
    (flush : Session D ε Unit) ⟨d, true, false⟩ = (.error .flushFailed, ⟨d, true, true⟩) := rfl

@[simp] theorem run_flush_failed {d : D} {b : Bool} :
    (flush : Session D ε Unit) ⟨d, b, true⟩ = (.error .pendingRollback, ⟨d, b, true⟩) := rfl

/-- A flush that returns has found nothing refused, and leaves the session as it was. -/
theorem flush_ok {s' : SessionState D} (h : flush (ε := ε) s = (.ok (), s')) : s' = s ∧ s.Clean := by
  unfold flush at h
  split at h
  · cases h
  · rename_i hfailed
    split at h
    · cases h
    · rename_i hrefused
      cases h
      exact ⟨rfl, (Bool.not_eq_true _).mp hrefused, (Bool.not_eq_true _).mp hfailed⟩

@[simp] theorem run_select {q : D → α} {d : D} :
    (select q : Session D ε α) ⟨d, false, false⟩ = (.ok (q d), ⟨d, false, false⟩) := rfl

/-- After a failed flush every query fails too. -/
theorem run_select_failed {q : D → α} (h : s.failed = true) :
    (select q : Session D ε α) s = (.error .pendingRollback, s) := by
  simp [select, flush, h]

theorem run_write {w : D → Option D} {d d' : D} {b c : Bool} (h : w d = some d') :
    (write w : Session D ε Unit) ⟨d, b, c⟩ = (.ok (), ⟨d', b, c⟩) := by
  simp [write, h]

theorem run_writeAll {ws : List (D → Option D)} {d d' : D} {b c : Bool}
    (h : applyAll ws d = some d') :
    (writeAll ws : Session D ε Unit) ⟨d, b, c⟩ = (.ok (), ⟨d', b, c⟩) := by
  induction ws generalizing d with
  | nil =>
    cases h
    rfl
  | cons w ws ih =>
    obtain ⟨d₁, hw, hws⟩ := Option.bind_eq_some_iff.mp h
    simp only [writeAll, Session.bind, run_write hw]
    exact ih hws

/-! ## Transactions -/

theorem transaction_error {s : SessionState D} (h : m ⟨db, false, false⟩ = (.error x, s)) :
    transaction m db = (.error x, db) := by
  simp [transaction, h]

theorem transaction_ok {view : D} (h : m ⟨db, false, false⟩ = (.ok a, ⟨view, false, false⟩)) :
    transaction m db = (.ok a, view) := by
  simp [transaction, h]

/-- A transaction that raises leaves the database as it was. -/
theorem transaction_rollback (h : (transaction m db).1 = .error x) :
    (transaction m db).2 = db := by
  unfold transaction at h ⊢
  split <;> try rfl
  split <;> simp_all

end

/-! ## Bodies that raise -/

/-- The body raises when it is run from the state `s`. -/
def Raises (m : Session D ε α) (s : SessionState D) : Prop :=
  ∃ x s', m s = (.error x, s')

section
variable {s : SessionState D} {m : Session D ε α}

theorem raises_raise (e : ε) : Raises (raise e : Session D ε α) s :=
  ⟨.raised e, s, rfl⟩

theorem raises_throw (x : Exn ε) : Raises (throw x : Session D ε α) s :=
  ⟨x, s, rfl⟩

theorem Raises.transaction {db : D} (h : Raises m ⟨db, false, false⟩) :
    ∃ x, Session.transaction m db = (.error x, db) := by
  obtain ⟨x, s', hm⟩ := h
  exact ⟨x, transaction_error hm⟩

end

/-! ## What a body commits -/

/-- When the body returns, and in a session that can still be committed, the rows
    it found, its result and the rows it leaves are related by `R`. Nothing is said
    of a body that raises, whose writes are rolled back. -/
def Commits (m : Session D ε α) (R : D → α → D → Prop) : Prop :=
  ∀ s a s', m s = (.ok a, s') → s'.Clean → s.Clean ∧ R s.view a s'.view

section
variable {m : Session D ε α} {f : α → Session D ε β} {a : α} {db db' : D} {R : D → α → D → Prop}

theorem commits_pure (h : ∀ d, R d a d) : Commits (Pure.pure a : Session D ε α) R := by
  rintro s _ _ ⟨⟩ hclean
  exact ⟨hclean, h s.view⟩

theorem commits_raise {e : ε} : Commits (raise e : Session D ε α) R := by
  rintro s _ _ ⟨⟩

theorem Commits.weaken {R' : D → α → D → Prop} (hm : Commits m R)
    (h : ∀ d a d', R d a d' → R' d a d') : Commits m R' := by
  intro s a s' hrun hclean
  obtain ⟨hstart, hR⟩ := hm s a s' hrun hclean
  exact ⟨hstart, h _ _ _ hR⟩

/-- The second part has to show `R` for every database from which the first part
    leads to the one it starts in. -/
theorem Commits.bind {R' : D → β → D → Prop} (hm : Commits m R)
    (hf : ∀ a, Commits (f a) fun d₁ b d' => ∀ d, R d a d₁ → R' d b d') : Commits (m >>= f) R' := by
  intro s b s' hrun hclean
  rw [run_bind] at hrun
  cases hms : m s with
  | mk r s₁ =>
    rw [hms] at hrun
    cases r with
    | ok a =>
      obtain ⟨hmid, hrest⟩ := hf a s₁ b s' hrun hclean
      obtain ⟨hstart, hfirst⟩ := hm s a s₁ hms hmid
      exact ⟨hstart, hrest s.view hfirst⟩
    | error x => cases hrun

theorem commits_flush : Commits (flush : Session D ε Unit) fun d _ d' => d' = d := by
  intro s _ s' hrun hclean
  obtain ⟨rfl, hstart⟩ := flush_ok hrun
  exact ⟨hstart, rfl⟩

theorem commits_select {q : D → α} :
    Commits (select q : Session D ε α) fun d a d' => a = q d ∧ d' = d := by
  intro s _ s' hrun hclean
  unfold select at hrun
  split at hrun
  · rename_i s₁ hflush
    cases hrun
    obtain ⟨hstart, hview⟩ := commits_flush s () s' hflush hclean
    exact ⟨hstart, by rw [hview], hview⟩
  · cases hrun

theorem commits_write {w : D → Option D} :
    Commits (write w : Session D ε Unit) fun d _ d' => w d = some d' := by
  intro s _ s' hrun hclean
  unfold write at hrun
  split at hrun
  · rename_i view hview
    cases hrun
    exact ⟨hclean, hview⟩
  · cases hrun
    exact absurd hclean.1 nofun

theorem commits_update {w : D → D} :
    Commits (update w : Session D ε Unit) fun d _ d' => d' = w d := by
  rintro s _ _ ⟨⟩ hclean
  exact ⟨hclean, rfl⟩

theorem commits_ofExcept {r : Except ε α} :
    Commits (ofExcept r : Session D ε α) fun d a d' => r = .ok a ∧ d' = d := by
  cases r with
  | ok b =>
    rintro s _ _ ⟨⟩ hclean
    exact ⟨hclean, rfl, rfl⟩
  | error e => exact commits_raise

theorem commits_writeAll {ws : List (D → Option D)} :
    Commits (writeAll ws : Session D ε Unit) fun d _ d' => applyAll ws d = some d' := by
  induction ws with
  | nil => exact commits_pure fun d => rfl
  | cons w ws ih =>
    refine commits_write.bind fun _ => ih.weaken ?_
    intro d₁ _ d' hws d hw
    simp [applyAll, hw, hws]

/-- A handler that only raises another exception changes nothing in this. -/
theorem Commits.tryCatch {handler : Exn ε → Session D ε α} (hm : Commits m R)
    (hh : ∀ x s, Raises (handler x) s) : Commits (Session.tryCatch m handler) R := by
  intro s a s' hrun hclean
  unfold Session.tryCatch at hrun
  cases hms : m s with
  | mk r s₁ =>
    rw [hms] at hrun
    cases r with
    | ok b =>
      cases hrun
      exact hm s a s' hms hclean
    | error x =>
      obtain ⟨y, s₂, hy⟩ := hh x s₁
      change handler x s₁ = _ at hrun
      rw [hy] at hrun
      cases hrun

/-- A transaction that returns has committed what its body does. -/
theorem Commits.transaction (hm : Commits m R) (h : Session.transaction m db = (.ok a, db')) :
    R db a db' := by
  unfold Session.transaction at h
  split at h
  · rename_i b s hbody
    split at h
    · rename_i s' hflush
      cases h
      obtain ⟨rfl, hclean⟩ := flush_ok hflush
      exact (hm _ _ _ hbody hclean).2
    · cases h
  · cases h

/-- A transaction commits what its body does, or nothing. -/
theorem Commits.commit (hm : Commits m R) (db : D) :
    (Session.transaction m db).2 = db ∨ ∃ a, R db a (Session.transaction m db).2 := by
  cases hrun : Session.transaction m db with
  | mk r db' =>
    cases r with
    | ok a => exact .inr ⟨a, hm.transaction hrun⟩
    | error x =>
      have hback : (Session.transaction m db).2 = db := transaction_rollback (x := x) (by rw [hrun])
      rw [hrun] at hback
      exact .inl hback

/-- With a part outside the database: what the body does is committed, or undone. -/
theorem Commits.commitWith {undo : D → D → D} (hm : Commits m R) (db : D) :
    (∃ d, (transactionWith undo m db).2 = undo db d) ∨
      ∃ a, R db a (transactionWith undo m db).2 := by
  unfold transactionWith
  cases hbody : m ⟨db, false, false⟩ with
  | mk r s =>
    cases r with
    | error x => exact .inl ⟨s.view, rfl⟩
    | ok a =>
      dsimp only
      cases hflush : flush (ε := ε) s with
      | mk r' s' =>
        cases r' with
        | error x => exact .inl ⟨s'.view, rfl⟩
        | ok _ =>
          obtain ⟨rfl, hclean⟩ := flush_ok hflush
          exact .inr ⟨a, (hm _ _ _ hbody hclean).2⟩

/-- What holds before and after every return holds after the transaction. -/
theorem Commits.keeps {P : D → Prop} (hm : Commits m R) (hstart : P db)
    (hR : ∀ a db', R db a db' → P db') : P (Session.transaction m db).2 := by
  rcases hm.commit db with hback | ⟨a, ha⟩
  · rw [hback]
    exact hstart
  · exact hR a _ ha

/-- A reflexive relation that every return keeps, the transaction keeps. -/
theorem Commits.preserves {K : D → D → Prop} [Std.Refl K] (hm : Commits m R)
    (hR : ∀ d a d', R d a d' → K d d') : K db (Session.transaction m db).2 :=
  hm.keeps (refl_of K db) (hR db)

end

/-! ## What a body that raises leaves -/

/-- When the body raises, and leaves a session that can still be committed, the
    rows it found, the exception and the rows it leaves are related by `E`. -/
def Aborts (m : Session D ε α) (E : D → Exn ε → D → Prop) : Prop :=
  ∀ s x s', m s = (.error x, s') → s'.Clean → s.Clean ∧ E s.view x s'.view

section
variable {m : Session D ε α} {f : α → Session D ε β} {a : α} {E : D → Exn ε → D → Prop}
  {R : D → α → D → Prop}

theorem aborts_pure : Aborts (Pure.pure a : Session D ε α) E := by
  rintro s _ _ ⟨⟩

theorem aborts_ofExcept {r : Except ε α} (h : ∀ d e, r = .error e → E d (.raised e) d) :
    Aborts (ofExcept r : Session D ε α) E := by
  cases r with
  | ok a => rintro s _ _ ⟨⟩
  | error e =>
    rintro s _ _ ⟨⟩ hclean
    exact ⟨hclean, h s.view e rfl⟩

theorem aborts_raise {e : ε} (h : ∀ d, E d (.raised e) d) : Aborts (raise e : Session D ε α) E :=
  aborts_ofExcept (r := .error e) fun d _ he => Except.error.inj he ▸ h d

theorem aborts_write {w : D → Option D} : Aborts (write w : Session D ε Unit) E := by
  intro s x s' hrun
  unfold write at hrun
  split at hrun <;> cases hrun

theorem aborts_update {w : D → D} : Aborts (update w : Session D ε Unit) E := aborts_write

/-- A flush that fails leaves a session that cannot be committed. -/
theorem aborts_flush : Aborts (flush : Session D ε Unit) E := by
  intro s x s' hrun hclean
  unfold flush at hrun
  split at hrun
  · rename_i hfailed
    cases hrun
    exact absurd (hclean.2.symm.trans hfailed) nofun
  · split at hrun
    · cases hrun
      exact absurd hclean.2 nofun
    · cases hrun

theorem aborts_select {q : D → α} : Aborts (select q : Session D ε α) E := by
  intro s x s' hrun hclean
  unfold select at hrun
  split at hrun
  · cases hrun
  · rename_i hflush
    cases hrun
    exact aborts_flush s x s' hflush hclean

theorem Aborts.bind {E' : D → Exn ε → D → Prop} (hm : Aborts m E') (hc : Commits m R)
    (hf : ∀ a, Aborts (f a) fun d₁ x d' => ∀ d, R d a d₁ → E' d x d') : Aborts (m >>= f) E' := by
  intro s x s' hrun hclean
  rw [run_bind] at hrun
  cases hms : m s with
  | mk r s₁ =>
    rw [hms] at hrun
    cases r with
    | ok a =>
      obtain ⟨hmid, hrest⟩ := hf a s₁ x s' hrun hclean
      obtain ⟨hstart, hfirst⟩ := hc s a s₁ hms hmid
      exact ⟨hstart, hrest s.view hfirst⟩
    | error y =>
      cases hrun
      exact hm s x s' hms hclean

theorem aborts_writeAll {ws : List (D → Option D)} :
    Aborts (writeAll ws : Session D ε Unit) E := by
  induction ws generalizing E with
  | nil => exact aborts_pure
  | cons w ws ih => exact aborts_write.bind commits_write fun _ => ih

/-- A handler that may return takes over the rows the body leaves. -/
theorem Commits.catch {handler : Exn ε → Session D ε α} (hm : Commits m R) (ha : Aborts m E)
    (hh : ∀ x, Commits (handler x) fun d₁ a d' => ∀ d, E d x d₁ → R d a d') :
    Commits (Session.tryCatch m handler) R := by
  intro s a s' hrun hclean
  unfold Session.tryCatch at hrun
  cases hms : m s with
  | mk r s₁ =>
    rw [hms] at hrun
    cases r with
    | ok b =>
      cases hrun
      exact hm s a s' hms hclean
    | error x =>
      obtain ⟨hmid, hrest⟩ := hh x s₁ a s' hrun hclean
      obtain ⟨hstart, hE⟩ := ha s x s₁ hms hmid
      exact ⟨hstart, hrest s.view hE⟩

end

/-! ## What every path of a body respects -/

/-- Whether the body returns or raises: if it leaves a session that can still be
    committed, the rows it found and those it leaves are related by `R`. -/
def Respects (R : D → D → Prop) (m : Session D ε α) : Prop :=
  ∀ s r s', m s = (r, s') → s'.Clean → s.Clean ∧ R s.view s'.view

section
variable {R : D → D → Prop} [IsPreorder D R] {m : Session D ε α} {f : α → Session D ε β} {a : α}

theorem respects_pure : Respects R (Pure.pure a : Session D ε α) := by
  rintro s _ _ ⟨⟩ hclean
  exact ⟨hclean, refl_of R _⟩

theorem respects_ofExcept {r : Except ε α} : Respects R (ofExcept r : Session D ε α) := by
  cases r <;>
  · rintro s _ _ ⟨⟩ hclean
    exact ⟨hclean, refl_of R _⟩

theorem respects_raise {e : ε} : Respects R (raise e : Session D ε α) := by
  rintro s _ _ ⟨⟩ hclean
  exact ⟨hclean, refl_of R _⟩

theorem respects_flush : Respects R (flush : Session D ε Unit) := by
  intro s r s' hrun hclean
  cases r with
  | ok _ =>
    obtain ⟨hstart, hview⟩ := commits_flush s () s' hrun hclean
    exact ⟨hstart, hview ▸ refl_of R _⟩
  | error x => exact (aborts_flush : Aborts _ fun d _ d' => R d d') s x s' hrun hclean

theorem respects_select {q : D → α} : Respects R (select q : Session D ε α) := by
  intro s r s' hrun hclean
  cases r with
  | ok b =>
    obtain ⟨hstart, -, hview⟩ := commits_select s b s' hrun hclean
    exact ⟨hstart, hview ▸ refl_of R _⟩
  | error x => exact (aborts_select : Aborts _ fun d _ d' => R d d') s x s' hrun hclean

theorem respects_inspect {q : D → α} : Respects R (inspect q : Session D ε α) := by
  rintro s _ _ ⟨⟩ hclean
  exact ⟨hclean, refl_of R _⟩

omit [IsPreorder D R] in
theorem respects_write {w : D → Option D} (h : ∀ d d', w d = some d' → R d d') :
    Respects R (write w : Session D ε Unit) := by
  intro s r s' hrun hclean
  cases r with
  | ok _ =>
    obtain ⟨hstart, hview⟩ := commits_write s () s' hrun hclean
    exact ⟨hstart, h _ _ hview⟩
  | error x => exact (aborts_write : Aborts _ fun d _ d' => R d d') s x s' hrun hclean

omit [IsPreorder D R] in
theorem respects_update {w : D → D} (h : ∀ d, R d (w d)) :
    Respects R (update w : Session D ε Unit) :=
  respects_write fun d _ heq => Option.some.inj heq ▸ h d

theorem Respects.bind (hm : Respects R m) (hf : ∀ a, Respects R (f a)) : Respects R (m >>= f) := by
  intro s r s' hrun hclean
  rw [run_bind] at hrun
  cases hms : m s with
  | mk r₁ s₁ =>
    rw [hms] at hrun
    cases r₁ with
    | ok a =>
      obtain ⟨hmid, hrest⟩ := hf a s₁ r s' hrun hclean
      obtain ⟨hstart, hfirst⟩ := hm s _ s₁ hms hmid
      exact ⟨hstart, trans_of R hfirst hrest⟩
    | error x =>
      cases hrun
      exact hm s _ s' hms hclean

theorem Respects.tryCatch {handler : Exn ε → Session D ε α} (hm : Respects R m)
    (hh : ∀ x, Respects R (handler x)) : Respects R (Session.tryCatch m handler) := by
  intro s r s' hrun hclean
  unfold Session.tryCatch at hrun
  cases hms : m s with
  | mk r₁ s₁ =>
    rw [hms] at hrun
    cases r₁ with
    | ok a =>
      cases hrun
      exact hm s _ s' hms hclean
    | error x =>
      obtain ⟨hmid, hrest⟩ := hh x s₁ r s' hrun hclean
      obtain ⟨hstart, hfirst⟩ := hm s _ s₁ hms hmid
      exact ⟨hstart, trans_of R hfirst hrest⟩

omit [IsPreorder D R] in
theorem Respects.commits (hm : Respects R m) : Commits m fun d _ d' => R d d' :=
  fun s _ s' hrun hclean => hm s _ s' hrun hclean

/-- A transaction commits what its body respects, or nothing. -/
theorem Respects.transaction (hm : Respects R m) (db : D) : R db (Session.transaction m db).2 := by
  rcases hm.commits.commit db with hback | ⟨a, ha⟩
  · rw [hback]
    exact refl_of R _
  · exact ha

end

/-! ## What a body leaves, whatever comes of it

What is outside the database stays, so of it something has to hold also when a flush has
failed and nothing can be committed. -/

/-- However the body ends, the rows it found and those it leaves are related by `R`. -/
def Leaves (R : D → D → Prop) (m : Session D ε α) : Prop :=
  ∀ s, R s.view (m s).2.view

section
variable {R : D → D → Prop} [IsPreorder D R] {m : Session D ε α} {f : α → Session D ε β} {a : α}

theorem leaves_pure : Leaves R (Pure.pure a : Session D ε α) := fun _ => refl_of R _

theorem leaves_raise {e : ε} : Leaves R (raise e : Session D ε α) := fun _ => refl_of R _

theorem leaves_throw {x : Exn ε} : Leaves R (throw x : Session D ε α) := fun _ => refl_of R _

theorem leaves_ofExcept {r : Except ε α} : Leaves R (ofExcept r : Session D ε α) := by
  cases r with
  | ok a => exact leaves_pure
  | error e => exact leaves_raise

theorem leaves_inspect {q : D → α} : Leaves R (inspect q : Session D ε α) := fun _ => refl_of R _

theorem leaves_flush : Leaves R (flush : Session D ε Unit) := by
  intro s
  unfold flush
  split
  · exact refl_of R _
  · split <;> exact refl_of R _

theorem leaves_select {q : D → α} : Leaves R (select q : Session D ε α) := by
  intro s
  have hflush := leaves_flush (R := R) (ε := ε) s
  unfold select
  split <;> rename_i heq <;> rwa [heq] at hflush

theorem leaves_write {w : D → Option D} (h : ∀ d d', w d = some d' → R d d') :
    Leaves R (write w : Session D ε Unit) := by
  intro s
  unfold write
  split
  · rename_i view hview
    exact h _ _ hview
  · exact refl_of R _

omit [IsPreorder D R] in
theorem leaves_update {w : D → D} (h : ∀ d, R d (w d)) : Leaves R (update w : Session D ε Unit) :=
  fun s => h s.view

theorem Leaves.bind (hm : Leaves R m) (hf : ∀ a, Leaves R (f a)) : Leaves R (m >>= f) := by
  intro s
  have hfirst := hm s
  rw [run_bind]
  cases hms : m s with
  | mk r s₁ =>
    rw [hms] at hfirst
    cases r with
    | ok a => exact trans_of R hfirst (hf a s₁)
    | error x => exact hfirst

theorem Leaves.tryCatch {handler : Exn ε → Session D ε α} (hm : Leaves R m)
    (hh : ∀ x, Leaves R (handler x)) : Leaves R (Session.tryCatch m handler) := by
  intro s
  have hfirst := hm s
  unfold Session.tryCatch
  cases hms : m s with
  | mk r s₁ =>
    rw [hms] at hfirst
    cases r with
    | ok a => exact hfirst
    | error x => exact trans_of R hfirst (hh x s₁)

/-- A roll back that keeps the relation makes it one of the whole transaction. -/
theorem Leaves.transactionWith {undo : D → D → D} (hm : Leaves R m)
    (hundo : ∀ d d', R d d' → R d (undo d d')) (db : D) : R db (transactionWith undo m db).2 := by
  have hbody := hm ⟨db, false, false⟩
  unfold Session.transactionWith
  cases hrun : m ⟨db, false, false⟩ with
  | mk r s =>
    rw [hrun] at hbody
    cases r with
    | error x => exact hundo db s.view hbody
    | ok a =>
      have hend : R db (flush (ε := ε) s).2.view := trans_of R hbody (leaves_flush s)
      dsimp only
      split <;> rename_i hflush <;> rw [hflush] at hend
      · exact hend
      · exact hundo db _ hend

end

/-! ## Bodies that return -/

/-- Run against the rows `d` the body returns, with nothing refused. -/
def Returns (m : Session D ε α) (d : D) : Prop :=
  ∃ a d', m ⟨d, false, false⟩ = (.ok a, ⟨d', false, false⟩)

section
variable {m : Session D ε α} {f : α → Session D ε β} {a : α} {R : D → α → D → Prop} {d : D}

theorem returns_pure : Returns (Pure.pure a : Session D ε α) d := ⟨a, d, rfl⟩

theorem returns_flush : Returns (flush : Session D ε Unit) d := ⟨(), d, rfl⟩

theorem returns_update {w : D → D} : Returns (update w : Session D ε Unit) d := ⟨(), w d, rfl⟩

theorem returns_write {w : D → Option D} (h : (w d).isSome) :
    Returns (write w : Session D ε Unit) d := by
  obtain ⟨d', hd'⟩ := Option.isSome_iff_exists.mp h
  exact ⟨(), d', run_write hd'⟩

/-- The second body has to return where the first can leave it. -/
theorem Returns.bind (hm : Returns m d) (hc : Commits m R)
    (hf : ∀ a d', R d a d' → Returns (f a) d') : Returns (m >>= f) d := by
  obtain ⟨a, d₁, hrun⟩ := hm
  obtain ⟨b, d₂, hrest⟩ := hf a d₁ (hc _ _ _ hrun ⟨rfl, rfl⟩).2
  exact ⟨b, d₂, by rw [run_bind, hrun]; exact hrest⟩

theorem Returns.select {q : D → β} {f : β → Session D ε α} (hf : Returns (f (q d)) d) :
    Returns (Session.select q >>= f) d := hf

theorem Returns.tryCatch {handler : Exn ε → Session D ε α} (hm : Returns m d) :
    Returns (Session.tryCatch m handler) d := by
  obtain ⟨a, d', hrun⟩ := hm
  exact ⟨a, d', by rw [Session.tryCatch, hrun]⟩

theorem Returns.transaction (hm : Returns m d) : ∃ a, (Session.transaction m d).1 = .ok a := by
  obtain ⟨a, d', hrun⟩ := hm
  exact ⟨a, by rw [transaction_ok hrun]⟩

/-- A transaction that returns whenever `P` holds: it commits what its body does, or `P` fails
    and it leaves the rows as they were. -/
theorem Commits.total {P : Prop} (hm : Commits m R)
    (hreturns : P → ∃ a, (Session.transaction m d).1 = .ok a) :
    (∃ a d', Session.transaction m d = (.ok a, d') ∧ R d a d') ∨
      ¬ P ∧ ∃ x, Session.transaction m d = (.error x, d) := by
  cases hrun : Session.transaction m d with
  | mk r d' =>
    rw [hrun] at hreturns
    cases r with
    | ok a => exact .inl ⟨a, d', rfl, hm.transaction hrun⟩
    | error x =>
      have hback : (Session.transaction m d).2 = d := transaction_rollback (x := x) (by rw [hrun])
      rw [hrun] at hback
      refine .inr ⟨fun hp => ?_, x, by rw [← hback]⟩
      obtain ⟨a, hreturn⟩ := hreturns hp
      cases hreturn

end

end Session
