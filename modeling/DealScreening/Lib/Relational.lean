-- SUMMARY: Two sessions in step: rules for bodies that give the same answer on related databases and leave related databases.
import DealScreening.Lib.Session

/-!
# Two sessions in step

Two bodies run on two databases, statement by statement. `Together P m m' Q E` says
that from databases related by `P` both return the same value and leave databases
related by `Q`, or both raise the same exception and leave databases related by `E`,
with the same pending failures.
-/

namespace Session

variable {D D' ε α β : Type}

/-- What relates the databases after a result. -/
def after (Q : α → D → D' → Prop) (E : D → D' → Prop) : Except (Exn ε) α → D → D' → Prop
  | .ok a => Q a
  | .error _ => E

def Together (P : D → D' → Prop) (m : Session D ε α) (m' : Session D' ε α)
    (Q : α → D → D' → Prop) (E : D → D' → Prop) : Prop :=
  ∀ s s', P s.view s'.view → s'.refused = s.refused → s'.failed = s.failed →
    ∃ r t t', m s = (r, t) ∧ m' s' = (r, t') ∧ t'.refused = t.refused ∧ t'.failed = t.failed ∧
      after Q E r t.view t'.view

section
variable {P : D → D' → Prop} {m : Session D ε α} {m' : Session D' ε α} {Q : α → D → D' → Prop}
  {E : D → D' → Prop} {a : α}

theorem together_pure (h : ∀ d d', P d d' → Q a d d') :
    Together P (Pure.pure a : Session D ε α) (Pure.pure a : Session D' ε α) Q E :=
  fun s s' hP hrefused hfailed => ⟨.ok a, s, s', rfl, rfl, hrefused, hfailed, h _ _ hP⟩

theorem together_throw {x : Exn ε} (h : ∀ d d', P d d' → E d d') :
    Together P (throw x : Session D ε α) (throw x : Session D' ε α) Q E :=
  fun s s' hP hrefused hfailed => ⟨.error x, s, s', rfl, rfl, hrefused, hfailed, h _ _ hP⟩

theorem together_raise {e : ε} (h : ∀ d d', P d d' → E d d') :
    Together P (raise e : Session D ε α) (raise e : Session D' ε α) Q E :=
  together_throw h

theorem together_ofExcept {r : Except ε α} (hok : ∀ a, r = .ok a → ∀ d d', P d d' → Q a d d')
    (herror : ∀ d d', P d d' → E d d') :
    Together P (ofExcept r : Session D ε α) (ofExcept r : Session D' ε α) Q E := by
  cases r with
  | ok a => exact together_pure (hok a rfl)
  | error e => exact together_raise herror

theorem together_flush (h : ∀ d d', P d d' → E d d') :
    Together P (flush : Session D ε Unit) (flush : Session D' ε Unit) (fun _ => P) E := by
  intro s s' hP hrefused hfailed
  unfold flush
  rw [hrefused, hfailed]
  split
  · exact ⟨_, _, _, rfl, rfl, hrefused, hfailed, h _ _ hP⟩
  · split
    · exact ⟨_, _, _, rfl, rfl, rfl, rfl, h _ _ hP⟩
    · exact ⟨_, _, _, rfl, rfl, hrefused, hfailed, hP⟩

/-- A query that gives the same answer on related databases. -/
theorem together_select {q : D → α} {q' : D' → α} (hq : ∀ d d', P d d' → q' d' = q d)
    (h : ∀ d d', P d d' → E d d') :
    Together P (select q : Session D ε α) (select q') (fun a d d' => P d d' ∧ a = q d) E := by
  intro s s' hP hrefused hfailed
  obtain ⟨r, t, t', hflush, hflush', hrefused', hfailed', hafter⟩ :=
    @together_flush _ _ ε _ _ h s s' hP hrefused hfailed
  unfold select
  rw [hflush, hflush']
  cases r with
  | ok u =>
    refine ⟨.ok (q t.view), t, t', rfl, ?_, hrefused', hfailed', hafter, rfl⟩
    rw [← hq _ _ hafter]
  | error x => exact ⟨.error x, t, t', rfl, rfl, hrefused', hfailed', hafter⟩

/-- Two writes that are both accepted and leave related databases, or both refused. -/
theorem together_write {w : D → Option D} {w' : D' → Option D'} {Q : D → D' → Prop}
    (h : ∀ d d', P d d' → (∃ e e', w d = some e ∧ w' d' = some e' ∧ Q e e') ∨
      (w d = none ∧ w' d' = none ∧ Q d d')) :
    Together P (write w : Session D ε Unit) (write w') (fun _ => Q) E := by
  intro s s' hP hrefused hfailed
  rcases h _ _ hP with ⟨e, e', hw, hw', hQ⟩ | ⟨hw, hw', hQ⟩
  · exact ⟨.ok (), { s with view := e }, { s' with view := e' }, by simp only [write, hw],
      by simp only [write, hw'], hrefused, hfailed, hQ⟩
  · exact ⟨.ok (), { s with refused := true }, { s' with refused := true }, by simp only [write, hw],
      by simp only [write, hw'], rfl, hfailed, hQ⟩

theorem together_update {w : D → D} {w' : D' → D'} {Q : D → D' → Prop}
    (h : ∀ d d', P d d' → Q (w d) (w' d')) :
    Together P (update w : Session D ε Unit) (update w') (fun _ => Q) E :=
  together_write fun d d' hP => .inl ⟨_, _, rfl, rfl, h d d' hP⟩

theorem together_writeAll {ws : List α} {w : α → D → Option D} {w' : α → D' → Option D'}
    (h : ∀ a ∈ ws, ∀ d d', P d d' → (∃ e e', w a d = some e ∧ w' a d' = some e' ∧ P e e') ∨
      (w a d = none ∧ w' a d' = none)) :
    Together P (writeAll (ws.map w) : Session D ε Unit) (writeAll (ws.map w')) (fun _ => P) E := by
  induction ws with
  | nil => exact together_pure fun _ _ hP => hP
  | cons a ws ih =>
    intro s s' hP hrefused hfailed
    have hwrite : Together P (write (w a) : Session D ε Unit) (write (w' a)) (fun _ => P) E :=
      together_write fun d d' hP => (h a (List.mem_cons_self ..) d d' hP).imp id fun hnone =>
        ⟨hnone.1, hnone.2, hP⟩
    obtain ⟨r, t, t', hw, hw', hrefused', hfailed', hafter⟩ := hwrite s s' hP hrefused hfailed
    simp only [List.map_cons, writeAll, Session.bind, hw, hw']
    cases r with
    | ok u =>
      exact ih (fun b hb => h b (List.mem_cons_of_mem a hb)) t t' hafter hrefused' hfailed'
    | error x => exact ⟨.error x, t, t', rfl, rfl, hrefused', hfailed', hafter⟩

theorem Together.weaken {P' : D → D' → Prop} {Q' : α → D → D' → Prop} {E' : D → D' → Prop}
    (h : Together P m m' Q E) (hP : ∀ d d', P' d d' → P d d')
    (hQ : ∀ a d d', Q a d d' → Q' a d d') (hE : ∀ d d', E d d' → E' d d') :
    Together P' m m' Q' E' := by
  intro s s' hP' hrefused hfailed
  obtain ⟨r, t, t', hm, hm', hrefused', hfailed', hafter⟩ := h s s' (hP _ _ hP') hrefused hfailed
  refine ⟨r, t, t', hm, hm', hrefused', hfailed', ?_⟩
  cases r with
  | ok a => exact hQ a _ _ hafter
  | error x => exact hE _ _ hafter

theorem Together.bind {f : α → Session D ε β} {f' : α → Session D' ε β} {Q' : β → D → D' → Prop}
    (h : Together P m m' Q E) (hf : ∀ a, Together (Q a) (f a) (f' a) Q' E) :
    Together P (m >>= f) (m' >>= f') Q' E := by
  intro s s' hP hrefused hfailed
  obtain ⟨r, t, t', hm, hm', hrefused', hfailed', hafter⟩ := h s s' hP hrefused hfailed
  rw [run_bind, run_bind, hm, hm']
  cases r with
  | ok a => exact hf a t t' hafter hrefused' hfailed'
  | error x => exact ⟨.error x, t, t', rfl, rfl, hrefused', hfailed', hafter⟩

theorem Together.tryCatch {handler : Exn ε → Session D ε α} {handler' : Exn ε → Session D' ε α}
    {E' : D → D' → Prop} (h : Together P m m' Q E)
    (hh : ∀ x, Together E (handler x) (handler' x) Q E') :
    Together P (Session.tryCatch m handler) (Session.tryCatch m' handler') Q E' := by
  intro s s' hP hrefused hfailed
  obtain ⟨r, t, t', hm, hm', hrefused', hfailed', hafter⟩ := h s s' hP hrefused hfailed
  unfold Session.tryCatch
  rw [hm, hm']
  cases r with
  | ok a => exact ⟨.ok a, t, t', rfl, rfl, hrefused', hfailed', hafter⟩
  | error x => exact hh x t t' hafter hrefused' hfailed'

/-- Two transactions answer alike. What they leave is related as after the bodies, if the
    databases were. -/
theorem Together.transaction_of {R : D → D' → Prop} {db : D} {db' : D'}
    (h : Together P m m' (fun _ => R) E) (hP : P db db') (hR : R db db') :
    (Session.transaction m db).1 = (Session.transaction m' db').1 ∧
      R (Session.transaction m db).2 (Session.transaction m' db').2 := by
  obtain ⟨r, t, t', hm, hm', hrefused, hfailed, hafter⟩ :=
    h ⟨db, false, false⟩ ⟨db', false, false⟩ hP rfl rfl
  unfold Session.transaction
  rw [hm, hm']
  cases r with
  | error x => exact ⟨rfl, hR⟩
  | ok a =>
    obtain ⟨r, u, u', hflush, hflush', -, -, hafter'⟩ :=
      @together_flush _ _ ε R R (fun _ _ h => h) t t' hafter hrefused hfailed
    simp only [hflush, hflush']
    cases r with
    | ok _ => exact ⟨rfl, hafter'⟩
    | error x => exact ⟨rfl, hR⟩

/-- Two transactions answer alike and leave related databases. -/
theorem Together.transaction {db : D} {db' : D'} (h : Together P m m' (fun _ => P) E)
    (hP : P db db') :
    (Session.transaction m db).1 = (Session.transaction m' db').1 ∧
      P (Session.transaction m db).2 (Session.transaction m' db').2 :=
  h.transaction_of hP hP

/-- The same with a part outside the database, when the roll back relates what it leaves. -/
theorem Together.transactionWith {undo : D → D → D} {undo' : D' → D' → D'} {db : D} {db' : D'}
    (h : Together P m m' (fun _ => P) E) (hP : P db db')
    (hundo : ∀ d d', P (undo db d) (undo' db' d')) :
    (Session.transactionWith undo m db).1 = (Session.transactionWith undo' m' db').1 ∧
      P (Session.transactionWith undo m db).2 (Session.transactionWith undo' m' db').2 := by
  obtain ⟨r, t, t', hm, hm', hrefused, hfailed, hafter⟩ :=
    h ⟨db, false, false⟩ ⟨db', false, false⟩ hP rfl rfl
  unfold Session.transactionWith
  rw [hm, hm']
  cases r with
  | error x => exact ⟨rfl, hundo _ _⟩
  | ok a =>
    obtain ⟨r, u, u', hflush, hflush', -, -, hafter'⟩ :=
      @together_flush _ _ ε P P (fun _ _ h => h) t t' hafter hrefused hfailed
    simp only [hflush, hflush']
    cases r with
    | ok _ => exact ⟨rfl, hafter'⟩
    | error x => exact ⟨rfl, hundo _ _⟩

end

end Session
