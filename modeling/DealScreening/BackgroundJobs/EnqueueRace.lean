-- SUMMARY: Concurrent enqueue calls, statement by statement: committed rows never share an idempotency key, and a call fails exactly when its SELECT comes after a drop of the row its INSERT met.
import DealScreening.BackgroundJobs.Worker

/-!
# Concurrent enqueue calls

Any number of READ COMMITTED transactions call `enqueue`, each as often as it likes
and with any arguments, next to the slots and the reaper of `Worker` and the two
admin commands. The conflict branch of `enqueue` is two statements: an `INSERT` that
does nothing, and a `SELECT` of the row that was in its way. The `SELECT` takes no
notice of what the `INSERT` saw.

The rows of the slots, the reaper and `drop_job` change in one step each, as in
`Worker`: an `INSERT` that meets a key waits for every transaction that holds it or
deletes it, and nobody else writes a key.
-/

namespace EnqueueRace

open Queue

variable {P : Type}

-- ---------------------------------------------------------------------------
-- Keys
-- ---------------------------------------------------------------------------

/-- The columns of `uq_idempotency`. Rows without a key never collide. -/
def keyOf (job : BackgroundJob P) : Option (String × String) :=
  job.idempotencyKey.map fun key => (job.jobType, key)

def heldKeys (jobs : Jobs P) : List (String × String) := jobs.filterMap keyOf

/-- `uq_idempotency`: no two rows share `(job_type, idempotency_key)`. -/
def UniqueKeys (jobs : Jobs P) : Prop := (heldKeys jobs).Nodup

/-- `WHERE job_type = … AND idempotency_key = …`. -/
def withKey (jobType key : String) (jobs : Jobs P) : Jobs P :=
  jobs.filter fun job => keyOf job = some (jobType, key)

section
variable {jobs jobs' : Jobs P} {job : BackgroundJob P} {jobType key jobId : String}
  {f : BackgroundJob P → BackgroundJob P}

theorem keyOf_eq_some :
    keyOf job = some (jobType, key) ↔ job.jobType = jobType ∧ job.idempotencyKey = some key := by
  cases h : job.idempotencyKey <;> simp [keyOf, h]

theorem heldKeys_append : heldKeys (jobs ++ jobs') = heldKeys jobs ++ heldKeys jobs' :=
  List.filterMap_append

theorem mem_heldKeys : (jobType, key) ∈ heldKeys jobs ↔
    ∃ job ∈ jobs, job.jobType = jobType ∧ job.idempotencyKey = some key := by
  simp [heldKeys, List.mem_filterMap, keyOf_eq_some]

theorem heldKeys_map (hf : ∀ job, keyOf (f job) = keyOf job) :
    heldKeys (jobs.map f) = heldKeys jobs := by
  rw [heldKeys, List.filterMap_map]
  exact List.filterMap_congr fun job _ => hf job

theorem heldKeys_set (hf : ∀ job, keyOf (f job) = keyOf job) :
    heldKeys (set jobs jobId f) = heldKeys jobs :=
  heldKeys_map fun job => by split <;> simp [hf]

theorem heldKeys_drop : (heldKeys (drop jobs jobId)).Sublist (heldKeys jobs) :=
  List.filter_sublist.filterMap keyOf

theorem idempotentHit_isSome :
    (idempotentHit jobs jobType (some key)).isSome ↔ (jobType, key) ∈ heldKeys jobs := by
  simp [idempotentHit, mem_heldKeys]

/-- Unique keys make a query by key find at most one row. -/
theorem withKey_eq_singleton (hunique : UniqueKeys jobs) (hheld : (jobType, key) ∈ heldKeys jobs) :
    ∃ job, withKey jobType key jobs = [job] := by
  induction jobs with
  | nil => cases hheld
  | cons first jobs ih =>
    rw [UniqueKeys, heldKeys, List.filterMap_cons] at hunique
    rw [heldKeys, List.filterMap_cons] at hheld
    cases hkey : keyOf first with
    | none =>
      simp only [hkey] at hunique hheld
      obtain ⟨job, hjob⟩ := ih hunique hheld
      exact ⟨job, by simpa [withKey, hkey] using hjob⟩
    | some pair =>
      simp only [hkey, List.nodup_cons, List.mem_cons] at hunique hheld
      by_cases hpair : pair = (jobType, key)
      · have hrest : withKey jobType key jobs = [] := by
          refine List.filter_eq_nil_iff.mpr fun job hjob hmatch => hunique.1 ?_
          exact List.mem_filterMap.mpr ⟨job, hjob, by rw [hpair]; exact of_decide_eq_true hmatch⟩
        refine ⟨first, ?_⟩
        rw [withKey, List.filter_cons_of_pos (by simp [hkey, hpair])]
        exact congrArg (first :: ·) hrest
      · obtain ⟨job, hjob⟩ := ih hunique.2 (hheld.resolve_left (Ne.symm hpair))
        refine ⟨job, ?_⟩
        rw [withKey, List.filter_cons_of_neg (by simp [hkey, hpair])]
        exact hjob

end

-- ---------------------------------------------------------------------------
-- The system
-- ---------------------------------------------------------------------------

/-- The arguments of a call, with the id it draws. -/
structure Call (P : Type) where
  jobId : String
  jobType : String
  payload : P
  idempotencyKey : Option String
  traceContext : Option String
  tenantId : Option String
  notBefore : Option Time
  deriving DecidableEq

/-- What `scalar_one` raises. -/
inductive ScalarError where
  | noResultFound
  | multipleResultsFound
  deriving DecidableEq, Repr

/-- `scalar_one` of the ids of the rows found. -/
def scalarOne : Jobs P → Except ScalarError String
  | [] => .error .noResultFound
  | [job] => .ok job.jobId
  | _ => .error .multipleResultsFound

/-- A call that has ended: the key it was for, what its last statement left or found
    committed and in its own transaction, and the id it returned or what it raised. -/
structure Called (P : Type) where
  jobType : String
  idempotencyKey : Option String
  committed : Jobs P
  own : Jobs P
  answer : Except ScalarError String
  deriving DecidableEq

inductive Phase where
  /-- Between two calls, also after one that raised. -/
  | ready
  /-- The `INSERT` of a call has inserted nothing, its `SELECT` is next. -/
  | conflicted (jobType key : String)
  | committed
  | aborted
  deriving DecidableEq, Repr

/-- A transaction, with the rows it has inserted while they are its own only. -/
structure Tx (P : Type) where
  phase : Phase
  rows : Jobs P
  calls : List (Called P)
  deriving DecidableEq

def Tx.new : Tx P := ⟨.ready, [], []⟩

/-- `worker` holds the committed rows. -/
structure St (P : Type) where
  worker : Worker.St P
  txs : List (Tx P)

def init : St P := ⟨Worker.init, []⟩

inductive Act (P : Type) where
  | begin
  /-- The `INSERT` of an `enqueue`. -/
  | insert (i : Nat) (call : Call P)
  /-- `retry_job`: the dead-lettered job is read, and enqueued as a new one. -/
  | retryJob (i : Nat) (jobId newId : String)
  /-- The `SELECT` of the conflict branch. -/
  | select (i : Nat)
  | commit (i : Nat)
  | abort (i : Nat)
  /-- A step of a slot or the reaper, or `drop_job`. -/
  | job (a : Worker.Act P)
  deriving DecidableEq

/-- The call of `retry_job`. It passes no idempotency key. -/
def retryCall (newId : String) (job : BackgroundJob P) : Call P :=
  { jobId := newId, jobType := job.jobType, payload := job.payload, idempotencyKey := none,
    traceContext := job.traceContext, tenantId := job.tenantId, notBefore := none }

/-- The step of `Worker` that the statements here spell out. -/
def enqueues : Worker.Act P → Bool
  | .enqueue .. => true
  | _ => false

namespace St

def setTx (s : St P) (i : Nat) (tx : Tx P) : St P := { s with txs := s.txs.set i tx }

def setJobs (s : St P) (jobs : Jobs P) : St P := { s with worker := { s.worker with jobs } }

def issue (s : St P) (jobId : String) : St P :=
  { s with worker := { s.worker with issued := jobId :: s.worker.issued } }

/-- Another transaction has inserted the key and not ended. -/
def heldByOther (s : St P) (i : Nat) (jobType : String) (idempotencyKey : Option String) : Bool :=
  s.txs.zipIdx.any fun (tx, j) => j ≠ i ∧ (idempotentHit tx.rows jobType idempotencyKey).isSome

end St

section
variable [Payload P]

/-- The `INSERT` of a call. With a key it waits while another transaction holds the
    key, and inserts nothing when the key is in use; then the `SELECT` is next. -/
def insert (registry : Registry P) (s : St P) (i : Nat) (tx : Tx P) (call : Call P) :
    Option (St P) :=
  match enqueue registry s.worker.clock call.jobId call.jobType call.payload call.idempotencyKey
      call.traceContext call.tenantId call.notBefore with
  | .error _ => none
  | .ok job =>
    if call.jobId ∈ s.worker.issued ∨ s.heldByOther i call.jobType call.idempotencyKey then none
    else match call.idempotencyKey, idempotentHit (s.worker.jobs ++ tx.rows) call.jobType
        call.idempotencyKey with
    | some key, some _ =>
      some ((s.issue call.jobId).setTx i { tx with phase := .conflicted call.jobType key })
    | _, _ =>
      some ((s.issue call.jobId).setTx i
        { tx with
          rows := tx.rows ++ [job]
          calls := tx.calls ++ [⟨call.jobType, call.idempotencyKey, s.worker.jobs,
            tx.rows ++ [job], .ok call.jobId⟩] })

/-- One statement of one transaction, or one step of the workers. A call that is refused
    before its first statement, for its job type or its payload, is no step. The caller
    of a call that raised may commit or abort. -/
def step (registry : Registry P) (scrubValue : String → String) (s : St P) :
    Act P → Option (St P)
  | .begin => some { s with txs := s.txs ++ [Tx.new] }
  | .insert i call =>
    match s.txs[i]? with
    | some tx => if tx.phase = .ready then insert registry s i tx call else none
    | none => none
  | .retryJob i jobId newId =>
    match s.txs[i]?, find s.worker.jobs jobId with
    | some tx, some job =>
      if tx.phase = .ready ∧ job.state = .deadLettered then
        insert registry s i tx (retryCall newId job)
      else none
    | _, _ => none
  | .select i =>
    match s.txs[i]? with
    | some tx =>
      match tx.phase with
      | .conflicted jobType key =>
        some (s.setTx i
          { tx with
            phase := .ready
            calls := tx.calls ++ [⟨jobType, some key, s.worker.jobs, tx.rows,
              scalarOne (withKey jobType key (s.worker.jobs ++ tx.rows))⟩] })
      | _ => none
    | none => none
  | .commit i =>
    match s.txs[i]? with
    | some tx =>
      if tx.phase = .ready then
        some ((s.setJobs (s.worker.jobs ++ tx.rows)).setTx i
          { tx with phase := .committed, rows := [] })
      else none
    | none => none
  | .abort i =>
    match s.txs[i]? with
    | some tx =>
      if tx.phase = .committed then none
      else some (s.setTx i { tx with phase := .aborted, rows := [] })
    | none => none
  | .job a =>
    if enqueues a then none
    else (Worker.step registry scrubValue s.worker a).map fun worker => { s with worker }

end

-- ---------------------------------------------------------------------------
-- What a step does
-- ---------------------------------------------------------------------------

/-- What a step leaves. `retry_job` and `enqueue` insert the same way. -/
inductive Move [Payload P] (registry : Registry P) (scrubValue : String → String) (s : St P) :
    Act P → St P → Prop where
  | begun : Move registry scrubValue s .begin { s with txs := s.txs ++ [Tx.new] }
  | conflicted {a : Act P} {i : Nat} {tx : Tx P} {jobId jobType key : String}
      (ha : ∀ j, a ≠ .select j) (htx : s.txs[i]? = some tx) (hready : tx.phase = .ready)
      (hheld : (jobType, key) ∈ heldKeys (s.worker.jobs ++ tx.rows)) :
    Move registry scrubValue s a
      ((s.issue jobId).setTx i { tx with phase := .conflicted jobType key })
  | inserted {a : Act P} {i : Nat} {tx : Tx P} {job : BackgroundJob P}
      (ha : ∀ j, a ≠ .select j) (htx : s.txs[i]? = some tx) (hready : tx.phase = .ready)
      (hfree : ∀ k ∈ keyOf job, k ∉ heldKeys (s.worker.jobs ++ tx.rows))
      (hothers : ∀ k ∈ keyOf job, ∀ (j : Nat) (tx' : Tx P), s.txs[j]? = some tx' → j ≠ i →
        k ∉ heldKeys tx'.rows) :
    Move registry scrubValue s a
      ((s.issue job.jobId).setTx i
        { tx with
          rows := tx.rows ++ [job]
          calls := tx.calls ++ [⟨job.jobType, job.idempotencyKey, s.worker.jobs,
            tx.rows ++ [job], .ok job.jobId⟩] })
  | selected {i : Nat} {tx : Tx P} {jobType key : String} (htx : s.txs[i]? = some tx)
      (hphase : tx.phase = .conflicted jobType key) :
    Move registry scrubValue s (.select i)
      (s.setTx i
        { tx with
          phase := .ready
          calls := tx.calls ++ [⟨jobType, some key, s.worker.jobs, tx.rows,
            scalarOne (withKey jobType key (s.worker.jobs ++ tx.rows))⟩] })
  | committed {i : Nat} {tx : Tx P} (htx : s.txs[i]? = some tx) (hready : tx.phase = .ready) :
    Move registry scrubValue s (.commit i)
      ((s.setJobs (s.worker.jobs ++ tx.rows)).setTx i { tx with phase := .committed, rows := [] })
  | aborted {i : Nat} {tx : Tx P} (htx : s.txs[i]? = some tx) :
    Move registry scrubValue s (.abort i) (s.setTx i { tx with phase := .aborted, rows := [] })
  | worked {a : Worker.Act P} {worker : Worker.St P}
      (hkeys : (heldKeys worker.jobs).Sublist (heldKeys s.worker.jobs))
      (hdrop : (∀ jobId, a ≠ .dropJob jobId) → heldKeys worker.jobs = heldKeys s.worker.jobs) :
    Move registry scrubValue s (.job a) { s with worker }

section
variable [Payload P] {registry : Registry P} {scrubValue : String → String} {s t : St P}
  {a : Act P} {i : Nat} {tx : Tx P}

/-- Nobody but an `INSERT` writes a key, and only `drop_job` takes one away. -/
theorem worker_heldKeys {w w' : Worker.St P} {a : Worker.Act P} (hnew : ¬ enqueues a)
    (hstep : Worker.step registry scrubValue w a = some w') :
    (heldKeys w'.jobs).Sublist (heldKeys w.jobs) ∧
      ((∀ jobId, a ≠ .dropJob jobId) → heldKeys w'.jobs = heldKeys w.jobs) := by
  suffices hsame : (∀ jobId, a ≠ .dropJob jobId) → heldKeys w'.jobs = heldKeys w.jobs by
    refine ⟨?_, hsame⟩
    by_cases hdrop : ∃ jobId, a = .dropJob jobId
    · obtain ⟨jobId, rfl⟩ := hdrop
      obtain ⟨_, _, _, rfl⟩ := Worker.dropJob_cases hstep
      exact heldKeys_drop
    · rw [hsame fun jobId h => hdrop ⟨jobId, h⟩]
  intro hdrop
  cases a with
  | enqueue jobId jobType payload idempotencyKey traceContext tenantId notBefore =>
    exact absurd rfl hnew
  | claim slot jobId =>
    obtain ⟨_, _, _, _, rfl⟩ := Worker.claim_cases hstep
    exact heldKeys_set fun _ => rfl
  | markRunning slot =>
    obtain ⟨_, _, _, _, rfl⟩ := Worker.markRunning_cases hstep
    exact heldKeys_set fun _ => rfl
  | handlerStart slot =>
    obtain ⟨_, _, rfl⟩ := Worker.handlerStart_cases hstep
    rfl
  | handlerEnd slot outcome =>
    obtain ⟨_, _, rfl⟩ := Worker.handlerEnd_cases hstep
    rfl
  | markSucceeded slot =>
    obtain ⟨_, _, _, _, rfl⟩ := Worker.markSucceeded_cases hstep
    exact heldKeys_set fun _ => rfl
  | markFailed slot jobId draw =>
    obtain ⟨_, _, _, _, _, _, _, rfl⟩ := Worker.markFailed_cases hstep
    exact heldKeys_set fun _ => rfl
  | reap =>
    cases hstep
    exact heldKeys_map fun job => by split <;> rfl
  | crash slot =>
    cases hstep
    rfl
  | advance d =>
    cases hstep
    rfl
  | dropJob jobId => exact absurd rfl (hdrop jobId)

omit [Payload P] in
theorem not_heldByOther {jobType key : String} (h : s.heldByOther i jobType (some key) = false)
    (j : Nat) (tx : Tx P) (htx : s.txs[j]? = some tx) (hne : j ≠ i) :
    (jobType, key) ∉ heldKeys tx.rows := by
  intro hheld
  have hmem : (tx, j) ∈ s.txs.zipIdx := by
    rw [List.mem_zipIdx_iff_getElem?]
    exact htx
  have hnot := (List.any_eq_false.mp h) (tx, j) hmem
  simp [hne, idempotentHit_isSome.mpr hheld] at hnot

theorem insert_move {call : Call P} (ha : ∀ j, a ≠ .select j) (htx : s.txs[i]? = some tx)
    (hready : tx.phase = .ready) (hinsert : insert registry s i tx call = some t) :
    Move registry scrubValue s a t := by
  unfold insert at hinsert
  cases hjob : enqueue registry s.worker.clock call.jobId call.jobType call.payload
      call.idempotencyKey call.traceContext call.tenantId call.notBefore with
  | error e => simp [hjob] at hinsert
  | ok job =>
    obtain ⟨hid, htype, hkey⟩ : job.jobId = call.jobId ∧ job.jobType = call.jobType ∧
        job.idempotencyKey = call.idempotencyKey := enqueue_columns hjob
    simp only [hjob] at hinsert
    by_cases hwait : call.jobId ∈ s.worker.issued ∨ s.heldByOther i call.jobType call.idempotencyKey
    · simp [hwait] at hinsert
    · rw [if_neg hwait] at hinsert
      rw [not_or, Bool.not_eq_true] at hwait
      have hinserted : (∀ k ∈ keyOf job, k ∉ heldKeys (s.worker.jobs ++ tx.rows)) →
          Move registry scrubValue s a
            ((s.issue call.jobId).setTx i
              { tx with
                rows := tx.rows ++ [job]
                calls := tx.calls ++ [⟨call.jobType, call.idempotencyKey, s.worker.jobs,
                  tx.rows ++ [job], .ok call.jobId⟩] }) := by
        intro hfree
        rw [← hid, ← htype, ← hkey]
        refine .inserted ha htx hready hfree ?_
        rintro ⟨jobType, key⟩ hk j tx' htx' hne
        obtain ⟨rfl, hsome⟩ := keyOf_eq_some.mp hk
        rw [← htype, ← hkey, hsome] at hwait
        exact not_heldByOther hwait.2 j tx' htx' hne
      cases hcall : call.idempotencyKey with
      | none =>
        simp only [hcall, Option.some.injEq] at hinsert
        subst hinsert
        rw [hcall] at hinserted hkey
        exact hinserted fun k hk => by simp [keyOf, hkey] at hk
      | some key =>
        cases hhit : idempotentHit (s.worker.jobs ++ tx.rows) call.jobType (some key) with
        | none =>
          simp only [hcall, hhit, Option.some.injEq] at hinsert
          subst hinsert
          rw [hcall] at hinserted hkey
          refine hinserted fun k hk => ?_
          have hk' : k = (call.jobType, key) := by simpa [keyOf, hkey, htype, eq_comm] using hk
          rw [hk', ← idempotentHit_isSome, hhit]
          exact Bool.false_ne_true
        | some row =>
          simp only [hcall, hhit, Option.some.injEq] at hinsert
          subst hinsert
          exact .conflicted ha htx hready (idempotentHit_isSome.mp (by rw [hhit]; rfl))

theorem step_move (hstep : step registry scrubValue s a = some t) :
    Move registry scrubValue s a t := by
  cases a with
  | begin =>
    cases hstep
    exact .begun
  | insert i call =>
    simp only [step] at hstep
    cases htx : s.txs[i]? with
    | none => simp [htx] at hstep
    | some tx =>
      simp only [htx] at hstep
      by_cases hready : tx.phase = .ready
      · rw [if_pos hready] at hstep
        exact insert_move nofun htx hready hstep
      · simp [hready] at hstep
  | retryJob i jobId newId =>
    simp only [step] at hstep
    cases htx : s.txs[i]? with
    | none => simp [htx] at hstep
    | some tx =>
      cases hjob : find s.worker.jobs jobId with
      | none => simp [htx, hjob] at hstep
      | some job =>
        simp only [htx, hjob] at hstep
        by_cases hready : tx.phase = .ready ∧ job.state = .deadLettered
        · rw [if_pos hready] at hstep
          exact insert_move nofun htx hready.1 hstep
        · simp [hready] at hstep
  | select i =>
    simp only [step] at hstep
    cases htx : s.txs[i]? with
    | none => simp [htx] at hstep
    | some tx =>
      cases hphase : tx.phase with
      | conflicted jobType key =>
        simp only [htx, hphase, Option.some.injEq] at hstep
        subst hstep
        exact .selected htx hphase
      | _ => simp [htx, hphase] at hstep
  | commit i =>
    simp only [step] at hstep
    cases htx : s.txs[i]? with
    | none => simp [htx] at hstep
    | some tx =>
      simp only [htx] at hstep
      by_cases hready : tx.phase = .ready
      · rw [if_pos hready] at hstep
        cases hstep
        exact .committed htx hready
      · simp [hready] at hstep
  | abort i =>
    simp only [step] at hstep
    cases htx : s.txs[i]? with
    | none => simp [htx] at hstep
    | some tx =>
      simp only [htx] at hstep
      by_cases hdone : tx.phase = .committed
      · simp [hdone] at hstep
      · rw [if_neg hdone] at hstep
        cases hstep
        exact .aborted htx
  | job a =>
    simp only [step] at hstep
    by_cases hnew : enqueues a
    · simp [hnew] at hstep
    · rw [if_neg hnew] at hstep
      obtain ⟨worker, hworker, rfl⟩ := Option.map_eq_some_iff.mp hstep
      obtain ⟨hkeys, hdrop⟩ := worker_heldKeys hnew hworker
      exact .worked hkeys hdrop

end

-- ---------------------------------------------------------------------------
-- Keys stay unique
-- ---------------------------------------------------------------------------

/-- Each transaction sees every key once, and no two have inserted the same. -/
structure Keys (s : St P) : Prop where
  seen : ∀ (i : Nat) (tx : Tx P), s.txs[i]? = some tx → UniqueKeys (s.worker.jobs ++ tx.rows)
  apart : ∀ (i j : Nat) (tx tx' : Tx P), s.txs[i]? = some tx → s.txs[j]? = some tx' → i ≠ j →
    ∀ k ∈ heldKeys tx.rows, k ∉ heldKeys tx'.rows
  committed : UniqueKeys s.worker.jobs

section
variable {jobs jobs' rows rows' : Jobs P} {job : BackgroundJob P}

theorem uniqueKeys_append : UniqueKeys (jobs ++ rows) ↔
    UniqueKeys jobs ∧ UniqueKeys rows ∧ ∀ k ∈ heldKeys jobs, k ∉ heldKeys rows := by
  rw [UniqueKeys, heldKeys_append, List.nodup_append]
  refine and_congr_right fun _ => and_congr_right fun _ => ?_
  exact ⟨fun h k hk hk' => h k hk k hk' rfl, fun h k hk k' hk' heq => h k hk (heq ▸ hk')⟩

theorem heldKeys_snoc {k : String × String} :
    k ∈ heldKeys (rows ++ [job]) ↔ k ∈ heldKeys rows ∨ keyOf job = some k := by
  rw [heldKeys_append, List.mem_append]
  simp [heldKeys]

theorem uniqueKeys_snoc (h : UniqueKeys rows) (hfree : ∀ k ∈ keyOf job, k ∉ heldKeys rows) :
    UniqueKeys (rows ++ [job]) := by
  refine uniqueKeys_append.mpr ⟨h, ?_, fun k hk hk' => ?_⟩
  · cases hkey : keyOf job <;> simp [UniqueKeys, heldKeys, hkey]
  · have hkey : keyOf job = some k := by simpa [heldKeys] using hk'
    exact hfree k hkey hk

theorem UniqueKeys.mono (h : UniqueKeys (jobs ++ rows))
    (hsub : (heldKeys jobs').Sublist (heldKeys jobs)) : UniqueKeys (jobs' ++ rows) := by
  rw [UniqueKeys, heldKeys_append] at h ⊢
  exact h.sublist (hsub.append_right _)

theorem UniqueKeys.left (h : UniqueKeys (jobs ++ rows)) : UniqueKeys jobs :=
  (uniqueKeys_append.mp h).1

theorem uniqueKeys_append_nil (h : UniqueKeys jobs) : UniqueKeys (jobs ++ []) := by
  rwa [List.append_nil]

end

section
variable {s t : St P} {i : Nat} {tx new : Tx P}

/-- Replacing a transaction whose rows are of no concern to the others. -/
theorem Keys.setTx (h : Keys s) (htx : s.txs[i]? = some tx)
    (hseen : UniqueKeys (s.worker.jobs ++ new.rows))
    (hapart : ∀ k ∈ heldKeys new.rows, k ∈ heldKeys tx.rows ∨
      ∀ (j : Nat) (tx' : Tx P), s.txs[j]? = some tx' → j ≠ i → k ∉ heldKeys tx'.rows) :
    Keys (s.setTx i new) := by
  have hother : ∀ (j : Nat) (tx' : Tx P), s.txs[j]? = some tx' → j ≠ i →
      ∀ k ∈ heldKeys new.rows, k ∉ heldKeys tx'.rows := by
    intro j tx' htx' hne k hk
    rcases hapart k hk with hold | hfree
    · exact h.apart i j tx tx' htx htx' (Ne.symm hne) k hold
    · exact hfree j tx' htx' hne
  refine ⟨fun j tx' htx' => ?_, fun j j' tx₁ tx₂ h₁ h₂ hne k hk hk' => ?_, h.committed⟩
  · rw [St.setTx, Run.getElem?_set_of_some htx] at htx'
    split at htx'
    · cases htx'
      exact hseen
    · exact h.seen j tx' htx'
  · rw [St.setTx, Run.getElem?_set_of_some htx] at h₁ h₂
    split at h₁ <;> split at h₂
    · exact hne (by simp_all)
    · cases h₁
      exact hother j' tx₂ h₂ ‹_› k hk hk'
    · cases h₂
      exact hother j tx₁ h₁ ‹_› k hk' hk
    · exact h.apart j j' tx₁ tx₂ h₁ h₂ hne k hk hk'

theorem Keys.keep [Payload P] {registry : Registry P} {scrubValue : String → String} {a : Act P}
    (h : Keys s) (hmove : Move registry scrubValue s a t) : Keys t := by
  cases hmove with
  | begun =>
    refine ⟨fun j tx htx => ?_, fun j j' tx₁ tx₂ h₁ h₂ hne k hk hk' => ?_, h.committed⟩
    · rcases Run.getElem?_snoc_eq_some.mp htx with hold | ⟨-, rfl⟩
      · exact h.seen j tx hold
      · exact uniqueKeys_append_nil h.committed
    · rcases Run.getElem?_snoc_eq_some.mp h₁ with h₁ | ⟨-, rfl⟩
      · rcases Run.getElem?_snoc_eq_some.mp h₂ with h₂ | ⟨-, rfl⟩
        · exact h.apart j j' tx₁ tx₂ h₁ h₂ hne k hk hk'
        · cases hk'
      · cases hk
  | @conflicted _ i tx _ _ _ ha htx hready hheld =>
    exact Keys.setTx ⟨h.seen, h.apart, h.committed⟩ htx (h.seen i tx htx) fun k hk => .inl hk
  | @inserted _ i tx job ha htx hready hfree hothers =>
    refine Keys.setTx ⟨h.seen, h.apart, h.committed⟩ htx ?_ fun k hk => ?_
    · show UniqueKeys (s.worker.jobs ++ (tx.rows ++ [job]))
      rw [← List.append_assoc]
      exact uniqueKeys_snoc (h.seen i tx htx) hfree
    · rcases heldKeys_snoc.mp hk with hold | hnew
      · exact .inl hold
      · exact .inr (hothers k hnew)
  | @selected i tx _ _ htx hphase => exact h.setTx htx (h.seen i tx htx) fun k hk => .inl hk
  | @committed i tx htx hready =>
    have hunique := h.seen i tx htx
    refine ⟨fun j tx' htx' => ?_, fun j j' tx₁ tx₂ h₁ h₂ hne k hk hk' => ?_, hunique⟩
    · simp only [St.setTx, St.setJobs, Run.getElem?_set_of_some htx] at htx'
      split at htx'
      · cases htx'
        exact uniqueKeys_append_nil hunique
      · rename_i hne
        obtain ⟨-, hrows, hfree⟩ := uniqueKeys_append.mp (h.seen j tx' htx')
        refine uniqueKeys_append.mpr ⟨hunique, hrows, fun k hk => ?_⟩
        rw [show (St.setTx _ i _).worker.jobs = s.worker.jobs ++ tx.rows from rfl, heldKeys_append,
          List.mem_append] at hk
        rcases hk with hk | hk
        · exact hfree k hk
        · exact h.apart i j tx tx' htx htx' (Ne.symm hne) k hk
    · simp only [St.setTx, St.setJobs, Run.getElem?_set_of_some htx] at h₁ h₂
      split at h₁ <;> split at h₂
      · cases h₁
        cases hk
      · cases h₁
        cases hk
      · cases h₂
        cases hk'
      · exact h.apart j j' tx₁ tx₂ h₁ h₂ hne k hk hk'
  | aborted htx =>
    exact h.setTx htx (uniqueKeys_append_nil h.committed) fun k hk => nomatch hk
  | worked hkeys hdrop =>
    exact ⟨fun j tx htx => (h.seen j tx htx).mono hkeys, h.apart,
      List.Nodup.sublist hkeys h.committed⟩

end

-- ---------------------------------------------------------------------------
-- What the calls answer
-- ---------------------------------------------------------------------------

/-- The call returned the id of a row with its job type and key that is committed, or
    inserted by its own transaction. -/
def Called.Answered (call : Called P) : Prop :=
  ∃ row, (row ∈ call.committed ∨ row ∈ call.own) ∧ row.jobType = call.jobType ∧
    row.idempotencyKey = call.idempotencyKey ∧ call.answer = .ok row.jobId

/-- Committed rows do not share a key, and every call of a transaction that has
    committed is answered. -/
def Idempotent (s : St P) : Prop :=
  UniqueKeys s.worker.jobs ∧
    ∀ tx ∈ s.txs, tx.phase = .committed → ∀ call ∈ tx.calls, call.Answered

/-- The `SELECT` of a call finds the key still in use. -/
def SelectsHeld (s : St P) : Act P → Prop
  | .select i => ∀ tx jobType key, s.txs[i]? = some tx → tx.phase = .conflicted jobType key →
    (jobType, key) ∈ heldKeys (s.worker.jobs ++ tx.rows)
  | _ => True

/-- Every call between its two statements finds the key still in use. -/
def Held (s : St P) : Prop := ∀ i, SelectsHeld s (.select i)

/-- No call is between its two statements when `drop_job` runs. -/
def DropsApart (s : St P) (a : Act P) : Prop :=
  ∀ jobId, a = .job (.dropJob jobId) → ∀ tx ∈ s.txs, ∀ jobType key,
    tx.phase ≠ .conflicted jobType key

/-- Every call of a transaction that may still commit is answered. -/
def Serving (s : St P) : Prop :=
  ∀ (i : Nat) (tx : Tx P), s.txs[i]? = some tx → tx.phase ≠ .aborted →
    ∀ call ∈ tx.calls, call.Answered

theorem answered_select {committed own : Jobs P} {jobType key : String}
    (hunique : UniqueKeys (committed ++ own))
    (hheld : (jobType, key) ∈ heldKeys (committed ++ own)) :
    Called.Answered ⟨jobType, some key, committed, own,
      scalarOne (withKey jobType key (committed ++ own))⟩ := by
  obtain ⟨row, hrow⟩ := withKey_eq_singleton hunique hheld
  have hmem : row ∈ withKey jobType key (committed ++ own) := hrow ▸ List.mem_singleton_self row
  obtain ⟨hrow', hkey⟩ := List.mem_filter.mp hmem
  obtain ⟨htype, hsome⟩ := keyOf_eq_some.mp (of_decide_eq_true hkey)
  exact ⟨row, List.mem_append.mp hrow', htype, hsome, by rw [hrow]; rfl⟩

/-- A `SELECT` of a key that is no longer in use raises. -/
theorem scalarOne_of_not_held {jobs : Jobs P} {jobType key : String}
    (h : (jobType, key) ∉ heldKeys jobs) :
    scalarOne (withKey jobType key jobs) = .error .noResultFound := by
  have hnone : withKey jobType key jobs = [] := by
    refine List.filter_eq_nil_iff.mpr fun job hjob hkey => h ?_
    exact List.mem_filterMap.mpr ⟨job, hjob, of_decide_eq_true hkey⟩
  rw [hnone]
  rfl

section
variable {s t : St P} {i : Nat} {tx new : Tx P}

theorem Serving.setTx (h : Serving s) (htx : s.txs[i]? = some tx)
    (hnew : new.phase ≠ .aborted → ∀ call ∈ new.calls, call.Answered) :
    Serving (s.setTx i new) := by
  intro j tx' htx'
  rw [St.setTx, Run.getElem?_set_of_some htx] at htx'
  split at htx'
  · cases htx'
    exact hnew
  · exact h j tx' htx'

theorem Serving.keep [Payload P] {registry : Registry P} {scrubValue : String → String} {a : Act P}
    (h : Serving s) (hkeys : Keys s) (hok : SelectsHeld s a)
    (hmove : Move registry scrubValue s a t) : Serving t := by
  cases hmove with
  | begun =>
    intro j tx htx hphase call hcall
    rcases Run.getElem?_snoc_eq_some.mp htx with hold | ⟨-, rfl⟩
    · exact h j tx hold hphase call hcall
    · cases hcall
  | @conflicted _ i tx jobId _ _ ha htx hready hheld =>
    exact Serving.setTx (s := s.issue jobId) h htx fun _ => h i tx htx (by simp [hready])
  | @inserted _ i tx job ha htx hready hfree hothers =>
    refine Serving.setTx (s := s.issue _) h htx fun _ call hcall => ?_
    rcases List.mem_append.mp hcall with hold | hlast
    · exact h i tx htx (by simp [hready]) call hold
    · cases List.mem_singleton.mp hlast
      exact ⟨job, .inr (List.mem_append_right _ (List.mem_singleton_self _)), rfl, rfl, rfl⟩
  | @selected i tx jobType key htx hphase =>
    refine h.setTx htx fun _ call hcall => ?_
    rcases List.mem_append.mp hcall with hold | hlast
    · exact h i tx htx (by simp [hphase]) call hold
    · cases List.mem_singleton.mp hlast
      exact answered_select (hkeys.seen i tx htx) (hok tx jobType key htx hphase)
  | @committed i tx htx hready =>
    exact Serving.setTx (s := s.setJobs _) h htx fun _ => h i tx htx (by simp [hready])
  | aborted htx => exact h.setTx htx fun hphase => absurd rfl hphase
  | worked hkeys hdrop => exact h

theorem Serving.idempotent (h : Serving s) (hkeys : Keys s) : Idempotent s := by
  refine ⟨hkeys.committed, fun tx htx hphase => ?_⟩
  obtain ⟨i, hi⟩ := List.mem_iff_getElem?.mp htx
  exact h i tx hi (by simp [hphase])

end

-- ---------------------------------------------------------------------------
-- Runs
-- ---------------------------------------------------------------------------

section
variable [Payload P] {registry : Registry P} {scrubValue : String → String} {s t : St P}
  {a : Act P} {as : List (Act P)} {i : Nat} {tx : Tx P}

omit [Payload P] in
theorem Held.setTx {new : Tx P} (h : Held s) (htx : s.txs[i]? = some tx)
    (hnew : ∀ jobType key, new.phase = .conflicted jobType key →
      (jobType, key) ∈ heldKeys (s.worker.jobs ++ new.rows)) : Held (s.setTx i new) := by
  intro j tx' jobType key htx' hphase
  rw [St.setTx, Run.getElem?_set_of_some htx] at htx'
  split at htx'
  · cases htx'
    exact hnew jobType key hphase
  · exact h j tx' jobType key htx' hphase

/-- Between its two statements the key of a call stays in use, unless `drop_job` runs
    then. -/
theorem Held.keep (h : Held s) (hok : DropsApart s a) (hmove : Move registry scrubValue s a t) :
    Held t := by
  cases hmove with
  | begun =>
    intro j tx jobType key htx hphase
    rcases Run.getElem?_snoc_eq_some.mp htx with hold | ⟨-, rfl⟩
    · exact h j tx jobType key hold hphase
    · cases hphase
  | @conflicted _ i tx jobId jobType key _ htx _ hheld =>
    refine Held.setTx (s := s.issue jobId) h htx fun jobType' key' hphase => ?_
    cases hphase
    exact hheld
  | @inserted _ i tx job _ htx hready _ _ =>
    refine Held.setTx (s := s.issue job.jobId) h htx fun jobType key hphase => ?_
    cases hready.symm.trans hphase
  | @selected i tx _ _ htx _ => exact h.setTx htx fun jobType key hphase => nomatch hphase
  | @committed i tx htx _ =>
    refine Held.setTx (s := s.setJobs _) (fun j tx' jobType key htx' hphase => ?_) htx
      fun jobType key hphase => nomatch hphase
    have hheld := h j tx' jobType key htx' hphase
    simp only [St.setJobs, heldKeys_append, List.mem_append] at hheld ⊢
    tauto
  | aborted htx => exact h.setTx htx fun jobType key hphase => nomatch hphase
  | @worked a worker _ hkeys =>
    intro j tx jobType key htx hphase
    have hsame := hkeys fun jobId ha =>
      hok jobId (congrArg Act.job ha) tx (List.mem_of_getElem? htx) jobType key hphase
    rw [heldKeys_append, hsame, ← heldKeys_append]
    exact h j tx jobType key htx hphase

/-- What a run needs is that `drop_job` leaves alone the calls that have met a key. -/
theorem selectsHeld_of_dropsApart (h : Run.Guarded (step registry scrubValue) DropsApart init as) :
    Run.Guarded (step registry scrubValue) SelectsHeld init as := by
  have hinit : Held (init : St P) := fun i tx jobType key htx => nomatch htx
  refine Run.Guarded.imp (fun {s a t} hheld hok hstep => Held.keep hheld hok (step_move hstep))
    (fun {s a} hheld _ => ?_) hinit h
  cases a with
  | select i => exact hheld i
  | _ => exact trivial

omit [Payload P] in
theorem keys_init : Keys (init : St P) :=
  { seen := fun _ _ h => nomatch h
    apart := fun _ _ _ _ h => nomatch h
    committed := List.nodup_nil }

omit [Payload P] in
theorem serving_init : Serving (init : St P) := fun _ _ h => nomatch h

/-- In this state, and in whichever state a commit leads to from it, enqueue is
    idempotent. -/
def Safe (registry : Registry P) (scrubValue : String → String) (s : St P) : Prop :=
  Idempotent s ∧ ∀ i t, step registry scrubValue s (.commit i) = some t → Idempotent t

theorem safe_of_serving (hkeys : Keys s) (h : Serving s) : Safe registry scrubValue s := by
  refine ⟨h.idempotent hkeys, fun i t hstep => ?_⟩
  have hmove := step_move hstep
  have hok : SelectsHeld s (.commit i) := trivial
  exact (h.keep hkeys hok hmove).idempotent (hkeys.keep hmove)

theorem commit_ready (htx : s.txs[i]? = some tx) (hready : tx.phase = .ready) :
    step registry scrubValue s (.commit i) =
      some ((s.setJobs (s.worker.jobs ++ tx.rows)).setTx i
        { tx with phase := .committed, rows := [] }) := by
  simp [step, htx, hready]

theorem not_safe_of_unanswered {call : Called P} (htx : s.txs[i]? = some tx)
    (hready : tx.phase = .ready) (hcall : call ∈ tx.calls) (hnot : ¬ call.Answered) :
    ¬ Safe registry scrubValue s := by
  rintro ⟨-, hcommits⟩
  have hafter := (hcommits i _ (commit_ready htx hready)).2
  have hmem : (⟨.committed, [], tx.calls⟩ : Tx P) ∈ s.txs.set i ⟨.committed, [], tx.calls⟩ :=
    List.mem_of_getElem? (by rw [Run.getElem?_set_of_some htx, if_pos rfl])
  exact hnot (hafter _ hmem rfl call hcall)

/-- A `SELECT` that finds the key gone raises, and its transaction can still commit. -/
theorem not_safe_of_miss (hbad : ¬ SelectsHeld s a) (hstep : step registry scrubValue s a = some t) :
    ¬ Safe registry scrubValue t := by
  cases a with
  | select i =>
    simp only [SelectsHeld, not_forall] at hbad
    obtain ⟨tx, jobType, key, htx, hphase, hmiss⟩ := hbad
    simp only [step, htx, hphase, Option.some.injEq] at hstep
    subst hstep
    rw [scalarOne_of_not_held hmiss]
    refine not_safe_of_unanswered (i := i)
      (by rw [St.setTx, Run.getElem?_set_of_some htx, if_pos rfl]) rfl
      (List.mem_append_right _ (List.mem_singleton_self _)) ?_
    rintro ⟨_, _, _, _, hraised⟩
    cases hraised
  | _ => exact absurd trivial hbad

/-- At no time do two committed rows share a key. Every call whose transaction commits
    returns the id of such a row, in every state of a run and after whichever commit
    comes next, exactly when every `SELECT` of the conflict branch finds the key still
    in use. -/
theorem enqueue_idempotent_iff (hrun : Run.exec (step registry scrubValue) init as = some t) :
    Run.Always (step registry scrubValue) (fun s => UniqueKeys s.worker.jobs) init as ∧
      (Run.Always (step registry scrubValue) (Safe registry scrubValue) init as ↔
        Run.Guarded (step registry scrubValue) SelectsHeld init as) := by
  refine ⟨Run.always_of_invariant Keys (fun h hstep => h.keep (step_move hstep))
    (fun h => h.committed) keys_init, ?_⟩
  refine Run.always_iff_guarded (fun _ => True) (fun s => Keys s ∧ Serving s) ?_ ?_ ?_
    ⟨keys_init, serving_init⟩ (fun _ _ => trivial) hrun
  · rintro s a t ⟨hkeys, hserving⟩ - hok hstep
    exact ⟨hkeys.keep (step_move hstep), hserving.keep hkeys hok (step_move hstep)⟩
  · rintro s ⟨hkeys, hserving⟩
    exact safe_of_serving hkeys hserving
  · rintro s a t - - hbad hstep
    exact not_safe_of_miss hbad hstep

end

-- ---------------------------------------------------------------------------
-- A drop between the two statements
-- ---------------------------------------------------------------------------

def call (jobId : String) : Call ExtractionJob :=
  { jobId, jobType := "extraction", payload := ⟨1, 1⟩, idempotencyKey := some "key",
    traceContext := none, tenantId := none, notBefore := none }

/-- The first call's job is dead-lettered; the second call meets it, and an
    administrator drops it before the second call reads its id. -/
def dropBetween : List (Act ExtractionJob) :=
  [.begin, .insert 0 (call "a"), .commit 0,
    .job (.claim "w" "a"), .job (.markRunning "w"), .job (.handlerStart "w"),
    .job (.handlerEnd "w" (.raised "corrupt" true)), .job (.markFailed "w" "a" 0),
    .begin, .insert 1 (call "b"), .job (.dropJob "a"), .select 1, .commit 1]

/-- The second call raises. -/
theorem enqueue_raises_after_drop :
    ¬ ∀ as t, Run.exec (step extractionRegistry id) init as = some t → Idempotent t := by
  intro hall
  have hrun : (Run.exec (step extractionRegistry id) init dropBetween).any (fun t =>
      t.txs.any fun tx => tx.phase = .committed ∧ tx.calls.any fun c =>
        c.answer = .error .noResultFound) = true := by
    decide +kernel
  obtain ⟨t, ht, htx⟩ := (Option.any_eq_true _ _).mp hrun
  obtain ⟨tx, hmem, hraised⟩ := List.any_eq_true.mp htx
  obtain ⟨hphase, hcalls⟩ := of_decide_eq_true hraised
  obtain ⟨c, hc, herror⟩ := List.any_eq_true.mp hcalls
  obtain ⟨_, _, _, _, hok⟩ := (hall dropBetween t ht).2 tx hmem hphase c hc
  rw [of_decide_eq_true herror] at hok
  cases hok

/-- Without the drop the second call returns the first one's id. -/
theorem enqueue_idempotent_iff_meets :
    Run.Always (step extractionRegistry id) (Safe extractionRegistry id) init
      ([.begin, .insert 0 (call "a"), .commit 0, .begin, .insert 1 (call "b"), .select 1,
        .commit 1] : List (Act ExtractionJob)) := by
  have hrun : (Run.exec (step extractionRegistry id) init
      ([.begin, .insert 0 (call "a"), .commit 0, .begin, .insert 1 (call "b"), .select 1,
        .commit 1] : List (Act ExtractionJob))).isSome = true := by
    decide +kernel
  obtain ⟨t, ht⟩ := Option.isSome_iff_exists.mp hrun
  refine (enqueue_idempotent_iff ht).2.mpr (selectsHeld_of_dropsApart ?_)
  refine Run.guarded_of_checks (fun _ a => match a with
    | .job (.dropJob _) => false
    | _ => true) (fun s a h jobId ha => ?_) (by decide +kernel)
  subst ha
  cases h

end EnqueueRace
