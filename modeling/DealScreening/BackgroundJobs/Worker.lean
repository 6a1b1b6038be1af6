-- SUMMARY: The system of worker slots and reapers over one table of jobs: its states, its steps, and what one step can do.
import DealScreening.BackgroundJobs.Queue
import DealScreening.Lib.Run
import Mathlib.Logic.Function.Basic

/-!
# Workers

Any number of claim slots and reapers work on one table. A slot claims a job,
marks it running, calls its handler and marks the result; each of these is one
transaction. The slot keeps the object it claimed until it is done with it, and
may crash at any point, which loses the object.
-/

namespace Worker

open Queue

variable {P : Type}

/-- Where a claim slot is in `_claim_loop` and `_execute_job`. -/
inductive Slot (P : Type) where
  | idle
  /-- The claim is committed, the job is not yet dispatched. -/
  | claimed (job : BackgroundJob P)
  /-- `mark_running` is committed, the handler is not yet called. -/
  | running (job : BackgroundJob P)
  /-- Between the start and the end of the handler. -/
  | handling (job : BackgroundJob P)
  /-- The handler has ended, its result is not yet marked. -/
  | finished (job : BackgroundJob P) (outcome : HandlerOutcome)
  deriving DecidableEq

namespace Slot

/-- The object the slot holds. -/
def job? : Slot P → Option (BackgroundJob P)
  | .idle => none
  | .claimed job | .running job | .handling job | .finished job _ => some job

/-- The state the slot last wrote to the row of its job. -/
def written : Slot P → JobState
  | .claimed _ => .claimed
  | _ => .running

@[simp] theorem job?_idle : (idle : Slot P).job? = none := rfl
@[simp] theorem job?_claimed (job : BackgroundJob P) : (claimed job).job? = some job := rfl
@[simp] theorem job?_running (job : BackgroundJob P) : (running job).job? = some job := rfl
@[simp] theorem job?_handling (job : BackgroundJob P) : (handling job).job? = some job := rfl
@[simp] theorem job?_finished (job : BackgroundJob P) (outcome : HandlerOutcome) :
    (finished job outcome).job? = some job := rfl

end Slot

structure St (P : Type) where
  clock : Time
  jobs : Jobs P
  /-- Every id `uuid4` has given to a job so far. -/
  issued : List String
  slots : String → Slot P

/-- No job, every slot idle. -/
def init : St P := ⟨0, [], [], fun _ => .idle⟩

/-- The steps of the system. Names of slots and ids of jobs are strings; a new
    job gets an id that was never issued before. -/
inductive Act (P : Type) where
  | enqueue (jobId jobType : String) (payload : P)
      (idempotencyKey traceContext tenantId : Option String) (notBefore : Option Time)
  | claim (slot jobId : String)
  | markRunning (slot : String)
  | handlerStart (slot : String)
  | handlerEnd (slot : String) (outcome : HandlerOutcome)
  | markSucceeded (slot : String)
  | markFailed (slot jobId : String) (draw : Int)
  | reap
  /-- The slot loses its object: the process dies, or `_claim_loop` catches an exception. -/
  | crash (slot : String)
  | advance (d : Nat)
  | dropJob (jobId : String)
  deriving DecidableEq

/-- The context `_execute_job` passes to the handler. -/
def jobContext (job : BackgroundJob P) : JobContext :=
  { jobId := job.jobId, jobType := job.jobType, attempt := job.attempts + 1,
    traceContext := job.traceContext, tenantId := job.tenantId }

/-- Why `_execute_job` gives up on a claimed job before it runs it: its type is
    unknown, or its payload does not validate. -/
def dispatchError (registry : Registry P) (job : BackgroundJob P) : Option String :=
  match registry job.jobType with
  | none => some s!"Unknown job type: {job.jobType}"
  | some reg => (reg.schema job.payload).map fun exc => s!"Schema validation failed: {exc}"

/-- The job a slot is about to mark failed, the error, and whether it is final. -/
def failure (registry : Registry P) : Slot P → Option (BackgroundJob P × String × Bool)
  | .claimed job => (dispatchError registry job).map fun error => (job, error, true)
  | .finished job (.raised error nonRetryable) => some (job, error, nonRetryable)
  | _ => none

theorem failure_job? {x : Slot P} {job : BackgroundJob P} {error : String} {nonRetryable : Bool}
    (h : failure registry x = some (job, error, nonRetryable)) : x.job? = some job := by
  cases x with
  | claimed job' =>
    simp only [failure, Option.map_eq_some_iff, Prod.mk.injEq] at h
    obtain ⟨_, _, rfl, _⟩ := h
    rfl
  | finished job' outcome =>
    cases outcome with
    | returned => cases h
    | raised error' nonRetryable' =>
      simp only [failure, Option.some.injEq, Prod.mk.injEq] at h
      simp [h.1]
  | _ => cases h

namespace St

def setSlot (s : St P) (w : String) (x : Slot P) : St P :=
  { s with slots := Function.update s.slots w x }

/-- Flush the object `object`, loaded as `loaded`, and continue the slot as `x`. -/
def flush (s : St P) (w : String) (loaded object : BackgroundJob P) (x : Slot P) : St P :=
  { s with
    jobs := set s.jobs loaded.jobId (flushColumns loaded object)
    slots := Function.update s.slots w x }

/-- The transaction of a mark. When the row is gone, or would violate the check
    on its attempts, the flush raises and `_claim_loop` gives the job up, which
    is a `crash` of the slot. -/
def mark (s : St P) (w : String) (loaded object : BackgroundJob P) (x : Slot P) : Option (St P) :=
  match find s.jobs loaded.jobId with
  | none => none
  | some row =>
    if attemptsBounded (flushColumns loaded object row) then some (s.flush w loaded object x)
    else none

theorem mark_eq_some {s t : St P} {w : String} {loaded object : BackgroundJob P} {x : Slot P} :
    s.mark w loaded object x = some t ↔
      ∃ row, find s.jobs loaded.jobId = some row ∧
        attemptsBounded (flushColumns loaded object row) = true ∧
        s.flush w loaded object x = t := by
  unfold mark
  cases find s.jobs loaded.jobId <;> simp

theorem find_flush {s : St P} {w l : String} {loaded object : BackgroundJob P} {x : Slot P} :
    find (s.flush w loaded object x).jobs l =
      if l = loaded.jobId then (find s.jobs loaded.jobId).map (flushColumns loaded object)
      else find s.jobs l :=
  find_set (flushColumns_jobId loaded object)

end St

section
variable [Payload P]

/-- One step. `scrubValue` is the log scrubber that `mark_failed` applies.

    The claim query locks the row it returns and skips rows that another claim
    has locked, so any job that is ready can be the one a slot gets. An
    `enqueue` that hits its idempotency key changes nothing and is no step. -/
def step (registry : Registry P) (scrubValue : String → String) (s : St P) :
    Act P → Option (St P)
  | .enqueue jobId jobType payload idempotencyKey traceContext tenantId notBefore =>
    match find s.jobs jobId,
      enqueue registry s.clock jobId jobType payload idempotencyKey traceContext tenantId
        notBefore with
    | none, .ok job =>
      if jobId ∈ s.issued ∨ (idempotentHit s.jobs jobType idempotencyKey).isSome then none
      else some { s with jobs := s.jobs ++ [job], issued := jobId :: s.issued }
    | _, _ => none
  | .claim w jobId =>
    match s.slots w, find s.jobs jobId with
    | .idle, some job =>
      if claimable s.clock job then
        some { s with
          jobs := set s.jobs jobId (claim w s.clock)
          slots := Function.update s.slots w (.claimed (claim w s.clock job)) }
      else none
    | _, _ => none
  | .markRunning w =>
    match s.slots w with
    | .claimed job =>
      if dispatchError registry job = none then
        s.mark w job (markRunning job) (.running (markRunning job))
      else none
    | _ => none
  | .handlerStart w =>
    match s.slots w with
    | .running job => some (s.setSlot w (.handling job))
    | _ => none
  | .handlerEnd w outcome =>
    match s.slots w with
    | .handling job => some (s.setSlot w (.finished job outcome))
    | _ => none
  | .markSucceeded w =>
    match s.slots w with
    | .finished job .returned => s.mark w job (markSucceeded s.clock job) .idle
    | _ => none
  | .markFailed w jobId draw =>
    match failure registry (s.slots w) with
    | some (job, error, nonRetryable) =>
      if job.jobId = jobId then
        s.mark w job (markFailed scrubValue s.clock draw error nonRetryable job) .idle
      else none
    | none => none
  | .reap => some { s with jobs := reapExpiredClaims s.clock s.jobs }
  | .crash w => some (s.setSlot w .idle)
  | .advance d => some { s with clock := s.clock + d }
  | .dropJob jobId =>
    match find s.jobs jobId with
    | some job =>
      if job.state = .deadLettered then
        some { s with jobs := drop s.jobs jobId }
      else none
    | none => none

/-! ## What a step can do -/

variable {registry : Registry P} {scrubValue : String → String} {s t : St P} {w jobId : String}
  {draw : Int}

theorem enqueue_cases {jobType : String} {payload : P}
    {idempotencyKey traceContext tenantId : Option String} {notBefore : Option Time}
    (h : step registry scrubValue s
      (.enqueue jobId jobType payload idempotencyKey traceContext tenantId notBefore) = some t) :
    ∃ job, find s.jobs jobId = none ∧ jobId ∉ s.issued ∧
      enqueue registry s.clock jobId jobType payload idempotencyKey traceContext tenantId
        notBefore = .ok job ∧
      t = { s with jobs := s.jobs ++ [job], issued := jobId :: s.issued } := by
  simp only [step] at h
  split at h
  · rename_i job hnone hjob
    split at h
    · cases h
    · rename_i hfresh
      simp only [not_or] at hfresh
      exact ⟨job, hnone, hfresh.1, hjob, (Option.some.inj h).symm⟩
  · cases h

theorem claim_cases (h : step registry scrubValue s (.claim w jobId) = some t) :
    ∃ job, s.slots w = .idle ∧ find s.jobs jobId = some job ∧ claimable s.clock job = true ∧
      t = { s with
        jobs := set s.jobs jobId (claim w s.clock)
        slots := Function.update s.slots w (.claimed (claim w s.clock job)) } := by
  simp only [step] at h
  split at h
  · rename_i job hidle hjob
    split at h
    · rename_i hready
      exact ⟨job, hidle, hjob, hready, (Option.some.inj h).symm⟩
    · cases h
  · cases h

theorem markRunning_cases (h : step registry scrubValue s (.markRunning w) = some t) :
    ∃ job row, s.slots w = .claimed job ∧ find s.jobs job.jobId = some row ∧
      t = s.flush w job (markRunning job) (.running (markRunning job)) := by
  simp only [step] at h
  split at h
  · rename_i job hslot
    split at h
    · obtain ⟨row, hrow, _, rfl⟩ := St.mark_eq_some.mp h
      exact ⟨job, row, hslot, hrow, rfl⟩
    · cases h
  · cases h

theorem markSucceeded_cases (h : step registry scrubValue s (.markSucceeded w) = some t) :
    ∃ job row, s.slots w = .finished job .returned ∧ find s.jobs job.jobId = some row ∧
      t = s.flush w job (markSucceeded s.clock job) .idle := by
  simp only [step] at h
  split at h
  · rename_i job hslot
    obtain ⟨row, hrow, _, rfl⟩ := St.mark_eq_some.mp h
    exact ⟨job, row, hslot, hrow, rfl⟩
  · cases h

theorem markFailed_cases (h : step registry scrubValue s (.markFailed w jobId draw) = some t) :
    ∃ job row error nonRetryable, (s.slots w).job? = some job ∧ job.jobId = jobId ∧
      find s.jobs jobId = some row ∧
      t = s.flush w job (markFailed scrubValue s.clock draw error nonRetryable job) .idle := by
  simp only [step] at h
  split at h
  · rename_i job error nonRetryable hfail
    split at h
    · rename_i hid
      obtain ⟨row, hrow, _, rfl⟩ := St.mark_eq_some.mp h
      exact ⟨job, row, error, nonRetryable, failure_job? hfail, hid, hid ▸ hrow, rfl⟩
    · cases h
  · cases h

theorem dropJob_cases (h : step registry scrubValue s (.dropJob jobId) = some t) :
    ∃ job, find s.jobs jobId = some job ∧ job.state = .deadLettered ∧
      t = { s with jobs := drop s.jobs jobId } := by
  simp only [step] at h
  split at h
  · rename_i job hjob
    split at h
    · rename_i hdead
      exact ⟨job, hjob, hdead, (Option.some.inj h).symm⟩
    · cases h
  · cases h

/-- The handler's start and end keep the object and the last written state. -/
theorem handlerStart_cases (h : step registry scrubValue s (.handlerStart w) = some t) :
    ∃ job, s.slots w = .running job ∧ t = s.setSlot w (.handling job) := by
  simp only [step] at h
  split at h
  · rename_i job hslot
    exact ⟨job, hslot, (Option.some.inj h).symm⟩
  · cases h

theorem handlerEnd_cases {outcome : HandlerOutcome}
    (h : step registry scrubValue s (.handlerEnd w outcome) = some t) :
    ∃ job, s.slots w = .handling job ∧ t = s.setSlot w (.finished job outcome) := by
  simp only [step] at h
  split at h
  · rename_i job hslot
    exact ⟨job, hslot, (Option.some.inj h).symm⟩
  · cases h

/-! ## What a step can do to a row and to a slot -/

/-- What a step makes of a row of `s`, if it does not drop it. -/
inductive RowChange (scrubValue : String → String) (s : St P) (row : BackgroundJob P) :
    Act P → BackgroundJob P → Prop
  | unchanged {a : Act P} (hfail : ∀ w draw, a ≠ .markFailed w row.jobId draw) :
    RowChange scrubValue s row a row
  | claim {w : String} (hready : claimable s.clock row = true) :
    RowChange scrubValue s row (.claim w row.jobId) (Queue.claim w s.clock row)
  | markRunning {w : String} {job : BackgroundJob P} (hslot : s.slots w = .claimed job)
      (hid : job.jobId = row.jobId) :
    RowChange scrubValue s row (.markRunning w) (flushColumns job (Queue.markRunning job) row)
  | markSucceeded {w : String} {job : BackgroundJob P} (hslot : s.slots w = .finished job .returned)
      (hid : job.jobId = row.jobId) :
    RowChange scrubValue s row (.markSucceeded w)
      (flushColumns job (Queue.markSucceeded s.clock job) row)
  | markFailed {w : String} {draw : Int} {job : BackgroundJob P} {error : String}
      {nonRetryable : Bool} (hslot : (s.slots w).job? = some job) (hid : job.jobId = row.jobId) :
    RowChange scrubValue s row (.markFailed w row.jobId draw)
      (flushColumns job (Queue.markFailed scrubValue s.clock draw error nonRetryable job) row)
  | release (hexpired : expired s.clock row = true) :
    RowChange scrubValue s row .reap (Queue.release row)

/-- What a step makes of slot `w`. -/
inductive SlotChange (s : St P) (w : String) : Act P → Slot P → Prop
  | unchanged {a : Act P} : SlotChange s w a (s.slots w)
  | idle {a : Act P} : SlotChange s w a .idle
  | claim {row : BackgroundJob P} {jobId : String} (hrow : find s.jobs jobId = some row)
      (hready : claimable s.clock row = true) :
    SlotChange s w (.claim w jobId) (.claimed (Queue.claim w s.clock row))
  | markRunning {job : BackgroundJob P} (hslot : s.slots w = .claimed job) :
    SlotChange s w (.markRunning w) (.running (Queue.markRunning job))
  | handlerStart {job : BackgroundJob P} (hslot : s.slots w = .running job) :
    SlotChange s w (.handlerStart w) (.handling job)
  | handlerEnd {job : BackgroundJob P} {outcome : HandlerOutcome} (hslot : s.slots w = .handling job) :
    SlotChange s w (.handlerEnd w outcome) (.finished job outcome)

theorem step_row {a : Act P} {row : BackgroundJob P} (hstep : step registry scrubValue s a = some t)
    (hrow : find s.jobs jobId = some row) (hdrop : a ≠ .dropJob jobId) :
    ∃ row', find t.jobs jobId = some row' ∧ RowChange scrubValue s row a row' := by
  have hid := find_jobId hrow
  have hflush : ∀ {w x} {loaded object : BackgroundJob P}, jobId = loaded.jobId →
      find (s.flush w loaded object x).jobs jobId = some (flushColumns loaded object row) :=
    fun {_ _ loaded _} hl => by rw [St.find_flush, if_pos hl, ← hl, hrow, Option.map_some]
  have hother : ∀ {w x} {loaded object : BackgroundJob P}, jobId ≠ loaded.jobId →
      find (s.flush w loaded object x).jobs jobId = some row :=
    fun {_ _ loaded _} hl => by rw [St.find_flush, if_neg hl, hrow]
  cases a with
  | enqueue newId jobType payload idempotencyKey traceContext tenantId notBefore =>
    obtain ⟨new, hnone, _, hnew, rfl⟩ := enqueue_cases hstep
    have hne : jobId ≠ newId := fun e => by
      rw [e, hnone] at hrow
      cases hrow
    exact ⟨row, by rw [find_enqueue hnone hnew, if_neg hne, hrow], .unchanged nofun⟩
  | claim w claimedId =>
    obtain ⟨ready, _, hready, hclaimable, rfl⟩ := claim_cases hstep
    by_cases hl : jobId = claimedId
    · subst hl
      rw [hrow] at hready
      cases hready
      refine ⟨claim w s.clock row, by rw [find_claim, if_pos rfl, hrow, Option.map_some], ?_⟩
      rw [← hid]
      exact .claim hclaimable
    · exact ⟨row, by rw [find_claim, if_neg hl, hrow], .unchanged nofun⟩
  | markRunning w =>
    obtain ⟨job, _, hslot, _, rfl⟩ := markRunning_cases hstep
    by_cases hl : jobId = job.jobId
    · exact ⟨_, hflush hl, .markRunning hslot (by rw [hid, hl])⟩
    · exact ⟨row, hother hl, .unchanged nofun⟩
  | markSucceeded w =>
    obtain ⟨job, _, hslot, _, rfl⟩ := markSucceeded_cases hstep
    by_cases hl : jobId = job.jobId
    · exact ⟨_, hflush hl, .markSucceeded hslot (by rw [hid, hl])⟩
    · exact ⟨row, hother hl, .unchanged nofun⟩
  | markFailed w failedId draw =>
    obtain ⟨job, _, error, nonRetryable, hslot, hfailed, _, rfl⟩ := markFailed_cases hstep
    by_cases hl : jobId = job.jobId
    · refine ⟨_, hflush hl, ?_⟩
      rw [← hfailed, ← hl, ← hid]
      exact .markFailed hslot (by rw [hid, hl])
    · refine ⟨row, hother hl, .unchanged fun w' draw' e => hl ?_⟩
      cases e
      rw [hfailed, hid]
  | handlerStart w =>
    obtain ⟨_, _, rfl⟩ := handlerStart_cases hstep
    exact ⟨row, hrow, .unchanged nofun⟩
  | handlerEnd w outcome =>
    obtain ⟨_, _, rfl⟩ := handlerEnd_cases hstep
    exact ⟨row, hrow, .unchanged nofun⟩
  | reap =>
    simp only [step, Option.some.injEq] at hstep
    subst hstep
    refine ⟨_, by rw [find_reapExpiredClaims, hrow, Option.map_some], ?_⟩
    split
    · exact .release ‹_›
    · exact .unchanged nofun
  | crash w | advance d =>
    simp only [step, Option.some.injEq] at hstep
    subst hstep
    exact ⟨row, hrow, .unchanged nofun⟩
  | dropJob droppedId =>
    obtain ⟨_, _, _, rfl⟩ := dropJob_cases hstep
    have hne : jobId ≠ droppedId := fun e => hdrop (by rw [e])
    exact ⟨row, by rw [find_drop, if_neg hne, hrow], .unchanged nofun⟩

theorem step_slot {a : Act P} (hstep : step registry scrubValue s a = some t) (w : String) :
    SlotChange s w a (t.slots w) := by
  have hupdate : ∀ {v : String} {x : Slot P}, (v = w → SlotChange s w a x) →
      SlotChange s w a (Function.update s.slots v x w) := fun {v x} hx => by
    by_cases hv : w = v
    · subst hv
      rw [Function.update_self]
      exact hx rfl
    · rw [Function.update_of_ne hv]
      exact .unchanged
  cases a with
  | enqueue newId jobType payload idempotencyKey traceContext tenantId notBefore =>
    obtain ⟨_, _, _, _, rfl⟩ := enqueue_cases hstep
    exact .unchanged
  | claim v jobId =>
    obtain ⟨row, _, hrow, hready, rfl⟩ := claim_cases hstep
    exact hupdate fun e => e ▸ .claim hrow hready
  | markRunning v =>
    obtain ⟨job, _, hslot, _, rfl⟩ := markRunning_cases hstep
    exact hupdate fun e => e ▸ .markRunning (e ▸ hslot)
  | markSucceeded v =>
    obtain ⟨_, _, _, _, rfl⟩ := markSucceeded_cases hstep
    exact hupdate fun _ => .idle
  | markFailed v failedId draw =>
    obtain ⟨_, _, _, _, _, _, _, rfl⟩ := markFailed_cases hstep
    exact hupdate fun _ => .idle
  | handlerStart v =>
    obtain ⟨job, hslot, rfl⟩ := handlerStart_cases hstep
    exact hupdate fun e => e ▸ .handlerStart (e ▸ hslot)
  | handlerEnd v outcome =>
    obtain ⟨job, hslot, rfl⟩ := handlerEnd_cases hstep
    exact hupdate fun e => e ▸ .handlerEnd (e ▸ hslot)
  | crash v =>
    simp only [step, Option.some.injEq] at hstep
    subst hstep
    exact hupdate fun _ => .idle
  | reap | advance d =>
    simp only [step, Option.some.injEq] at hstep
    subst hstep
    exact .unchanged
  | dropJob droppedId =>
    obtain ⟨_, _, _, rfl⟩ := dropJob_cases hstep
    exact .unchanged

/-- A row that appears is that of a new job. -/
theorem step_absent {a : Act P} (hstep : step registry scrubValue s a = some t)
    (hnone : find s.jobs jobId = none) :
    (∀ w draw, a ≠ .markFailed w jobId draw) ∧
      (find t.jobs jobId = none ∨
        ∃ row, find t.jobs jobId = some row ∧ jobId ∉ s.issued ∧ jobId ∈ t.issued ∧
          row.state = .pending ∧ row.attempts = 0 ∧ row.claimExpiresAt = none ∧
          ∃ jobType reg, registry jobType = some reg ∧ row.maxAttempts = reg.maxAttempts) := by
  have hmark : ∀ {w x} {loaded object : BackgroundJob P},
      find (s.flush w loaded object x).jobs jobId = none := fun {_ _ loaded _} => by
    rw [St.find_flush]
    by_cases hl : jobId = loaded.jobId
    · rw [if_pos hl, ← hl, hnone, Option.map_none]
    · rw [if_neg hl, hnone]
  cases a with
  | enqueue newId jobType payload idempotencyKey traceContext tenantId notBefore =>
    obtain ⟨new, hnew, hfresh, hjob, rfl⟩ := enqueue_cases hstep
    refine ⟨nofun, ?_⟩
    rw [find_enqueue hnew hjob]
    by_cases hid : jobId = newId
    · subst hid
      rw [if_pos rfl]
      obtain ⟨_, hstate, hatt, hexp, reg, hreg, hmax⟩ := enqueue_ok hjob
      exact .inr ⟨new, rfl, hfresh, List.mem_cons_self .., hstate, hatt, hexp, jobType, reg, hreg,
        hmax⟩
    · rw [if_neg hid]
      exact .inl hnone
  | claim w claimedId =>
    obtain ⟨ready, _, hready, _, rfl⟩ := claim_cases hstep
    refine ⟨nofun, .inl ?_⟩
    have hne : jobId ≠ claimedId := fun e => by simp [← e, hnone] at hready
    rw [find_claim, if_neg hne, hnone]
  | markRunning w =>
    obtain ⟨_, _, _, _, rfl⟩ := markRunning_cases hstep
    exact ⟨nofun, .inl hmark⟩
  | markSucceeded w =>
    obtain ⟨_, _, _, _, rfl⟩ := markSucceeded_cases hstep
    exact ⟨nofun, .inl hmark⟩
  | markFailed w failedId draw =>
    obtain ⟨_, _, _, _, _, _, hrow, rfl⟩ := markFailed_cases hstep
    refine ⟨fun _ _ e => ?_, .inl hmark⟩
    cases e
    simp [hnone] at hrow
  | handlerStart w =>
    obtain ⟨_, _, rfl⟩ := handlerStart_cases hstep
    exact ⟨nofun, .inl hnone⟩
  | handlerEnd w outcome =>
    obtain ⟨_, _, rfl⟩ := handlerEnd_cases hstep
    exact ⟨nofun, .inl hnone⟩
  | reap =>
    simp only [step, Option.some.injEq] at hstep
    subst hstep
    exact ⟨nofun, .inl (by rw [find_reapExpiredClaims, hnone, Option.map_none])⟩
  | crash w | advance d =>
    simp only [step, Option.some.injEq] at hstep
    subst hstep
    exact ⟨nofun, .inl hnone⟩
  | dropJob droppedId =>
    obtain ⟨_, _, _, rfl⟩ := dropJob_cases hstep
    refine ⟨nofun, .inl ?_⟩
    rw [find_drop]
    split
    · rfl
    · exact hnone

/-- An id is issued to a job together with its row. -/
theorem step_issued {a : Act P} (hstep : step registry scrubValue s a = some t) :
    t.issued = s.issued ∨
      ∃ jobId row, t.issued = jobId :: s.issued ∧ find t.jobs jobId = some row := by
  cases a with
  | enqueue newId jobType payload idempotencyKey traceContext tenantId notBefore =>
    obtain ⟨new, hnone, _, hjob, rfl⟩ := enqueue_cases hstep
    exact .inr ⟨newId, new, rfl, by rw [find_enqueue hnone hjob, if_pos rfl]⟩
  | claim w jobId =>
    obtain ⟨_, _, _, _, rfl⟩ := claim_cases hstep
    exact .inl rfl
  | markRunning w =>
    obtain ⟨_, _, _, _, rfl⟩ := markRunning_cases hstep
    exact .inl rfl
  | markSucceeded w =>
    obtain ⟨_, _, _, _, rfl⟩ := markSucceeded_cases hstep
    exact .inl rfl
  | markFailed w jobId draw =>
    obtain ⟨_, _, _, _, _, _, _, rfl⟩ := markFailed_cases hstep
    exact .inl rfl
  | handlerStart w =>
    obtain ⟨_, _, rfl⟩ := handlerStart_cases hstep
    exact .inl rfl
  | handlerEnd w outcome =>
    obtain ⟨_, _, rfl⟩ := handlerEnd_cases hstep
    exact .inl rfl
  | reap | crash w | advance d =>
    simp only [step, Option.some.injEq] at hstep
    subst hstep
    exact .inl rfl
  | dropJob jobId =>
    obtain ⟨_, _, _, rfl⟩ := dropJob_cases hstep
    exact .inl rfl

theorem issued_mono {a : Act P} (hstep : step registry scrubValue s a = some t) :
    s.issued ⊆ t.issued := by
  intro l hl
  rcases step_issued hstep with heq | ⟨_, _, heq, _⟩ <;> rw [heq]
  · exact hl
  · exact List.mem_cons_of_mem _ hl

end

end Worker
