-- SUMMARY: The queue operations on job rows: enqueue, claim, the marks a worker writes from the object it holds, and the reaper.
import DealScreening.BackgroundJobs.Types
import DealScreening.Lib.Table

/-!
# Queue operations

`claim` and the reaper read the row they change. The marks do not: a worker
changes the object it loaded when it claimed, and the flush sends the changed
columns to the row with that `job_id`, whatever the row holds by then.
-/

namespace Queue

variable {P : Type}

abbrev Jobs (P : Type) := List (BackgroundJob P)

def find (jobs : Jobs P) (jobId : String) : Option (BackgroundJob P) :=
  Table.lookup BackgroundJob.jobId jobs jobId

def set (jobs : Jobs P) (jobId : String) (f : BackgroundJob P → BackgroundJob P) : Jobs P :=
  Table.modify BackgroundJob.jobId jobs jobId f

/-- `drop_job`: the row is deleted. -/
def drop (jobs : Jobs P) (jobId : String) : Jobs P :=
  Table.delete BackgroundJob.jobId jobs jobId

section
variable {jobs : Jobs P} {jobId l : String} {job : BackgroundJob P}
  {f : BackgroundJob P → BackgroundJob P}

theorem find_jobId (h : find jobs jobId = some job) : job.jobId = jobId :=
  Table.lookup_key h

theorem find_set (hf : ∀ job, (f job).jobId = job.jobId) :
    find (set jobs jobId f) l = if l = jobId then (find jobs jobId).map f else find jobs l :=
  Table.lookup_modify hf

theorem find_drop : find (drop jobs jobId) l = if l = jobId then none else find jobs l :=
  Table.lookup_delete

theorem find_append (hfresh : find jobs job.jobId = none) :
    find (jobs ++ [job]) l = if l = job.jobId then some job else find jobs l :=
  Table.lookup_insert hfresh

end

-- ---------------------------------------------------------------------------
-- Enqueue
-- ---------------------------------------------------------------------------

inductive EnqueueError where
  | unknownJobType (message : String)
  | schemaViolation (message : String)
  deriving DecidableEq, Repr

/-- The row that makes an insert `ON CONFLICT DO NOTHING` insert nothing. Without
    a key there is none. -/
def idempotentHit (jobs : Jobs P) (jobType : String) (idempotencyKey : Option String) :
    Option (BackgroundJob P) :=
  idempotencyKey.bind fun key =>
    jobs.find? fun job => job.jobType = jobType ∧ job.idempotencyKey = some key

section
variable [Payload P] {registry : Registry P} {jobs : Jobs P} {now : Time}
  {jobId jobType l : String} {payload : P}
  {idempotencyKey traceContext tenantId : Option String} {notBefore : Option Time}
  {job : BackgroundJob P}

/-- The row `enqueue` inserts for a job type and payload it accepts. -/
def enqueue (registry : Registry P) (now : Time) (jobId jobType : String) (payload : P)
    (idempotencyKey traceContext tenantId : Option String) (notBefore : Option Time) :
    Except EnqueueError (BackgroundJob P) :=
  match registry jobType with
  | none => .error (.unknownJobType s!"Job type not registered: {jobType}")
  | some reg =>
    match reg.schema payload with
    | some exc => .error (.schemaViolation s!"Invalid payload for {jobType}: {exc}")
    | none =>
      .ok { jobId, jobType, payload, state := .pending, attempts := 0,
            maxAttempts := reg.maxAttempts, notBefore := notBefore.getD now, claimedBy := none,
            claimExpiresAt := none, idempotencyKey, traceContext, lastError := none,
            tenantId := tenantId.or (Payload.tenantId payload),
            succeededAt := none, deadLetteredAt := none }

/-- An enqueued job waits, unclaimed, with no attempt made. -/
theorem enqueue_ok
    (h : enqueue registry now jobId jobType payload idempotencyKey traceContext tenantId notBefore =
      .ok job) :
    job.jobId = jobId ∧ job.state = .pending ∧ job.attempts = 0 ∧ job.claimExpiresAt = none ∧
      ∃ reg, registry jobType = some reg ∧ job.maxAttempts = reg.maxAttempts := by
  unfold enqueue at h
  split at h
  · cases h
  · rename_i reg hreg
    split at h
    · cases h
    · cases h
      exact ⟨rfl, rfl, rfl, rfl, reg, hreg, rfl⟩

/-- An enqueued job has the id, the type and the key it was asked for. -/
theorem enqueue_columns
    (h : enqueue registry now jobId jobType payload idempotencyKey traceContext tenantId notBefore =
      .ok job) :
    job.jobId = jobId ∧ job.jobType = jobType ∧ job.idempotencyKey = idempotencyKey := by
  unfold enqueue at h
  split at h
  · cases h
  · split at h
    · cases h
    · cases h
      exact ⟨rfl, rfl, rfl⟩

theorem find_enqueue (hnone : find jobs jobId = none)
    (h : enqueue registry now jobId jobType payload idempotencyKey traceContext tenantId notBefore =
      .ok job) :
    find (jobs ++ [job]) l = if l = jobId then some job else find jobs l := by
  obtain ⟨hid, _⟩ := enqueue_ok h
  subst hid
  exact find_append hnone

end

-- ---------------------------------------------------------------------------
-- Claim and reap
-- ---------------------------------------------------------------------------

/-- `DEFAULT_CLAIM_TTL_SECONDS`. -/
def claimTtl : Time := Time.seconds 300

/-- The `WHERE` of the claim query. -/
def claimable (now : Time) (job : BackgroundJob P) : Bool :=
  job.state = .pending ∧ job.notBefore ≤ now

def claim (workerId : String) (now : Time) (job : BackgroundJob P) : BackgroundJob P :=
  { job with
    state := .claimed
    claimedBy := some workerId
    claimExpiresAt := some (now + claimTtl) }

theorem find_claim {workerId jobId l : String} {now : Time} {jobs : Jobs P} :
    find (set jobs jobId (claim workerId now)) l =
      if l = jobId then (find jobs jobId).map (claim workerId now) else find jobs l :=
  find_set fun _ => rfl

/-- The `WHERE` of the reaper. A null deadline compares as unknown, so a row
    without one is not selected. -/
def expired (now : Time) (job : BackgroundJob P) : Bool :=
  (job.state = .claimed ∨ job.state = .running) ∧ job.claimExpiresAt.any (· < now)

/-- What the reaper writes to a row it selects. -/
def release (job : BackgroundJob P) : BackgroundJob P :=
  { job with state := .pending, claimedBy := none, claimExpiresAt := none }

def reapExpiredClaims (now : Time) (jobs : Jobs P) : Jobs P :=
  jobs.map fun job => if expired now job then release job else job

theorem find_reapExpiredClaims (now : Time) (jobs : Jobs P) (jobId : String) :
    find (reapExpiredClaims now jobs) jobId =
      (find jobs jobId).map fun job => if expired now job then release job else job := by
  refine Table.lookup_map (fun job => ?_)
  split <;> rfl

-- ---------------------------------------------------------------------------
-- Marks
-- ---------------------------------------------------------------------------

def markRunning (job : BackgroundJob P) : BackgroundJob P :=
  { job with state := .running }

def markSucceeded (now : Time) (job : BackgroundJob P) : BackgroundJob P :=
  { job with
    state := .succeeded
    succeededAt := some now
    claimedBy := none
    claimExpiresAt := none }

/-- `BASE_DELAYS`, in seconds. -/
def baseDelays : List Int := [1, 4, 16, 64, 256]

/-- The retry delay before the given attempt. `draw` is the value of
    `random.random()` in millionths. -/
def computeBackoffSeconds (attempt : Nat) (draw : Int) : Time :=
  let base := baseDelays.getD (min attempt (baseDelays.length - 1)) 0
  let jitter := base * (2 * draw - 1000000) / 4
  max 0 (Time.seconds base + jitter)

/-- `mark_failed` on the object in memory. `scrubValue` is the log scrubber. -/
def markFailed (scrubValue : String → String) (now : Time) (draw : Int) (error : String)
    (nonRetryable : Bool) (job : BackgroundJob P) : BackgroundJob P :=
  let job :=
    { job with
      attempts := job.attempts + 1
      lastError := some (scrubValue (String.ofList (error.toList.take 4096)))
      claimedBy := none
      claimExpiresAt := none }
  if nonRetryable ∨ job.attempts ≥ job.maxAttempts then
    { job with state := .deadLettered, deadLetteredAt := some now }
  else
    { job with
      state := .pending
      notBefore := now + computeBackoffSeconds (job.attempts - 1) draw }

-- ---------------------------------------------------------------------------
-- Flush
-- ---------------------------------------------------------------------------

/-- A column of the `UPDATE` a flush emits: set when it changed in memory, and
    left as the row has it otherwise. -/
def changed {α : Type} [DecidableEq α] (loaded object row : α) : α :=
  if object = loaded then row else object

@[simp] theorem changed_loaded {α : Type} [DecidableEq α] {a b : α} : changed a b a = b := by
  unfold changed
  split <;> simp_all

@[simp] theorem changed_same {α : Type} [DecidableEq α] {a b : α} : changed a a b = b := by
  simp [changed]

theorem changed_ne {α : Type} [DecidableEq α] {loaded object row : α} (h : object ≠ loaded) :
    changed loaded object row = object := by
  simp [changed, h]

/-- The row after the flush of an object that was loaded as `loaded`. -/
def flushColumns (loaded object row : BackgroundJob P) : BackgroundJob P :=
  { row with
    state := changed loaded.state object.state row.state
    attempts := changed loaded.attempts object.attempts row.attempts
    notBefore := changed loaded.notBefore object.notBefore row.notBefore
    claimedBy := changed loaded.claimedBy object.claimedBy row.claimedBy
    claimExpiresAt := changed loaded.claimExpiresAt object.claimExpiresAt row.claimExpiresAt
    lastError := changed loaded.lastError object.lastError row.lastError
    succeededAt := changed loaded.succeededAt object.succeededAt row.succeededAt
    deadLetteredAt := changed loaded.deadLetteredAt object.deadLetteredAt row.deadLetteredAt }

/-- The `CHECK` constraint `attempts_bounded`. The other one, `valid_state`, holds by
    type. -/
def attemptsBounded (row : BackgroundJob P) : Bool :=
  row.attempts ≤ row.maxAttempts

@[simp] theorem flushColumns_jobId (loaded object row : BackgroundJob P) :
    (flushColumns loaded object row).jobId = row.jobId := rfl

@[simp] theorem flushColumns_maxAttempts (loaded object row : BackgroundJob P) :
    (flushColumns loaded object row).maxAttempts = row.maxAttempts := rfl

/-- On the row the object was loaded from, a flush of `mark_running` stores the object. -/
theorem flushColumns_markRunning (job : BackgroundJob P) :
    flushColumns job (markRunning job) job = markRunning job := by
  simp [flushColumns, markRunning]

theorem flushColumns_markSucceeded (now : Time) (job : BackgroundJob P) :
    flushColumns job (markSucceeded now job) job = markSucceeded now job := by
  simp [flushColumns, markSucceeded]

theorem flushColumns_markFailed (scrubValue : String → String) (now : Time) (draw : Int)
    (error : String) (nonRetryable : Bool) (job : BackgroundJob P) :
    flushColumns job (markFailed scrubValue now draw error nonRetryable job) job =
      markFailed scrubValue now draw error nonRetryable job := by
  simp only [markFailed]
  split <;> simp [flushColumns]

/-- A failed job is either waiting for its next attempt or dead-lettered. -/
theorem markFailed_state (scrubValue : String → String) (now : Time) (draw : Int) (error : String)
    (nonRetryable : Bool) (job : BackgroundJob P) :
    let job' := markFailed scrubValue now draw error nonRetryable job
    job'.attempts = job.attempts + 1 ∧ job'.claimedBy = none ∧ job'.claimExpiresAt = none ∧
      ((job'.state = .pending ∧ job.attempts + 1 < job.maxAttempts) ∨
        job'.state = .deadLettered) := by
  simp only [markFailed]
  split
  · simp
  · rename_i h
    simp only [not_or, ge_iff_le, Nat.not_le] at h
    simp [h.2]

@[simp] theorem markFailed_jobId (scrubValue : String → String) (now : Time) (draw : Int)
    (error : String) (nonRetryable : Bool) (job : BackgroundJob P) :
    (markFailed scrubValue now draw error nonRetryable job).jobId = job.jobId := by
  simp only [markFailed]
  split <;> rfl

end Queue
