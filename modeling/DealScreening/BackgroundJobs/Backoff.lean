-- SUMMARY: The retry delays add up: no attempt at a job starts before the least delays of all attempts before it have passed, whatever stale workers and the reaper do.
import DealScreening.BackgroundJobs.Budget

/-!
# Back-off

The delay before a retry is one of five, with a quarter of it more or less. A failure writes
the number of attempts and the time of the next one together, from the object of the worker:
also when the worker is stale, the row it leaves is no further than the time that has passed.
-/

namespace Worker

open Queue

variable {P : Type} {s t u : St P} {as : List (Act P)} {jobId : String} {limit : Nat} {start : Time}

-- ---------------------------------------------------------------------------
-- Delays
-- ---------------------------------------------------------------------------

/-- The least delay before the retry after an attempt. -/
def leastDelay (attempt : Nat) : Time :=
  Time.seconds (baseDelays.getD (min attempt (baseDelays.length - 1)) 0) * 3 / 4

/-- The least delays before the retries after the first attempts, together. -/
def leastDelays : Nat → Time
  | 0 => 0
  | attempts + 1 => leastDelays attempts + leastDelay attempts

theorem baseDelays_pos (attempt : Nat) :
    1 ≤ baseDelays.getD (min attempt (baseDelays.length - 1)) 0 := by
  have hall : ∀ n < 5, 1 ≤ baseDelays.getD n 0 := by decide
  refine hall _ ?_
  change min attempt 4 < 5
  omega

theorem leastDelay_pos (attempt : Nat) : 0 < leastDelay attempt := by
  have key : ∀ base : Int, 1 ≤ base → 0 < base * 1000000 * 3 / 4 := by
    intro base h
    omega
  exact key _ (baseDelays_pos attempt)

/-- The draw of the jitter is not below zero. -/
theorem leastDelay_le (attempt : Nat) {draw : Int} (hdraw : 0 ≤ draw) :
    leastDelay attempt ≤ computeBackoffSeconds attempt draw := by
  have key : ∀ base : Int, 1 ≤ base →
      base * 1000000 * 3 / 4 ≤ max 0 (base * 1000000 + base * (2 * draw - 1000000) / 4) := by
    intro base h
    have hjitter : base * -1000000 ≤ base * (2 * draw - 1000000) :=
      Int.mul_le_mul_of_nonneg_left (by omega) (by omega)
    omega
  exact key _ (baseDelays_pos attempt)

-- ---------------------------------------------------------------------------
-- The delays that have passed
-- ---------------------------------------------------------------------------

/-- When the job may be attempted next, the delays for its attempts have passed since `start`. -/
def Waited (start : Time) (row : BackgroundJob P) : Prop :=
  row.state = .pending ∨ row.claimExpiresAt ≠ none → start + leastDelays row.attempts ≤ row.notBefore

/-- The delays that the rows and the objects of the job stand for have passed. -/
structure Spaced (jobId : String) (start : Time) (s : St P) : Prop where
  issued : jobId ∈ s.issued
  row : ∀ row, find s.jobs jobId = some row → Waited start row
  object : ∀ w job, (s.slots w).job? = some job → job.jobId = jobId →
    start + leastDelays job.attempts ≤ job.notBefore ∧ job.notBefore ≤ s.clock

/-- The jitter of every failure is drawn from the numbers not below zero. -/
def Drawn : Act P → Prop
  | .markFailed _ _ draw => 0 ≤ draw
  | _ => True

/-- A failure moves the next attempt by the delay for the object. -/
theorem Waited.markFailed {scrubValue : String → String} {draw : Int} {error : String}
    {nonRetryable : Bool} {job row : BackgroundJob P} {written : JobState} {now : Time}
    (hdraw : 0 ≤ draw) (hjob : ObjectOk job written) (hheld : written = .claimed ∨ written = .running)
    (hspaced : start + leastDelays job.attempts ≤ job.notBefore) (hclock : job.notBefore ≤ now) :
    Waited start (flushColumns job (Queue.markFailed scrubValue now draw error nonRetryable job) row) := by
  obtain ⟨hatt, hexp, hstate⟩ := flushColumns_failed scrubValue now draw error nonRetryable row hjob hheld
  intro hwaiting
  rcases hstate with ⟨hpending, hleft⟩ | hdead
  · -- The new time differs from the one the object was loaded with, so that it is written.
    have hdelay := leastDelay_le job.attempts hdraw
    have hpos := leastDelay_pos job.attempts
    have hnot : ¬ (nonRetryable = true ∨ job.attempts + 1 ≥ job.maxAttempts) := by
      intro hfinal
      have hdead : (Queue.markFailed scrubValue now draw error nonRetryable job).state = .deadLettered := by
        simp only [Queue.markFailed, if_pos hfinal]
      have hne : JobState.deadLettered ≠ job.state := by
        rw [hjob.state]
        rcases hheld with rfl | rfl <;> simp
      have hwritten : (flushColumns job (Queue.markFailed scrubValue now draw error nonRetryable job)
          row).state = .deadLettered := by
        simp only [flushColumns, hdead]
        exact changed_ne hne
      rw [hwritten] at hpending
      cases hpending
    have htime : (Queue.markFailed scrubValue now draw error nonRetryable job).notBefore =
        now + computeBackoffSeconds job.attempts draw := by
      simp only [Queue.markFailed, if_neg hnot, Nat.add_sub_cancel]
    have hrow : (flushColumns job (Queue.markFailed scrubValue now draw error nonRetryable job)
        row).notBefore = now + computeBackoffSeconds job.attempts draw := by
      refine (changed_ne ?_).trans htime
      rw [htime]
      exact (lt_of_le_of_lt hclock (lt_add_of_pos_right now (hpos.trans_le hdelay))).ne'
    rw [hatt, hrow, leastDelays, ← add_assoc]
    exact add_le_add (hspaced.trans hclock) hdelay
  · simp [hdead, hexp] at hwaiting

/-- What a step does to the row keeps the delays. -/
theorem Spaced.rowChange {scrubValue : String → String} {a : Act P} {row row' : BackgroundJob P}
    (h : Spaced jobId start s) (ho : Orderly limit s) (hdrawn : Drawn a)
    (hrow : find s.jobs jobId = some row) (hchange : RowChange scrubValue s row a row') :
    Waited start row' := by
  have hwaited := h.row row hrow
  have hid := find_jobId hrow
  cases hchange with
  | unchanged => exact hwaited
  | claim hready =>
    simp only [claimable, decide_eq_true_eq] at hready
    exact fun _ => hwaited (.inl hready.1)
  | release hexpired =>
    have hdeadline : row.claimExpiresAt ≠ none := fun hnone => by simp [expired, hnone] at hexpired
    exact fun _ => hwaited (.inr hdeadline)
  | @markRunning w job hslot =>
    have hjob := (ho.object w job (by rw [hslot]; rfl)).1
    rw [hslot] at hjob
    rw [flushColumns_running hjob.state]
    exact fun hwaiting => hwaited (.inr (hwaiting.resolve_left (by simp)))
  | @markSucceeded w job hslot =>
    have hjob := (ho.object w job (by rw [hslot]; rfl)).1
    rw [hslot] at hjob
    obtain ⟨hstate, -, hexp⟩ := flushColumns_succeeded s.clock row hjob
    intro hwaiting
    simp [hstate, hexp] at hwaiting
  | @markFailed w draw job error nonRetryable hslot hsame =>
    obtain ⟨hspaced, hclock⟩ := h.object w job hslot (hsame.trans hid)
    exact Waited.markFailed hdrawn (ho.object w job hslot).1 (Slot.written_held _) hspaced hclock

variable [Payload P] {registry : Registry P} {scrubValue : String → String}

/-- Time does not go back. -/
theorem clock_le {a : Act P} (hstep : step registry scrubValue s a = some t) : s.clock ≤ t.clock := by
  cases a with
  | enqueue newId jobType payload idempotencyKey traceContext tenantId notBefore =>
    obtain ⟨_, _, _, _, rfl⟩ := enqueue_cases hstep
    exact le_refl _
  | claim w claimedId =>
    obtain ⟨_, _, _, _, rfl⟩ := claim_cases hstep
    exact le_refl _
  | markRunning w =>
    obtain ⟨_, _, _, _, rfl⟩ := markRunning_cases hstep
    exact le_refl _
  | markSucceeded w =>
    obtain ⟨_, _, _, _, rfl⟩ := markSucceeded_cases hstep
    exact le_refl _
  | markFailed w failedId draw =>
    obtain ⟨_, _, _, _, _, _, _, rfl⟩ := markFailed_cases hstep
    exact le_refl _
  | handlerStart w =>
    obtain ⟨_, _, rfl⟩ := handlerStart_cases hstep
    exact le_refl _
  | handlerEnd w outcome =>
    obtain ⟨_, _, rfl⟩ := handlerEnd_cases hstep
    exact le_refl _
  | dropJob droppedId =>
    obtain ⟨_, _, _, rfl⟩ := dropJob_cases hstep
    exact le_refl _
  | reap | crash w =>
    simp only [step, Option.some.injEq] at hstep
    subst hstep
    exact le_refl _
  | advance d =>
    simp only [step, Option.some.injEq] at hstep
    subst hstep
    exact Int.le_add_of_nonneg_right (Int.natCast_nonneg d)

theorem spaced_step {a : Act P} (h : Spaced jobId start s) (ho : Orderly limit s) (hdrawn : Drawn a)
    (hstep : step registry scrubValue s a = some t) : Spaced jobId start t := by
  refine ⟨issued_mono hstep h.issued, fun row hrow => ?_, fun w job hjob hid => ?_⟩
  · cases hold : find s.jobs jobId with
    | none =>
      obtain ⟨-, hnone | ⟨_, -, hfresh, -⟩⟩ := step_absent hstep hold
      · rw [hnone] at hrow
        cases hrow
      · exact absurd h.issued hfresh
    | some old =>
      by_cases hdrop : a = .dropJob jobId
      · subst hdrop
        obtain ⟨_, _, _, rfl⟩ := dropJob_cases hstep
        rw [find_drop, if_pos rfl] at hrow
        cases hrow
      · obtain ⟨row', hrow', hchange⟩ := step_row hstep hold hdrop
        cases hrow.symm.trans hrow'
        exact h.rowChange ho hdrawn hold hchange
  · rcases (step_slot hstep w).object hjob with ⟨old, hold, heq, -⟩ | ⟨row, -, hrow, hready, -, heq⟩
    · rw [heq] at hid ⊢
      obtain ⟨hspaced, hclock⟩ := h.object w old hold hid
      exact ⟨hspaced, hclock.trans (clock_le hstep)⟩
    · rw [hid] at hrow
      simp only [claimable, decide_eq_true_eq] at hready
      rw [heq]
      exact ⟨h.row row hrow (.inl hready.1), hready.2.trans (clock_le hstep)⟩

/-- A job is enqueued with no attempt made. -/
theorem spaced_enqueue {jobType : String} {payload : P}
    {idempotencyKey traceContext tenantId : Option String} {notBefore : Option Time}
    (ho : Orderly limit s)
    (hstep : step registry scrubValue s
      (.enqueue jobId jobType payload idempotencyKey traceContext tenantId notBefore) = some t) :
    Spaced jobId (notBefore.getD s.clock) t := by
  obtain ⟨new, hnone, hfresh, hnew, rfl⟩ := enqueue_cases hstep
  refine ⟨List.mem_cons_self .., fun row hrow _ => ?_, fun w job hjob hid => ?_⟩
  · rw [find_enqueue hnone hnew, if_pos rfl] at hrow
    obtain rfl := Option.some.inj hrow
    obtain ⟨-, -, hatt, -⟩ := enqueue_ok hnew
    have htime : new.notBefore = notBefore.getD s.clock := by
      unfold Queue.enqueue at hnew
      split at hnew
      · cases hnew
      · split at hnew
        · cases hnew
        · cases hnew
          rfl
    rw [hatt, htime]
    exact (add_zero _).le
  · exact absurd (hid ▸ (ho.object w job hjob).2.1) hfresh

/-- A slot that has an object of a job which was enqueued for the time `start`, or for now,
    holds it no earlier than the delays for the attempts before: in every run, with any claims
    taken away and any marks of stale workers. -/
theorem attempts_spaced {jobType : String} {payload : P}
    {idempotencyKey traceContext tenantId : Option String} {notBefore : Option Time} {pre : List (Act P)}
    (hmax : ∀ jobType reg, registry jobType = some reg →
      1 ≤ reg.maxAttempts ∧ reg.maxAttempts ≤ limit)
    (hdrawn : ∀ a ∈ as, Drawn a) (hpre : Run.exec (step registry scrubValue) init pre = some s)
    (henqueue : step registry scrubValue s
      (.enqueue jobId jobType payload idempotencyKey traceContext tenantId notBefore) = some u)
    (hrun : Run.exec (step registry scrubValue) u as = some t) (w : String) (job : BackgroundJob P)
    (hslot : (t.slots w).job? = some job) (hid : job.jobId = jobId) :
    notBefore.getD s.clock + leastDelays ((jobContext job).attempt - 1) ≤ t.clock := by
  have hs : Orderly limit s := Run.invariant (fun h hstep => orderly_step h hmax hstep) orderly_init hpre
  have hu := orderly_step hs hmax henqueue
  have hguard : Run.Guarded (step registry scrubValue) (fun _ a => Drawn a) u as :=
    (Run.guarded_actions hrun).mpr hdrawn
  have hkeep : ∀ {v a v'}, (Orderly limit v ∧ Spaced jobId (notBefore.getD s.clock) v) → Drawn a →
      step registry scrubValue v a = some v' →
      Orderly limit v' ∧ Spaced jobId (notBefore.getD s.clock) v' := fun h hok hstep =>
    ⟨orderly_step h.1 hmax hstep, spaced_step h.2 h.1 hok hstep⟩
  have ht := hguard.invariant hkeep ⟨hu, spaced_enqueue hs henqueue⟩ hrun
  obtain ⟨hspaced, hclock⟩ := ht.2.object w job hslot hid
  exact hspaced.trans hclock

/-- A slot runs the handler of `"j"` for the second time, a second after its first failure. -/
def secondAttempt : List (Act ExtractionJob) :=
  [.claim "w" "j", .markRunning "w", .handlerStart "w", .handlerEnd "w" (.raised "boom" false),
    .markFailed "w" "j" 500000, .advance 1000000, .claim "w'" "j", .markRunning "w'",
    .handlerStart "w'"]

theorem attempts_spaced_second :
    ∃ (t : St ExtractionJob) (job : BackgroundJob ExtractionJob),
      (t.slots "w'").job? = some job ∧ (jobContext job).attempt = 2 ∧
      (none : Option Time).getD (init : St ExtractionJob).clock +
        leastDelays ((jobContext job).attempt - 1) ≤ t.clock := by
  have hobject : (Run.exec (step extractionRegistry id) init
      (.enqueue "j" "extraction" ⟨1, 2⟩ none none none none :: secondAttempt)).bind
        (fun t => (t.slots "w'").job?.map fun job => (job.jobId, job.attempts)) = some ("j", 1) := by
    decide
  obtain ⟨t, ht, hjob⟩ := Option.bind_eq_some_iff.mp hobject
  obtain ⟨u, hu, ht⟩ := Run.exec_cons_eq_some.mp ht
  obtain ⟨job, hjob, heq⟩ := Option.map_eq_some_iff.mp hjob
  obtain ⟨hid, hatt⟩ := Prod.mk.inj heq
  have hdrawn : ∀ a ∈ secondAttempt, Drawn a := by simp [secondAttempt, Drawn]
  refine ⟨t, job, hjob, by rw [jobContext, hatt],
    attempts_spaced extractionRegistry_limit hdrawn Run.exec_nil hu ht "w'" job hjob hid⟩

end Worker
