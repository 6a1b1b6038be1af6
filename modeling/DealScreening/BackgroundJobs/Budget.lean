-- SUMMARY: The attempts of a job are bounded in every run: a job is claimed at most so many times as it may be attempted, and as often again for each time the reaper takes a claim on it away.
import DealScreening.BackgroundJobs.Accounting
import DealScreening.Lib.Amortised

/-!
# Budget

A worker that lost its claim may still write its mark, and return a job to the queue that is
done or that another worker has. It can do so once, with the attempts of the object it holds:
a waiting row and an object in a slot each stand for the attempts they leave, and what a
claim uses up is never more than what they stand for. Only the reaper gives attempts back.
-/

namespace Worker

open Queue

variable {P : Type} {s t : St P} {as : List (Act P)} {jobId : String} {limit : Nat}

-- ---------------------------------------------------------------------------
-- What is counted
-- ---------------------------------------------------------------------------

/-- The slot that takes the step. -/
def Act.slot? : Act P → Option String
  | .claim w _ | .markRunning w | .handlerStart w | .handlerEnd w _ | .markSucceeded w
  | .markFailed w _ _ | .crash w => some w
  | _ => none

/-- The names of the slots of a run. -/
def slotNames (as : List (Act P)) : Finset String := (as.filterMap Act.slot?).toFinset

def isClaim (jobId : String) : Act P → Bool
  | .claim _ jobId' => jobId' = jobId
  | _ => false

/-- The claims of the job. -/
def claims (jobId : String) (as : List (Act P)) : Nat := as.countP (isClaim jobId)

/-- The handler is called with the job. -/
def starts (jobId : String) (s : St P) : Act P → Nat
  | .handlerStart w =>
    match (s.slots w).job? with
    | some job => if job.jobId = jobId then 1 else 0
    | none => 0
  | _ => 0

/-- The reaper takes a claim on the job away. -/
def releases (jobId : String) (s : St P) : Act P → Nat
  | .reap =>
    match find s.jobs jobId with
    | some row => if expired s.clock row then 1 else 0
    | none => 0
  | _ => 0

-- ---------------------------------------------------------------------------
-- Order
-- ---------------------------------------------------------------------------

/-- What holds in every run, also when jobs are dropped: a slot may hold an object whose row
    is gone. -/
structure Orderly (limit : Nat) (s : St P) : Prop where
  row : ∀ jobId row, find s.jobs jobId = some row →
    RowOk row ∧ row.maxAttempts ≤ limit ∧ jobId ∈ s.issued
  object : ∀ w job, (s.slots w).job? = some job → ObjectOk job (s.slots w).written ∧
    job.jobId ∈ s.issued ∧ ∀ row, find s.jobs job.jobId = some row → row.maxAttempts = job.maxAttempts

theorem orderly_init : Orderly limit (init : St P) where
  row := fun _ _ h => by cases h
  object := fun _ _ h => by cases h

theorem Orderly.rowChange {scrubValue : String → String} {a : Act P} {row row' : BackgroundJob P}
    (h : Orderly limit s) (hrow : find s.jobs jobId = some row)
    (hchange : RowChange scrubValue s row a row') :
    RowOk row' ∧ row'.maxAttempts = row.maxAttempts := by
  refine (h.row jobId row hrow).1.change (fun w job hslot hid => ?_) hchange
  obtain ⟨hjob, -, hmax⟩ := h.object w job hslot
  rw [hid, find_jobId hrow] at hmax
  exact ⟨hjob, hmax row hrow⟩

/-- The object in a slot was there before, but for its state, or was just claimed. -/
theorem SlotChange.object {w : String} {a : Act P} {x : Slot P} {job : BackgroundJob P}
    (hchange : SlotChange s w a x) (hjob : x.job? = some job) :
    (∃ old, (s.slots w).job? = some old ∧ job = { old with state := job.state } ∧
      (ObjectOk old (s.slots w).written → ObjectOk job x.written)) ∨
    ∃ row, a = .claim w job.jobId ∧ find s.jobs job.jobId = some row ∧
      claimable s.clock row = true ∧ x = .claimed job ∧ job = Queue.claim w s.clock row := by
  cases hchange with
  | unchanged => exact .inl ⟨job, hjob, rfl, id⟩
  | idle => cases hjob
  | @claim row jobId hrow hready =>
    cases hjob
    have hid : (Queue.claim w s.clock row).jobId = jobId := (rfl : _ = row.jobId).trans (find_jobId hrow)
    exact .inr ⟨row, by rw [hid], by rw [hid, hrow], hready, rfl, rfl⟩
  | @markRunning old hslot =>
    cases hjob
    refine .inl ⟨old, by rw [hslot]; rfl, rfl, fun hok => ?_⟩
    exact ⟨rfl, hok.claimedBy, hok.deadline, hok.attemptLeft⟩
  | @handlerStart old hslot =>
    obtain rfl := Option.some.inj hjob
    refine .inl ⟨_, by rw [hslot]; rfl, rfl, fun hok => ?_⟩
    rw [hslot] at hok
    exact hok
  | @handlerEnd old outcome hslot =>
    obtain rfl := Option.some.inj hjob
    refine .inl ⟨_, by rw [hslot]; rfl, rfl, fun hok => ?_⟩
    rw [hslot] at hok
    exact hok

-- ---------------------------------------------------------------------------
-- What is left
-- ---------------------------------------------------------------------------

/-- The attempts that a waiting row stands for. -/
def left (row : BackgroundJob P) : Nat :=
  if row.state = .pending then row.maxAttempts - row.attempts else 0

/-- The attempts that the row of the job stands for. -/
def rowLeft (jobId : String) (s : St P) : Nat :=
  match find s.jobs jobId with
  | some row => left row
  | none => 0

/-- The attempts that a slot leaves to the job when its object fails. -/
def slotLeft (jobId : String) (x : Slot P) : Nat :=
  match x.job? with
  | some job => if job.jobId = jobId then job.maxAttempts - (job.attempts + 1) else 0
  | none => 0

/-- All attempts that the job may still use, without the reaper. -/
def allLeft (limit : Nat) (jobId : String) (names : Finset String) (s : St P) : Nat :=
  if jobId ∈ s.issued then rowLeft jobId s + ∑ w ∈ names, slotLeft jobId (s.slots w) else limit

/-- The slot has claimed the job and has not called its handler. -/
def beforeStart (jobId : String) : Slot P → Nat
  | .claimed job | .running job => if job.jobId = jobId then 1 else 0
  | _ => 0

theorem left_of_not_pending {row : BackgroundJob P} (h : row.state ≠ .pending) : left row = 0 :=
  if_neg h

theorem left_claim (w : String) (now : Time) (row : BackgroundJob P) : left (claim w now row) = 0 :=
  left_of_not_pending nofun

theorem left_running (row : BackgroundJob P) : left { row with state := .running } = 0 :=
  left_of_not_pending nofun

theorem rowLeft_of_find {row : BackgroundJob P} (h : find s.jobs jobId = some row) :
    rowLeft jobId s = left row := by
  simp only [rowLeft, h]

theorem rowLeft_of_none (h : find s.jobs jobId = none) : rowLeft jobId s = 0 := by
  simp only [rowLeft, h]

theorem slotLeft_of_job {x : Slot P} {job : BackgroundJob P} (h : x.job? = some job) :
    slotLeft jobId x = if job.jobId = jobId then job.maxAttempts - (job.attempts + 1) else 0 := by
  simp only [slotLeft, h]

theorem left_le (row : BackgroundJob P) : left row ≤ row.maxAttempts := by
  unfold left
  split <;> omega

-- ---------------------------------------------------------------------------
-- What a step does to them
-- ---------------------------------------------------------------------------

variable [Payload P] {registry : Registry P} {scrubValue : String → String}

theorem orderly_step {a : Act P} (h : Orderly limit s)
    (hmax : ∀ jobType reg, registry jobType = some reg →
      1 ≤ reg.maxAttempts ∧ reg.maxAttempts ≤ limit)
    (hstep : step registry scrubValue s a = some t) : Orderly limit t := by
  have hback : ∀ jobId row, find t.jobs jobId = some row → jobId ∈ s.issued →
      ∃ old, find s.jobs jobId = some old ∧ RowOk row ∧ row.maxAttempts = old.maxAttempts := by
    intro jobId row hrow hissued
    cases hold : find s.jobs jobId with
    | none =>
      obtain ⟨-, hnone | ⟨_, -, hfresh, -⟩⟩ := step_absent hstep hold
      · rw [hnone] at hrow
        cases hrow
      · exact absurd hissued hfresh
    | some old =>
      by_cases hdrop : a = .dropJob jobId
      · subst hdrop
        obtain ⟨_, _, _, rfl⟩ := dropJob_cases hstep
        rw [find_drop, if_pos rfl] at hrow
        cases hrow
      · obtain ⟨row', hrow', hchange⟩ := step_row hstep hold hdrop
        cases hrow.symm.trans hrow'
        exact ⟨old, rfl, h.rowChange hold hchange⟩
  constructor
  · intro jobId row hrow
    by_cases hissued : jobId ∈ s.issued
    · obtain ⟨old, hold, hok, hlimit⟩ := hback jobId row hrow hissued
      exact ⟨hok, hlimit ▸ (h.row jobId old hold).2.1, issued_mono hstep hissued⟩
    · have hnone : find s.jobs jobId = none := by
        by_contra hsome
        obtain ⟨old, hold⟩ := Option.ne_none_iff_exists'.mp hsome
        exact hissued (h.row jobId old hold).2.2
      obtain ⟨-, hgone | ⟨new, hnew, -, hmem, hstate, hatt, hexp, jobType, reg, hreg, hmaxeq⟩⟩ :=
        step_absent hstep hnone
      · rw [hgone] at hrow
        cases hrow
      · cases hrow.symm.trans hnew
        obtain ⟨hone, hle⟩ := hmax jobType reg hreg
        refine ⟨⟨by simp [hstate], by omega, fun _ => by omega, fun hne => absurd hexp hne⟩, ?_, hmem⟩
        omega
  · intro w job hjob
    rcases (step_slot hstep w).object hjob with ⟨old, hold, heq, hok⟩ | ⟨row, -, hrow, hready, hx, heq⟩
    · obtain ⟨holdOk, hissued, hlimit⟩ := h.object w old hold
      have hid : job.jobId = old.jobId := by rw [heq]
      have hmaxeq : job.maxAttempts = old.maxAttempts := by rw [heq]
      refine ⟨hok holdOk, hid ▸ issued_mono hstep hissued, fun row hrow => ?_⟩
      obtain ⟨row₀, hrow₀, -, hsame⟩ := hback job.jobId row hrow (hid ▸ hissued)
      rw [hsame, hmaxeq, hlimit row₀ (hid ▸ hrow₀)]
    · obtain ⟨hrowOk, -, hissued⟩ := h.row _ row hrow
      simp only [claimable, decide_eq_true_eq] at hready
      have hleft := hrowOk.attemptLeft (.inl hready.1)
      refine ⟨?_, issued_mono hstep hissued, fun row' hrow' => ?_⟩
      · rw [hx, heq]
        exact ⟨rfl, by simp [claim], by simp [claim], hleft⟩
      · obtain ⟨row₀, hrow₀, -, hsame⟩ := hback job.jobId row' hrow' hissued
        cases hrow.symm.trans hrow₀
        rw [hsame, heq]
        rfl

/-- No step but a failure and the reaper leaves the row more. -/
theorem rowLeft_le {a : Act P} (h : Orderly limit s) (hissued : jobId ∈ s.issued)
    (hstep : step registry scrubValue s a = some t) (hreap : a ≠ .reap)
    (hfail : ∀ w draw, a ≠ .markFailed w jobId draw) : rowLeft jobId t ≤ rowLeft jobId s := by
  cases hold : find s.jobs jobId with
  | none =>
    obtain ⟨-, hnone | ⟨_, -, hfresh, -⟩⟩ := step_absent hstep hold
    · rw [rowLeft_of_none hnone]
      exact Nat.zero_le _
    · exact absurd hissued hfresh
  | some row =>
    by_cases hdrop : a = .dropJob jobId
    · subst hdrop
      obtain ⟨_, _, _, rfl⟩ := dropJob_cases hstep
      rw [rowLeft_of_none (by rw [find_drop, if_pos rfl])]
      exact Nat.zero_le _
    · obtain ⟨row', hrow', hchange⟩ := step_row hstep hold hdrop
      have hid := find_jobId hold
      rw [rowLeft_of_find hold, rowLeft_of_find hrow']
      cases hchange with
      | unchanged => exact Nat.le_refl _
      | claim =>
        rw [left_claim]
        exact Nat.zero_le _
      | @markRunning w job hslot =>
        have hjob := (h.object w job (by rw [hslot]; rfl)).1
        rw [hslot] at hjob
        rw [flushColumns_running hjob.state, left_running]
        exact Nat.zero_le _
      | @markSucceeded w job hslot =>
        have hjob := (h.object w job (by rw [hslot]; rfl)).1
        rw [hslot] at hjob
        obtain ⟨hstate, -⟩ := flushColumns_succeeded s.clock row hjob
        rw [left_of_not_pending (by rw [hstate]; nofun)]
        exact Nat.zero_le _
      | markFailed => exact absurd (by rw [hid]) (hfail _ _)
      | release => exact absurd rfl hreap

/-- The reaper gives a job back what its row leaves. -/
theorem rowLeft_reap (h : Orderly limit s) (hstep : step registry scrubValue s .reap = some t) :
    rowLeft jobId t ≤ rowLeft jobId s + limit * releases jobId s .reap := by
  simp only [step, Option.some.injEq] at hstep
  subst hstep
  cases hold : find s.jobs jobId with
  | none =>
    rw [rowLeft_of_none (by rw [find_reapExpiredClaims, hold, Option.map_none])]
    exact Nat.zero_le _
  | some row =>
    have hnew := find_reapExpiredClaims s.clock s.jobs jobId
    rw [hold, Option.map_some] at hnew
    rw [rowLeft_of_find hnew, rowLeft_of_find hold]
    simp only [releases, hold]
    split
    · have hlimit := (h.row jobId row hold).2.1
      have hleft := left_le (release row)
      have hsame : (release row).maxAttempts = row.maxAttempts := rfl
      omega
    · omega

/-- A failure leaves the row what the object stands for. -/
theorem rowLeft_markFailed {w : String} {draw : Int} (h : Orderly limit s)
    (hstep : step registry scrubValue s (.markFailed w jobId draw) = some t) :
    rowLeft jobId t ≤ slotLeft jobId (s.slots w) ∧ t.slots = Function.update s.slots w .idle := by
  obtain ⟨job, row, error, nonRetryable, hslot, hid, hrow, rfl⟩ := markFailed_cases hstep
  obtain ⟨hjob, -, hmax⟩ := h.object w job hslot
  obtain ⟨hatt, -, hstate⟩ := flushColumns_failed scrubValue s.clock draw error nonRetryable row hjob
    (Slot.written_held _)
  have hnew : find (s.flush w job (markFailed scrubValue s.clock draw error nonRetryable job) .idle).jobs
      jobId = some (flushColumns job (markFailed scrubValue s.clock draw error nonRetryable job) row) := by
    rw [St.find_flush, if_pos hid.symm, hid, hrow, Option.map_some]
  refine ⟨?_, rfl⟩
  rw [rowLeft_of_find hnew, slotLeft_of_job hslot, if_pos hid, left]
  split
  · rw [flushColumns_maxAttempts, hatt, hmax row (hid ▸ hrow)]
  · exact Nat.zero_le _

/-- Only a claim of the job brings an object of it into a slot. -/
theorem slotLeft_le {a : Act P} (hstep : step registry scrubValue s a = some t)
    (hclaim : ∀ w, a ≠ .claim w jobId) (w : String) :
    slotLeft jobId (t.slots w) ≤ slotLeft jobId (s.slots w) := by
  cases hjob : (t.slots w).job? with
  | none =>
    simp only [slotLeft, hjob]
    exact Nat.zero_le _
  | some job =>
    rcases (step_slot hstep w).object hjob with ⟨old, hold, heq, -⟩ | ⟨_, ha, -⟩
    · rw [slotLeft_of_job hjob, slotLeft_of_job hold, heq]
    · rw [slotLeft_of_job hjob, if_neg fun hid => hclaim w (by rw [ha, hid])]
      exact Nat.zero_le _

-- ---------------------------------------------------------------------------
-- The books of a run
-- ---------------------------------------------------------------------------

variable {names : Finset String}

/-- A claim takes one attempt from what is left, and only the reaper brings any. -/
theorem claim_pays {a : Act P} (h : Orderly limit s) (ht : Orderly limit t)
    (hnames : ∀ w, a.slot? = some w → w ∈ names) (hstep : step registry scrubValue s a = some t) :
    (if isClaim jobId a then 1 else 0) + allLeft limit jobId names t ≤
      allLeft limit jobId names s + limit * releases jobId s a := by
  by_cases hclaim : ∃ w, a = .claim w jobId
  case pos =>
    obtain ⟨w, rfl⟩ := hclaim
    obtain ⟨row, hidle, hrow, hready, rfl⟩ := claim_cases hstep
    obtain ⟨hrowOk, -, hissued⟩ := h.row jobId row hrow
    simp only [claimable, decide_eq_true_eq] at hready
    have hleft := hrowOk.attemptLeft (.inl hready.1)
    have hnew : find (set s.jobs jobId (claim w s.clock)) jobId = some (claim w s.clock row) := by
      rw [find_claim, if_pos rfl, hrow, Option.map_some]
    have hsum := Run.sum_update (hnames w rfl) (slotLeft jobId) s.slots (.claimed (claim w s.clock row))
    have hid : (claim w s.clock row).jobId = jobId := (rfl : _ = row.jobId).trans (find_jobId hrow)
    have hobject : slotLeft jobId (.claimed (claim w s.clock row)) = row.maxAttempts - (row.attempts + 1) := by
      rw [slotLeft_of_job rfl, if_pos hid]
      rfl
    have hempty : slotLeft jobId (s.slots w) = 0 := by
      rw [hidle]
      rfl
    have hbefore : rowLeft jobId s = row.maxAttempts - row.attempts := by
      rw [rowLeft_of_find hrow, left, if_pos hready.1]
    simp only [allLeft, if_pos hissued, isClaim, decide_true, if_true]
    rw [rowLeft_of_find hnew, left_claim, hbefore]
    omega
  have hnot : ∀ w, a ≠ .claim w jobId := fun w heq => hclaim ⟨w, heq⟩
  have hgain : isClaim jobId a = false := by
    cases a with
    | claim w jobId' => exact decide_eq_false fun hid => hnot w (by rw [hid])
    | _ => rfl
  have hslots := Finset.sum_le_sum fun w (_ : w ∈ names) => slotLeft_le hstep hnot w
  rw [hgain, if_neg Bool.false_ne_true]
  by_cases hissued : jobId ∈ s.issued
  case neg =>
    simp only [allLeft, if_neg hissued]
    split
    · have hrowLeft : rowLeft jobId t ≤ limit := by
        cases hrow : find t.jobs jobId with
        | none =>
          rw [rowLeft_of_none hrow]
          exact Nat.zero_le _
        | some row =>
          rw [rowLeft_of_find hrow]
          exact (left_le row).trans (ht.row jobId row hrow).2.1
      have hzero : ∑ w ∈ names, slotLeft jobId (s.slots w) = 0 := by
        refine Finset.sum_eq_zero fun w _ => ?_
        cases hjob : (s.slots w).job? with
        | none => simp only [slotLeft, hjob]
        | some job =>
          rw [slotLeft_of_job hjob, if_neg]
          rintro rfl
          exact hissued (h.object w job hjob).2.1
      omega
    · omega
  simp only [allLeft, if_pos hissued, if_pos (issued_mono hstep hissued)]
  by_cases hreap : a = .reap
  · subst hreap
    have hrow : rowLeft jobId t ≤ _ := rowLeft_reap h hstep
    omega
  by_cases hfail : ∃ w draw, a = .markFailed w jobId draw
  · obtain ⟨w, draw, rfl⟩ := hfail
    obtain ⟨hrow, hupdate⟩ := rowLeft_markFailed h hstep
    have hsum := Run.sum_update (hnames w rfl) (slotLeft jobId) s.slots .idle
    have hidle : slotLeft jobId (.idle : Slot P) = 0 := rfl
    rw [hupdate]
    omega
  · have hrow := rowLeft_le h hissued hstep hreap fun w draw heq => hfail ⟨w, draw, heq⟩
    omega

/-- A handler starts in a slot that claimed the job and has not started before. -/
theorem start_pays {a : Act P} (hnames : ∀ w, a.slot? = some w → w ∈ names)
    (hstep : step registry scrubValue s a = some t) :
    starts jobId s a + ∑ w ∈ names, beforeStart jobId (t.slots w) ≤
      (∑ w ∈ names, beforeStart jobId (s.slots w)) + (if isClaim jobId a then 1 else 0) := by
  by_cases hstart : ∃ w, a = .handlerStart w
  · obtain ⟨w, rfl⟩ := hstart
    obtain ⟨job, hslot, rfl⟩ := handlerStart_cases hstep
    have hsum := Run.sum_update (hnames w rfl) (beforeStart jobId) s.slots (.handling job)
    have hstarts : starts jobId s (.handlerStart w) = beforeStart jobId (s.slots w) := by
      simp only [starts, hslot, Slot.job?_running, beforeStart]
    have hdone : beforeStart jobId (.handling job) = 0 := rfl
    simp only [St.setSlot]
    omega
  have hnone : starts jobId s a = 0 := by
    cases a with
    | handlerStart w => exact absurd ⟨w, rfl⟩ hstart
    | _ => rfl
  by_cases hclaim : ∃ w, a = .claim w jobId
  · obtain ⟨w, rfl⟩ := hclaim
    obtain ⟨row, hidle, hrow, -, rfl⟩ := claim_cases hstep
    have hsum := Run.sum_update (hnames w rfl) (beforeStart jobId) s.slots (.claimed (claim w s.clock row))
    have hone : beforeStart jobId (.claimed (claim w s.clock row)) ≤ 1 := by
      simp only [beforeStart]
      split <;> omega
    simp only [isClaim, decide_true, if_true]
    omega
  · have hslots := Finset.sum_le_sum fun w (_ : w ∈ names) =>
      show beforeStart jobId (t.slots w) ≤ beforeStart jobId (s.slots w) by
        have hchange := step_slot hstep w
        generalize t.slots w = x at hchange
        cases hchange with
        | unchanged => exact Nat.le_refl _
        | idle => exact Nat.zero_le _
        | @claim row jobId' hrow =>
          have hid : (claim w s.clock row).jobId = jobId' := (rfl : _ = row.jobId).trans (find_jobId hrow)
          have hne : (claim w s.clock row).jobId ≠ jobId := fun heq => hclaim ⟨w, by rw [← hid, heq]⟩
          simp only [beforeStart, if_neg hne]
          exact Nat.zero_le _
        | markRunning hslot =>
          rw [hslot]
          exact Nat.le_refl _
        | handlerStart => exact absurd ⟨w, rfl⟩ hstart
        | handlerEnd => exact Nat.zero_le _
    omega

/-- In every run the handler of a job is called at most once for each claim of the job, and the
    job is claimed at most `limit` times, and as often again for each time the reaper takes a
    claim on it away. -/
theorem claims_bounded
    (hmax : ∀ jobType reg, registry jobType = some reg →
      1 ≤ reg.maxAttempts ∧ reg.maxAttempts ≤ limit)
    (hrun : Run.exec (step registry scrubValue) init as = some t) :
    Run.tally (step registry scrubValue) (starts jobId) init as ≤ claims jobId as ∧
      claims jobId as ≤
        limit * (1 + Run.tally (step registry scrubValue) (releases jobId) init as) := by
  have hnames : ∀ a ∈ as, ∀ w, a.slot? = some w → w ∈ slotNames as := fun a ha w hw =>
    List.mem_toFinset.mpr (List.mem_filterMap.mpr ⟨a, ha, hw⟩)
  have hcount := Run.tally_countP (isClaim jobId) hrun
  have hstarts := Run.tally_le (step registry scrubValue) (fun _ => True) (starts jobId)
    (fun _ a => if isClaim jobId a then 1 else 0)
    (fun s => ∑ w ∈ slotNames as, beforeStart jobId (s.slots w))
    (fun _ _ => trivial) (fun _ ha hstep => start_pays (hnames _ ha) hstep) trivial hrun
  have hclaims := Run.tally_le (step registry scrubValue) (Orderly limit)
    (fun _ a => if isClaim jobId a then 1 else 0) (fun s a => limit * releases jobId s a)
    (allLeft limit jobId (slotNames as)) (fun h hstep => orderly_step h hmax hstep)
    (fun h ha hstep => claim_pays h (orderly_step h hmax hstep) (hnames _ ha) hstep) orderly_init hrun
  have hidle : ∑ w ∈ slotNames as, beforeStart jobId ((init : St P).slots w) = 0 :=
    Finset.sum_eq_zero fun _ _ => rfl
  have hall : allLeft limit jobId (slotNames as) (init : St P) = limit := if_neg List.not_mem_nil
  rw [Run.tally_mul] at hclaims
  rw [hcount] at hstarts hclaims
  constructor
  · unfold claims
    omega
  · rw [Nat.mul_add, Nat.mul_one]
    unfold claims
    omega

theorem extractionRegistry_limit (jobType : String) (reg : HandlerRegistration ExtractionJob)
    (h : extractionRegistry jobType = some reg) : 1 ≤ reg.maxAttempts ∧ reg.maxAttempts ≤ 5 := by
  unfold extractionRegistry at h
  split at h
  · cases h
    decide
  · cases h

/-- The job is claimed twice, and its claim was taken away once. -/
theorem claims_bounded_crashed :
    claims "j" crashedRun = 2 ∧ ∃ t, Run.exec (step extractionRegistry id) init crashedRun = some t ∧
      claims "j" crashedRun ≤
        5 * (1 + Run.tally (step extractionRegistry id) (releases "j") init crashedRun) := by
  have hrun : ((Run.exec (step extractionRegistry id) init crashedRun).isSome) = true := by decide
  obtain ⟨t, ht⟩ := Option.isSome_iff_exists.mp hrun
  exact ⟨by decide, t, ht, (claims_bounded extractionRegistry_limit ht).2⟩

end Worker
