-- SUMMARY: Accounting for every enqueued job: no job is lost as long as a worker marks a job running only while the claim on its row still has a deadline.
import DealScreening.BackgroundJobs.Worker

/-!
# Accounting

The reaper finds a job only by the deadline of its claim. A job that is claimed
or running without a deadline is lost: no claim query selects it, and neither
does the reaper. The one operation that can produce such a row is `mark_running`
on an object whose claim the reaper has taken away in the meantime.
-/

namespace Worker

open Queue

variable {P : Type} {s t : St P} {as : List (Act P)}

/-- A job is waiting with an attempt left, held under a deadline, or at its end. -/
def Accounted (row : BackgroundJob P) : Prop :=
  (row.state = .pending ∧ row.attempts < row.maxAttempts) ∨
  ((row.state = .claimed ∨ row.state = .running) ∧ row.claimExpiresAt ≠ none) ∨
  row.state = .succeeded ∨ row.state = .deadLettered

/-- Every job ever enqueued has its row, and is accounted for. -/
def NoJobLost (s : St P) : Prop :=
  ∀ jobId ∈ s.issued, ∃ row, find s.jobs jobId = some row ∧ Accounted row ∧
    row.attempts ≤ row.maxAttempts

/-- A slot marks its job running only while the claim on the row has a deadline. -/
def RunsOnLiveClaim (s : St P) (a : Act P) : Prop :=
  ∀ w job row, a = .markRunning w → (s.slots w).job? = some job →
    find s.jobs job.jobId = some row → row.claimExpiresAt ≠ none

-- ---------------------------------------------------------------------------
-- Rows and objects
-- ---------------------------------------------------------------------------

/-- What holds of every row whatever the order of steps. -/
structure RowOk (row : BackgroundJob P) : Prop where
  state : row.state ≠ .failed
  bounded : row.attempts ≤ row.maxAttempts
  attemptLeft : row.state = .pending ∨ row.claimExpiresAt ≠ none → row.attempts < row.maxAttempts
  held : row.claimExpiresAt ≠ none → row.state = .claimed ∨ row.state = .running

/-- What holds of the object in a slot, stale or not. -/
structure ObjectOk (job : BackgroundJob P) (written : JobState) : Prop where
  state : job.state = written
  claimedBy : job.claimedBy ≠ none
  deadline : job.claimExpiresAt ≠ none
  attemptLeft : job.attempts < job.maxAttempts

/-- The reaper can find the row if it is held. -/
def HasDeadline (row : BackgroundJob P) : Prop :=
  row.state = .claimed ∨ row.state = .running → row.claimExpiresAt ≠ none

theorem RowOk.accounted {row : BackgroundJob P} (h : RowOk row) : Accounted row ↔ HasDeadline row := by
  constructor
  · rintro (⟨hst, _⟩ | ⟨_, hdeadline⟩ | hst | hst) hheld
    · simp [hst] at hheld
    · exact hdeadline
    · simp [hst] at hheld
    · simp [hst] at hheld
  · intro hdeadline
    cases hst : row.state with
    | pending => exact .inl ⟨hst, h.attemptLeft (.inl hst)⟩
    | claimed => exact .inr (.inl ⟨.inl hst, hdeadline (.inl hst)⟩)
    | running => exact .inr (.inl ⟨.inr hst, hdeadline (.inr hst)⟩)
    | succeeded => exact .inr (.inr (.inl hst))
    | failed => exact absurd hst h.state
    | deadLettered => exact .inr (.inr (.inr hst))

theorem RowOk.claim {row : BackgroundJob P} {w : String} {now : Time} (h : RowOk row)
    (hready : claimable now row = true) : RowOk (claim w now row) := by
  simp only [claimable, decide_eq_true_eq] at hready
  exact
    { state := nofun
      bounded := h.bounded
      attemptLeft := fun _ => h.attemptLeft (.inl hready.1)
      held := fun _ => .inl rfl }

theorem RowOk.release {row : BackgroundJob P} {now : Time} (h : RowOk row)
    (hexpired : expired now row = true) : RowOk (release row) := by
  have hdeadline : row.claimExpiresAt ≠ none := fun hnone => by simp [expired, hnone] at hexpired
  exact
    { state := nofun
      bounded := h.bounded
      attemptLeft := fun _ => h.attemptLeft (.inr hdeadline)
      held := fun hne => absurd rfl hne }

/-- A flush of `mark_running` sets the state of the row and nothing else. -/
theorem flushColumns_running {job row : BackgroundJob P} (h : job.state = .claimed) :
    flushColumns job (markRunning job) row = { row with state := .running } := by
  simp [flushColumns, markRunning, changed_ne, h]

/-- A flush of `mark_succeeded` ends the claim, whoever has it. -/
theorem flushColumns_succeeded (now : Time) (row : BackgroundJob P) {job : BackgroundJob P}
    (h : ObjectOk job .running) :
    let row' := flushColumns job (markSucceeded now job) row
    row'.state = .succeeded ∧ row'.attempts = row.attempts ∧ row'.claimExpiresAt = none := by
  refine ⟨changed_ne ?_, changed_same, changed_ne (Ne.symm h.deadline)⟩
  rw [h.state]
  nofun

/-- A flush of `mark_failed` ends the claim and stores the attempts of the object. -/
theorem flushColumns_failed (scrubValue : String → String) (now : Time) (draw : Int)
    (error : String) (nonRetryable : Bool) (row : BackgroundJob P) {job : BackgroundJob P}
    {written : JobState} (h : ObjectOk job written) (hheld : written = .claimed ∨ written = .running) :
    let row' := flushColumns job (markFailed scrubValue now draw error nonRetryable job) row
    row'.attempts = job.attempts + 1 ∧ row'.claimExpiresAt = none ∧
      ((row'.state = .pending ∧ job.attempts + 1 < job.maxAttempts) ∨
        row'.state = .deadLettered) := by
  obtain ⟨hatt, _, hexp, hstate⟩ := markFailed_state scrubValue now draw error nonRetryable job
  refine ⟨(changed_ne ?_).trans hatt, (changed_ne ?_).trans hexp, ?_⟩
  · rw [hatt]
    exact Nat.succ_ne_self _
  · rw [hexp]
    exact Ne.symm h.deadline
  · have hne : (markFailed scrubValue now draw error nonRetryable job).state ≠ job.state := by
      rw [h.state]
      rcases hstate with ⟨hst, _⟩ | hst <;> rcases hheld with rfl | rfl <;> rw [hst] <;> nofun
    simp only [flushColumns, changed_ne hne]
    exact hstate

theorem RowOk.markRunning {job row : BackgroundJob P} (h : RowOk row) (hjob : job.state = .claimed) :
    RowOk (flushColumns job (Queue.markRunning job) row) := by
  rw [flushColumns_running hjob]
  exact
    { state := nofun
      bounded := h.bounded
      attemptLeft := fun hne => h.attemptLeft (.inr (hne.resolve_left nofun))
      held := fun _ => .inr rfl }

theorem RowOk.markSucceeded {job row : BackgroundJob P} {now : Time} (h : RowOk row)
    (hjob : ObjectOk job .running) : RowOk (flushColumns job (Queue.markSucceeded now job) row) := by
  obtain ⟨hstate, hatt, hexp⟩ := flushColumns_succeeded now row hjob
  exact
    { state := by rw [hstate]; nofun
      bounded := by rw [hatt]; exact h.bounded
      attemptLeft := fun hne => by simp [hstate, hexp] at hne
      held := fun hne => absurd hexp hne }

theorem RowOk.markFailed {job row : BackgroundJob P} {scrubValue : String → String} {now : Time}
    {draw : Int} {error : String} {nonRetryable : Bool} {written : JobState}
    (hjob : ObjectOk job written) (hheld : written = .claimed ∨ written = .running)
    (hmax : row.maxAttempts = job.maxAttempts) :
    RowOk (flushColumns job (Queue.markFailed scrubValue now draw error nonRetryable job) row) := by
  obtain ⟨hatt, hexp, hstate⟩ := flushColumns_failed scrubValue now draw error
    nonRetryable row hjob hheld
  refine ⟨?_, ?_, fun hne => ?_, fun hne => absurd hexp hne⟩
  · rcases hstate with ⟨hst, _⟩ | hst <;> rw [hst] <;> nofun
  · rw [hatt, flushColumns_maxAttempts, hmax]
    exact hjob.attemptLeft
  · rw [hatt, flushColumns_maxAttempts, hmax]
    rcases hstate with ⟨_, hleft⟩ | hst
    · exact hleft
    · simp [hst, hexp] at hne

theorem Slot.written_held (x : Slot P) : x.written = .claimed ∨ x.written = .running := by
  cases x <;> simp [Slot.written]

/-- What the steps do to a row keeps it in order, when the objects of the job are. -/
theorem RowOk.change {scrubValue : String → String} {a : Act P} {row row' : BackgroundJob P}
    (h : RowOk row)
    (hobject : ∀ w job, (s.slots w).job? = some job → job.jobId = row.jobId →
      ObjectOk job (s.slots w).written ∧ row.maxAttempts = job.maxAttempts)
    (hchange : RowChange scrubValue s row a row') :
    RowOk row' ∧ row'.maxAttempts = row.maxAttempts := by
  cases hchange with
  | unchanged => exact ⟨h, rfl⟩
  | claim hready => exact ⟨h.claim hready, rfl⟩
  | release hexpired => exact ⟨h.release hexpired, rfl⟩
  | @markRunning w job hslot hid =>
    have hjob := (hobject w job (by rw [hslot]; rfl) hid).1
    rw [hslot] at hjob
    exact ⟨h.markRunning hjob.state, rfl⟩
  | @markSucceeded w job hslot hid =>
    have hjob := (hobject w job (by rw [hslot]; rfl) hid).1
    rw [hslot] at hjob
    exact ⟨h.markSucceeded hjob, rfl⟩
  | @markFailed w draw job error nonRetryable hslot hid =>
    obtain ⟨hjob, hmax⟩ := hobject w job hslot hid
    exact ⟨RowOk.markFailed hjob (Slot.written_held _) hmax, rfl⟩

-- ---------------------------------------------------------------------------
-- The books
-- ---------------------------------------------------------------------------

/-- The books kept in every run: the jobs issued are the rows, and every row and
    every object in a slot is in order. -/
structure Books (s : St P) : Prop where
  issued : ∀ jobId, jobId ∈ s.issued ↔ ∃ row, find s.jobs jobId = some row
  row : ∀ jobId row, find s.jobs jobId = some row → RowOk row
  object : ∀ w job, (s.slots w).job? = some job → ObjectOk job (s.slots w).written ∧
    ∃ row, find s.jobs job.jobId = some row ∧ row.maxAttempts = job.maxAttempts

theorem books_init : Books (init : St P) where
  issued := by simp [init, find]
  row := fun _ _ h => by cases h
  object := fun _ _ h => by cases h

theorem Books.noJobLost (h : Books s) :
    NoJobLost s ↔ ∀ jobId row, find s.jobs jobId = some row → HasDeadline row := by
  constructor
  · intro hlost jobId row hrow
    obtain ⟨row', hrow', hacc, _⟩ := hlost jobId ((h.issued jobId).mpr ⟨row, hrow⟩)
    cases hrow.symm.trans hrow'
    exact (h.row jobId row hrow).accounted.mp hacc
  · intro hdeadline jobId hmem
    obtain ⟨row, hrow⟩ := (h.issued jobId).mp hmem
    have hok := h.row jobId row hrow
    exact ⟨row, hrow, hok.accounted.mpr (hdeadline jobId row hrow), hok.bounded⟩

theorem Books.rowChange {scrubValue : String → String} {a : Act P} {jobId : String} {row row' : BackgroundJob P} (h : Books s)
    (hrow : find s.jobs jobId = some row) (hchange : RowChange scrubValue s row a row') :
    RowOk row' ∧ row'.maxAttempts = row.maxAttempts := by
  refine (h.row jobId row hrow).change (fun w job hslot hid => ?_) hchange
  obtain ⟨hjob, row₀, hrow₀, hmax⟩ := h.object w job hslot
  rw [hid, find_jobId hrow, hrow] at hrow₀
  cases hrow₀
  exact ⟨hjob, hmax⟩

/-- What the steps do to a slot keeps its object in order. -/
theorem Books.slotChange {w : String} {a : Act P} {x : Slot P} {job : BackgroundJob P}
    (h : Books s) (hchange : SlotChange s w a x) (hjob : x.job? = some job) :
    ObjectOk job x.written ∧ ∃ row, find s.jobs job.jobId = some row ∧
      row.maxAttempts = job.maxAttempts := by
  have held : ∀ {y : Slot P} {job' : BackgroundJob P}, s.slots w = y → y.job? = some job' →
      ObjectOk job' y.written ∧ ∃ row, find s.jobs job'.jobId = some row ∧
        row.maxAttempts = job'.maxAttempts := fun hy hjob' => by
    subst hy
    exact h.object w _ hjob'
  cases hchange with
  | unchanged => exact held rfl hjob
  | idle => cases hjob
  | @claim row jobId hrow hready =>
    cases hjob
    have hleft := (h.row jobId row hrow).attemptLeft
    simp only [claimable, decide_eq_true_eq] at hready
    refine ⟨⟨rfl, nofun, nofun, hleft (.inl hready.1)⟩, row, ?_, rfl⟩
    have hid : (claim w s.clock row).jobId = jobId := (rfl : _ = row.jobId).trans (find_jobId hrow)
    rw [hid, hrow]
  | markRunning hslot =>
    cases hjob
    obtain ⟨hok, hrow⟩ := held (y := .claimed _) hslot rfl
    exact ⟨⟨rfl, hok.claimedBy, hok.deadline, hok.attemptLeft⟩, hrow⟩
  | handlerStart hslot =>
    cases hjob
    exact held (y := .running _) hslot rfl
  | handlerEnd hslot =>
    cases hjob
    exact held (y := .handling _) hslot rfl

/-- The check on the attempts of a row never makes a mark fail. -/
theorem Books.check_passes {scrubValue : String → String} {a : Act P} {jobId : String} {row row' : BackgroundJob P} (h : Books s)
    (hrow : find s.jobs jobId = some row) (hchange : RowChange scrubValue s row a row') :
    attemptsBounded row' = true :=
  decide_eq_true (h.rowChange hrow hchange).1.bounded

/-- Only a slot that marks its job running on a row without a deadline leaves a
    held row without one. -/
theorem Books.hasDeadline {scrubValue : String → String} {a : Act P} {jobId : String} {row row' : BackgroundJob P} (h : Books s)
    (hok : RunsOnLiveClaim s a) (hrow : find s.jobs jobId = some row) (hdeadline : HasDeadline row)
    (hchange : RowChange scrubValue s row a row') : HasDeadline row' := by
  cases hchange with
  | unchanged => exact hdeadline
  | claim hready => exact fun _ => nofun
  | release hexpired =>
    rintro (hst | hst) <;> cases hst
  | @markRunning w job hslot hid =>
    have hjob := (h.object w job (by rw [hslot]; rfl)).1
    rw [hslot] at hjob
    rw [flushColumns_running hjob.state]
    exact fun _ => hok w job row rfl (by rw [hslot]; rfl) (by rw [hid, find_jobId hrow, hrow])
  | @markSucceeded w job hslot hid =>
    have hjob := (h.object w job (by rw [hslot]; rfl)).1
    rw [hslot] at hjob
    obtain ⟨hstate, _⟩ := flushColumns_succeeded s.clock row hjob
    intro hheld
    rw [hstate] at hheld
    simp at hheld
  | @markFailed w draw job error nonRetryable hslot hid =>
    obtain ⟨_, _, hstate⟩ := flushColumns_failed scrubValue s.clock draw error nonRetryable
      row (h.object w job hslot).1 (Slot.written_held _)
    intro hheld
    rcases hstate with ⟨hst, _⟩ | hst <;> rw [hst] at hheld <;> simp at hheld

variable [Payload P] {registry : Registry P} {scrubValue : String → String}

/-- Every step keeps the books, as long as job types allow at least one attempt
    and no job is dropped. -/
theorem books_step {a : Act P} (h : Books s)
    (hmax : ∀ jobType reg, registry jobType = some reg → 1 ≤ reg.maxAttempts)
    (hdrop : ∀ jobId, a ≠ .dropJob jobId) (hstep : step registry scrubValue s a = some t) :
    Books t := by
  constructor
  · intro jobId
    cases hold : find s.jobs jobId with
    | some row =>
      obtain ⟨row', hrow', _⟩ := step_row hstep hold (hdrop jobId)
      exact iff_of_true (issued_mono hstep ((h.issued jobId).mpr ⟨row, hold⟩)) ⟨row', hrow'⟩
    | none =>
      have hfresh : jobId ∉ s.issued := fun hmem => by
        obtain ⟨row, hrow⟩ := (h.issued jobId).mp hmem
        rw [hold] at hrow
        cases hrow
      constructor
      · intro hmem
        rcases step_issued hstep with heq | ⟨newId, row, heq, hrow⟩ <;> rw [heq] at hmem
        · exact absurd hmem hfresh
        · rcases List.mem_cons.mp hmem with rfl | hmem
          · exact ⟨row, hrow⟩
          · exact absurd hmem hfresh
      · rintro ⟨row, hrow⟩
        obtain ⟨_, hnone | ⟨_, _, _, hmem, _⟩⟩ := step_absent hstep hold
        · rw [hnone] at hrow
          cases hrow
        · exact hmem
  · intro jobId row hrow
    cases hold : find s.jobs jobId with
    | some old =>
      obtain ⟨row', hrow', hchange⟩ := step_row hstep hold (hdrop jobId)
      cases hrow.symm.trans hrow'
      exact (h.rowChange hold hchange).1
    | none =>
      obtain ⟨_, hnone | ⟨new, hnew, _, _, hstate, hatt, hexp, jobType, reg, hreg, hmaxeq⟩⟩ :=
        step_absent hstep hold
      · rw [hnone] at hrow
        cases hrow
      · cases hrow.symm.trans hnew
        have hone := hmax jobType reg hreg
        exact ⟨by rw [hstate]; nofun, by omega, fun _ => by omega, fun hne => absurd hexp hne⟩
  · intro w job hjob
    obtain ⟨hok, row, hrow, hmaxeq⟩ := h.slotChange (step_slot hstep w) hjob
    obtain ⟨row', hrow', hchange⟩ := step_row hstep hrow (hdrop _)
    exact ⟨hok, row', hrow', (h.rowChange hrow hchange).2.trans hmaxeq⟩

/-- Marking a job running whose row has no deadline loses the job. -/
theorem Books.lost {a : Act P} (h : Books s) (hbad : ¬ RunsOnLiveClaim s a)
    (hstep : step registry scrubValue s a = some t) :
    ∃ jobId row, find t.jobs jobId = some row ∧ ¬ HasDeadline row := by
  simp only [RunsOnLiveClaim, not_forall] at hbad
  obtain ⟨w, job, row, rfl, hw, hrow, hnone⟩ := hbad
  obtain ⟨job', _, hslot, _, rfl⟩ := markRunning_cases hstep
  have hjob := (h.object w job hw).1
  rw [hslot] at hw hjob
  cases hw
  refine ⟨job.jobId, { row with state := .running }, ?_, fun hdeadline => ?_⟩
  · rw [St.find_flush, if_pos rfl, hrow, Option.map_some, flushColumns_running hjob.state]
  · exact hnone (hdeadline (.inr rfl))

/-- No job is lost in a run exactly when no slot marks a job running after the
    claim on its row has gone. -/
theorem no_job_lost_iff
    (hmax : ∀ jobType reg, registry jobType = some reg → 1 ≤ reg.maxAttempts)
    (hdrop : ∀ jobId, .dropJob jobId ∉ as)
    (hrun : Run.exec (step registry scrubValue) init as = some t) :
    Run.Always (step registry scrubValue) NoJobLost init as ↔
      Run.Guarded (step registry scrubValue) RunsOnLiveClaim init as := by
  refine Run.always_iff_guarded (fun a => ∀ jobId, a ≠ .dropJob jobId)
    (fun s => Books s ∧ ∀ jobId row, find s.jobs jobId = some row → HasDeadline row)
    ?_ ?_ ?_ ⟨books_init, fun _ _ h => by cases h⟩ (fun a ha jobId e => hdrop jobId (e ▸ ha)) hrun
  · rintro s a t ⟨hbooks, hdeadline⟩ hadm hok hstep
    refine ⟨books_step hbooks hmax hadm hstep, fun jobId row hrow => ?_⟩
    cases hold : find s.jobs jobId with
    | some old =>
      obtain ⟨row', hrow', hchange⟩ := step_row hstep hold (hadm jobId)
      cases hrow.symm.trans hrow'
      exact hbooks.hasDeadline hok hold (hdeadline jobId old hold) hchange
    | none =>
      obtain ⟨_, hnone | ⟨new, hnew, _, _, hstate, _⟩⟩ := step_absent hstep hold
      · rw [hnone] at hrow
        cases hrow
      · cases hrow.symm.trans hnew
        intro hheld
        rw [hstate] at hheld
        simp at hheld
  · exact fun h => h.1.noJobLost.mpr h.2
  · rintro s a t ⟨hbooks, _⟩ hadm hbad hstep hsafe
    obtain ⟨jobId, row, hrow, hlost⟩ := hbooks.lost hbad hstep
    exact hlost ((books_step hbooks hmax hadm hstep).noJobLost.mp hsafe jobId row hrow)

/-- A slot crashes with a job, and the reaper returns it to the queue. -/
def crashedRun : List (Act ExtractionJob) :=
  [.enqueue "j" "extraction" ⟨1, 2⟩ none none none none, .claim "w" "j", .markRunning "w",
    .crash "w", .advance 300000001, .reap, .claim "w'" "j"]

/-- A slot that claimed a job is slow to mark it running; the reaper comes first. -/
def strandedRun : List (Act ExtractionJob) :=
  [.enqueue "j" "extraction" ⟨1, 2⟩ none none none none, .claim "w" "j", .advance 300000001,
    .reap, .markRunning "w"]

theorem extractionRegistry_maxAttempts (jobType : String) (reg : HandlerRegistration ExtractionJob)
    (h : extractionRegistry jobType = some reg) : 1 ≤ reg.maxAttempts := by
  unfold extractionRegistry at h
  split at h
  · cases h
    decide
  · cases h

/-- Every row has a deadline when a slot marks its job running. -/
def deadlinesHold (s : St P) (a : Act P) : Bool :=
  match a with
  | .markRunning _ => s.jobs.all fun row => row.claimExpiresAt.isSome
  | _ => true

theorem no_job_lost_iff_crashed :
    ∃ t, Run.exec (step extractionRegistry id) init crashedRun = some t ∧ NoJobLost t := by
  have hrun : ((Run.exec (step extractionRegistry id) init crashedRun).isSome) = true := by decide
  obtain ⟨t, ht⟩ := Option.isSome_iff_exists.mp hrun
  have hok : Run.Guarded (step extractionRegistry id) RunsOnLiveClaim init crashedRun := by
    refine Run.guarded_of_checks deadlinesHold ?_ (by decide)
    rintro s a h w job row rfl _ hrow hnone
    simp only [deadlinesHold, List.all_eq_true] at h
    have hsome := h row (Table.lookup_mem hrow)
    simp [hnone] at hsome
  have hdrop : ∀ jobId, Act.dropJob jobId ∉ crashedRun := by simp [crashedRun]
  exact ⟨t, ht, ((no_job_lost_iff extractionRegistry_maxAttempts hdrop ht).mpr hok).last ht⟩

theorem job_stranded :
    ¬ ∀ as : List (Act ExtractionJob), (∀ jobId, .dropJob jobId ∉ as) →
      Run.Always (step extractionRegistry id) NoJobLost init as := by
  intro h
  have hrow : ((Run.exec (step extractionRegistry id) init strandedRun).map fun s =>
      (s.issued, (find s.jobs "j").map fun row => (row.state, row.claimExpiresAt))) =
      some (["j"], some (.running, none)) := by decide
  obtain ⟨t, ht, heq⟩ := Option.map_eq_some_iff.mp hrow
  simp only [Prod.mk.injEq, Option.map_eq_some_iff] at heq
  obtain ⟨hissued, row, hrow, hstate, hnone⟩ := heq
  obtain ⟨row', hrow', hacc, _⟩ := (h strandedRun (by simp [strandedRun])).last ht "j"
    (by rw [hissued]; exact List.mem_cons_self ..)
  cases hrow.symm.trans hrow'
  rcases hacc with ⟨hst, _⟩ | ⟨_, hne⟩ | hst | hst
  · simp [hstate] at hst
  · exact hne hnone
  · simp [hstate] at hst
  · simp [hstate] at hst

end Worker
