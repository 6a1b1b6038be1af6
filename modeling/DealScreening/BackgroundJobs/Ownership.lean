-- SUMMARY: Ownership of a claimed job: as long as the reaper takes no claim away from a live slot, handlers exclude each other, terminal states are final, and attempts count the failures.
import DealScreening.BackgroundJobs.Worker

/-!
# Ownership

Nothing renews a claim while its handler runs, and no mark checks that the claim
is still there. What protects a job is only that the reaper leaves the claims of
live slots alone. Under that condition the row of a claimed job and the object
its slot holds are the same, and everything else follows from this.
-/

namespace Worker

open Queue

variable {P : Type} {s t : St P} {as bs : List (Act P)}

/-- The job whose handler has started in the slot and not ended. -/
def St.handled (s : St P) (w : String) : Option String :=
  match s.slots w with
  | .handling job => some job.jobId
  | _ => none

/-- At most one live slot runs the handler for any one job. -/
def AtMostOneHandler (s : St P) : Prop :=
  ∀ jobId w w', s.handled w = some jobId → s.handled w' = some jobId → w = w'

/-- The slot that writes the mark of a worker. -/
def Act.marks : Act P → Option String
  | .markRunning w | .markSucceeded w | .markFailed w _ _ => some w
  | _ => none

/-- The row of the job that slot `w` holds still carries the claim of `w`. -/
def St.KeepsClaim (s : St P) (w : String) : Prop :=
  ∃ job row, (s.slots w).job? = some job ∧ find s.jobs job.jobId = some row ∧
    row.claimedBy = some w ∧ row.claimExpiresAt = job.claimExpiresAt

/-- The number of committed `mark_failed` calls for the job. -/
def failures (jobId : String) (as : List (Act P)) : Nat :=
  as.countP fun
    | .markFailed _ jobId' _ => jobId' = jobId
    | _ => false

theorem failures_append {jobId : String} :
    failures jobId (as ++ bs) = failures jobId as + failures jobId bs :=
  List.countP_append

theorem failures_of_ne {a : Act P} {jobId : String} (h : ∀ w draw, a ≠ .markFailed w jobId draw) :
    failures jobId [a] = 0 := by
  cases a with
  | markFailed w failedId draw =>
    have hne : failedId ≠ jobId := fun e => h w draw (by rw [e])
    simp [failures, hne]
  | _ => rfl

/-- The reaper takes no claim away from a live slot: when it runs, no row it
    selects belongs to a job that a slot still holds. -/
def ReapSparesLive (s : St P) (a : Act P) : Prop :=
  a = .reap → ∀ w job row, (s.slots w).job? = some job → find s.jobs job.jobId = some row →
    expired s.clock row = false

/-- A reaper that selects no row takes no claim away. -/
def reapsNothing (s : St P) (a : Act P) : Bool :=
  match a with
  | .reap => s.jobs.all fun row => !expired s.clock row
  | _ => true

theorem reapSparesLive_of_reapsNothing (s : St P) (a : Act P) (h : reapsNothing s a = true) :
    ReapSparesLive s a := by
  rintro rfl w job row hw hrow
  simp only [reapsNothing, List.all_eq_true, Bool.not_eq_true'] at h
  exact h row (Table.lookup_mem hrow)

-- ---------------------------------------------------------------------------
-- The ownership invariant
-- ---------------------------------------------------------------------------

/-- Every slot that holds an object holds the row itself, claimed by this slot,
    in the state the slot last wrote. -/
def Owned (s : St P) : Prop :=
  ∀ w job, (s.slots w).job? = some job →
    find s.jobs job.jobId = some job ∧ job.claimedBy = some w ∧ job.state = (s.slots w).written

theorem Owned.unique {w w' : String} {job job' : BackgroundJob P} (h : Owned s)
    (hw : (s.slots w).job? = some job) (hw' : (s.slots w').job? = some job')
    (hid : job.jobId = job'.jobId) : w = w' := by
  obtain ⟨hrow, hclaim, _⟩ := h w job hw
  obtain ⟨hrow', hclaim', _⟩ := h w' job' hw'
  rw [hid, hrow'] at hrow
  cases hrow
  rw [hclaim] at hclaim'
  exact Option.some.inj hclaim'

/-- The row of a held job is claimed or running. -/
theorem Owned.state {w : String} {job : BackgroundJob P} (h : Owned s)
    (hw : (s.slots w).job? = some job) : job.state = .claimed ∨ job.state = .running := by
  rw [(h w job hw).2.2]
  cases s.slots w <;> simp [Slot.written]

theorem Owned.not_terminal {w : String} {job row : BackgroundJob P} (h : Owned s)
    (hw : (s.slots w).job? = some job) (hrow : find s.jobs job.jobId = some row) :
    row.state.terminal = false := by
  rw [(h w job hw).1] at hrow
  cases hrow
  rcases h.state hw with hst | hst <;> rw [hst] <;> rfl

theorem owned_init : Owned (init : St P) := by
  intro w job h
  cases h

/-- A slot may forget its object, or keep it in the same written state. -/
theorem Owned.setSlot {w : String} {x : Slot P} (h : Owned s)
    (hx : ∀ job, x.job? = some job → (s.slots w).job? = some job ∧ x.written = (s.slots w).written) :
    Owned (s.setSlot w x) := by
  intro w' job hw'
  by_cases hne : w' = w
  · subst hne
    simp only [St.setSlot, Function.update_self] at hw' ⊢
    obtain ⟨hjob, hwritten⟩ := hx job hw'
    rw [hwritten]
    exact h w' job hjob
  · simp only [St.setSlot, Function.update_of_ne hne] at hw' ⊢
    exact h w' job hw'

/-- A slot that flushes its own object keeps ownership everywhere. -/
theorem Owned.flush {w : String} {loaded object : BackgroundJob P} {x : Slot P} (h : Owned s)
    (hw : (s.slots w).job? = some loaded) (hid : object.jobId = loaded.jobId)
    (hcols : flushColumns loaded object loaded = object)
    (hx : ∀ job, x.job? = some job →
      job = object ∧ object.claimedBy = some w ∧ object.state = x.written) :
    Owned (s.flush w loaded object x) := by
  obtain ⟨hrow, _, _⟩ := h w loaded hw
  intro w' job hw'
  rw [St.find_flush]
  by_cases hne : w' = w
  · subst hne
    simp only [St.flush, Function.update_self] at hw' ⊢
    obtain ⟨rfl, hclaim, hstate⟩ := hx job hw'
    refine ⟨?_, hclaim, hstate⟩
    rw [if_pos hid, hrow, Option.map_some, hcols]
  · simp only [St.flush, Function.update_of_ne hne] at hw' ⊢
    obtain ⟨hrow', hclaim', hstate'⟩ := h w' job hw'
    have hids : job.jobId ≠ loaded.jobId := fun e => hne (h.unique hw' hw e)
    refine ⟨?_, hclaim', hstate'⟩
    rw [if_neg hids]
    exact hrow'

/-- The object a slot holds is the row. -/
theorem Owned.row_eq {w jobId : String} {job row : BackgroundJob P} (h : Owned s)
    (hw : (s.slots w).job? = some job) (hrow : find s.jobs jobId = some row)
    (hid : job.jobId = row.jobId) : job = row := by
  obtain ⟨hjob, _, _⟩ := h w job hw
  rw [hid, find_jobId hrow, hrow] at hjob
  exact (Option.some.inj hjob).symm

theorem Owned.atMostOneHandler (h : Owned s) : AtMostOneHandler s := by
  intro jobId w w' hw hw'
  have held : ∀ {v}, s.handled v = some jobId →
      ∃ job, (s.slots v).job? = some job ∧ job.jobId = jobId := fun {v} hv => by
    unfold St.handled at hv
    split at hv
    · rename_i job hslot
      exact ⟨job, by rw [hslot]; rfl, Option.some.inj hv⟩
    · cases hv
  obtain ⟨job, hjob, hid⟩ := held hw
  obtain ⟨job', hjob', hid'⟩ := held hw'
  exact h.unique hjob hjob' (hid.trans hid'.symm)

/-- After the actions `as`, the attempts of every row are the failures of its job. -/
structure Counted (as : List (Act P)) (s : St P) : Prop where
  row : ∀ jobId row, find s.jobs jobId = some row → row.attempts = failures jobId as
  fresh : ∀ jobId, jobId ∉ s.issued → find s.jobs jobId = none ∧ failures jobId as = 0

theorem counted_init : Counted [] (init : St P) where
  row := fun _ _ h => by cases h
  fresh := fun _ _ => ⟨rfl, rfl⟩

variable [Payload P] {registry : Registry P} {scrubValue : String → String}

/-- Every step keeps ownership, as long as the reaper spares the live slots. -/
theorem owned_step {a : Act P} (h : Owned s) (hok : ReapSparesLive s a)
    (hstep : step registry scrubValue s a = some t) : Owned t := by
  cases a with
  | enqueue jobId jobType payload idempotencyKey traceContext tenantId notBefore =>
    obtain ⟨new, hnone, _, hnew, rfl⟩ := enqueue_cases hstep
    intro w job hw
    obtain ⟨hrow, hclaim, hstate⟩ := h w job hw
    have hne : job.jobId ≠ jobId := fun e => by
      rw [e, hnone] at hrow
      cases hrow
    refine ⟨?_, hclaim, hstate⟩
    rw [find_enqueue hnone hnew, if_neg hne]
    exact hrow
  | claim w jobId =>
    obtain ⟨row, hidle, hrow, hready, rfl⟩ := claim_cases hstep
    have hpending : row.state = .pending := by
      simp only [claimable, decide_eq_true_eq] at hready
      exact hready.1
    intro w' job hw'
    by_cases hne : w' = w
    · subst hne
      simp only [Function.update_self, Slot.job?_claimed, Option.some.injEq] at hw'
      subst hw'
      refine ⟨?_, rfl, by simp [claim, Slot.written]⟩
      have hid : (claim w' s.clock row).jobId = jobId := (rfl : _ = row.jobId).trans (find_jobId hrow)
      rw [find_claim, if_pos hid, hrow]
      rfl
    · simp only [Function.update_of_ne hne] at hw' ⊢
      obtain ⟨hrow', hclaim', hstate'⟩ := h w' job hw'
      have hids : job.jobId ≠ jobId := fun e => by
        rw [e, hrow] at hrow'
        cases hrow'
        rcases h.state hw' with hst | hst <;> rw [hpending] at hst <;> cases hst
      refine ⟨?_, hclaim', hstate'⟩
      rw [find_claim, if_neg hids]
      exact hrow'
  | markRunning w =>
    obtain ⟨job, _, hslot, _, rfl⟩ := markRunning_cases hstep
    have hw : (s.slots w).job? = some job := by rw [hslot]; rfl
    refine h.flush hw rfl (flushColumns_markRunning job) fun job' hjob' => ?_
    cases hjob'
    exact ⟨rfl, (h w job hw).2.1, rfl⟩
  | handlerStart w =>
    obtain ⟨job, hslot, rfl⟩ := handlerStart_cases hstep
    refine h.setSlot fun job' hjob' => ?_
    rw [hslot]
    exact ⟨hjob', rfl⟩
  | handlerEnd w outcome =>
    obtain ⟨job, hslot, rfl⟩ := handlerEnd_cases hstep
    refine h.setSlot fun job' hjob' => ?_
    rw [hslot]
    exact ⟨hjob', rfl⟩
  | markSucceeded w =>
    obtain ⟨job, _, hslot, _, rfl⟩ := markSucceeded_cases hstep
    have hw : (s.slots w).job? = some job := by rw [hslot]; rfl
    exact h.flush hw rfl (flushColumns_markSucceeded s.clock job) fun job' hjob' => by cases hjob'
  | markFailed w jobId draw =>
    obtain ⟨job, _, error, nonRetryable, hw, _, _, rfl⟩ := markFailed_cases hstep
    exact h.flush hw (markFailed_jobId ..) (flushColumns_markFailed ..) fun job' hjob' => by
      cases hjob'
  | reap =>
    simp only [step, Option.some.injEq] at hstep
    subst hstep
    intro w job hw
    obtain ⟨hrow, hclaim, hstate⟩ := h w job hw
    refine ⟨?_, hclaim, hstate⟩
    have hlive : expired s.clock job = false := hok rfl w job job hw hrow
    rw [find_reapExpiredClaims, hrow]
    simp [hlive]
  | crash w =>
    simp only [step, Option.some.injEq] at hstep
    subst hstep
    exact h.setSlot fun job hjob => by cases hjob
  | advance d =>
    simp only [step, Option.some.injEq] at hstep
    subst hstep
    exact h
  | dropJob jobId =>
    obtain ⟨row, hrow, hdead, rfl⟩ := dropJob_cases hstep
    intro w job hw
    obtain ⟨hrow', hclaim', hstate'⟩ := h w job hw
    have hids : job.jobId ≠ jobId := fun e => by
      rw [e, hrow] at hrow'
      cases hrow'
      rcases h.state hw with hst | hst <;> rw [hdead] at hst <;> cases hst
    refine ⟨?_, hclaim', hstate'⟩
    rw [find_drop, if_neg hids]
    exact hrow'

theorem owned_run (hok : Run.Guarded (step registry scrubValue) ReapSparesLive s as)
    (h : Owned s) (hrun : Run.exec (step registry scrubValue) s as = some t) : Owned t :=
  Run.Guarded.invariant (fun hs hok hstep => owned_step hs hok hstep) h hok hrun

-- ---------------------------------------------------------------------------
-- Exclusion
-- ---------------------------------------------------------------------------

/-- No job is executed twice at once in a run in which the reaper takes no claim
    away from a live slot. -/
theorem handlers_exclusive
    (hok : Run.Guarded (step registry scrubValue) ReapSparesLive init as) :
    Run.Always (step registry scrubValue) AtMostOneHandler init as :=
  hok.always (fun hs hok hstep => owned_step hs hok hstep) (fun hs => hs.atMostOneHandler) owned_init

/-- One job, claimed and run by `w` while the reaper looks on. -/
def promptRun : List (Act ExtractionJob) :=
  [.enqueue "j" "extraction" ⟨1, 2⟩ none none none none, .claim "w" "j", .markRunning "w",
    .handlerStart "w", .advance 300000000, .reap]

theorem handlers_exclusive_prompt :
    Run.Always (step extractionRegistry id) AtMostOneHandler init promptRun :=
  handlers_exclusive (Run.guarded_of_checks reapsNothing reapSparesLive_of_reapsNothing (by decide))

/-- The handler is one microsecond slower than the claim lasts. -/
def slowRun : List (Act ExtractionJob) :=
  [.enqueue "j" "extraction" ⟨1, 2⟩ none none none none, .claim "w" "j", .markRunning "w",
    .handlerStart "w", .advance 300000001, .reap, .claim "w'" "j", .markRunning "w'",
    .handlerStart "w'"]

theorem handlers_overlap :
    ¬ ∀ as : List (Act ExtractionJob),
      Run.Always (step extractionRegistry id) AtMostOneHandler init as := by
  intro h
  have hslots : (Run.exec (step extractionRegistry id) init slowRun).map
      (fun s => (s.handled "w", s.handled "w'")) = some (some "j", some "j") := by decide
  obtain ⟨t, hrun, heq⟩ := Option.map_eq_some_iff.mp hslots
  simp only [Prod.mk.injEq] at heq
  exact absurd ((h slowRun).last hrun "j" "w" "w'" heq.1 heq.2) (by decide)

-- ---------------------------------------------------------------------------
-- Rows
-- ---------------------------------------------------------------------------

/-- A step keeps a row unless it drops it, adds to its attempts what it fails,
    and leaves it as it is once its state is terminal. -/
theorem Owned.row_step {a : Act P} {jobId : String} {row : BackgroundJob P} (h : Owned s)
    (hstep : step registry scrubValue s a = some t) (hrow : find s.jobs jobId = some row)
    (hdrop : a ≠ .dropJob jobId) :
    ∃ row', find t.jobs jobId = some row' ∧ row'.attempts = row.attempts + failures jobId [a] ∧
      (row.state.terminal = true → row' = row) := by
  obtain ⟨row', ht, hchange⟩ := step_row hstep hrow hdrop
  refine ⟨row', ht, ?_⟩
  have hid := find_jobId hrow
  subst hid
  have live : ∀ {w} {job : BackgroundJob P}, (s.slots w).job? = some job →
      job.jobId = row.jobId → job = row ∧ row.state.terminal = false := fun {w job} hw hid => by
    have hjob := h.row_eq hw hrow hid
    subst hjob
    exact ⟨rfl, h.not_terminal hw hrow⟩
  cases hchange with
  | unchanged hfail => exact ⟨by rw [failures_of_ne hfail]; rfl, fun _ => rfl⟩
  | claim hready =>
    refine ⟨rfl, fun hterm => ?_⟩
    simp only [claimable, decide_eq_true_eq] at hready
    rw [hready.1] at hterm
    cases hterm
  | markRunning hslot hid =>
    obtain ⟨rfl, hlive⟩ := live (by rw [hslot]; rfl) hid
    rw [flushColumns_markRunning]
    exact ⟨rfl, fun hterm => by simp [hlive] at hterm⟩
  | markSucceeded hslot hid =>
    obtain ⟨rfl, hlive⟩ := live (by rw [hslot]; rfl) hid
    rw [flushColumns_markSucceeded]
    exact ⟨rfl, fun hterm => by simp [hlive] at hterm⟩
  | markFailed hslot hid =>
    obtain ⟨rfl, hlive⟩ := live hslot hid
    rw [flushColumns_markFailed]
    refine ⟨?_, fun hterm => by simp [hlive] at hterm⟩
    rw [(markFailed_state ..).1]
    simp [failures]
  | release hexpired =>
    refine ⟨rfl, fun hterm => ?_⟩
    cases hst : row.state <;> simp_all [expired, JobState.terminal]

theorem Counted.snoc {a : Act P} (hcount : Counted as s) (h : Owned s)
    (hstep : step registry scrubValue s a = some t) : Counted (as ++ [a]) t := by
  constructor
  · intro jobId row hrow
    rw [failures_append]
    cases hold : find s.jobs jobId with
    | none =>
      obtain ⟨hzero, hnone | ⟨row', hrow', hfresh, _, _, hatt, _⟩⟩ := step_absent hstep hold
      · rw [hnone] at hrow
        cases hrow
      · rw [hrow'] at hrow
        cases hrow
        rw [hatt, failures_of_ne hzero, (hcount.fresh jobId hfresh).2]
    | some old =>
      by_cases hdrop : a = .dropJob jobId
      · subst hdrop
        obtain ⟨_, _, _, rfl⟩ := dropJob_cases hstep
        rw [find_drop, if_pos rfl] at hrow
        cases hrow
      · obtain ⟨row', hrow', hatt, _⟩ := h.row_step hstep hold hdrop
        rw [hrow'] at hrow
        cases hrow
        rw [hatt, hcount.row jobId old hold]
  · intro jobId hnew
    have hold : jobId ∉ s.issued := fun hmem => hnew (issued_mono hstep hmem)
    obtain ⟨hnone, hzero⟩ := hcount.fresh jobId hold
    obtain ⟨hzero', hnone' | ⟨_, _, _, hmem, _⟩⟩ := step_absent hstep hnone
    · exact ⟨hnone', by rw [failures_append, hzero, failures_of_ne hzero']⟩
    · exact absurd hmem hnew

/-- A row in a terminal state stays as it is until an admin drops it. -/
theorem terminal_run {jobId : String} {row : BackgroundJob P}
    (hok : Run.Guarded (step registry scrubValue) ReapSparesLive s as) (h : Owned s)
    (hrun : Run.exec (step registry scrubValue) s as = some t) (hrow : find s.jobs jobId = some row)
    (hterm : row.state.terminal = true) (hdrop : Act.dropJob jobId ∉ as) :
    find t.jobs jobId = some row := by
  induction as generalizing s with
  | nil =>
    cases hrun
    exact hrow
  | cons a as ih =>
    obtain ⟨u, hu, hrest⟩ := Run.exec_cons_eq_some.mp hrun
    simp only [List.mem_cons, not_or] at hdrop
    obtain ⟨row', hrow', _, hsame⟩ := h.row_step hu hrow (fun e => hdrop.1 e.symm)
    rw [hsame hterm] at hrow'
    exact ih (hok.2 u hu) (owned_step h hok.1 hu) hrest hrow' hdrop.2

/-- A slot about to write a mark still has its claim. -/
theorem Owned.keepsClaim {a : Act P} {w : String} (h : Owned s) (hmark : a.marks = some w)
    (hstep : step registry scrubValue s a = some t) : s.KeepsClaim w := by
  have held : ∀ job, (s.slots w).job? = some job → s.KeepsClaim w :=
    fun job hw => ⟨job, job, hw, (h w job hw).1, (h w job hw).2.1, rfl⟩
  cases a with
  | markRunning w' =>
    cases hmark
    obtain ⟨job, _, hslot, _, _⟩ := markRunning_cases hstep
    exact held job (by rw [hslot]; rfl)
  | markSucceeded w' =>
    cases hmark
    obtain ⟨job, _, hslot, _, _⟩ := markSucceeded_cases hstep
    exact held job (by rw [hslot]; rfl)
  | markFailed w' jobId draw =>
    cases hmark
    obtain ⟨_, _, _, _, hw, _, _, _⟩ := markFailed_cases hstep
    exact held _ hw
  | _ => cases hmark

/-- In a run in which the reaper takes no claim away from a live slot, a terminal
    row is final, attempts count the committed failures and never decrease, and
    only the slot that still has the claim writes a mark. -/
theorem terminal_final_failures_counted {jobId : String}
    (hok : Run.Guarded (step registry scrubValue) ReapSparesLive init (as ++ bs))
    (hs : Run.exec (step registry scrubValue) init as = some s)
    (ht : Run.exec (step registry scrubValue) s bs = some t) :
    (∀ row, find s.jobs jobId = some row → row.state.terminal = true → .dropJob jobId ∉ bs →
      find t.jobs jobId = some row) ∧
    (∀ row, find s.jobs jobId = some row → row.attempts = failures jobId as) ∧
    (∀ row row', find s.jobs jobId = some row → find t.jobs jobId = some row' →
      row.attempts ≤ row'.attempts) ∧
    (∀ a w u, a.marks = some w → step registry scrubValue s a = some u → s.KeepsClaim w) := by
  obtain ⟨hokas, hokbs⟩ := Run.guarded_append.mp hok
  have howned : Owned s := owned_run hokas owned_init hs
  have hcounted : ∀ {cs : List (Act P)} {u},
      Run.Guarded (step registry scrubValue) ReapSparesLive init cs →
      Run.exec (step registry scrubValue) init cs = some u → Owned u ∧ Counted cs u :=
    fun hokcs hcs => Run.Guarded.history (fun cs u => Owned u ∧ Counted cs u)
      (fun h hok hstep => ⟨owned_step h.1 hok hstep, h.2.snoc h.1 hstep⟩)
      ⟨owned_init, counted_init⟩ hokcs hcs
  refine ⟨fun row hrow hterm hdrop => ?_, (hcounted hokas hs).2.row jobId, ?_, ?_⟩
  · exact terminal_run (hokbs s hs) howned ht hrow hterm hdrop
  · intro row row' hrow hrow'
    have hrun := Run.exec_append_eq_some.mpr ⟨s, hs, ht⟩
    rw [(hcounted hokas hs).2.row jobId row hrow, (hcounted hok hrun).2.row jobId row' hrow',
      failures_append]
    exact Nat.le_add_right ..
  · exact fun a w u hmark hstep => howned.keepsClaim hmark hstep

/-- A job that fails once and then succeeds. -/
def retriedRun : List (Act ExtractionJob) :=
  [.enqueue "j" "extraction" ⟨1, 2⟩ none none none none, .claim "w" "j", .markRunning "w",
    .handlerStart "w", .handlerEnd "w" (.raised "boom" false), .markFailed "w" "j" 500000,
    .advance 1000000, .claim "w'" "j", .markRunning "w'", .reap, .handlerStart "w'",
    .handlerEnd "w'" .returned, .markSucceeded "w'"]

theorem terminal_final_failures_counted_retried :
    ∃ s row, Run.exec (step extractionRegistry id) init retriedRun = some s ∧
      find s.jobs "j" = some row ∧ row.state = .succeeded ∧ row.attempts = failures "j" retriedRun := by
  have hrow : ((Run.exec (step extractionRegistry id) init retriedRun).bind
      fun s => find s.jobs "j").map (·.state) = some .succeeded := by decide
  obtain ⟨row, hrow, hstate⟩ := Option.map_eq_some_iff.mp hrow
  obtain ⟨s, hs, hrow⟩ := Option.bind_eq_some_iff.mp hrow
  have hok : Run.Guarded (step extractionRegistry id) ReapSparesLive init (retriedRun ++ []) :=
    Run.guarded_of_checks reapsNothing reapSparesLive_of_reapsNothing (by decide)
  exact ⟨s, row, hs, hrow, hstate,
    (terminal_final_failures_counted hok hs rfl).2.1 row hrow⟩

/-- The reaper gives the job of the slow `w` to `w'`, which succeeds. Then `w` fails. -/
def lateFailure : List (Act ExtractionJob) :=
  [.handlerEnd "w" (.raised "boom" false), .markFailed "w" "j" 500000]

theorem terminal_not_final :
    ¬ ∀ (as bs : List (Act ExtractionJob)) (s t : St ExtractionJob) (jobId : String),
      Run.exec (step extractionRegistry id) init as = some s →
      Run.exec (step extractionRegistry id) s bs = some t →
      ∀ row, find s.jobs jobId = some row → row.state.terminal = true → .dropJob jobId ∉ bs →
        find t.jobs jobId = some row := by
  intro h
  let overtaken := slowRun ++ [.handlerEnd "w'" .returned, .markSucceeded "w'"]
  have hstates :
      (((Run.exec (step extractionRegistry id) init overtaken).bind fun s =>
        find s.jobs "j").map (·.state) = some .succeeded) ∧
      (((Run.exec (step extractionRegistry id) init (overtaken ++ lateFailure)).bind fun s =>
        find s.jobs "j").map (·.state) = some .pending) := by decide
  obtain ⟨row, hrow, hdone⟩ := Option.map_eq_some_iff.mp hstates.1
  obtain ⟨s, hs, hrow⟩ := Option.bind_eq_some_iff.mp hrow
  obtain ⟨row', hrow', hback⟩ := Option.map_eq_some_iff.mp hstates.2
  obtain ⟨t, ht, hrow'⟩ := Option.bind_eq_some_iff.mp hrow'
  obtain ⟨s', hs', hbs⟩ := Run.exec_append_eq_some.mp ht
  cases hs.symm.trans hs'
  have hkept := h overtaken lateFailure s t "j" hs hbs row hrow (by rw [hdone]; rfl) (by decide)
  rw [hrow'] at hkept
  cases hkept
  rw [hdone] at hback
  cases hback

end Worker
