-- SUMMARY: Recovery: after every worker has died, one worker alone brings every job that is accounted for to its end, whatever the handler answers, and a job that is not is never touched again.
import DealScreening.BackgroundJobs.Budget
import DealScreening.Lib.Progress
import Mathlib.Algebra.Order.BigOperators.Group.List
import Mathlib.Data.List.MinMax

/-!
# Recovery

A job that is waiting is attempted until it succeeds or has no attempt left, and a job that a dead
worker held is waiting again when its claim has expired. A job that is held without a deadline is
never touched again.
-/

namespace Worker

open Queue Run

variable {P : Type} {s t : St P} {as : List (Act P)} {w jobId : String} {limit : Nat}
  {answer : BackgroundJob P → HandlerOutcome} {jitter : BackgroundJob P → Int}

/-- `ORDER BY not_before`: no row that the claim query selects was due before the one it returns. -/
def Oldest (s : St P) (jobId : String) : Prop :=
  ∀ row l row', find s.jobs jobId = some row → find s.jobs l = some row' →
    claimable s.clock row' = true → row.notBefore ≤ row'.notBefore

/-- The slot takes its steps alone, and the reaper runs. Which job it gets, what the handler answers
    and the random part of a retry delay are not the slot's to choose. -/
def Alone (w : String) (answer : BackgroundJob P → HandlerOutcome) (jitter : BackgroundJob P → Int)
    (s : St P) : Act P → Prop
  | .claim w' jobId => w' = w ∧ Oldest s jobId
  | .markRunning w' | .handlerStart w' | .markSucceeded w' => w' = w
  | .handlerEnd w' outcome => w' = w ∧ ∀ job, (s.slots w).job? = some job → outcome = answer job
  | .markFailed w' _ draw => w' = w ∧ ∀ job, (s.slots w).job? = some job → draw = jitter job
  | .reap | .advance _ => True
  | .enqueue .. | .crash _ | .dropJob _ => False

/-- Every job has come to its end. -/
def Settled (s : St P) : Prop :=
  ∀ jobId row, find s.jobs jobId = some row → row.state.terminal = true

/-- No job is held. -/
def Waiting (s : St P) : Prop :=
  ∀ jobId row, find s.jobs jobId = some row → row.state = .pending ∨ row.state.terminal = true

/-- The attempts that the waiting rows stand for. -/
def remaining (s : St P) : Nat := (s.issued.map fun jobId => rowLeft jobId s).sum

/-- The slot is free, no job is held, and the rows are in order. -/
structure Ready (limit : Nat) (w : String) (s : St P) : Prop where
  orderly : Orderly limit s
  idle : s.slots w = .idle
  waiting : Waiting s

-- ---------------------------------------------------------------------------
-- One attempt
-- ---------------------------------------------------------------------------

/-- Slot `w` has taken `job` on, and nothing else has changed since `s`. -/
structure TakenOn (s : St P) (w : String) (job : BackgroundJob P) (x : Slot P) (t : St P) : Prop where
  slot : t.slots w = x
  row : find t.jobs job.jobId = some job
  others : ∀ l, l ≠ job.jobId → find t.jobs l = find s.jobs l
  issued : t.issued = s.issued

theorem TakenOn.setSlot {job : BackgroundJob P} {x : Slot P} (h : TakenOn s w job x t) (y : Slot P) :
    TakenOn s w job y (t.setSlot w y) where
  slot := Function.update_self ..
  row := h.row
  others := h.others
  issued := h.issued

theorem TakenOn.mark {job : BackgroundJob P} {x : Slot P} (h : TakenOn s w job x t)
    (object : BackgroundJob P) (hid : object.jobId = job.jobId)
    (hcols : flushColumns job object job = object) (hbound : object.attempts ≤ object.maxAttempts)
    (y : Slot P) : ∃ t', t.mark w job object y = some t' ∧ TakenOn s w object y t' := by
  refine ⟨t.flush w job object y, St.mark_eq_some.mpr ⟨job, h.row, ?_, rfl⟩, ?_, ?_, ?_, h.issued⟩
  · rw [hcols]
    exact decide_eq_true hbound
  · exact Function.update_self ..
  · rw [St.find_flush, if_pos hid, h.row, Option.map_some, hcols]
  · intro l hl
    rw [hid] at hl
    rw [St.find_flush, if_neg hl]
    exact h.others l hl

/-- The attempt is over: the job has come to its end, or waits with one attempt more. -/
def Attempted (s : St P) (w : String) (row : BackgroundJob P) (t : St P) : Prop :=
  ∃ object, object.jobId = row.jobId ∧ TakenOn s w object .idle t ∧
    (object.state.terminal = true ∨ object.state = .pending ∧
      object.attempts = row.attempts + 1 ∧ object.maxAttempts = row.maxAttempts)

variable [Payload P] {registry : Registry P} {scrubValue : String → String}

theorem TakenOn.fails {row job : BackgroundJob P} {x : Slot P} (h : TakenOn s w job x t)
    (hjob : x.job? = some job) (hid : job.jobId = row.jobId) (hatt : job.attempts = row.attempts)
    (hmax : job.maxAttempts = row.maxAttempts) (hleft : row.attempts < row.maxAttempts) {error : String}
    {nonRetryable : Bool} (hfail : failure registry x = some (job, error, nonRetryable)) :
    Leads (step registry scrubValue) (Alone w answer jitter) t (Attempted s w row) := by
  have hstate := markFailed_state scrubValue t.clock (jitter job) error nonRetryable job
  have hmax' : (markFailed scrubValue t.clock (jitter job) error nonRetryable job).maxAttempts =
      row.maxAttempts := by
    rw [← hmax]
    simp only [markFailed]
    split <;> rfl
  obtain ⟨t', hmark, htaken⟩ := h.mark _ (markFailed_jobId ..)
    (flushColumns_markFailed scrubValue t.clock (jitter job) error nonRetryable job)
    (by rw [hstate.1, hmax', hatt]; omega) .idle
  have hstep : step registry scrubValue t (.markFailed w job.jobId (jitter job)) = some t' := by
    simp only [step, h.slot, hfail, if_true]
    exact hmark
  have halone : Alone w answer jitter t (.markFailed w job.jobId (jitter job)) := by
    refine ⟨rfl, fun job' hjob' => ?_⟩
    rw [h.slot, hjob] at hjob'
    rw [Option.some.inj hjob']
  refine .cons hstep halone (.here ⟨_, (markFailed_jobId ..).trans hid, htaken, ?_⟩)
  rcases hstate.2.2.2 with ⟨hpending, -⟩ | hdead
  · exact .inr ⟨hpending, by rw [hstate.1, hatt], hmax'⟩
  · left
    rw [hdead]
    rfl

theorem TakenOn.succeeds {row job : BackgroundJob P} (h : TakenOn s w job (.finished job .returned) t)
    (hid : job.jobId = row.jobId) (hbound : job.attempts ≤ job.maxAttempts) :
    Leads (step registry scrubValue) (Alone w answer jitter) t (Attempted s w row) := by
  obtain ⟨t', hmark, htaken⟩ := h.mark (markSucceeded t.clock job) rfl
    (flushColumns_markSucceeded t.clock job) hbound .idle
  have hstep : step registry scrubValue t (.markSucceeded w) = some t' := by
    simp only [step, h.slot]
    exact hmark
  exact .cons hstep rfl (.here ⟨markSucceeded t.clock job, hid, htaken, .inl rfl⟩)

theorem TakenOn.runs {row job : BackgroundJob P} (h : TakenOn s w job (.claimed job) t)
    (hdispatch : dispatchError registry job = none) (hid : job.jobId = row.jobId)
    (hatt : job.attempts = row.attempts) (hmax : job.maxAttempts = row.maxAttempts)
    (hleft : row.attempts < row.maxAttempts) :
    Leads (step registry scrubValue) (Alone w answer jitter) t (Attempted s w row) := by
  obtain ⟨t₁, hmark, hrunning⟩ := h.mark (markRunning job) rfl (flushColumns_markRunning job)
    (by change job.attempts ≤ job.maxAttempts; omega) (.running (markRunning job))
  have hrun : step registry scrubValue t (.markRunning w) = some t₁ := by
    simp only [step, h.slot, hdispatch, if_true]
    exact hmark
  have hstart : step registry scrubValue t₁ (.handlerStart w) =
      some (t₁.setSlot w (.handling (markRunning job))) := by
    simp only [step, hrunning.slot]
  have hhandling := hrunning.setSlot (.handling (markRunning job))
  have hend : step registry scrubValue (t₁.setSlot w (.handling (markRunning job)))
      (.handlerEnd w (answer (markRunning job))) = some
        ((t₁.setSlot w (.handling (markRunning job))).setSlot w
          (.finished (markRunning job) (answer (markRunning job)))) := by
    simp only [step, hhandling.slot]
  have hanswers : Alone w answer jitter (t₁.setSlot w (.handling (markRunning job)))
      (.handlerEnd w (answer (markRunning job))) := by
    refine ⟨rfl, fun job' hjob' => ?_⟩
    rw [hhandling.slot] at hjob'
    rw [← Option.some.inj hjob']
  have hfinished := hhandling.setSlot (.finished (markRunning job) (answer (markRunning job)))
  refine .cons hrun rfl (.cons hstart rfl (.cons hend hanswers ?_))
  cases houtcome : answer (markRunning job) with
  | returned =>
    rw [houtcome] at hfinished
    exact hfinished.succeeds hid (by change job.attempts ≤ job.maxAttempts; omega)
  | raised error nonRetryable =>
    rw [houtcome] at hfinished
    exact hfinished.fails rfl hid hatt hmax hleft rfl

/-- A job whose time has come is attempted. -/
theorem attempt {row : BackgroundJob P} (hidle : s.slots w = .idle)
    (hrow : find s.jobs row.jobId = some row) (hpending : row.state = .pending)
    (hleft : row.attempts < row.maxAttempts) (hready : row.notBefore ≤ s.clock)
    (holdest : Oldest s row.jobId) :
    Leads (step registry scrubValue) (Alone w answer jitter) s (Attempted s w row) := by
  let taken : St P :=
    { s with
      jobs := set s.jobs row.jobId (claim w s.clock)
      slots := Function.update s.slots w (.claimed (claim w s.clock row)) }
  have hclaim : step registry scrubValue s (.claim w row.jobId) = some taken := by
    simp only [step, hidle, hrow]
    rw [if_pos (by simp [claimable, hpending, hready])]
  have htaken : TakenOn s w (claim w s.clock row) (.claimed (claim w s.clock row)) taken := by
    refine ⟨Function.update_self .., ?_, fun l (hl : l ≠ row.jobId) => ?_, rfl⟩
    · change find (set s.jobs row.jobId (claim w s.clock)) row.jobId = _
      rw [find_claim, if_pos rfl, hrow, Option.map_some]
    · change find (set s.jobs row.jobId (claim w s.clock)) l = _
      rw [find_claim, if_neg hl]
  refine .cons hclaim ⟨rfl, holdest⟩ ?_
  cases hdispatch : dispatchError registry (claim w s.clock row) with
  | some error =>
    have hfail : failure registry (.claimed (claim w s.clock row)) =
        some (claim w s.clock row, error, true) := by
      rw [failure, hdispatch, Option.map_some]
    exact htaken.fails rfl rfl rfl rfl hleft hfail
  | none => exact htaken.runs hdispatch rfl rfl rfl hleft

-- ---------------------------------------------------------------------------
-- From attempt to attempt
-- ---------------------------------------------------------------------------

omit [Payload P] in
/-- An attempt that ends leaves the job fewer of them, and every other job as it was. -/
theorem Attempted.decreases {row : BackgroundJob P} (h : Attempted s w row t) (hready : Ready limit w s)
    (horderly : Orderly limit t) (hrow : find s.jobs row.jobId = some row)
    (hpending : row.state = .pending) : Ready limit w t ∧ remaining t < remaining s := by
  obtain ⟨object, hid, htaken, hend⟩ := h
  obtain ⟨hok, -, hissued⟩ := hready.orderly.row _ row hrow
  have hleft : row.attempts < row.maxAttempts := hok.attemptLeft (.inl hpending)
  have hfound : find t.jobs row.jobId = some object := hid ▸ htaken.row
  constructor
  · refine ⟨horderly, htaken.slot, fun l row' hrow' => ?_⟩
    by_cases hl : l = object.jobId
    · subst hl
      cases htaken.row.symm.trans hrow'
      rcases hend with hterminal | ⟨hstate, -⟩
      · exact .inr hterminal
      · exact .inl hstate
    · rw [htaken.others l hl] at hrow'
      exact hready.waiting l row' hrow'
  · have hless : rowLeft row.jobId t < rowLeft row.jobId s := by
      rw [rowLeft_of_find hrow, rowLeft_of_find hfound, left, left, if_pos hpending]
      rcases hend with hterminal | ⟨hstate, hatt, hmax⟩
      · have hover : object.state ≠ .pending := by
          intro hstate
          rw [hstate] at hterminal
          cases hterminal
        rw [if_neg hover]
        omega
      · rw [if_pos hstate]
        omega
    unfold remaining
    rw [htaken.issued]
    refine List.sum_lt_sum _ _ (fun l _ => ?_) ⟨row.jobId, hissued, hless⟩
    by_cases hl : l = row.jobId
    · rw [hl]
      exact hless.le
    · rw [rowLeft, htaken.others l (hid ▸ hl)]
      exact le_refl _

omit [Payload P] in
/-- Of the jobs that wait, one is due first. -/
theorem exists_first (horderly : Orderly limit s) {row : BackgroundJob P}
    (hrow : find s.jobs jobId = some row) (hpending : row.state = .pending) :
    ∃ first, find s.jobs first.jobId = some first ∧ first.state = .pending ∧
      ∀ l row', find s.jobs l = some row' → row'.state = .pending →
        first.notBefore ≤ row'.notBefore := by
  let waiting := (s.issued.filterMap (find s.jobs)).filter fun row => row.state = .pending
  have hmem : ∀ l row', find s.jobs l = some row' → row'.state = .pending → row' ∈ waiting := by
    intro l row' hrow' hpending'
    refine List.mem_filter.mpr ⟨List.mem_filterMap.mpr ⟨l, ?_, hrow'⟩, decide_eq_true hpending'⟩
    exact (horderly.row l row' hrow').2.2
  cases hfirst : waiting.argmin BackgroundJob.notBefore with
  | none =>
    have hnone := List.argmin_eq_none.mp hfirst
    exact absurd (hmem jobId row hrow hpending) (hnone ▸ List.not_mem_nil)
  | some first =>
    obtain ⟨hfound, hstate⟩ := List.mem_filter.mp (List.argmin_mem hfirst)
    obtain ⟨l, -, hl⟩ := List.mem_filterMap.mp hfound
    refine ⟨first, find_jobId hl ▸ hl, of_decide_eq_true hstate, fun l' row' hrow' hpending' => ?_⟩
    exact List.le_of_mem_argmin (hmem l' row' hrow' hpending') hfirst

theorem nextAttempt (hmax : ∀ jobType reg, registry jobType = some reg →
      1 ≤ reg.maxAttempts ∧ reg.maxAttempts ≤ limit)
    (hready : Ready limit w s) (hopen : ¬ Settled s) :
    Leads (step registry scrubValue) (Alone w answer jitter) s
      fun t => Ready limit w t ∧ remaining t < remaining s := by
  unfold Settled at hopen
  push Not at hopen
  obtain ⟨jobId, waiting, hwaiting, hterminal⟩ := hopen
  obtain ⟨row, hrow, hpending, hfirst⟩ := exists_first hready.orderly hwaiting
    ((hready.waiting jobId waiting hwaiting).resolve_right hterminal)
  have hleft := (hready.orderly.row _ row hrow).1.attemptLeft (.inl hpending)
  -- The clock moves on to when the job may be attempted.
  let later : St P := { s with clock := s.clock + (row.notBefore - s.clock).toNat }
  have hadvance : step registry scrubValue s (.advance (row.notBefore - s.clock).toNat) =
      some later := rfl
  have hlater : Ready limit w later :=
    ⟨orderly_step hready.orderly hmax hadvance, hready.idle, hready.waiting⟩
  have hdue : row.notBefore ≤ later.clock := by
    have hle : ∀ due now : Int, due ≤ now + (due - now).toNat := by omega
    exact hle row.notBefore s.clock
  have holdest : Oldest later row.jobId := by
    intro row₀ l row' hrow₀ hrow' hclaimable
    cases hrow.symm.trans hrow₀
    simp only [claimable, decide_eq_true_eq] at hclaimable
    exact hfirst l row' hrow' hclaimable.1
  have hkeep : ∀ {s t : St P} {a : Act P}, Orderly limit s → Alone w answer jitter s a →
      step registry scrubValue s a = some t → Orderly limit t :=
    fun h _ hstep => orderly_step h hmax hstep
  have hattempt : Leads (step registry scrubValue) (Alone w answer jitter) later
      (Attempted later w row) := attempt hlater.idle hrow hpending hleft hdue holdest
  refine .cons hadvance trivial ((hattempt.keeps hkeep hlater.orderly).mono ?_)
  rintro t ⟨horderly, hattempted⟩
  exact hattempted.decreases hlater horderly hrow hpending

omit [Payload P] in
/-- Some day every claim has expired. -/
theorem exists_expired (jobs : Jobs P) (now : Time) :
    ∃ d : Nat, ∀ row ∈ jobs, ∀ e, row.claimExpiresAt = some e → e < now + d := by
  induction jobs with
  | nil => exact ⟨0, by simp⟩
  | cons row jobs ih =>
    obtain ⟨d, hd⟩ := ih
    have hmore : ∀ (e now : Int) (d d' : Nat), e < now + d → e < now + (d + d' : Nat) := by omega
    have hlast : ∀ (e now : Int) (d : Nat), e < now + (d + ((e - now).toNat + 1) : Nat) := by omega
    refine ⟨d + ((row.claimExpiresAt.getD now - now).toNat + 1), fun row' hrow' e he => ?_⟩
    rcases List.mem_cons.mp hrow' with rfl | hrow'
    · rw [he, Option.getD_some]
      exact hlast e now d
    · exact hmore e now d _ (hd row' hrow' e he)

/-- When every claim has expired, the reaper returns every job that is held. -/
theorem reaped (hmax : ∀ jobType reg, registry jobType = some reg →
      1 ≤ reg.maxAttempts ∧ reg.maxAttempts ≤ limit)
    (horderly : Orderly limit s) (hidle : s.slots w = .idle)
    (hdeadline : ∀ jobId row, find s.jobs jobId = some row → HasDeadline row) :
    Leads (step registry scrubValue) (Alone w answer jitter) s (Ready limit w) := by
  obtain ⟨d, hd⟩ := exists_expired s.jobs s.clock
  let later : St P := { s with clock := s.clock + d }
  have hadvance : step registry scrubValue s (.advance d) = some later := rfl
  have hreap : step registry scrubValue later .reap =
      some { later with jobs := reapExpiredClaims later.clock s.jobs } := rfl
  have horderly' := orderly_step (orderly_step horderly hmax hadvance) hmax hreap
  refine .cons hadvance trivial (.cons hreap trivial (.here ⟨horderly', hidle, ?_⟩))
  intro jobId row hrow
  change find (reapExpiredClaims later.clock s.jobs) jobId = some row at hrow
  rw [find_reapExpiredClaims] at hrow
  obtain ⟨old, hold, hrow⟩ := Option.map_eq_some_iff.mp hrow
  by_cases hexpired : expired later.clock old
  · rw [if_pos hexpired] at hrow
    subst hrow
    exact .inl rfl
  · rw [if_neg hexpired] at hrow
    subst hrow
    have hfree : ¬ (old.state = .claimed ∨ old.state = .running) := by
      intro hheld
      obtain ⟨e, he⟩ := Option.ne_none_iff_exists'.mp (hdeadline jobId old hold hheld)
      have hpast : e < later.clock := hd old (Table.lookup_mem hold) e he
      exact hexpired (by simp [expired, hheld, he, hpast])
    have hstate := (horderly.row jobId old hold).1.state
    cases hst : old.state with
    | pending => exact .inl rfl
    | succeeded => exact .inr rfl
    | deadLettered => exact .inr rfl
    | failed => exact absurd hst hstate
    | claimed => exact absurd (.inl hst) hfree
    | running => exact absurd (.inr hst) hfree

-- ---------------------------------------------------------------------------
-- Stranded jobs
-- ---------------------------------------------------------------------------

/-- The job is held without a deadline, and no slot has it. -/
structure Stranded (row : BackgroundJob P) (s : St P) : Prop where
  found : find s.jobs row.jobId = some row
  held : row.state = .claimed ∨ row.state = .running
  deadline : row.claimExpiresAt = none
  unheld : ∀ w job, (s.slots w).job? = some job → job.jobId ≠ row.jobId

omit [Payload P] in
theorem Stranded.not_claimable {row : BackgroundJob P} (h : Stranded row s) (now : Time) :
    ¬ claimable now row = true := by
  intro hready
  simp only [claimable, decide_eq_true_eq] at hready
  rcases h.held with hst | hst <;> rw [hst] at hready <;> cases hready.1

/-- No step of any slot and no reaper touches a stranded job. -/
theorem Stranded.step {row : BackgroundJob P} {a : Act P} (h : Stranded row s)
    (hstep : step registry scrubValue s a = some t) : Stranded row t := by
  have hdrop : a ≠ .dropJob row.jobId := by
    rintro rfl
    obtain ⟨job, hjob, hdead, -⟩ := dropJob_cases hstep
    cases h.found.symm.trans hjob
    rcases h.held with hst | hst <;> rw [hst] at hdead <;> cases hdead
  refine ⟨?_, h.held, h.deadline, fun w job hjob => ?_⟩
  · obtain ⟨row', hrow', hchange⟩ := step_row hstep h.found hdrop
    cases hchange with
    | unchanged => exact hrow'
    | claim hready => exact absurd hready (h.not_claimable _)
    | markRunning hslot hid => exact absurd hid (h.unheld _ _ (by rw [hslot]; rfl))
    | markSucceeded hslot hid => exact absurd hid (h.unheld _ _ (by rw [hslot]; rfl))
    | markFailed hslot hid => exact absurd hid (h.unheld _ _ hslot)
    | release hexpired => simp [expired, h.deadline] at hexpired
  · rcases (step_slot hstep w).object hjob with ⟨old, hold, heq, -⟩ | ⟨ready, -, hrow, hready, -⟩
    · have hid : job.jobId = old.jobId := by rw [heq]
      rw [hid]
      exact h.unheld w old hold
    · intro hid
      rw [hid] at hrow
      cases h.found.symm.trans hrow
      exact h.not_claimable _ hready

-- ---------------------------------------------------------------------------
-- Recovery
-- ---------------------------------------------------------------------------

/-- When every worker has died, one slot alone can bring every job to its end, whatever its handler
    answers, if every job is accounted for. A job that is not is never touched again, by any
    number of workers. -/
theorem recoverable (hmax : ∀ jobType reg, registry jobType = some reg →
      1 ≤ reg.maxAttempts ∧ reg.maxAttempts ≤ limit)
    (hrun : exec (step registry scrubValue) init as = some s) (hidle : ∀ w, s.slots w = .idle) :
    ((∀ jobId row, find s.jobs jobId = some row → Accounted row) → ∀ w answer jitter,
      Leads (step registry scrubValue) (Alone w answer jitter) s Settled) ∧
    ∀ jobId row, find s.jobs jobId = some row → ¬ Accounted row →
      ∀ bs t, exec (step registry scrubValue) s bs = some t → find t.jobs jobId = some row := by
  have hkeep : ∀ {s t : St P} {a : Act P}, Orderly limit s → step registry scrubValue s a = some t →
      Orderly limit t := fun h hstep => orderly_step h hmax hstep
  have horderly : Orderly limit s := Run.invariant (fun h hstep => hkeep h hstep) orderly_init hrun
  constructor
  · intro haccounted w answer jitter
    have hdeadline : ∀ jobId row, find s.jobs jobId = some row → HasDeadline row :=
      fun jobId row hrow => (horderly.row jobId row hrow).1.accounted.mp (haccounted jobId row hrow)
    refine (reaped hmax horderly (hidle w) hdeadline).trans fun t ht => ?_
    have hfinish : Leads (step registry scrubValue) (Alone w answer jitter) t
        fun t => Ready limit w t ∧ Settled t :=
      leads_of_measure remaining (fun s hs hopen => nextAttempt hmax hs hopen) ht
    exact hfinish.mono fun _ h => h.2
  · intro jobId row hrow hlost bs t hexec
    obtain rfl := find_jobId hrow
    have hheld : (row.state = .claimed ∨ row.state = .running) ∧ row.claimExpiresAt = none := by
      rw [(horderly.row _ row hrow).1.accounted, HasDeadline] at hlost
      simpa using hlost
    have hunheld : ∀ w job, (s.slots w).job? = some job → job.jobId ≠ row.jobId := by
      intro w job hjob
      rw [hidle w] at hjob
      cases hjob
    have hstranded : Stranded row s := ⟨hrow, hheld.1, hheld.2, hunheld⟩
    exact (Run.invariant (fun h hstep => h.step hstep) hstranded hexec).found

/-- The worker dies while its handler runs. -/
def diedRun : List (Act ExtractionJob) :=
  [.enqueue "j" "extraction" ⟨1, 2⟩ none none none none, .claim "w" "j", .markRunning "w",
    .handlerStart "w", .crash "w"]

/-- The job as the dead worker left it. -/
def diedJob : BackgroundJob ExtractionJob where
  jobId := "j"
  jobType := "extraction"
  payload := ⟨1, 2⟩
  state := .running
  attempts := 0
  maxAttempts := 5
  notBefore := 0
  claimedBy := some "w"
  claimExpiresAt := some claimTtl
  idempotencyKey := none
  traceContext := none
  lastError := none
  tenantId := some (Uuid.str 2)
  succeededAt := none
  deadLetteredAt := none

theorem recoverable_died :
    ∃ s, exec (step extractionRegistry id) init diedRun = some s ∧
      ∀ answer jitter, Leads (step extractionRegistry id) (Alone "w'" answer jitter) s Settled := by
  have hrun : ((exec (step extractionRegistry id) init diedRun).map fun s => (s.jobs, s.slots)) =
      some ([diedJob], Function.update (Function.update (Function.update (Function.update
        (fun _ => .idle) "w" (.claimed { diedJob with state := .claimed })) "w" (.running diedJob))
        "w" (.handling diedJob)) "w" .idle) := rfl
  obtain ⟨s, hs, heq⟩ := Option.map_eq_some_iff.mp hrun
  simp only [Prod.mk.injEq, Function.update_idem] at heq
  have hidle : ∀ w, s.slots w = .idle := by
    intro w
    rw [heq.2, Function.update_apply]
    exact ite_self _
  have haccounted : ∀ jobId row, find s.jobs jobId = some row → Accounted row := by
    intro jobId row hrow
    have hmem : row ∈ s.jobs := Table.lookup_mem hrow
    rw [heq.1, List.mem_singleton] at hmem
    rw [hmem]
    exact .inr (.inl ⟨.inr rfl, by decide⟩)
  exact ⟨s, hs, (recoverable extractionRegistry_limit hs hidle).1 haccounted "w'"⟩

end Worker
