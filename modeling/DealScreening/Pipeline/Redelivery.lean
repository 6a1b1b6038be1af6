-- SUMMARY: One extraction job that is delivered again and again: its row, its executions that may die, and when the result is that of a single execution.
import DealScreening.BackgroundJobs.Worker
import DealScreening.Pipeline.Guarantees
import DealScreening.Services.Scorable

/-!
# Redelivery

A worker that dies leaves the job CLAIMED or RUNNING, and once the claim has expired the
reaper hands it out again. The job is executed from its start then, on the tables as
the last execution left them.
-/

namespace Redelivery

open Python Session Dossier ExtractionService ScoringService Handlers Pipeline

-- ---------------------------------------------------------------------------
-- The job
-- ---------------------------------------------------------------------------

/-- The row of the job, and the tables. -/
structure St where
  job : BackgroundJob ExtractionJob
  tables : DealDb

/-- How an execution ends. -/
inductive Ending where
  /-- The worker dies before it calls the handler. -/
  | lost
  | died (crash : Crash)
  | completed (finish : Time)
  deriving DecidableEq, Repr

inductive Act where
  | execute (workerId : String) (now : Time) (draw : ScoreDraw) (jitter : Int) (ending : Ending)
  | reap (now : Time)
  deriving DecidableEq, Repr

/-- The worker did not die after the extraction was committed. -/
def Act.early : Act → Bool
  | .execute _ _ _ _ (.died .beforeScoring) | .execute _ _ _ _ (.died .beforeMark) => false
  | _ => true

/-- What does not change from one execution to the next: the document, what the LLM says of
    it, and how an exception is printed and scrubbed. -/
structure Setting where
  world : ExtractionWorld
  errorText : HandlerExn → String
  scrubValue : String → String

section
variable [Runtime]

/-- `_execute_job` on a job that was claimed, whose payload validates. -/
def executeJob (setting : Setting) (draw : ScoreDraw) (jitter : Int) (ending : Ending)
    (job : BackgroundJob ExtractionJob) (tables : DealDb) : St :=
  match ending with
  | .lost => ⟨job, tables⟩
  | .died crash =>
    ⟨Queue.markRunning job,
      interrupted crash setting.world draw job.payload (Worker.jobContext job) tables⟩
  | .completed finish =>
    match handleExtraction setting.world draw job.payload (Worker.jobContext job) tables with
    | (.ok _, tables) => ⟨Queue.markSucceeded finish (Queue.markRunning job), tables⟩
    | (.error e, tables) =>
      ⟨Queue.markFailed setting.scrubValue finish jitter (setting.errorText e) e.nonRetryable
        (Queue.markRunning job), tables⟩

/-- One execution or one run of the reaper. A score gets an id that no score has yet. -/
def step (setting : Setting) (s : St) : Act → Option St
  | .execute workerId now draw jitter ending =>
    if Queue.claimable now s.job ∧ s.tables.scoreById draw.scoreId = none then
      some (executeJob setting draw jitter ending (Queue.claim workerId now s.job) s.tables)
    else none
  | .reap now => if Queue.expired now s.job then some { s with job := Queue.release s.job } else none

end

-- ---------------------------------------------------------------------------
-- The claim
-- ---------------------------------------------------------------------------

/-- A field, whatever the number of its run. -/
def content (f : ExtractedField) : ExtractedField := { f with extractionRun := 0 }

/-- The fields of the latest run. -/
def currentFields (x : Dossier) : List ExtractedField := (latestRun x.fields).map content

/-- The status, the set of current fields and the number of scores are the same. -/
structure Agrees (x y : Dossier) : Prop where
  status : x.status = y.status
  fields : ∀ f, f ∈ currentFields x ↔ f ∈ currentFields y
  scores : x.scores.length = y.scores.length

section
variable [Runtime]

/-- The rows that the fields of a response give. -/
def rowsOf (deal : Deal) (fields : List LlmField) : Option (List ExtractedField) :=
  fieldRows deal.id (deal.retryCount + 1)
    (computeOverallConfidence fields (fields.countP LlmField.isFound)) fields

/-- The document gives no response that is accepted, or one with too few fields, and each of
    these can be stored. -/
def Fails (world : ExtractionWorld) (deal : Deal) : Prop :=
  ∀ json fields, fetchFields world deal.filePath.val = .ok json → readFields json = .ok fields →
    (rowsOf deal fields).isSome ∧ fields.countP LlmField.isFound < minFieldsForExtraction

/-- The document gives a response with enough fields, and these rows. -/
def Extracts (world : ExtractionWorld) (deal : Deal) (rows : List ExtractedField) : Prop :=
  ∃ json fields, fetchFields world deal.filePath.val = .ok json ∧ readFields json = .ok fields ∧
    rowsOf deal fields = some rows ∧ minFieldsForExtraction ≤ fields.countP LlmField.isFound

/-- Each criterion of the active config, if there is one, is scorable on the fields. -/
def ScorableOnRows (db : DealDb) (deal : Deal) (rows : List ExtractedField) : Prop :=
  ∀ config, db.activeConfig deal.tenantId = some config → ∀ c ∈ db.criteriaOf config.id,
    CriterionScorable (latestFields (db.fieldsOf deal.id ++ rows)) c

/-- When deliveries may be repeated: the deal waits for its extraction, and that fails, or it
    succeeds, the deal can be scored, and no worker dies after the extraction is committed. -/
def Repeatable (world : ExtractionWorld) (db : DealDb) (dealId tenantId : Uuid) (acts : List Act) :
    Prop :=
  ∃ deal, db.deal dealId tenantId = some deal ∧ Extractable deal.status ∧
    (Fails world deal ∨ ∃ rows, Extracts world deal rows ∧ ScorableOnRows db deal rows ∧
      ∀ act ∈ acts, act.early)

end

-- ---------------------------------------------------------------------------
-- The outcome of a document
-- ---------------------------------------------------------------------------

section
variable [Runtime] {world : ExtractionWorld} {deal deal' : Deal} {rows : List ExtractedField}

theorem extracts_iff : Extracts world deal rows ↔
    ∃ foundCount overall, outcome world deal = .extracted rows foundCount overall := by
  constructor
  · rintro ⟨json, fields, hfetch, hread, hrows, hfound⟩
    unfold rowsOf at hrows
    rw [outcome_of_read hfetch hread, hrows]
    exact ⟨_, _, if_pos hfound⟩
  · rintro ⟨foundCount, overall, ho⟩
    cases hfetch : fetchFields world deal.filePath.val with
    | error e => simp [outcome, hfetch] at ho
    | ok json =>
      cases hread : readFields json with
      | error e => simp [outcome, hfetch, hread] at ho
      | ok fields =>
        rw [outcome_of_read hfetch hread] at ho
        split at ho
        · cases ho
        · rename_i rows' hrows
          split at ho
          · rename_i hfound
            cases ho
            exact ⟨json, fields, hfetch, hread, hrows, hfound⟩
          · cases ho

theorem fails_iff : Fails world deal ↔ ∃ rows detail, outcome world deal = .failed rows detail := by
  cases hfetch : fetchFields world deal.filePath.val with
  | error e =>
    refine iff_of_true (fun json _ hok => ?_) ⟨[], _, by simp only [outcome, hfetch]; rfl⟩
    cases hfetch.symm.trans hok
  | ok json =>
    cases hread : readFields json with
    | error e =>
      refine iff_of_true (fun json' fields hok hread' => ?_)
        ⟨[], _, by simp only [outcome, hfetch, hread]; rfl⟩
      cases hfetch.symm.trans hok
      cases hread.symm.trans hread'
    | ok fields =>
      have hone : Fails world deal ↔ (rowsOf deal fields).isSome ∧
          fields.countP LlmField.isFound < minFieldsForExtraction := by
        constructor
        · exact fun h => h json fields hfetch hread
        · intro h json' fields' hok hread'
          cases hfetch.symm.trans hok
          cases hread.symm.trans hread'
          exact h
      rw [hone, outcome_of_read hfetch hread]
      unfold rowsOf
      cases hrows : fieldRows deal.id (deal.retryCount + 1)
          (computeOverallConfidence fields (fields.countP LlmField.isFound)) fields with
      | none => simp
      | some rows =>
        by_cases hfound : minFieldsForExtraction ≤ fields.countP LlmField.isFound
        · simp [hfound, Nat.not_lt.mpr hfound]
        · simp [hfound, Nat.not_le.mp hfound]

omit [Runtime] in
theorem mapM_map_option {α β : Type} (f : α → Option β) (g : β → β) (xs : List α) :
    xs.mapM (fun x => (f x).map g) = (xs.mapM f).map (List.map g) := by
  induction xs with
  | nil => rfl
  | cons x xs ih =>
    rw [List.mapM_cons, List.mapM_cons, ih]
    cases f x <;> cases xs.mapM f <;> rfl

/-- The rows of another run. -/
def renumber (run : Nat) (rows : List ExtractedField) : List ExtractedField :=
  rows.map fun row => { row with extractionRun := run }

omit [Runtime] in
theorem fieldRows_renumber {dealId : Uuid} {n m : Nat} {overall : ConfidenceLevel}
    {fields : List LlmField} :
    fieldRows dealId m overall fields = (fieldRows dealId n overall fields).map (renumber m) := by
  have hrow : indexedRow dealId m overall = fun field =>
      (indexedRow dealId n overall field).map fun row => { row with extractionRun := m } := by
    funext field
    unfold indexedRow fieldRow
    cases PgText.ofStr field.1.fieldName <;> cases textColumn field.1.fieldValue <;> rfl
  unfold fieldRows renumber
  rw [hrow, mapM_map_option]

/-- What the document gives does not depend on the status or the retries of the deal, but for
    the number of the run. -/
theorem outcome_failed_again {detail : Str} (hid : deal'.id = deal.id)
    (hpath : deal'.filePath = deal.filePath) (ho : outcome world deal = .failed rows detail) :
    outcome world deal' = .failed (renumber (deal'.retryCount + 1) rows) detail := by
  unfold outcome at ho ⊢
  rw [hpath, hid]
  split at ho
  · cases ho
    simp [renumber]
  · split at ho
    · cases ho
      simp [renumber]
    · rename_i fields hread
      dsimp only at ho
      split at ho
      · cases ho
      · rename_i rows' hrows
        split at ho
        · cases ho
        · rename_i hfound
          cases ho
          have hagain : fieldRows deal.id (deal'.retryCount + 1)
              (computeOverallConfidence fields (fields.countP LlmField.isFound)) fields = _ :=
            fieldRows_renumber (n := deal.retryCount + 1)
          rw [hrows] at hagain
          simp [hagain, hfound]

omit [Runtime] in
theorem content_renumber {run : Nat} : (renumber run rows).map content = rows.map content := by
  simp [renumber, content]

end

-- ---------------------------------------------------------------------------
-- The handler on the tables it finds
-- ---------------------------------------------------------------------------

section
variable [Runtime] {world : ExtractionWorld} {draw : ScoreDraw} {job : ExtractionJob}
  {ctx : JobContext} {db : DealDb} {deal : Deal} {c : DealChange} {crash : Crash}

/-- The extraction raises: the deal is not there, or is in another status, or its rows are
    refused. -/
def Stuck (world : ExtractionWorld) (job : ExtractionJob) (db : DealDb) : Prop :=
  ∀ deal, db.deal job.dealId job.tenantId = some deal → Extractable deal.status →
    (outcome world deal).change deal = none

theorem extraction_stuck (h : Stuck world job db) :
    ∃ e, extraction world job ctx db = (.ended (.error e), db) := by
  rcases extraction_cases world job ctx db with hended | ⟨result, db', -, hrun, -⟩
  · exact hended
  · rcases extractDeal_commits world job.dealId job.tenantId db with
      ⟨e, hback⟩ | ⟨deal, c, hdeal, hfrom, hc, -⟩
    · cases hback.symm.trans hrun
    · cases (h deal hdeal hfrom).symm.trans hc

theorem handleExtraction_stuck (h : Stuck world job db) :
    ∃ e, handleExtraction world draw job ctx db = (.error e, db) := by
  obtain ⟨e, hended⟩ := @extraction_stuck _ world job ctx db h
  exact ⟨e, by rw [handleExtraction, hended]⟩

theorem interrupted_stuck (h : Stuck world job db) :
    interrupted crash world draw job ctx db = db := by
  obtain ⟨e, hended⟩ := @extraction_stuck _ world job ctx db h
  obtain ⟨e', herror⟩ := @handleExtraction_stuck _ world draw job ctx db h
  cases crash with
  | beforeExtraction => rfl
  | beforeScoring => rw [interrupted, hended]
  | beforeMark => rw [interrupted, herror]

omit [Runtime] in
/-- The check of the tenant passes for a job that was enqueued for the tenant it names. -/
theorem tenantMismatch_eq_none (h : ctx.tenantId = some (Uuid.str job.tenantId)) :
    tenantMismatch job ctx = none := by
  simp [tenantMismatch, h]

/-- An extraction that goes through. -/
theorem extraction_ok (hctx : ctx.tenantId = some (Uuid.str job.tenantId))
    (hdeal : db.deal job.dealId job.tenantId = some deal) (hfrom : Extractable deal.status)
    (hc : (outcome world deal).change deal = some c) :
    extraction world job ctx db =
      (if ((outcome world deal).result deal).success then .extracted else .ended (.ok ()),
        db.change deal.id c) := by
  unfold extraction
  rw [tenantMismatch_eq_none hctx, extractDeal_ok hdeal hfrom hc]

/-- An extraction that fails is the whole execution. -/
theorem handleExtraction_failed {rows : List ExtractedField} {detail : Str}
    (hctx : ctx.tenantId = some (Uuid.str job.tenantId))
    (hdeal : db.deal job.dealId job.tenantId = some deal) (hfrom : Extractable deal.status)
    (ho : outcome world deal = .failed rows detail) :
    handleExtraction world draw job ctx db =
      (.ok (), db.change deal.id (failedChange deal rows detail)) := by
  have hended := extraction_ok hctx hdeal hfrom (by rw [ho]; rfl)
  rw [ho] at hended
  rw [handleExtraction, hended]
  rfl

theorem interrupted_failed {rows : List ExtractedField} {detail : Str}
    (hctx : ctx.tenantId = some (Uuid.str job.tenantId))
    (hdeal : db.deal job.dealId job.tenantId = some deal) (hfrom : Extractable deal.status)
    (ho : outcome world deal = .failed rows detail) :
    interrupted crash world draw job ctx db = db ∨ interrupted crash world draw job ctx db =
      db.change deal.id (failedChange deal rows detail) := by
  cases crash with
  | beforeExtraction => exact .inl rfl
  | beforeScoring =>
    have hended := extraction_ok hctx hdeal hfrom (by rw [ho]; rfl)
    exact .inr (by rw [interrupted, hended])
  | beforeMark => exact .inr (by rw [interrupted, handleExtraction_failed hctx hdeal hfrom ho])

variable {rows : List ExtractedField} {foundCount : Nat} {overall : ConfidenceLevel}

theorem extraction_extracted (hctx : ctx.tenantId = some (Uuid.str job.tenantId))
    (hdeal : db.deal job.dealId job.tenantId = some deal) (hfrom : Extractable deal.status)
    (ho : outcome world deal = .extracted rows foundCount overall) :
    extraction world job ctx db = (.extracted, db.change deal.id (extractedChange deal rows)) := by
  have hended := extraction_ok hctx hdeal hfrom (by rw [ho]; rfl)
  rw [ho] at hended
  exact hended

omit [Runtime] in
theorem deal_extracted (hdeal : db.deal job.dealId job.tenantId = some deal) :
    (db.change deal.id (extractedChange deal rows)).deal job.dealId job.tenantId =
      some ((extractedChange deal rows).update deal) := by
  rw [DealDb.deal_change, hdeal]
  simp

omit [Runtime] in
theorem fieldsOf_extracted (habout : ∀ row ∈ rows, row.dealId = deal.id) :
    (db.change deal.id (extractedChange deal rows)).fieldsOf deal.id = db.fieldsOf deal.id ++ rows := by
  have hdossier : (db.change deal.id (extractedChange deal rows)).dossier deal.id = _ :=
    dossier_change (extractedChange_about habout)
  rw [if_pos rfl] at hdossier
  exact congrArg Dossier.fields hdossier

/-- What a second execution finds after an extraction that was committed. -/
theorem stuck_extracted (hdeal : db.deal job.dealId job.tenantId = some deal) :
    Stuck world job (db.change deal.id (extractedChange deal rows)) := by
  intro d hd hfrom
  rw [deal_extracted hdeal] at hd
  cases hd
  exact absurd hfrom (not_extractable (.inl rfl))

theorem stuck_scored {score : DealScore} {ev : Evaluation}
    (hdeal : db.deal job.dealId job.tenantId = some deal) :
    Stuck world job (scoredDb db deal score ev) := by
  intro d hd hfrom
  rw [scoredDb, DealDb.deal_change, hdeal] at hd
  simp only [Option.map_some, if_true, Option.some.injEq] at hd
  subst hd
  exact absurd hfrom (not_extractable (.inr (.inl rfl)))

/-- When the score of a deal that was just extracted is recorded. -/
theorem recordable_extracted {config : CriteriaConfig} (hinv : Inv db)
    (hdeal : db.deal job.dealId job.tenantId = some deal)
    (habout : ∀ row ∈ rows, row.dealId = deal.id) (hfresh : db.scoreById draw.scoreId = none)
    (hconfig : db.activeConfig deal.tenantId = some config) :
    (∃ ev score, evaluate (db.criteriaOf config.id) (latestFields
          ((db.change deal.id (extractedChange deal rows)).fieldsOf job.dealId)) = .ok ev ∧
        scoreRow draw deal.id config.id ev = some score ∧
        Insertable (db.change deal.id (extractedChange deal rows)) score) ↔
      ∀ c ∈ db.criteriaOf config.id,
        CriterionScorable (latestFields (db.fieldsOf deal.id ++ rows)) c := by
  have hid := (DealDb.deal_key hdeal).1
  rw [← hid, fieldsOf_extracted habout]
  have hexists : ((db.change deal.id (extractedChange deal rows)).dealById
      ((extractedChange deal rows).update deal).id).isSome :=
    DealDb.dealById_isSome (deal_extracted hdeal)
  have hconfigExists : (db.configById config.id).isSome := configById_activeConfig hconfig
  refine recordable_iff _ (fun c hc => ?_) ?_ hexists hconfigExists
  · obtain ⟨hge, hle⟩ := hinv.weights c (List.mem_of_mem_filter hc)
    rw [← Option.ne_none_iff_isSome, ne_eq, toRat_eq_none_iff hge hle, Bool.not_eq_true]
  · simpa [DealDb.scoreById, DealDb.change, extractedChange] using hfresh

/-- A deal that was just extracted is scored if there is a config and its criteria are
    scorable. -/
theorem scoring_scorable (hinv : Inv db) (hdeal : db.deal job.dealId job.tenantId = some deal)
    (habout : ∀ row ∈ rows, row.dealId = deal.id) (hscorable : ScorableOnRows db deal rows)
    (hfresh : db.scoreById draw.scoreId = none) :
    ∃ tables, scoring draw job (db.change deal.id (extractedChange deal rows)) = (.ok (), tables) ∧
      Stuck world job tables ∧
      (tables.dossier deal.id).status =
        some (if (db.activeConfig deal.tenantId).isSome then .scored else .extracted) ∧
      (tables.dossier deal.id).fields = db.fieldsOf deal.id ++ rows ∧
      (tables.dossier deal.id).scores.length =
        (db.scoresOf deal.id).length + if (db.activeConfig deal.tenantId).isSome then 1 else 0 := by
  have hdeal' : (db.change deal.id (extractedChange deal rows)).deal _ _ = _ := deal_extracted hdeal
  obtain ⟨hid, htenant⟩ := DealDb.deal_key hdeal
  have hdossier : (db.change deal.id (extractedChange deal rows)).dossier deal.id =
      (db.dossier deal.id).apply (extractedChange deal rows) := by
    rw [dossier_change (extractedChange_about habout), if_pos rfl]
  have hlookup : (db.dossier deal.id).deal = some deal := hinv.dealById hdeal
  cases hconfig : db.activeConfig deal.tenantId with
  | none =>
    refine ⟨db.change deal.id (extractedChange deal rows), ?_, stuck_extracted hdeal, ?_, ?_, ?_⟩
    · rw [htenant] at hconfig
      rw [scoring, scoreDeal_no_config hdeal' rfl hconfig]
    · rw [hdossier, Dossier.status, apply_deal hlookup]
      rfl
    · rw [hdossier]
      rfl
    · rw [hdossier]
      simp [Dossier.apply, extractedChange, DealDb.dossier]
  | some config =>
    obtain ⟨ev, score, hev, hrow, hinsert⟩ :=
      (recordable_extracted hinv hdeal habout hfresh hconfig).mpr (hscorable config hconfig)
    rw [htenant] at hconfig
    obtain ⟨-, -, hscore, -⟩ := scoreRow_eq_some hrow
    have hok : transaction (scoreDeal draw job.dealId job.tenantId) _ = _ :=
      scoreDeal_ok hdeal' rfl hconfig hev hrow hinsert
    have hscored : (scoredDb (db.change deal.id (extractedChange deal rows))
        ((extractedChange deal rows).update deal) score ev).dossier deal.id =
        ((db.dossier deal.id).apply (extractedChange deal rows)).apply
          (scoreChange ((extractedChange deal rows).update deal) score ev) := by
      have habout' : (scoreChange ((extractedChange deal rows).update deal) score ev).About
          ((extractedChange deal rows).update deal).id := scoreChange_about hscore
      rw [← hdossier, scoredDb]
      exact (dossier_change habout').trans (if_pos rfl)
    refine ⟨_, by rw [scoring, hok], stuck_scored hdeal', ?_, ?_, ?_⟩
    · rw [hscored, Dossier.status, apply_deal (apply_deal hlookup)]
      rfl
    · rw [hscored]
      simp [Dossier.apply, extractedChange, scoreChange, DealDb.dossier]
    · rw [hscored]
      simp [Dossier.apply, extractedChange, scoreChange, DealDb.dossier]

/-- Otherwise scoring raises. -/
theorem scoring_unscorable (hinv : Inv db) (hdeal : db.deal job.dealId job.tenantId = some deal)
    (habout : ∀ row ∈ rows, row.dealId = deal.id) (hnot : ¬ ScorableOnRows db deal rows)
    (hfresh : db.scoreById draw.scoreId = none) :
    ∃ e, scoring draw job (db.change deal.id (extractedChange deal rows)) =
      (.error e, db.change deal.id (extractedChange deal rows)) := by
  simp only [ScorableOnRows, not_forall] at hnot
  obtain ⟨config, hconfig, c, hc, hcriterion⟩ := hnot
  have hrecordable := fun ev score hev hrow hinsert =>
    (recordable_extracted hinv hdeal habout hfresh hconfig).mp ⟨ev, score, hev, hrow, hinsert⟩
  rw [(DealDb.deal_key hdeal).2] at hconfig
  obtain ⟨x, hx⟩ : ∃ x, transaction (scoreDeal draw job.dealId job.tenantId)
      (db.change deal.id (extractedChange deal rows)) = (.error x, _) :=
    scoreDeal_raises (deal_extracted hdeal) rfl hconfig fun ev score hev hrow hinsert =>
      hcriterion (hrecordable ev score hev hrow hinsert c hc)
  exact ⟨.service x, by rw [scoring, hx]⟩

end

-- ---------------------------------------------------------------------------
-- Executions
-- ---------------------------------------------------------------------------

section
variable [Runtime] {setting : Setting} {s t : St} {a : Act} {draw : ScoreDraw} {jitter : Int}
  {ending : Ending} {row : BackgroundJob ExtractionJob} {job : ExtractionJob} {db : DealDb}
  {deal : Deal} {rows : List ExtractedField} {detail : Str}

theorem step_cases (h : step setting s a = some t) :
    (∃ now, a = .reap now ∧ s.job.state ≠ .succeeded ∧ t = { s with job := Queue.release s.job }) ∨
    ∃ workerId now draw jitter ending, a = .execute workerId now draw jitter ending ∧
      s.job.state = .pending ∧ s.tables.scoreById draw.scoreId = none ∧
      t = executeJob setting draw jitter ending (Queue.claim workerId now s.job) s.tables := by
  cases a with
  | execute workerId now draw jitter ending =>
    simp only [step] at h
    split at h
    · rename_i hready
      cases h
      have hpending := (of_decide_eq_true hready.1).1
      exact .inr ⟨workerId, now, draw, jitter, ending, rfl, hpending, hready.2, rfl⟩
    · cases h
  | reap now =>
    simp only [step] at h
    split at h
    · rename_i hexpired
      cases h
      refine .inl ⟨now, rfl, fun hstate => ?_, rfl⟩
      rcases (of_decide_eq_true hexpired).1 with hclaimed | hrunning
      · cases hclaimed.symm.trans hstate
      · cases hrunning.symm.trans hstate
    · cases h

/-- The row is still that of the job, for the tenant that its payload names. -/
def Delivers (job : ExtractionJob) (row : BackgroundJob ExtractionJob) : Prop :=
  row.payload = job ∧ row.tenantId = some (Uuid.str job.tenantId)

omit [Runtime] in
theorem markFailed_keeps {scrubValue : String → String} {now : Time} {error : String}
    {nonRetryable : Bool} :
    (Queue.markFailed scrubValue now jitter error nonRetryable row).payload = row.payload ∧
    (Queue.markFailed scrubValue now jitter error nonRetryable row).tenantId = row.tenantId ∧
    (Queue.markFailed scrubValue now jitter error nonRetryable row).state ≠ .succeeded := by
  unfold Queue.markFailed
  dsimp only
  split <;> exact ⟨rfl, rfl, fun h => nomatch h⟩

theorem executeJob_delivers {tables : DealDb} (h : Delivers job row) :
    Delivers job (executeJob setting draw jitter ending row tables).job := by
  cases ending with
  | lost => exact h
  | died crash => exact h
  | completed finish =>
    unfold executeJob
    dsimp only
    split
    · exact h
    · exact ⟨markFailed_keeps.1.trans h.1, markFailed_keeps.2.1.trans h.2⟩

theorem step_delivers (hs : Delivers job s.job) (h : step setting s a = some t) :
    Delivers job t.job := by
  rcases step_cases h with ⟨now, -, -, rfl⟩ | ⟨workerId, now, draw, jitter, ending, -, -, -, rfl⟩
  · exact hs
  · exact executeJob_delivers hs

/-! ## A deal that cannot be extracted -/

/-- Every execution from here on raises. -/
structure Lost (setting : Setting) (job : ExtractionJob) (s : St) : Prop where
  delivers : Delivers job s.job
  stuck : Stuck setting.world job s.tables
  state : s.job.state ≠ .succeeded

theorem executeJob_lost (hrow : Delivers job row) (hstate : row.state = .claimed)
    (h : Stuck setting.world job db) :
    Lost setting job (executeJob setting draw jitter ending row db) := by
  have hpayload := hrow.1
  subst hpayload
  cases ending with
  | lost => exact ⟨hrow, h, fun hdone => nomatch hstate.symm.trans hdone⟩
  | died crash =>
    refine ⟨hrow, ?_, fun hdone => nomatch hdone⟩
    rw [executeJob, interrupted_stuck h]
    exact h
  | completed finish =>
    obtain ⟨e, herror⟩ := @handleExtraction_stuck _ setting.world draw row.payload
      (Worker.jobContext row) db h
    have hdelivers : Delivers row.payload
        (executeJob setting draw jitter (.completed finish) row db).job := executeJob_delivers hrow
    rw [executeJob, herror] at hdelivers ⊢
    exact ⟨hdelivers, h, markFailed_keeps.2.2⟩

theorem Lost.step (hs : Lost setting job s) (h : step setting s a = some t) : Lost setting job t := by
  rcases step_cases h with ⟨now, -, -, rfl⟩ | ⟨workerId, now, draw, jitter, ending, -, -, -, rfl⟩
  · exact ⟨hs.delivers, hs.stuck, fun hdone => nomatch hdone⟩
  · exact executeJob_lost hs.delivers rfl hs.stuck

/-! ## An extraction that fails -/

omit [Runtime] in
theorem Agrees.refl (x : Dossier) : Agrees x x := ⟨rfl, fun _ => Iff.rfl, rfl⟩

omit [Runtime] in
/-- The current fields after an extraction that fails. -/
theorem currentFields_failed (hinv : Inv db) (hdeal : db.dealById deal.id = some deal)
    (hfrom : Extractable deal.status) (hrun : rows = [] ∨ IsRun deal rows) :
    currentFields ((db.dossier deal.id).apply (failedChange deal rows detail)) =
      if rows = [] then currentFields (db.dossier deal.id) else rows.map content := by
  rcases hrun with rfl | hrun
  · simp [currentFields, Dossier.apply, failedChange]
  · have hlatest := (hinv.numbered deal.id).latestRun hdeal hfrom hrun
    rw [if_neg hrun.ne_nil]
    exact congrArg (List.map content) hlatest

/-- The deal waits for an extraction that fails, and it failed before or nothing happened. -/
structure Waits (setting : Setting) (job : ExtractionJob) (first : DealDb) (deal : Deal)
    (rows : List ExtractedField) (detail : Str) (db : DealDb) : Prop where
  inv : Inv db
  found : ∃ deal', db.deal job.dealId job.tenantId = some deal' ∧ deal'.id = deal.id ∧
    Extractable deal'.status ∧
    outcome setting.world deal' = .failed (renumber (deal'.retryCount + 1) rows) detail
  same : db.dossier deal.id = first.dossier deal.id ∨
    Agrees (db.dossier deal.id) ((first.dossier deal.id).apply (failedChange deal rows detail))

omit [Runtime] in
theorem renumber_renumber {n m : Nat} : renumber m (renumber n rows) = renumber m rows := by
  simp [renumber]

omit [Runtime] in
theorem renumber_eq_nil {n : Nat} : renumber n rows = [] ↔ rows = [] := List.map_eq_nil_iff

variable {first : DealDb} {deal' : Deal}

omit [Runtime] in
/-- Two deals that an extraction of the same document failed for agree. -/
theorem agrees_failed {rows' : List ExtractedField} (hinv : Inv db) (hfirst : Inv first)
    (hid : deal'.id = deal.id) (hdeal' : db.dealById deal'.id = some deal')
    (hfrom' : Extractable deal'.status) (hrun' : rows' = [] ∨ IsRun deal' rows')
    (hdeal : first.dealById deal.id = some deal) (hfrom : Extractable deal.status)
    (hrun : rows = [] ∨ IsRun deal rows) (hrows : rows' = renumber (deal'.retryCount + 1) rows)
    (hsame : db.dossier deal.id = first.dossier deal.id ∨
      Agrees (db.dossier deal.id) ((first.dossier deal.id).apply (failedChange deal rows detail))) :
    Agrees ((db.dossier deal'.id).apply (failedChange deal' rows' detail))
      ((first.dossier deal.id).apply (failedChange deal rows detail)) := by
  have hfields : currentFields ((first.dossier deal.id).apply (failedChange deal rows detail)) = _ :=
    currentFields_failed hfirst hdeal hfrom hrun
  have hfields' : currentFields ((db.dossier deal'.id).apply (failedChange deal' rows' detail)) = _ :=
    currentFields_failed hinv hdeal' hfrom' hrun'
  refine ⟨?_, fun f => ?_, ?_⟩
  · rw [Dossier.status, Dossier.status, apply_deal hdeal', apply_deal hdeal]
    rfl
  · rw [hfields', hid]
    by_cases hnone : rows = []
    · have hnone' : rows' = [] := by rw [hrows, renumber_eq_nil, hnone]
      rw [if_pos hnone']
      rcases hsame with hsame | hsame
      · rw [hsame, hfields, if_pos hnone]
      · exact hsame.fields f
    · have hsome : rows' ≠ [] := by rwa [hrows, ne_eq, renumber_eq_nil]
      rw [if_neg hsome, hfields, if_neg hnone, hrows, content_renumber]
  · rw [hid]
    rcases hsame with hsame | hsame
    · rw [hsame]
      rfl
    · have hscores := hsame.scores
      simpa [Dossier.apply, failedChange] using hscores

/-- One more failed extraction changes nothing of what is compared. -/
theorem Waits.fail (h : Waits setting job first deal rows detail db) (hfirst : Inv first)
    (hdeal : first.dealById deal.id = some deal) (hfrom : Extractable deal.status)
    (hrun : rows = [] ∨ IsRun deal rows)
    (hdeal' : db.deal job.dealId job.tenantId = some deal') (hid : deal'.id = deal.id)
    (hfrom' : Extractable deal'.status)
    (ho : outcome setting.world deal' = .failed (renumber (deal'.retryCount + 1) rows) detail) :
    Waits setting job first deal rows detail
      (db.change deal'.id (failedChange deal' (renumber (deal'.retryCount + 1) rows) detail)) ∧
    Agrees ((db.change deal'.id
        (failedChange deal' (renumber (deal'.retryCount + 1) rows) detail)).dossier deal.id)
      ((first.dossier deal.id).apply (failedChange deal rows detail)) := by
  have hrows : RunRows deal' (outcome setting.world deal') := outcome_runRows
  have hc : (outcome setting.world deal').change deal' =
      some (failedChange deal' (renumber (deal'.retryCount + 1) rows) detail) := by rw [ho]; rfl
  have habout : (failedChange deal' (renumber (deal'.retryCount + 1) rows) detail).About deal'.id :=
    failedChange_about fun row hrow => (outcome_rows hc row hrow).1
  rw [ho] at hrows
  obtain ⟨hkeyId, hkeyTenant⟩ := DealDb.deal_key hdeal'
  have hagrees : Agrees ((db.change deal'.id
      (failedChange deal' (renumber (deal'.retryCount + 1) rows) detail)).dossier deal.id)
      ((first.dossier deal.id).apply (failedChange deal rows detail)) := by
    rw [← hid, dossier_change habout, if_pos rfl, hid]
    have hagrees := agrees_failed h.inv hfirst hid (h.inv.dealById hdeal') hfrom' hrows hdeal hfrom
      hrun rfl h.same
    rwa [hid] at hagrees
  refine ⟨⟨h.inv.event (change_event ?_ habout (.failed hfrom' hrows) rfl), ?_, .inr hagrees⟩, hagrees⟩
  · rw [hkeyId, hkeyTenant]
    exact hdeal'
  · refine ⟨(failedChange deal' (renumber (deal'.retryCount + 1) rows) detail).update deal', ?_, hid,
      .inr rfl, ?_⟩
    · rw [DealDb.deal_change, hdeal']
      simp
    · have hagain : outcome setting.world ((failedChange deal'
          (renumber (deal'.retryCount + 1) rows) detail).update deal') = _ :=
        outcome_failed_again (by rfl) (by rfl) ho
      rwa [renumber_renumber] at hagain

omit [Runtime] in
theorem jobContext_tenantId (hrow : Delivers job row) :
    (Worker.jobContext row).tenantId = some (Uuid.str row.payload.tenantId) := by
  rw [hrow.1]
  exact hrow.2

/-- An execution of a job whose extraction fails. -/
theorem executeJob_fails (hrow : Delivers job row) (h : Waits setting job first deal rows detail db)
    (hfirst : Inv first) (hdeal : first.dealById deal.id = some deal)
    (hfrom : Extractable deal.status) (hrun : rows = [] ∨ IsRun deal rows) :
    Waits setting job first deal rows detail (executeJob setting draw jitter ending row db).tables ∧
    ∀ finish, ending = .completed finish →
      (executeJob setting draw jitter ending row db).job.state = .succeeded ∧
      Agrees ((executeJob setting draw jitter ending row db).tables.dossier deal.id)
        ((first.dossier deal.id).apply (failedChange deal rows detail)) := by
  obtain ⟨deal', hdeal', hid, hfrom', ho⟩ := h.found
  have hfail := h.fail hfirst hdeal hfrom hrun hdeal' hid hfrom' ho
  have hctx := jobContext_tenantId hrow
  have hpayload := hrow.1
  subst hpayload
  cases ending with
  | lost => exact ⟨h, fun _ hend => nomatch hend⟩
  | died crash =>
    refine ⟨?_, fun _ hend => nomatch hend⟩
    rw [executeJob]
    dsimp only
    have hends : interrupted crash setting.world draw row.payload (Worker.jobContext row) db = db ∨
        _ := interrupted_failed hctx hdeal' hfrom' ho
    rcases hends with hsame | hlate
    · rw [hsame]
      exact h
    · rw [hlate]
      exact hfail.1
  | completed finish =>
    rw [executeJob, handleExtraction_failed hctx hdeal' hfrom' ho]
    exact ⟨hfail.1, fun _ _ => ⟨rfl, hfail.2⟩⟩

theorem step_waits (hs : Delivers job s.job ∧ Waits setting job first deal rows detail s.tables)
    (hfirst : Inv first) (hdeal : first.dealById deal.id = some deal)
    (hfrom : Extractable deal.status) (hrun : rows = [] ∨ IsRun deal rows)
    (h : step setting s a = some t) :
    Delivers job t.job ∧ Waits setting job first deal rows detail t.tables := by
  refine ⟨step_delivers hs.1 h, ?_⟩
  rcases step_cases h with ⟨now, -, -, rfl⟩ | ⟨workerId, now, draw, jitter, ending, -, -, -, rfl⟩
  · exact hs.2
  · have hrow : Delivers job (Queue.claim workerId now s.job) := hs.1
    exact (executeJob_fails hrow hs.2 hfirst hdeal hfrom hrun).1

/-! ## An extraction that succeeds -/

variable {foundCount : Nat} {overall : ConfidenceLevel}

/-- Nothing has happened so far, or the job is done. -/
structure Untouched (job : ExtractionJob) (first : DealDb) (s : St) : Prop where
  delivers : Delivers job s.job
  tables : s.tables = first ∨ s.job.state = .succeeded

section
variable {ctx : JobContext} (hctx : ctx.tenantId = some (Uuid.str job.tenantId)) (hinv : Inv db)
  (hdeal : db.deal job.dealId job.tenantId = some deal) (hfrom : Extractable deal.status)
  (ho : outcome setting.world deal = .extracted rows foundCount overall)
  (hfresh : db.scoreById draw.scoreId = none)
include hctx hinv hdeal hfrom ho hfresh

theorem handleExtraction_scorable (hscorable : ScorableOnRows db deal rows) :
    ∃ tables, handleExtraction setting.world draw job ctx db = (.ok (), tables) ∧
      Stuck setting.world job tables ∧
      (tables.dossier deal.id).status =
        some (if (db.activeConfig deal.tenantId).isSome then .scored else .extracted) ∧
      (tables.dossier deal.id).fields = db.fieldsOf deal.id ++ rows ∧
      (tables.dossier deal.id).scores.length =
        (db.scoresOf deal.id).length + if (db.activeConfig deal.tenantId).isSome then 1 else 0 := by
  have habout := fun row hrow =>
    (outcome_rows (by rw [ho]; rfl : (outcome setting.world deal).change deal = some _) row hrow).1
  rw [handleExtraction, extraction_extracted hctx hdeal hfrom ho]
  exact scoring_scorable hinv hdeal habout hscorable hfresh

theorem handleExtraction_unscorable (hnot : ¬ ScorableOnRows db deal rows) :
    ∃ e, handleExtraction setting.world draw job ctx db =
      (.error e, db.change deal.id (extractedChange deal rows)) := by
  have habout := fun row hrow =>
    (outcome_rows (by rw [ho]; rfl : (outcome setting.world deal).change deal = some _) row hrow).1
  rw [handleExtraction, extraction_extracted hctx hdeal hfrom ho]
  exact scoring_unscorable hinv hdeal habout hnot hfresh

end

section
variable (hrow : Delivers job row) (hinv : Inv db)
  (hdeal : db.deal job.dealId job.tenantId = some deal) (hfrom : Extractable deal.status)
  (ho : outcome setting.world deal = .extracted rows foundCount overall)
  (hfresh : db.scoreById draw.scoreId = none)
include hrow hinv hdeal hfrom ho hfresh

/-- An execution of a job whose deal can be extracted and scored: it commits nothing, or
    strands the deal, or does all of it. -/
theorem executeJob_scorable (hscorable : ScorableOnRows db deal rows) {workerId : String} {now : Time} :
    if (Act.execute workerId now draw jitter ending).early then
      Untouched job db (executeJob setting draw jitter ending row db)
    else Lost setting job (executeJob setting draw jitter ending row db) := by
  have hctx := jobContext_tenantId hrow
  have hpayload := hrow.1
  subst hpayload
  obtain ⟨tables, hhandle, hstuck, -⟩ :=
    handleExtraction_scorable hctx hinv hdeal hfrom ho hfresh hscorable
  cases ending with
  | lost => exact ⟨hrow, .inl rfl⟩
  | completed finish =>
    have hdelivers : Delivers row.payload
        (executeJob setting draw jitter (.completed finish) row db).job := executeJob_delivers hrow
    refine ⟨hdelivers, .inr ?_⟩
    rw [executeJob, hhandle]
    rfl
  | died crash =>
    cases crash with
    | beforeExtraction => exact ⟨hrow, .inl rfl⟩
    | beforeScoring =>
      refine ⟨hrow, ?_, fun hdone => nomatch hdone⟩
      rw [executeJob, interrupted, extraction_extracted hctx hdeal hfrom ho]
      exact stuck_extracted hdeal
    | beforeMark =>
      refine ⟨hrow, ?_, fun hdone => nomatch hdone⟩
      rw [executeJob, interrupted, hhandle]
      exact hstuck

/-- One that cannot be scored: it commits nothing, or strands the deal. -/
theorem executeJob_unscorable (hstate : row.state = .claimed) (hnot : ¬ ScorableOnRows db deal rows) :
    ((executeJob setting draw jitter ending row db).tables = db ∧
      (executeJob setting draw jitter ending row db).job.state ≠ .succeeded) ∨
    Lost setting job (executeJob setting draw jitter ending row db) := by
  have hctx := jobContext_tenantId hrow
  have hpayload := hrow.1
  subst hpayload
  obtain ⟨e, hhandle⟩ := handleExtraction_unscorable hctx hinv hdeal hfrom ho hfresh hnot
  cases ending with
  | lost => exact .inl ⟨rfl, fun hdone => nomatch hstate.symm.trans hdone⟩
  | completed finish =>
    have hdelivers : Delivers row.payload
        (executeJob setting draw jitter (.completed finish) row db).job := executeJob_delivers hrow
    rw [executeJob, hhandle] at hdelivers ⊢
    exact .inr ⟨hdelivers, stuck_extracted hdeal, markFailed_keeps.2.2⟩
  | died crash =>
    cases crash with
    | beforeExtraction => exact .inl ⟨rfl, fun hdone => nomatch hdone⟩
    | beforeScoring =>
      refine .inr ⟨hrow, ?_, fun hdone => nomatch hdone⟩
      rw [executeJob, interrupted, extraction_extracted hctx hdeal hfrom ho]
      exact stuck_extracted hdeal
    | beforeMark =>
      refine .inr ⟨hrow, ?_, fun hdone => nomatch hdone⟩
      rw [executeJob, interrupted, hhandle]
      exact stuck_extracted hdeal

end

-- ---------------------------------------------------------------------------
-- Runs
-- ---------------------------------------------------------------------------

/-- A deal that cannot be extracted at the start: the job never succeeds. -/
theorem run_lost {acts : List Act} (hs : Lost setting job s)
    (hrun : Run.exec (step setting) s acts = some t) : Lost setting job t :=
  Run.invariant Lost.step hs hrun

theorem run_unscorable {acts : List Act} (hs : Delivers job s.job) (hstart : s.job.state ≠ .succeeded)
    (hinv : Inv s.tables) (hdeal : s.tables.deal job.dealId job.tenantId = some deal)
    (hfrom : Extractable deal.status)
    (ho : outcome setting.world deal = .extracted rows foundCount overall)
    (hnot : ¬ ScorableOnRows s.tables deal rows)
    (hrun : Run.exec (step setting) s acts = some t) : t.job.state ≠ .succeeded := by
  have hkept : (Delivers job t.job ∧ t.tables = s.tables ∧ t.job.state ≠ .succeeded) ∨
      Lost setting job t := by
    refine @Run.invariant _ _ _ (fun u =>
      (Delivers job u.job ∧ u.tables = s.tables ∧ u.job.state ≠ .succeeded) ∨ Lost setting job u)
      _ _ _ ?_ (.inl ⟨hs, rfl, hstart⟩) hrun
    rintro u a v (⟨hu, htables, hstate⟩ | hlost) h
    · rcases step_cases h with ⟨now, -, -, rfl⟩ |
        ⟨workerId, now, draw, jitter, ending, -, -, hfresh, rfl⟩
      · exact .inl ⟨hu, htables, fun hdone => nomatch hdone⟩
      · have hrow : Delivers job (Queue.claim workerId now u.job) := hu
        rw [htables] at hfresh ⊢
        rcases executeJob_unscorable hrow hinv hdeal hfrom ho hfresh rfl hnot with
          ⟨hsame, hstate'⟩ | hlost
        · exact .inl ⟨executeJob_delivers hrow, hsame, hstate'⟩
        · exact .inr hlost
    · exact .inr (hlost.step h)
  rcases hkept with ⟨-, -, hstate⟩ | hlost
  · exact hstate
  · exact hlost.state

/-- A deal that can be scored is stranded exactly by a worker that dies late. -/
theorem run_scorable {acts : List Act} (hs : Delivers job s.job)
    (hinv : Inv s.tables) (hdeal : s.tables.deal job.dealId job.tenantId = some deal)
    (hfrom : Extractable deal.status)
    (ho : outcome setting.world deal = .extracted rows foundCount overall)
    (hscorable : ScorableOnRows s.tables deal rows)
    (hrun : Run.exec (step setting) s acts = some t) :
    (Run.Guarded (step setting) (fun _ a => a.early = true) s acts ∧ Untouched job s.tables t) ∨
      (¬ Run.Guarded (step setting) (fun _ a => a.early = true) s acts ∧ Lost setting job t) := by
  have hexec : ∀ {u v a}, Untouched job s.tables u → step setting u a = some v →
      if a.early then Untouched job s.tables v else Lost setting job v := by
    intro u v a hu h
    rcases step_cases h with ⟨now, rfl, hstate, rfl⟩ |
      ⟨workerId, now, draw, jitter, ending, rfl, hpending, hfresh, rfl⟩
    · refine ⟨hu.delivers, hu.tables.imp_right fun hdone => ?_⟩
      exact absurd hdone hstate
    · have hrow : Delivers job (Queue.claim workerId now u.job) := hu.delivers
      have htables : u.tables = s.tables := by
        rcases hu.tables with hsame | hdone
        · exact hsame
        · cases hpending.symm.trans hdone
      rw [htables] at hfresh ⊢
      exact executeJob_scorable hrow hinv hdeal hfrom ho hfresh hscorable
  refine Run.guarded_or_bad (Untouched job s.tables) (Lost setting job) ?_ ?_ Lost.step
    ⟨hs, .inl rfl⟩ hrun
  · intro u a v hu hearly h
    have hv := hexec hu h
    rwa [if_pos hearly] at hv
  · intro u a v hu hlate h
    have hv := hexec hu h
    rwa [if_neg hlate] at hv

/-! ## The last execution -/

omit [Runtime] in
/-- The row that is enqueued for an extraction. -/
theorem delivers_enqueued {queued : Time} {jobId : String} {key trace : Option String}
    {notBefore : Option Time}
    (hjob : Queue.enqueue extractionRegistry queued jobId "extraction" job key trace
      (some (Uuid.str job.tenantId)) notBefore = .ok row) :
    Delivers job row ∧ row.state = .pending := by
  cases hjob
  exact ⟨⟨rfl, rfl⟩, rfl⟩

/-- What the last act of a run does. -/
theorem last_cases {acts : List Act} {workerId : String} {now finish : Time}
    (hrun : Run.exec (step setting) s
      (acts ++ [.execute workerId now draw jitter (.completed finish)]) = some t) :
    ∃ u, Run.exec (step setting) s acts = some u ∧ u.job.state = .pending ∧
      u.tables.scoreById draw.scoreId = none ∧
      t = executeJob setting draw jitter (.completed finish) (Queue.claim workerId now u.job)
        u.tables := by
  obtain ⟨u, hu, hlast⟩ := Run.exec_snoc_eq_some.mp hrun
  rcases step_cases hlast with ⟨now, hact, -⟩ | ⟨_, _, _, _, _, hact, hpending, hfresh, rfl⟩
  · cases hact
  · cases hact
    exact ⟨u, hu, hpending, hfresh, rfl⟩

section
variable {draw₀ : ScoreDraw} {acts : List Act} {workerId : String} {now finish : Time}
  (hs : Delivers job s.job) (hinv : Inv s.tables)
  (hdeal : s.tables.deal job.dealId job.tenantId = some deal) (hfrom : Extractable deal.status)
  (hrun : Run.exec (step setting) s
    (acts ++ [.execute workerId now draw jitter (.completed finish)]) = some t)
include hs hinv hdeal hfrom hrun

/-- A job whose extraction fails ends like one that was executed once. -/
theorem redelivered_fails (ho : outcome setting.world deal = .failed rows detail) :
    t.job.state = .succeeded ∧ Agrees (t.tables.dossier job.dealId)
      ((handleExtraction setting.world draw₀ job (Worker.jobContext s.job) s.tables).2.dossier
        job.dealId) := by
  obtain ⟨u, hu, -, -, rfl⟩ := last_cases hrun
  have hrows : RunRows deal (outcome setting.world deal) := outcome_runRows
  rw [ho] at hrows
  have hlookup := hinv.dealById hdeal
  have hstart : Waits setting job s.tables deal rows detail s.tables :=
    ⟨hinv, ⟨deal, hdeal, rfl, hfrom, outcome_failed_again rfl rfl ho⟩, .inl rfl⟩
  have hwaits : Delivers job u.job ∧ Waits setting job s.tables deal rows detail u.tables :=
    @Run.invariant _ _ _
      (fun v => Delivers job v.job ∧ Waits setting job s.tables deal rows detail v.tables) _ _ _
      (fun hv h => step_waits hv hinv hlookup hfrom hrows h) ⟨hs, hstart⟩ hu
  have hrow : Delivers job (Queue.claim workerId now u.job) := hwaits.1
  obtain ⟨hstate, hagrees⟩ :=
    (executeJob_fails hrow hwaits.2 hinv hlookup hfrom hrows).2 finish rfl
  have habout : (failedChange deal rows detail).About deal.id :=
    failedChange_about fun row hmem => (outcome_rows (by rw [ho]; rfl) row hmem).1
  have hctx : (Worker.jobContext s.job).tenantId = some (Uuid.str job.tenantId) := hs.2
  refine ⟨hstate, ?_⟩
  rw [handleExtraction_failed hctx hdeal hfrom ho, ← (DealDb.deal_key hdeal).1,
    dossier_change habout, if_pos rfl]
  exact hagrees

/-- One whose extraction succeeds does so exactly when no worker dies late. -/
theorem redelivered_scorable (ho : outcome setting.world deal = .extracted rows foundCount overall)
    (hscorable : ScorableOnRows s.tables deal rows)
    (hfresh : s.tables.scoreById draw₀.scoreId = none) :
    (t.job.state = .succeeded ∧ Agrees (t.tables.dossier job.dealId)
      ((handleExtraction setting.world draw₀ job (Worker.jobContext s.job) s.tables).2.dossier
        job.dealId)) ↔ ∀ act ∈ acts, act.early = true := by
  obtain ⟨u, hu, hpending, hfresh', rfl⟩ := last_cases hrun
  rw [← Run.guarded_actions hu]
  rcases run_scorable hs hinv hdeal hfrom ho hscorable hu with ⟨hearly, huntouched⟩ | ⟨hlate, hlost⟩
  · refine iff_of_true ?_ hearly
    have htables : u.tables = s.tables := by
      rcases huntouched.tables with hsame | hdone
      · exact hsame
      · cases hpending.symm.trans hdone
    have hrow : Delivers job (Queue.claim workerId now u.job) := huntouched.delivers
    have hctx : (Worker.jobContext s.job).tenantId = some (Uuid.str job.tenantId) := hs.2
    have hctx' := jobContext_tenantId hrow
    rw [htables] at hfresh' ⊢
    obtain ⟨tables, hhandle, -, hstatus, hfields, hscores⟩ :=
      handleExtraction_scorable hctx hinv hdeal hfrom ho hfresh hscorable
    obtain ⟨tables', hhandle', -, hstatus', hfields', hscores'⟩ :=
      handleExtraction_scorable (hrow.1 ▸ hctx') hinv hdeal hfrom ho hfresh' hscorable
    rw [executeJob, hrow.1, hhandle', hhandle, ← (DealDb.deal_key hdeal).1]
    refine ⟨rfl, hstatus'.trans hstatus.symm, fun f => ?_, hscores'.trans hscores.symm⟩
    rw [currentFields, currentFields, hfields', hfields]
  · refine iff_of_false (fun hdone => ?_) hlate
    have hrow : Delivers job (Queue.claim workerId now u.job) := hlost.delivers
    exact (executeJob_lost hrow rfl hlost.stuck).state hdone.1

end

end

-- ---------------------------------------------------------------------------
-- The claim
-- ---------------------------------------------------------------------------

section
variable [Runtime] {settings : Settings} {disk : Disk} {before : List Pipeline.Act}
  {s₀ : Pipeline.St} {setting : Setting} {dealId tenantId : Uuid} {queued : Time} {jobId : String}
  {key trace : Option String} {notBefore : Option Time} {row : BackgroundJob ExtractionJob}
  {draw₀ draw : ScoreDraw} {acts : List Act} {workerId : String} {now finish : Time} {jitter : Int}
  {t : St}

/-- From any state of the pipeline: a job that is delivered any number of times and whose last
    execution is not interrupted ends SUCCEEDED with the result of one execution, exactly when
    its deliveries may be repeated. -/
theorem redelivered_iff
    (hreach : Run.exec (Pipeline.step settings) (Pipeline.init disk) before = some s₀)
    (hjob : Queue.enqueue extractionRegistry queued jobId "extraction" ⟨dealId, tenantId⟩ key trace
      (some (Uuid.str tenantId)) notBefore = .ok row)
    (hfresh : s₀.tables.scoreById draw₀.scoreId = none)
    (hrun : Run.exec (step setting) ⟨row, s₀.tables⟩
      (acts ++ [.execute workerId now draw jitter (.completed finish)]) = some t) :
    (t.job.state = .succeeded ∧ Agrees (t.tables.dossier dealId)
      ((handleExtraction setting.world draw₀ ⟨dealId, tenantId⟩ (Worker.jobContext row)
        s₀.tables).2.dossier dealId)) ↔
      Repeatable setting.world s₀.tables dealId tenantId acts := by
  obtain ⟨hs, hpending⟩ := delivers_enqueued hjob
  have hstart : row.state ≠ .succeeded := fun hdone => nomatch hpending.symm.trans hdone
  have hinv : Inv s₀.tables := (Run.invariant InOrder.step (inOrder_init disk) hreach).inv
  by_cases hready : ∃ deal, s₀.tables.deal dealId tenantId = some deal ∧ Extractable deal.status
  · obtain ⟨deal, hdeal, hfrom⟩ := hready
    have hone : Repeatable setting.world s₀.tables dealId tenantId acts ↔
        Fails setting.world deal ∨ ∃ rows, Extracts setting.world deal rows ∧
          ScorableOnRows s₀.tables deal rows ∧ ∀ act ∈ acts, act.early := by
      constructor
      · rintro ⟨deal', hdeal', -, h⟩
        cases hdeal.symm.trans hdeal'
        exact h
      · exact fun h => ⟨deal, hdeal, hfrom, h⟩
    rw [hone, fails_iff]
    cases ho : outcome setting.world deal with
    | failed rows detail =>
      exact iff_of_true (redelivered_fails hs hinv hdeal hfrom hrun ho) (.inl ⟨rows, detail, rfl⟩)
    | refused =>
      have hstuck : Stuck setting.world ⟨dealId, tenantId⟩ s₀.tables := by
        intro deal' hdeal' _
        cases hdeal.symm.trans hdeal'
        rw [ho]
        rfl
      refine iff_of_false (fun hdone => (run_lost ⟨hs, hstuck, hstart⟩ hrun).state hdone.1) ?_
      rintro (⟨rows, detail, h⟩ | ⟨rows, hextracts, -⟩)
      · cases h
      · obtain ⟨_, _, h⟩ := extracts_iff.mp hextracts
        cases ho.symm.trans h
    | extracted rows foundCount overall =>
      have hrows : ∀ rows', Extracts setting.world deal rows' ↔ rows' = rows := by
        intro rows'
        rw [extracts_iff, ho]
        constructor
        · rintro ⟨_, _, h⟩
          cases h
          rfl
        · rintro rfl
          exact ⟨_, _, rfl⟩
      simp only [hrows, reduceCtorEq, exists_false, false_or, exists_eq_left]
      by_cases hscorable : ScorableOnRows s₀.tables deal rows
      · rw [redelivered_scorable hs hinv hdeal hfrom hrun ho hscorable hfresh]
        simp [hscorable]
      · refine iff_of_false (fun hdone => ?_) fun h => hscorable h.1
        exact run_unscorable hs hstart hinv hdeal hfrom ho hscorable hrun hdone.1
  · have hstuck : Stuck setting.world ⟨dealId, tenantId⟩ s₀.tables :=
      fun deal hdeal hfrom => absurd ⟨deal, hdeal, hfrom⟩ hready
    refine iff_of_false (fun hdone => (run_lost ⟨hs, hstuck, hstart⟩ hrun).state hdone.1) ?_
    rintro ⟨deal, hdeal, hfrom, -⟩
    exact hready ⟨deal, hdeal, hfrom⟩

end

/-- The tenant configures a criterion and uploads a document. -/
def sampleActs : List Pipeline.Act :=
  [.createCriteriaConfig ⟨5, fun i => 100 + i, 0⟩ 2 (sampleBody "1000"),
    .upload none UploadApi.sampleDraw 2 UploadApi.sampleFile]

def sampleRow : BackgroundJob ExtractionJob where
  jobId := "a"
  jobType := "extraction"
  payload := sampleJob
  state := .pending
  attempts := 0
  maxAttempts := 5
  notBefore := 0
  claimedBy := none
  claimExpiresAt := none
  idempotencyKey := none
  traceContext := none
  lastError := none
  tenantId := some (Uuid.str 2)
  succeededAt := none
  deadLetteredAt := none

def sampleSetting (world : ExtractionWorld) : Setting := ⟨world, fun _ => "", id⟩

/-- The worker dies between the two transactions, and the reaper releases the job. -/
def diesBetween : List Act :=
  [.execute "w" 0 ⟨7, 0⟩ 0 (.died .beforeScoring), .reap (Time.seconds 301)]

def secondExecution : Act := .execute "w" (Time.seconds 302) ⟨8, 0⟩ 0 (.completed (Time.seconds 303))

theorem redelivered_iff_unreadable :
    letI := asciiRuntime
    ∃ s₀ t, Run.exec (Pipeline.step sampleSettings) (Pipeline.init ⟨[], []⟩) sampleActs = some s₀ ∧
      Run.exec (step (sampleSetting unreadableWorld)) ⟨sampleRow, s₀.tables⟩
        (diesBetween ++ [secondExecution]) = some t ∧
      ((t.job.state = .succeeded ∧ Agrees (t.tables.dossier 1)
        ((handleExtraction unreadableWorld ⟨9, 0⟩ sampleJob (Worker.jobContext sampleRow)
          s₀.tables).2.dossier 1)) ↔
        Repeatable unreadableWorld s₀.tables 1 2 diesBetween) := by
  let _ := asciiRuntime
  have hruns : (do
      let s ← Run.exec (Pipeline.step sampleSettings) (Pipeline.init ⟨[], []⟩) sampleActs
      let _ ← Run.exec (step (sampleSetting unreadableWorld)) ⟨sampleRow, s.tables⟩
        (diesBetween ++ [secondExecution])
      return decide (s.tables.scoreById 9 = none) : Option Bool) = some true := by
    decide +kernel
  obtain ⟨s₀, hreach, hruns⟩ := Option.bind_eq_some_iff.mp hruns
  obtain ⟨t, hrun, hfresh⟩ := Option.bind_eq_some_iff.mp hruns
  have hjob : Queue.enqueue extractionRegistry 0 "a" "extraction" ⟨1, 2⟩ none none
      (some (Uuid.str 2)) none = .ok sampleRow := rfl
  have hunused : s₀.tables.scoreById (⟨9, 0⟩ : ScoreDraw).scoreId = none :=
    of_decide_eq_true (Option.some.inj hfresh)
  have hiff := redelivered_iff hreach hjob hunused hrun
  exact ⟨s₀, t, hreach, hrun, hiff⟩

/-- The document is read and the deal extracted, but the second execution finds it EXTRACTED
    and raises. -/
theorem stranded_between_commits :
    ¬ ∀ (_ : Runtime) (settings : Settings) (disk : Disk) (before : List Pipeline.Act)
        (s₀ : Pipeline.St) (setting : Setting) (deal : Deal) (row : BackgroundJob ExtractionJob)
        (draw₀ draw : ScoreDraw) (acts : List Act) (workerId : String) (now finish : Time)
        (jitter : Int) (t : St),
      Run.exec (Pipeline.step settings) (Pipeline.init disk) before = some s₀ →
      s₀.tables.deal deal.id deal.tenantId = some deal → deal.status = .uploaded →
      (s₀.tables.activeConfig deal.tenantId).isSome →
      Queue.enqueue extractionRegistry 0 "a" "extraction" ⟨deal.id, deal.tenantId⟩ none none
        (some (Uuid.str deal.tenantId)) none = .ok row →
      s₀.tables.scoreById draw₀.scoreId = none →
      Run.exec (step setting) ⟨row, s₀.tables⟩
        (acts ++ [.execute workerId now draw jitter (.completed finish)]) = some t →
      t.job.state = .succeeded ∧ Agrees (t.tables.dossier deal.id)
        ((handleExtraction setting.world draw₀ ⟨deal.id, deal.tenantId⟩ (Worker.jobContext row)
          s₀.tables).2.dossier deal.id) := by
  intro h
  let _ := asciiRuntime
  have hruns : (do
      let s ← Run.exec (Pipeline.step sampleSettings) (Pipeline.init ⟨[], []⟩) sampleActs
      let deal ← s.tables.deal 1 2
      let t ← Run.exec (step (sampleSetting sampleWorld)) ⟨sampleRow, s.tables⟩
        (diesBetween ++ [secondExecution])
      return decide (deal.status = .uploaded ∧ (s.tables.activeConfig 2).isSome ∧
        s.tables.scoreById 9 = none ∧ t.job.state = .pending) : Option Bool) = some true := by
    decide +kernel
  obtain ⟨s₀, hreach, hruns⟩ := Option.bind_eq_some_iff.mp hruns
  obtain ⟨deal, hdeal, hruns⟩ := Option.bind_eq_some_iff.mp hruns
  obtain ⟨t, hrun, hfacts⟩ := Option.bind_eq_some_iff.mp hruns
  obtain ⟨hstatus, hconfig, hfresh, hpending⟩ := of_decide_eq_true (Option.some.inj hfacts)
  obtain ⟨hid, htenant⟩ := DealDb.deal_key hdeal
  have hdone := h asciiRuntime sampleSettings ⟨[], []⟩ sampleActs s₀ (sampleSetting sampleWorld) deal
    sampleRow ⟨9, 0⟩ ⟨8, 0⟩ diesBetween "w" (Time.seconds 302) (Time.seconds 303) 0 t hreach
    (by rw [hid, htenant]; exact hdeal) hstatus (by rw [htenant]; exact hconfig)
    (by rw [hid, htenant]; rfl) hfresh hrun
  cases hdone.1.symm.trans hpending

end Redelivery
