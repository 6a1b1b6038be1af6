-- SUMMARY: The pipeline as a system that runs one transaction a step: uploads, executions of extraction jobs that may die midway, configs and decisions.
import DealScreening.BackgroundJobs.Handlers
import DealScreening.Lib.Run
import DealScreening.Pipeline.Transactions

/-!
# The pipeline, serially

Requests and executions of jobs run one after another. An execution of an extraction job
is two steps, of which the second may never come: then the worker has died and the job
is executed again. Any job may be executed at any time, so a job that is redelivered
or retried is one more execution.
-/

namespace Pipeline

open Python Session Dossier ExtractionService ScoringService DealsApi CriteriaApi IngestionService
  UploadApi Handlers

/-- What a deployment fixes. -/
structure Settings where
  config : IngestionConfig
  validatePdf : PdfValidator
  /-- How the database reads the text of a UUID. -/
  readUuid : String → Option Uuid

/-- An extraction that returned a success, and the rows it wrote. -/
structure Success where
  dealId : Uuid
  rows : List ExtractedField
  deriving DecidableEq

structure St where
  world : World
  /-- The job whose handler is between its two transactions. -/
  executing : Option ExtractionJob
  /-- The successful extractions so far. No code reads this. -/
  successes : List Success

/-- The deals of the system: empty tables, on any disk. -/
def init (disk : Disk) : St := ⟨⟨⟨.empty, []⟩, disk⟩, none, []⟩

inductive Act where
  | upload (fault : Option Fault) (draw : IngestDraw) (tenantId : Uuid) (file : UploadFile)
  | extract (world : ExtractionWorld) (job : ExtractionJob) (ctx : JobContext)
  | score (draw : ScoreDraw)
  /-- The worker dies between the two transactions of the handler. -/
  | crash
  | createCriteriaConfig (draw : ConfigDraw) (tenantId : Uuid) (body : CriteriaConfigCreateSchema)
  | decideDeal (now : Time) (dealId tenantId : Uuid) (userId : String) (body : DealDecisionRequest)

namespace St

def tables (s : St) : DealDb := s.world.db.tables

def setTables (s : St) (tables : DealDb) : St :=
  { s with world := { s.world with db := { s.world.db with tables } } }

@[simp] theorem setTables_tables (s : St) (tables : DealDb) : (s.setTables tables).tables = tables :=
  rfl

@[simp] theorem setTables_successes (s : St) (tables : DealDb) :
    (s.setTables tables).successes = s.successes := rfl

/-- The rows that the last successful extraction of a deal wrote. -/
def lastSuccess (s : St) (dealId : Uuid) : Option (List ExtractedField) :=
  ((s.successes.filter fun e => e.dealId = dealId).getLast?).map Success.rows

end St

section
variable [Runtime]

/-- One transaction. The state of a handler that raised or returned is forgotten. -/
def step (settings : Settings) (s : St) (a : Act) : Option St :=
  match s.executing, a with
  | none, .upload fault draw tenantId file =>
    some { s with
      world := (upload settings.config settings.validatePdf fault draw tenantId file s.world).2 }
  | none, .extract world job ctx =>
    match extraction world job ctx s.tables with
    | (.ended _, tables) => some (s.setTables tables)
    | (.extracted, tables) =>
      some { s.setTables tables with
        executing := some job
        successes := s.successes ++
          [⟨job.dealId, tables.extractedFields.drop s.tables.extractedFields.length⟩] }
  | some job, .score draw =>
    some { s.setTables (scoring draw job s.tables).2 with executing := none }
  | some _, .crash => some { s with executing := none }
  | none, .createCriteriaConfig draw tenantId body =>
    some (s.setTables (transaction (createCriteriaConfig draw tenantId body) s.tables).2)
  | none, .decideDeal now dealId tenantId userId body =>
    some (s.setTables
      (transaction (decideDeal settings.readUuid now dealId tenantId userId body) s.tables).2)
  | _, _ => none

-- ---------------------------------------------------------------------------
-- Executions of the handler
-- ---------------------------------------------------------------------------

variable {settings : Settings} {s t : St} {a : Act} {world : ExtractionWorld} {draw : ScoreDraw}
  {job : ExtractionJob} {ctx : JobContext}

/-- The handler is one run of the system. -/
theorem handleExtraction_run (h : s.executing = none) :
    ∃ as t, Run.exec (step settings) s as = some t ∧ t.executing = none ∧
      t.tables = (handleExtraction world draw job ctx s.tables).2 := by
  unfold handleExtraction
  split
  · rename_i result tables hrun
    refine ⟨[.extract world job ctx], s.setTables tables, ?_, h, rfl⟩
    simp [Run.exec_cons, step, h, hrun]
  · rename_i tables hrun
    refine ⟨[.extract world job ctx, .score draw], ?_⟩
    simp only [Run.exec_cons, step, h, hrun, Option.bind_some, Run.exec_nil, Option.some.injEq,
      exists_eq_left']
    exact ⟨trivial, rfl⟩

/-- So is one that its worker does not survive. -/
theorem interrupted_run (crash : Crash) (h : s.executing = none) :
    ∃ as t, Run.exec (step settings) s as = some t ∧ t.executing = none ∧
      t.tables = interrupted crash world draw job ctx s.tables := by
  cases crash with
  | beforeExtraction => exact ⟨[], s, rfl, h, rfl⟩
  | beforeScoring =>
    unfold interrupted
    cases hrun : extraction world job ctx s.tables with
    | mk progress tables =>
      cases progress with
      | ended result =>
        refine ⟨[.extract world job ctx], s.setTables tables, ?_, h, rfl⟩
        simp [Run.exec_cons, step, h, hrun]
      | extracted =>
        refine ⟨[.extract world job ctx, .crash], ?_⟩
        simp only [Run.exec_cons, step, h, hrun, Option.bind_some, Run.exec_nil,
          Option.some.injEq, exists_eq_left']
        exact ⟨trivial, rfl⟩
  | beforeMark => exact handleExtraction_run h

-- ---------------------------------------------------------------------------
-- What one step can do
-- ---------------------------------------------------------------------------

/-- A step commits no extraction, one that failed, or one that succeeded. -/
inductive Effect (s : St) (a : Act) (t : St) : Prop where
  | plain (htables : Commit s.tables t.tables) (hsuccesses : t.successes = s.successes)
  | failed {world : ExtractionWorld} {job : ExtractionJob} {ctx : JobContext} {deal : Deal}
      {rows : List ExtractedField} {detail : Str} (hact : a = .extract world job ctx)
      (hid : deal.id = job.dealId)
      (hdeal : s.tables.deal deal.id deal.tenantId = some deal) (hfrom : Extractable deal.status)
      (hrun : rows = [] ∨ IsRun deal rows) (habout : ∀ row ∈ rows, row.dealId = deal.id)
      (htables : t.tables = s.tables.change deal.id (failedChange deal rows detail))
      (hsuccesses : t.successes = s.successes)
  | extracted {world : ExtractionWorld} {job : ExtractionJob} {ctx : JobContext} {deal : Deal}
      {rows : List ExtractedField} (hact : a = .extract world job ctx) (hid : deal.id = job.dealId)
      (hdeal : s.tables.deal deal.id deal.tenantId = some deal) (hfrom : Extractable deal.status)
      (hrun : IsRun deal rows) (hfound : minFieldsForExtraction ≤ rows.countP rowFound)
      (habout : ∀ row ∈ rows, row.dealId = deal.id)
      (htables : t.tables = s.tables.change deal.id (extractedChange deal rows))
      (hsuccesses : t.successes = s.successes ++ [⟨deal.id, rows⟩])

theorem extract_effect (hidle : s.executing = none)
    (h : step settings s (.extract world job ctx) = some t) : Effect s (.extract world job ctx) t := by
  simp only [step, hidle] at h
  rcases extraction_cases world job ctx s.tables with ⟨e, hended⟩ | ⟨result, tables, -, hrun, hended⟩
  · rw [hended] at h
    cases h
    exact .plain (.inl rfl) rfl
  · rcases extractDeal_commits world job.dealId job.tenantId s.tables with
      ⟨e, hback⟩ | ⟨deal, c, hdeal, hfrom, hc, hcommits⟩
    · rw [hback] at hrun
      cases hrun
    · rw [hcommits] at hrun
      cases hrun
      obtain ⟨hid, htenant⟩ := DealDb.deal_key hdeal
      rw [← hid, ← htenant] at hdeal
      have habout := fun row hrow => (outcome_rows hc row hrow).1
      have hrows : RunRows deal (outcome world deal) := outcome_runRows
      cases ho : outcome world deal with
      | extracted rows foundCount overall =>
        rw [ho] at hc hrows hended
        cases hc
        rw [hended] at h
        cases h
        refine .extracted rfl hid hdeal hfrom hrows.1 hrows.2 habout rfl ?_
        simp [DealDb.change, extractedChange, hid]
      | failed rows detail =>
        rw [ho] at hc hrows hended
        cases hc
        rw [hended] at h
        cases h
        exact .failed rfl hid hdeal hfrom hrows habout rfl rfl
      | refused =>
        rw [ho] at hc
        cases hc

/-- Every step has one of the three effects. -/
theorem step_effect (h : step settings s a = some t) : Effect s a t := by
  cases hidle : s.executing with
  | some job =>
    cases a with
    | score draw =>
      simp only [step, hidle] at h
      cases h
      refine .plain (commit_of_event ?_) rfl
      show (scoring draw job s.tables).2 = _ ∨ PlainEvent _ (scoring draw job s.tables).2
      rw [scoring_tables]
      exact scoreDeal_event draw job.dealId job.tenantId s.tables
    | crash =>
      simp only [step, hidle] at h
      cases h
      exact .plain (.inl rfl) rfl
    | _ => simp [step, hidle] at h
  | none =>
    cases a with
    | upload fault draw tenantId file =>
      simp only [step, hidle] at h
      cases h
      exact .plain (commit_of_event (upload_event _ _ fault draw tenantId file s.world)) rfl
    | extract world job ctx => exact extract_effect hidle h
    | createCriteriaConfig draw tenantId body =>
      simp only [step, hidle] at h
      cases h
      exact .plain (createCriteriaConfig_commit draw tenantId body s.tables) rfl
    | decideDeal now dealId tenantId userId body =>
      simp only [step, hidle] at h
      cases h
      exact .plain (commit_of_event (decideDeal_event _ now dealId tenantId userId body s.tables)) rfl
    | score draw => simp [step, hidle] at h
    | crash => simp [step, hidle] at h

-- ---------------------------------------------------------------------------
-- The invariant
-- ---------------------------------------------------------------------------

/-- The tables are in order, and the latest run of a deal past its extraction is what its
    last successful extraction wrote. -/
structure InOrder (s : St) : Prop where
  inv : Inv s.tables
  latest : ∀ id status, (s.tables.dossier id).status = some status → ¬ Extractable status →
    s.lastSuccess id = some (latestRun (s.tables.fieldsOf id))

omit [Runtime] in
theorem inOrder_init (disk : Disk) : InOrder (init disk) := ⟨inv_empty, fun _ _ h => nomatch h⟩

omit [Runtime] in
theorem lastSuccess_of_eq (h : t.successes = s.successes) (id : Uuid) :
    t.lastSuccess id = s.lastSuccess id := by
  unfold St.lastSuccess
  rw [h]

omit [Runtime] in
theorem lastSuccess_snoc {dealId : Uuid} {rows : List ExtractedField}
    (h : t.successes = s.successes ++ [⟨dealId, rows⟩]) (id : Uuid) :
    t.lastSuccess id = if id = dealId then some rows else s.lastSuccess id := by
  unfold St.lastSuccess
  rw [h, List.filter_append]
  by_cases hid : id = dealId
  · subst hid
    simp
  · rw [if_neg hid, List.filter_cons_of_neg (by simpa using Ne.symm hid), List.filter_nil,
      List.append_nil]

/-- A change by a service of a deal that it found. -/
theorem change_event {db : DealDb} {deal : Deal} {c : DealChange}
    (hdeal : db.deal deal.id deal.tenantId = some deal) (habout : c.About deal.id)
    (hc : Change (db.dossier deal.id) deal c) (hscores : c.scores = []) :
    Event db (db.change deal.id c) :=
  .changed hdeal habout hc (by simp [hscores])

/-- A step is at most one step in the life of each deal. -/
theorem Effect.moves (hs : Inv s.tables) (h : Effect s a t) (id : Uuid) :
    Moves (s.tables.dossier id) (t.tables.dossier id) := by
  cases h with
  | plain htables hsuccesses => exact hs.moves htables id
  | failed hact hid hdeal hfrom hrun habout htables hsuccesses =>
    rw [htables]
    exact (change_event hdeal (failedChange_about habout) (.failed hfrom hrun) rfl).moves hs id
  | extracted hact hid hdeal hfrom hrun hfound habout htables hsuccesses =>
    rw [htables]
    exact (change_event hdeal (extractedChange_about habout) (.extracted hfrom hrun hfound)
      rfl).moves hs id

theorem Effect.inv (hs : Inv s.tables) (h : Effect s a t) : Inv t.tables := by
  cases h with
  | plain htables hsuccesses => exact hs.commit htables
  | failed hact hid hdeal hfrom hrun habout htables hsuccesses =>
    rw [htables]
    exact hs.event (change_event hdeal (failedChange_about habout) (.failed hfrom hrun) rfl)
  | extracted hact hid hdeal hfrom hrun hfound habout htables hsuccesses =>
    rw [htables]
    exact hs.event (change_event hdeal (extractedChange_about habout)
      (.extracted hfrom hrun hfound) rfl)

/-- Every step keeps the order. -/
theorem InOrder.step (hs : InOrder s) (h : step settings s a = some t) : InOrder t := by
  have heffect := step_effect h
  refine ⟨heffect.inv hs.inv, fun id status hstatus hnot => ?_⟩
  cases heffect with
  | plain htables hsuccesses =>
    rw [lastSuccess_of_eq hsuccesses]
    rcases hs.inv.quiet htables id with hsame | ⟨hfields, hcases⟩
    · have hfields : t.tables.fieldsOf id = s.tables.fieldsOf id := congrArg Dossier.fields hsame
      rw [hsame] at hstatus
      rw [hfields]
      exact hs.latest id status hstatus hnot
    · change t.tables.fieldsOf id = s.tables.fieldsOf id at hfields
      rw [hfields]
      rcases hcases with ⟨-, huploaded⟩ | ⟨hbefore, -⟩ | ⟨hbefore, -⟩
      · rw [huploaded] at hstatus
        cases hstatus
        exact absurd (.inl rfl) hnot
      · exact hs.latest id _ hbefore (not_extractable (.inl rfl))
      · exact hs.latest id _ hbefore (not_extractable (.inr (.inl rfl)))
  | @failed world job ctx deal rows detail hact hid hdeal hfrom hrun habout htables hsuccesses =>
    rw [lastSuccess_of_eq hsuccesses]
    have hdossier : (s.tables.change deal.id (failedChange deal rows detail)).dossier id = _ :=
      dossier_change (failedChange_about habout)
    rw [← htables] at hdossier
    split at hdossier
    · -- The deal is FAILED now, and may be extracted again.
      rw [hdossier, Dossier.status, apply_deal (hs.inv.dealById hdeal)] at hstatus
      cases hstatus
      exact absurd (.inr rfl) hnot
    · have hfields : t.tables.fieldsOf id = s.tables.fieldsOf id := congrArg Dossier.fields hdossier
      rw [hdossier] at hstatus
      rw [hfields]
      exact hs.latest id status hstatus hnot
  | @extracted world job ctx deal rows hact hid hdeal hfrom hrun hfound habout htables hsuccesses =>
    rw [lastSuccess_snoc hsuccesses]
    have hdossier : (s.tables.change deal.id (extractedChange deal rows)).dossier id = _ :=
      dossier_change (extractedChange_about habout)
    rw [← htables] at hdossier
    split at hdossier
    · rename_i hid
      have hfields : t.tables.fieldsOf id = s.tables.fieldsOf deal.id ++ rows :=
        congrArg Dossier.fields hdossier
      rw [if_pos hid, hfields]
      exact congrArg some
        ((hs.inv.numbered deal.id).latestRun (hs.inv.dealById hdeal) hfrom hrun).symm
    · rename_i hid
      have hfields : t.tables.fieldsOf id = s.tables.fieldsOf id := congrArg Dossier.fields hdossier
      rw [hdossier] at hstatus
      rw [if_neg hid, hfields]
      exact hs.latest id status hstatus hnot

end

end Pipeline
