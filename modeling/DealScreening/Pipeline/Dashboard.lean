-- SUMMARY: What the dashboard shows of a deal: the rows, the confidence and the score of its card against those of the scoring engine, in every serial run.
import DealScreening.Api.DealCards
import DealScreening.Pipeline.Guarantees
import DealScreening.Services.EvaluationOrder

/-!
# The dashboard

The card of a deal and the scoring engine read the rows of a deal with queries of their
own, and none of these queries says in which order rows that tie come. What they read
agrees because of what the pipeline keeps: a run has each name once, only its first row
carries the overall confidence, a deal is scored once, and no run comes after its score.
-/

namespace DealsApi

open Python Session ScoringService

-- ---------------------------------------------------------------------------
-- The queries, in any order of the rows that tie
-- ---------------------------------------------------------------------------

/-- The rows of a deal, `ORDER BY extraction_run DESC`. -/
def fieldsFound (order : Table.RowOrder) (db : DealDb) (dealId : Uuid) : List ExtractedField :=
  Table.orderBy order (fun f g => g.extractionRun ≤ f.extractionRun) (db.fieldsOf dealId)

/-- What `_get_latest_extracted_fields` makes of them. -/
def shownFields (order : Table.RowOrder) (db : DealDb) (dealId : Uuid) : List ExtractedField :=
  latestRunFields (fieldsFound order db dealId)

/-- What `_load_extracted_fields` makes of them. -/
def loadedFields (order : Table.RowOrder) (db : DealDb) (dealId : Uuid) : FieldsMap :=
  latestFields (fieldsFound order db dealId)

/-- `ORDER BY created_at DESC LIMIT 1`. -/
def newest {R : Type} (order : Table.RowOrder) (createdAt : R → Time) (rows : List R) : Option R :=
  (Table.orderBy order (fun r r' => createdAt r' ≤ createdAt r) rows).head?

/-- The card of a deal when each query finds its rows in the order. -/
def shownCard (order : Table.RowOrder) (db : DealDb) (deal : Deal) : DealCardSchema :=
  card deal (shownFields order db deal.id)
    (newest order DealScore.createdAt (db.scoresOf deal.id))
    (newest order DealDecision.createdAt (db.decisionsOf deal.id))

section
variable {order order' : Table.RowOrder} {db : DealDb} {deal : Deal} {dealId : Uuid}
  {rows rows' : List ExtractedField}

theorem latestRunFields_perm (hperm : rows'.Perm rows) :
    (latestRunFields rows').Perm (latestRunFields rows) := by
  have hmax : (rows'.map ExtractedField.extractionRun).foldl max 0 =
      (rows.map ExtractedField.extractionRun).foldl max 0 := (hperm.map _).foldl_eq 0
  unfold latestRunFields
  rw [hmax]
  exact hperm.filter _

/-- The card shows the rows of the latest run, in some order. -/
theorem shownFields_perm (order : Table.RowOrder) (db : DealDb) (dealId : Uuid) :
    (shownFields order db dealId).Perm (Dossier.latestRun (db.fieldsOf dealId)) :=
  latestRunFields_perm Table.orderBy_perm

/-- With distinct names the engine loads the rows that are shown. -/
theorem latestFields_eq (hnodup : ((latestRunFields rows).map ExtractedField.fieldName).Nodup) :
    latestFields rows = (latestRunFields rows).map fun f => (f.fieldName, f) := by
  have hload : latestFields rows =
      (latestRunFields rows).foldl (fun d f => setItem d f.fieldName f) [] := rfl
  rw [hload, foldl_setItem hnodup (by simp), List.nil_append]

/-- In any order it loads what is shown in any other. -/
theorem latestFields_perm (hperm : rows'.Perm rows)
    (hnodup : ((latestRunFields rows).map ExtractedField.fieldName).Nodup) :
    (latestFields rows').Perm ((latestRunFields rows).map fun f => (f.fieldName, f)) := by
  have hshown := latestRunFields_perm hperm
  rw [latestFields_eq ((hshown.map _).nodup_iff.mpr hnodup)]
  exact hshown.map _

/-- One row at most is the newest in every order, and the one that the code reads. -/
theorem newest_eq (order : Table.RowOrder) {R : Type} {createdAt : R → Time} {found : List R} (h : found.length ≤ 1) :
    newest order createdAt found = Table.latest createdAt found := by
  match found, h with
  | [], _ =>
    rw [newest, List.Perm.eq_nil Table.orderBy_perm]
    rfl
  | [r], _ =>
    rw [newest, List.perm_singleton.mp Table.orderBy_perm]
    rfl

theorem buildDealCard_shown (hscores : (db.scoresOf deal.id).length ≤ 1)
    (hdecisions : (db.decisionsOf deal.id).length ≤ 1) :
    buildDealCard order deal ⟨db, false, false⟩ = (.ok (shownCard order db deal), ⟨db, false, false⟩) := by
  rw [shownCard, newest_eq order hscores, newest_eq order hdecisions]
  rfl

end

end DealsApi

namespace Pipeline

open Python Session Dossier ExtractionService ScoringService DealsApi CriteriaApi IngestionService
  UploadApi Handlers

-- ---------------------------------------------------------------------------
-- Where the rows come from
-- ---------------------------------------------------------------------------

section
variable [Runtime]

/-- The row is the score of the fields under the criteria of the config that it names. -/
def ComputedOn (db : DealDb) (fields : FieldsMap) (score : DealScore) : Prop :=
  ∃ draw ev, evaluate (db.criteriaOf score.criteriaConfigId) fields = .ok ev ∧
    scoreRow draw score.dealId score.criteriaConfigId ev = some score

/-- The rows of a run are those of the fields of a response with its overall confidence,
    and a score is that of the fields its deal has. -/
structure Traced (db : DealDb) : Prop where
  runs : ∀ row ∈ db.extractedFields, ∃ llm,
    fieldRows row.dealId row.extractionRun (extractionConfidence llm) llm =
      some ((db.fieldsOf row.dealId).filter fun f => f.extractionRun = row.extractionRun)
  scores : ∀ score ∈ db.dealScores, ComputedOn db (latestFields (db.fieldsOf score.dealId)) score

theorem traced_empty : Traced DealDb.empty where
  runs _ h := nomatch h
  scores _ h := nomatch h

variable {db db' : DealDb} {deal : Deal} {c : DealChange} {tenantId : Uuid}

/-- Other tables do not matter. -/
theorem Traced.same (h : Traced db) (hfields : db'.extractedFields = db.extractedFields)
    (hscores : db'.dealScores = db.dealScores) (hcriteria : db'.criteria = db.criteria) :
    Traced db' := by
  have hfieldsOf : ∀ id, db'.fieldsOf id = db.fieldsOf id := fun id => by
    rw [DealDb.fieldsOf, DealDb.fieldsOf, hfields]
  have hcriteriaOf : ∀ id, db'.criteriaOf id = db.criteriaOf id := fun id => by
    rw [DealDb.criteriaOf, DealDb.criteriaOf, hcriteria]
  constructor
  · rw [hfields]
    simpa only [hfieldsOf] using h.runs
  · rw [hscores]
    simpa only [ComputedOn, hfieldsOf, hcriteriaOf] using h.scores

-- ---------------------------------------------------------------------------
-- Extraction
-- ---------------------------------------------------------------------------

/-- An outcome writes no rows, or those of the response. -/
theorem outcome_response {world : ExtractionWorld} (h : (outcome world deal).change deal = some c) :
    c.fields = [] ∨ ∃ llm,
      fieldRows deal.id (deal.retryCount + 1) (extractionConfidence llm) llm = some c.fields := by
  cases hfetch : fetchFields world deal.filePath.val with
  | error e =>
    simp only [outcome, hfetch, Outcome.change, Option.some.injEq] at h
    exact .inl (h ▸ rfl)
  | ok json =>
    cases hread : readFields json with
    | error e =>
      simp only [outcome, hfetch, hread, Outcome.change, Option.some.injEq] at h
      exact .inl (h ▸ rfl)
    | ok llm =>
      rw [outcome_of_read hfetch hread] at h
      cases hrows : fieldRows deal.id (deal.retryCount + 1)
          (computeOverallConfidence llm (llm.countP LlmField.isFound)) llm with
      | none =>
        rw [hrows] at h
        cases h
      | some rows =>
        rw [hrows] at h
        refine .inr ⟨llm, ?_⟩
        dsimp only at h
        split at h
        · cases h
          exact hrows
        · cases h
          exact hrows

/-- The run of an extraction is new, and its deal has no score yet. -/
theorem Traced.extracted (h : Traced db) (hinv : Inv db) (hdeal : db.dealById deal.id = some deal)
    (hfrom : Extractable deal.status) (habout : c.About deal.id) (hscores : c.scores = [])
    (hrows : ∀ row ∈ c.fields, row.extractionRun = deal.retryCount + 1)
    (hresponse : c.fields = [] ∨ ∃ llm,
      fieldRows deal.id (deal.retryCount + 1) (extractionConfidence llm) llm = some c.fields) :
    Traced (db.change deal.id c) := by
  have hearlier : ∀ row ∈ db.fieldsOf deal.id, row.extractionRun ≤ deal.retryCount :=
    (hinv.numbered deal.id).pending deal hdeal hfrom
  have hfieldsOf : ∀ id, (db.change deal.id c).fieldsOf id =
      db.fieldsOf id ++ if id = deal.id then c.fields else [] := fun id =>
    filter_append_about habout.fields
  constructor
  · intro row hrow
    rw [hfieldsOf]
    rcases List.mem_append.mp hrow with hold | hnew
    · obtain ⟨llm, hllm⟩ := h.runs row hold
      refine ⟨llm, hllm.trans (congrArg some ?_)⟩
      split
      · rename_i hid
        have hle := hearlier row (List.mem_filter.mpr ⟨hold, decide_eq_true hid⟩)
        have hnone : c.fields.filter (fun f => f.extractionRun = row.extractionRun) = [] := by
          refine List.filter_eq_nil_iff.mpr fun f hf heq => ?_
          have heq := of_decide_eq_true heq
          have hrun := hrows f hf
          omega
        rw [List.filter_append, hnone, List.append_nil]
      · rw [List.append_nil]
    · obtain hnil | ⟨llm, hllm⟩ := hresponse
      · rw [hnil] at hnew
        cases hnew
      · have hrun : ((db.fieldsOf deal.id ++ c.fields).filter fun f =>
            f.extractionRun = deal.retryCount + 1) = c.fields :=
          filter_run_append (fun f hf => Nat.lt_succ_of_le (hearlier f hf)) hrows
        refine ⟨llm, ?_⟩
        rw [habout.fields row hnew, hrows row hnew, if_pos rfl, hrun]
        exact hllm
  · intro score hscore
    have hold : score ∈ db.dealScores := by
      rw [DealDb.change, hscores, List.append_nil] at hscore
      exact hscore
    have hne : score.dealId ≠ deal.id := by
      intro hid
      have hnone : db.scoresOf deal.id = [] :=
        (((hinv.scored deal.id).recorded deal hdeal).unscored (.inl hfrom)).1
      have hmem : score ∈ db.scoresOf deal.id := List.mem_filter.mpr ⟨hold, decide_eq_true hid⟩
      rw [hnone] at hmem
      cases hmem
    rw [hfieldsOf, if_neg hne, List.append_nil]
    exact h.scores score hold

theorem extraction_traced (h : Traced db) (hinv : Inv db) (world : ExtractionWorld)
    (job : ExtractionJob) (ctx : JobContext) : Traced (extraction world job ctx db).2 := by
  rcases extraction_cases world job ctx db with ⟨e, hended⟩ | ⟨result, tables, -, hrun, hended⟩
  · rw [hended]
    exact h
  · rw [hended]
    rcases extractDeal_commits world job.dealId job.tenantId db with
      ⟨e, hback⟩ | ⟨deal, c, hdeal, hfrom, hc, hcommits⟩
    · rw [hback] at hrun
      cases hrun
    · rw [hcommits] at hrun
      cases hrun
      obtain ⟨-, habout, hscores⟩ := outcome_change (x := db.dossier deal.id) hfrom hc
      exact h.extracted hinv (hinv.dealById hdeal) hfrom habout hscores
        (fun row hrow => (outcome_rows hc row hrow).2) (outcome_response hc)

-- ---------------------------------------------------------------------------
-- Scoring, configs and decisions
-- ---------------------------------------------------------------------------

/-- A score is computed on the fields that the deal has. -/
theorem Traced.scored (h : Traced db) (hscores : Scores tenantId db db') : Traced db' := by
  obtain ⟨draw, deal, config, ev, score, -, -, -, hev, hrow, rfl⟩ := hscores
  obtain ⟨-, -, hid, hconfig, -⟩ := scoreRow_eq_some hrow
  have hfieldsOf : ∀ id, (scoredDb db deal score ev).fieldsOf id = db.fieldsOf id := fun id => by
    simp [scoredDb, DealDb.change, scoreChange, DealDb.fieldsOf]
  constructor
  · simp only [hfieldsOf]
    intro row hrow
    rw [scoredDb, DealDb.change, scoreChange, List.append_nil] at hrow
    exact h.runs row hrow
  · intro score' hscore'
    rw [hfieldsOf]
    rcases List.mem_append.mp hscore' with hold | hnew
    · exact h.scores score' hold
    · cases List.mem_singleton.mp hnew
      refine ⟨draw, ev, ?_, ?_⟩
      · rw [hid, hconfig]
        exact hev
      · rw [hid, hconfig]
        exact hrow

theorem Traced.rescored (h : Traced db) (hscores : Relation.ReflTransGen (Scores tenantId) db db') :
    Traced db' := by
  induction hscores with
  | refl => exact h
  | tail _ hlast ih => exact ih.scored hlast

/-- No score names a new config, so its criteria touch none. -/
theorem Traced.configured {config : CriteriaConfig} {criteria : List Criterion} (h : Traced db)
    (hinv : Inv db) (hnew : db.configById config.id = none)
    (hcriteria : ∀ row ∈ criteria, row.configId = config.id) :
    Traced { db with
      criteriaConfigs := (db.deactivateConfigs tenantId).criteriaConfigs ++ [config]
      criteria := db.criteria ++ criteria } := by
  refine ⟨h.runs, fun score hscore => ?_⟩
  have hmem : score ∈ db.scoresOf score.dealId := List.mem_filter.mpr ⟨hscore, decide_eq_true rfl⟩
  have hne : score.criteriaConfigId ≠ config.id := by
    intro hid
    cases hdeal : db.dealById score.dealId with
    | none =>
      have hnone : db.scoresOf score.dealId = [] := ((hinv.scored score.dealId).bare hdeal).1
      rw [hnone] at hmem
      cases hmem
    | some deal =>
      obtain ⟨config', hconfig', -⟩ := hinv.owned _ deal score hdeal hmem
      rw [hid, hnew] at hconfig'
      cases hconfig'
  have hrest : criteria.filter (fun row => row.configId = score.criteriaConfigId) = [] :=
    List.filter_eq_nil_iff.mpr fun row hrow heq =>
      hne ((of_decide_eq_true heq).symm.trans (hcriteria row hrow))
  have hcriteriaOf : DealDb.criteriaOf { db with
      criteriaConfigs := (db.deactivateConfigs tenantId).criteriaConfigs ++ [config]
      criteria := db.criteria ++ criteria } score.criteriaConfigId =
        db.criteriaOf score.criteriaConfigId := by
    rw [DealDb.criteriaOf, List.filter_append, hrest, List.append_nil]
    rfl
  obtain ⟨draw, ev, hev, hrow⟩ := h.scores score hscore
  exact ⟨draw, ev, by rw [hcriteriaOf]; exact hev, hrow⟩

theorem createCriteriaConfig_traced (h : Traced db) (hinv : Inv db) (draw : ConfigDraw)
    (tenantId : Uuid) (body : CriteriaConfigCreateSchema) :
    Traced (transaction (createCriteriaConfig draw tenantId body) db).2 := by
  rcases (createCriteriaConfig_inserts rescoreExtractedDeals_commits).commit db with
    hback | ⟨_, name, db₁, db₂, -, hinsert, hcriteria, hscores⟩
  · rw [hback]
    exact h
  · obtain ⟨hnew, rfl⟩ := insertConfig_eq_some hinsert
    obtain ⟨rows, hrows, rfl⟩ := applyAll_criteria hcriteria
    refine (h.configured hinv hnew fun row hrow => ?_).rescored hscores
    obtain ⟨c, -, heq⟩ := Option.mapM_mem hrows hrow
    exact criterionRow_configId heq

theorem decideDeal_traced (h : Traced db) (readUuid : String → Option Uuid) (now : Time)
    (dealId tenantId : Uuid) (userId : String) (body : DealDecisionRequest) :
    Traced (transaction (decideDeal readUuid now dealId tenantId userId body) db).2 := by
  rcases decideDeal_commits.commit db with hback | ⟨_, deal, decision, -, -, -, -, hdb⟩
  · rw [hback]
    exact h
  · rw [hdb]
    exact h.same (List.append_nil _) (List.append_nil _) rfl

theorem Traced.uploads (h : Traced db) (huploads : Uploads db db') : Traced db' := by
  obtain ⟨-, deals, dealAuditLog, rfl⟩ := huploads
  exact h.same rfl rfl rfl

variable {settings : Settings} {s t : St} {a : Act}

/-- Every step keeps the rows traced. -/
theorem Traced.step (h : Traced s.tables) (hinv : Inv s.tables) (hstep : step settings s a = some t) :
    Traced t.tables := by
  cases hidle : s.executing with
  | some job =>
    cases a with
    | score draw =>
      simp only [Pipeline.step, hidle] at hstep
      cases hstep
      show Traced (scoring draw job s.tables).2
      rw [scoring_tables]
      rcases scoreDeal_commits.commit s.tables with hback | ⟨_, hsame | hscores⟩
      · rw [hback]
        exact h
      · rw [hsame]
        exact h
      · exact h.scored hscores
    | crash =>
      simp only [Pipeline.step, hidle] at hstep
      cases hstep
      exact h
    | _ => simp [Pipeline.step, hidle] at hstep
  | none =>
    cases a with
    | upload fault draw tenantId file =>
      simp only [Pipeline.step, hidle] at hstep
      cases hstep
      rcases upload_uploads settings.config settings.validatePdf fault draw tenantId file s.world with
        hsame | huploads
      · show Traced (St.tables _)
        rw [St.tables, hsame]
        exact h
      · exact h.uploads huploads
    | extract world job ctx =>
      have htraced := extraction_traced h hinv world job ctx
      simp only [Pipeline.step, hidle] at hstep
      split at hstep <;> rename_i tables hrun <;> rw [hrun] at htraced <;> cases hstep <;> exact htraced
    | createCriteriaConfig draw tenantId body =>
      simp only [Pipeline.step, hidle] at hstep
      cases hstep
      exact createCriteriaConfig_traced h hinv draw tenantId body
    | decideDeal now dealId tenantId userId body =>
      simp only [Pipeline.step, hidle] at hstep
      cases hstep
      exact decideDeal_traced h _ now dealId tenantId userId body
    | score draw => simp [Pipeline.step, hidle] at hstep
    | crash => simp [Pipeline.step, hidle] at hstep

end

-- ---------------------------------------------------------------------------
-- What is shown
-- ---------------------------------------------------------------------------

section
variable [Runtime]

/-- What the dashboard shows of a deal is what was scored, in whichever order each query
    finds the rows that tie. -/
structure ShowsScored (db : DealDb) (deal : Deal) : Prop where
  /-- The card is the one that the code builds. -/
  built : ∀ order, buildDealCard order deal ⟨db, false, false⟩ =
    (.ok (shownCard order db deal), ⟨db, false, false⟩)
  /-- No two of its fields have one name. -/
  names : ∀ order, ((shownFields order db deal.id).map ExtractedField.fieldName).Nodup
  /-- By their names they are the fields that the engine loads. -/
  fields : ∀ order order', (loadedFields order' db deal.id).Perm
    ((shownFields order db deal.id).map fun f => (f.fieldName, f))
  /-- The confidence is the one that was computed for the run that is shown. -/
  confidence : ∀ order,
    (shownFields order db deal.id = [] ∧ (shownCard order db deal).extractionConfidence = none) ∨
      ∃ run llm rows, fieldRows deal.id run (extractionConfidence llm) llm = some rows ∧
        (shownFields order db deal.id).Perm rows ∧
        (shownCard order db deal).extractionConfidence = some (extractionConfidence llm)
  /-- The score is the one that the list is sorted by. -/
  score : ∀ order, (shownCard order db deal).score = maxScore db deal.id
  /-- It was computed on the fields that are shown. -/
  scored : deal.status = .scored ∨ deal.status = .decided → ∃ score ∈ db.scoresOf deal.id,
    (∃ config ∈ db.criteriaConfigs,
      config.id = score.criteriaConfigId ∧ config.tenantId = deal.tenantId) ∧
    (∀ order, (shownCard order db deal).score = some score.score) ∧
    ∀ order fields, fields.Perm ((shownFields order db deal.id).map fun f => (f.fieldName, f)) →
      ComputedOn db fields score ∧
      ∀ criteria, criteria.Perm (db.criteriaOf score.criteriaConfigId) → ∃ ev,
        evaluate criteria fields = .ok ev ∧ ev.score = score.score ∧ ev.confidence = score.confidence

variable {db : DealDb} {deal : Deal} {s : St} {rows : List ExtractedField} {dealId : Uuid}

omit [Runtime] in
theorem findSome?_of_forall {α β : Type} {f : α → Option β} {xs : List α} {b : β}
    (hsome : ∃ x ∈ xs, f x = some b) (hall : ∀ x ∈ xs, ∀ b', f x = some b' → b' = b) :
    xs.findSome? f = some b := by
  cases hfind : xs.findSome? f with
  | none =>
    obtain ⟨x, hx, hb⟩ := hsome
    rw [List.findSome?_eq_none_iff.mp hfind x hx] at hb
    cases hb
  | some b' =>
    obtain ⟨x, hx, hb'⟩ := List.exists_of_findSome?_eq_some hfind
    exact congrArg some (hall x hx b' hb')

omit [Runtime] in
/-- Of the rows of a run the first has the overall confidence, and the others have none. -/
theorem fieldRows_overall {run : Nat} {overall : ConfidenceLevel} {llm : List LlmField}
    (h : fieldRows dealId run overall llm = some rows) :
    (rows ≠ [] → ∃ row ∈ rows, row.overallConfidence = some overall) ∧
      ∀ row ∈ rows, ∀ level, row.overallConfidence = some level → level = overall := by
  have hrows := Option.mapM_eq_some.mp h
  have hrow : ∀ {field : LlmField × Nat} {row : ExtractedField},
      indexedRow dealId run overall field = some row →
      row.overallConfidence = if field.2 = 0 then some overall else none := fun hfield => by
    obtain ⟨fieldName, -, hfield⟩ := Option.bind_eq_some_iff.mp hfield
    obtain ⟨fieldValue, -, hfield⟩ := Option.bind_eq_some_iff.mp hfield
    cases hfield
    rfl
  constructor
  · intro hne
    cases llm with
    | nil =>
      cases hrows
      exact absurd rfl hne
    | cons f llm =>
      rw [List.zipIdx_cons] at hrows
      obtain _ | ⟨hfirst, -⟩ := hrows
      exact ⟨_, List.mem_cons_self .., hrow hfirst⟩
  · intro row hmem level hlevel
    obtain ⟨field, -, hfield⟩ := hrows.exists_left hmem
    rw [hrow hfield] at hlevel
    split at hlevel <;> cases hlevel
    rfl

omit [Runtime] in
/-- The rows that are shown have distinct names. -/
theorem shownFields_nodup (hinv : Inv db) (order : Table.RowOrder) (dealId : Uuid) :
    ((shownFields order db dealId).map ExtractedField.fieldName).Nodup := by
  refine ((shownFields_perm order db dealId).map _).nodup_iff.mpr ?_
  refine List.pairwise_map.mpr (List.Pairwise.imp_of_mem ?_ ((hinv.numbered dealId).unique.filter _))
  intro r r' hr hr' hne hname
  have hrun := of_decide_eq_true (List.mem_filter.mp hr).2
  have hrun' := of_decide_eq_true (List.mem_filter.mp hr').2
  exact hne ⟨hrun.trans hrun'.symm, hname⟩

/-- The fields that are shown are those of the run's response. -/
theorem Traced.shown (h : Traced db) (order : Table.RowOrder) (dealId : Uuid) :
    shownFields order db dealId = [] ∨ ∃ run llm rows,
      fieldRows dealId run (extractionConfidence llm) llm = some rows ∧
        (shownFields order db dealId).Perm rows ∧ rows ≠ [] := by
  cases hlatest : latestRun (db.fieldsOf dealId) with
  | nil =>
    have hperm := shownFields_perm order db dealId
    rw [hlatest] at hperm
    exact .inl hperm.eq_nil
  | cons row rest =>
    have hrow : row ∈ latestRun (db.fieldsOf dealId) := by rw [hlatest]; exact List.mem_cons_self ..
    obtain ⟨hmem, hrun⟩ := List.mem_filter.mp hrow
    obtain ⟨hmem, hid⟩ := List.mem_filter.mp hmem
    obtain ⟨llm, hllm⟩ := h.runs row hmem
    rw [of_decide_eq_true hid, of_decide_eq_true hrun] at hllm
    refine .inr ⟨_, llm, _, hllm, shownFields_perm .., ?_⟩
    exact List.ne_nil_of_mem hrow

/-- In order and traced, every deal is shown as it was scored. -/
theorem Traced.showsScored (h : Traced s.tables) (hs : InOrder s) (hdeal : deal ∈ s.tables.deals) :
    ShowsScored s.tables deal := by
  have hrows := hs.rowsInOrder hdeal
  have hscores : (s.tables.scoresOf deal.id).length ≤ 1 := by
    by_cases hscored : deal.status = .scored ∨ deal.status = .decided
    · obtain ⟨score, hone, -⟩ := hrows.scored hscored
      rw [hone]
      exact Nat.le_refl 1
    · rw [hrows.unscored hscored]
      exact Nat.zero_le 1
  have hdecisions : (s.tables.decisionsOf deal.id).length ≤ 1 := by
    by_cases hdecided : deal.status = .decided
    · obtain ⟨decision, hone, -⟩ := hrows.decided hdecided
      rw [hone]
      exact Nat.le_refl 1
    · rw [hrows.undecided hdecided]
      exact Nat.zero_le 1
  have hscore : ∀ order, (shownCard order s.tables deal).score =
      (Table.latest DealScore.createdAt (s.tables.scoresOf deal.id)).map DealScore.score := by
    intro order
    rw [← newest_eq order hscores]
    rfl
  have hnames := fun order => shownFields_nodup hs.inv order deal.id
  refine {
    built := fun order => buildDealCard_shown hscores hdecisions
    names := hnames
    fields := fun order order' =>
      latestFields_perm (Table.orderBy_perm.trans Table.orderBy_perm.symm) (hnames order)
    confidence := fun order => ?confidence
    score := fun order => ?score
    scored := fun hscored => ?scored }
  case confidence =>
    rcases h.shown order deal.id with hnil | ⟨run, llm, rows, hllm, hperm, hne⟩
    · refine .inl ⟨hnil, ?_⟩
      rw [shownCard, card, hnil]
      rfl
    · obtain ⟨hsome, hall⟩ := fieldRows_overall hllm
      obtain ⟨row, hrow, hoverall⟩ := hsome hne
      refine .inr ⟨run, llm, rows, hllm, hperm, findSome?_of_forall ⟨row, ?_, hoverall⟩ ?_⟩
      · exact hperm.mem_iff.mpr hrow
      · exact fun f hf => hall f (hperm.mem_iff.mp hf)
  case score =>
    rw [hscore, maxScore]
    match s.tables.scoresOf deal.id, hscores with
    | [], _ => rfl
    | [score], _ => rfl
  case scored =>
    obtain ⟨score, hone, -, -, hconfig⟩ := hrows.scored hscored
    have hmem : score ∈ s.tables.scoresOf deal.id := by simp [hone]
    obtain ⟨hscoreRow, hid⟩ := List.mem_filter.mp hmem
    refine ⟨score, hmem, hconfig, fun order => ?_, fun order fields hperm => ?_⟩
    · rw [hscore, hone]
      rfl
    -- The engine found the rows in some order, and made the same dictionary of them.
    have hloaded : (latestFields (s.tables.fieldsOf deal.id)).Perm
        ((shownFields order s.tables deal.id).map fun f => (f.fieldName, f)) :=
      latestFields_perm Table.orderBy_perm.symm (hnames order)
    have hkeys : ((latestFields (s.tables.fieldsOf deal.id)).map Prod.fst).Nodup := by
      refine (hloaded.map Prod.fst).nodup_iff.mpr ?_
      rw [List.map_map]
      exact hnames order
    have hcomputed : ComputedOn s.tables fields score := by
      obtain ⟨draw, ev, hev, hrow⟩ := h.scores score hscoreRow
      rw [of_decide_eq_true hid] at hev
      exact ⟨draw, ev, (evaluate_fields_perm (hperm.trans hloaded.symm) hkeys).trans hev, hrow⟩
    refine ⟨hcomputed, fun criteria hcriteria => ?_⟩
    obtain ⟨draw, ev, hev, hrow⟩ := hcomputed
    obtain ⟨ev', hev', hscore', hconfidence'⟩ := evaluate_criteria_perm hcriteria hev
    obtain ⟨rationale, -, hrow⟩ := Option.bind_eq_some_iff.mp hrow
    have hrow := Option.some.inj hrow
    exact ⟨ev', hev', hscore'.trans (congrArg DealScore.score hrow),
      hconfidence'.trans (congrArg DealScore.confidence hrow)⟩

end

end Pipeline
