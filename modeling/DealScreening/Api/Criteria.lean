-- SUMMARY: The criteria routes: a new config with its version, the deactivation of the earlier configs and re-scoring; the active config and the history.
import DealScreening.Schemas.Criteria
import DealScreening.Services.ScoringService

namespace CriteriaApi

open Python Session ScoringService

/-- The id of the config, the ids of the scores in the order they are drawn, and
    the time of the transaction. -/
structure ConfigDraw where
  configId : Uuid
  scoreIds : Nat → Uuid
  now : Time

/-- The row of a criterion, if its texts can be stored. -/
def criterionRow (configId : Uuid) (c : CriterionCreateSchema) : Option Criterion := do
  let fieldName ← PgText.ofStr (text c.fieldName)
  let operator ← PgText.ofStr (text c.operator)
  let targetValue ← PgText.ofStr (text c.targetValue)
  let label ← PgText.ofStr (text c.label)
  return { configId, fieldName, criterionType := c.criterionType, operator, targetValue,
           weight := c.weight, label }

theorem criterionRow_eq_some {configId : Uuid} {c : CriterionCreateSchema} {row : Criterion}
    (h : criterionRow configId c = some row) : row.configId = configId ∧ row.weight = c.weight := by
  obtain ⟨_, -, h⟩ := Option.bind_eq_some_iff.mp h
  obtain ⟨_, -, h⟩ := Option.bind_eq_some_iff.mp h
  obtain ⟨_, -, h⟩ := Option.bind_eq_some_iff.mp h
  obtain ⟨_, -, h⟩ := Option.bind_eq_some_iff.mp h
  cases h
  exact ⟨rfl, rfl⟩

theorem criterionRow_configId {configId : Uuid} {c : CriterionCreateSchema} {row : Criterion}
    (h : criterionRow configId c = some row) : row.configId = configId := (criterionRow_eq_some h).1

theorem criterionRow_weight {configId : Uuid} {c : CriterionCreateSchema} {row : Criterion}
    (h : criterionRow configId c = some row) : row.weight = c.weight := (criterionRow_eq_some h).2

/-- `_get_latest_version`. -/
def getLatestVersion (tenantId : Uuid) : ServiceM Nat :=
  select fun db =>
    ((Table.latest CriteriaConfig.version (db.configsOf tenantId)).map (·.version)).getD 0

/-- The loop of `_rescore_extracted_deals`. What `score_deal` raises is logged, and
    the session goes on as it was left. -/
def rescoreDeals [Runtime] (draw : ConfigDraw) (tenantId : Uuid) : Nat → List Uuid → ServiceM Unit
  | _, [] => Session.pure ()
  | i, dealId :: dealIds => do
    Session.tryCatch
      (do
        let _ ← scoreDeal ⟨draw.scoreIds i, draw.now⟩ dealId tenantId
        return ())
      (fun _ => Session.pure ())
    rescoreDeals draw tenantId (i + 1) dealIds

/-- `_rescore_extracted_deals`. -/
def rescoreExtractedDeals [Runtime] (draw : ConfigDraw) (tenantId : Uuid) : ServiceM Unit := do
  let dealIds ← select fun db => db.dealIds tenantId .extracted
  rescoreDeals draw tenantId 0 dealIds

def createCriteriaConfig [Runtime] (draw : ConfigDraw) (tenantId : Uuid)
    (body : CriteriaConfigCreateSchema) : ServiceM (CriteriaConfig × List Criterion) := do
  let latestVersion ← getLatestVersion tenantId
  update fun db => db.deactivateConfigs tenantId
  write fun db => do
    let name ← PgText.ofStr (text body.name)
    db.insertConfig { id := draw.configId, tenantId, version := latestVersion + 1,
                      isActive := true, name }
  flush
  writeAll (body.criteria.map fun c db => (criterionRow draw.configId c).bind db.insertCriterion)
  flush
  rescoreExtractedDeals draw tenantId
  match ← select fun db => db.configById draw.configId with
  | some config =>
    let criteria ← select fun db => db.criteriaOf config.id
    return (config, criteria)
  | none => raise (.builtin .keyError)

/-- `get_active_config`. -/
def getActiveConfig (tenantId : Uuid) : ServiceM (CriteriaConfig × List Criterion) := do
  match ← select fun db => db.activeConfig tenantId with
  | none => raise (.http 404 (text "No active criteria config found."))
  | some config =>
    let criteria ← select fun db => db.criteriaOf config.id
    return (config, criteria)

/-- `_config_to_response` of each config. -/
def configResponses : List CriteriaConfig → ServiceM (List (CriteriaConfig × List Criterion))
  | [] => Session.pure []
  | config :: configs => do
    let criteria ← select fun db => db.criteriaOf config.id
    let responses ← configResponses configs
    return (config, criteria) :: responses

/-- `get_config_history`. -/
def getConfigHistory (order : Table.RowOrder) (tenantId : Uuid) :
    ServiceM (List (CriteriaConfig × List Criterion)) := do
  let configs ← select fun db =>
    Table.orderBy order (fun c c' => c'.version ≤ c.version) (db.configsOf tenantId)
  configResponses configs

-- ---------------------------------------------------------------------------
-- What a request inserts
-- ---------------------------------------------------------------------------

/-- The inserts of the criteria, if they all go through. -/
theorem applyAll_criteria {configId : Uuid} {criteria : List CriterionCreateSchema}
    {db db' : DealDb}
    (h : applyAll (criteria.map fun c (db : DealDb) =>
      (criterionRow configId c).bind db.insertCriterion) db = some db') :
    ∃ rows, criteria.mapM (criterionRow configId) = some rows ∧
      db' = { db with criteria := db.criteria ++ rows } := by
  induction criteria generalizing db with
  | nil =>
    cases h
    exact ⟨[], rfl, by simp⟩
  | cons c criteria ih =>
    obtain ⟨db₁, hinsert, hrest⟩ := Option.bind_eq_some_iff.mp h
    obtain ⟨row, hrow, hinsert⟩ := Option.bind_eq_some_iff.mp hinsert
    unfold DealDb.insertCriterion at hinsert
    split at hinsert <;> cases hinsert
    obtain ⟨rows, hrows, rfl⟩ := ih hrest
    exact ⟨row :: rows, by simp [List.mapM_cons, hrow, hrows], by simp⟩

/-- A request that commits has inserted its config and the criteria, and has then
    re-scored. -/
theorem createCriteriaConfig_inserts [Runtime] {draw : ConfigDraw} {tenantId : Uuid}
    {body : CriteriaConfigCreateSchema} {R : DealDb → Unit → DealDb → Prop}
    (hrescore : Commits (rescoreExtractedDeals draw tenantId) R) :
    Commits (createCriteriaConfig draw tenantId body) fun db _ db' =>
      ∃ name db₁ db₂, PgText.ofStr (text body.name) = some name ∧
        (db.deactivateConfigs tenantId).insertConfig
          { id := draw.configId, tenantId, isActive := true, name,
            version := ((Table.latest CriteriaConfig.version (db.configsOf tenantId)).map
              (·.version)).getD 0 + 1 } = some db₁ ∧
        applyAll (body.criteria.map fun c db =>
          (criterionRow draw.configId c).bind (DealDb.insertCriterion db)) db₁ = some db₂ ∧
        R db₂ () db' := by
  refine Commits.bind commits_select fun latest => commits_update.bind fun _ =>
    commits_write.bind fun _ => commits_flush.bind fun _ => commits_writeAll.bind fun _ =>
      commits_flush.bind fun _ => hrescore.bind fun _ => Commits.bind commits_select fun found => ?_
  cases found with
  | none => exact commits_raise
  | some config =>
    refine Commits.bind commits_select fun criteria => commits_pure ?_
    rintro d' _ ⟨-, rfl⟩ d₆ ⟨-, rfl⟩ d₅ hrescored _ rfl d₃ hcriteria _ rfl d₁ hinsert _ rfl db ⟨rfl, rfl⟩
    obtain ⟨name, hname, hinsert⟩ := Option.bind_eq_some_iff.mp hinsert
    exact ⟨name, _, _, hname, hinsert, hcriteria, hrescored⟩

end CriteriaApi
