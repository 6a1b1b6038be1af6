-- SUMMARY: Deals with their fields, scores, decisions and audit rows, and the tables of the pipeline.
import DealScreening.Lib.Table
import DealScreening.Models.Criteria
import DealScreening.Python.Number

/-- One ingested document. -/
structure Deal where
  id : Uuid
  tenantId : Uuid
  filename : PgText
  contentHash : String
  filePath : PgText
  fileSizeBytes : Nat
  sourceChannel : PgText
  sourceSender : Option PgText
  status : DealStatus
  retryCount : Nat
  createdAt : Time
  deriving DecidableEq

/-- `deal.status = status`. -/
def Deal.setStatus (status : DealStatus) (d : Deal) : Deal := { d with status }

@[simp] theorem Deal.setStatus_id (status : DealStatus) (d : Deal) :
    (d.setStatus status).id = d.id := rfl

/-- A field of a deal, as one extraction run found it. -/
structure ExtractedField where
  dealId : Uuid
  extractionRun : Nat
  fieldName : PgText
  fieldValue : Option PgText
  fieldStatus : FieldExtractionStatus
  confidence : ConfidenceLevel
  overallConfidence : Option ConfidenceLevel
  deriving DecidableEq

section
variable {rows earlier : List ExtractedField} {n : Nat}

theorem max_run_eq (hle : ∀ row ∈ rows, row.extractionRun ≤ n)
    (hn : ∃ row ∈ rows, row.extractionRun = n) :
    (rows.map ExtractedField.extractionRun).foldl max 0 = n := by
  refine Table.foldl_max_eq (Nat.zero_le n) (fun run hrun => ?_) (.inl (List.mem_map.mpr hn))
  obtain ⟨row, hrow, rfl⟩ := List.mem_map.mp hrun
  exact hle row hrow

/-- The rows of a run, after those of earlier ones. -/
theorem filter_run_append (hearlier : ∀ row ∈ earlier, row.extractionRun < n)
    (hrows : ∀ row ∈ rows, row.extractionRun = n) :
    (earlier ++ rows).filter (fun row => row.extractionRun = n) = rows := by
  have hold : earlier.filter (fun row => row.extractionRun = n) = [] :=
    List.filter_eq_nil_iff.mpr fun row hrow heq => (hearlier row hrow).ne (of_decide_eq_true heq)
  have hnew : rows.filter (fun row => row.extractionRun = n) = rows :=
    List.filter_eq_self.mpr fun row hrow => decide_eq_true (hrows row hrow)
  rw [List.filter_append, hold, hnew, List.nil_append]

end

/-- An entry of `criterion_results`. It is stored as JSON with every character
    beyond ASCII escaped, so any string will do. -/
structure CriterionResult where
  criterionLabel : Python.Str
  fieldName : Python.Str
  matched : Bool
  detail : Python.Str
  weight : Float
  skipped : Bool
  deriving DecidableEq

/-- A JSON column refuses `NaN` and the infinities. -/
def CriterionResult.valid (result : CriterionResult) : Bool := (Python.toRat result.weight).isSome

structure DealScore where
  id : Uuid
  dealId : Uuid
  criteriaConfigId : Uuid
  score : Int
  confidence : ConfidenceLevel
  rationale : PgText
  criterionResults : List CriterionResult
  createdAt : Time
  deriving DecidableEq

structure DealDecision where
  dealId : Uuid
  userId : Uuid
  decision : DecisionType
  notes : Option PgText
  scoreId : Option Uuid
  createdAt : Time
  deriving DecidableEq

/-- The JSON metadata of an audit row. -/
inductive AuditMetadata where
  | empty
  | detail (detail : Python.Str)
  | upload (filename : Python.Str) (fileSizeBytes : Nat) (sourceChannel : Python.Str)
  | score (score : Int) (confidence : ConfidenceLevel)
  | decision (decision : DecisionType) (notes : Option Python.Str)
  deriving DecidableEq

structure DealAuditLog where
  dealId : Uuid
  tenantId : String
  actorType : String
  actorId : Option String
  action : String
  beforeState : Option DealStatus
  afterState : Option DealStatus
  metadata : AuditMetadata
  deriving DecidableEq

/-- What a service writes about one deal: columns of its row, and rows that refer to it. -/
structure DealChange where
  status : DealStatus
  retryCount : Option Nat
  fields : List ExtractedField
  scores : List DealScore
  decisions : List DealDecision
  entries : List DealAuditLog
  deriving DecidableEq

def DealChange.update (c : DealChange) (d : Deal) : Deal :=
  { d with status := c.status, retryCount := c.retryCount.getD d.retryCount }

@[simp] theorem DealChange.update_id (c : DealChange) (d : Deal) : (c.update d).id = d.id := rfl

@[simp] theorem DealChange.update_tenantId (c : DealChange) (d : Deal) :
    (c.update d).tenantId = d.tenantId := rfl

@[simp] theorem DealChange.update_status (c : DealChange) (d : Deal) :
    (c.update d).status = c.status := rfl

/-- The tables of the pipeline. -/
structure DealDb where
  deals : List Deal
  extractedFields : List ExtractedField
  dealScores : List DealScore
  dealDecisions : List DealDecision
  dealAuditLog : List DealAuditLog
  criteriaConfigs : List CriteriaConfig
  criteria : List Criterion
  deriving DecidableEq

namespace DealDb

def empty : DealDb := ⟨[], [], [], [], [], [], []⟩

variable (db : DealDb)

/-! ## Queries -/

def dealById (id : Uuid) : Option Deal := Table.lookup Deal.id db.deals id

/-- `WHERE deals.id = ... AND deals.tenant_id = ...`. -/
def deal (id tenantId : Uuid) : Option Deal :=
  db.deals.find? fun d => d.id = id ∧ d.tenantId = tenantId

def dealByHash (tenantId : Uuid) (contentHash : String) : Option Deal :=
  db.deals.find? fun d => d.tenantId = tenantId ∧ d.contentHash = contentHash

/-- The ids of the tenant's deals in a status. -/
def dealIds (tenantId : Uuid) (status : DealStatus) : List Uuid :=
  (db.deals.filter fun d => d.tenantId = tenantId ∧ d.status = status).map Deal.id

def fieldsOf (dealId : Uuid) : List ExtractedField :=
  db.extractedFields.filter fun f => f.dealId = dealId

def scoresOf (dealId : Uuid) : List DealScore :=
  db.dealScores.filter fun s => s.dealId = dealId

def decisionsOf (dealId : Uuid) : List DealDecision :=
  db.dealDecisions.filter fun d => d.dealId = dealId

def scoreById (id : Uuid) : Option DealScore := Table.lookup DealScore.id db.dealScores id

def configById (id : Uuid) : Option CriteriaConfig :=
  Table.lookup CriteriaConfig.id db.criteriaConfigs id

def configsOf (tenantId : Uuid) : List CriteriaConfig :=
  db.criteriaConfigs.filter fun c => c.tenantId = tenantId

/-- The active config of the highest version. -/
def activeConfig (tenantId : Uuid) : Option CriteriaConfig :=
  Table.latest CriteriaConfig.version ((db.configsOf tenantId).filter CriteriaConfig.isActive)

/-- `config.criteria`. -/
def criteriaOf (configId : Uuid) : List Criterion :=
  db.criteria.filter fun c => c.configId = configId

/-! ## Inserts

An insert the database refuses gives `none`. -/

/-- `deals_pkey` and `uq_deals_tenant_content_hash`. -/
def insertDeal (deal : Deal) : Option DealDb :=
  if (db.dealById deal.id).isNone ∧ (db.dealByHash deal.tenantId deal.contentHash).isNone then
    some { db with deals := db.deals ++ [deal] }
  else none

/-- The deal exists. -/
def insertField (field : ExtractedField) : Option DealDb :=
  if (db.dealById field.dealId).isSome then
    some { db with extractedFields := db.extractedFields ++ [field] }
  else none

/-- `deal_scores_pkey`; the deal and the config exist; the results are valid JSON. -/
def insertScore (score : DealScore) : Option DealDb :=
  if (db.scoreById score.id).isNone ∧ (db.dealById score.dealId).isSome ∧
      (db.configById score.criteriaConfigId).isSome ∧
      score.criterionResults.all CriterionResult.valid then
    some { db with dealScores := db.dealScores ++ [score] }
  else none

/-- The deal exists, and the score if one is named. -/
def insertDecision (decision : DealDecision) : Option DealDb :=
  if (db.dealById decision.dealId).isSome ∧
      decision.scoreId.all (fun id => (db.scoreById id).isSome) then
    some { db with dealDecisions := db.dealDecisions ++ [decision] }
  else none

/-- The deal exists. -/
def insertAudit (entry : DealAuditLog) : Option DealDb :=
  if (db.dealById entry.dealId).isSome then
    some { db with dealAuditLog := db.dealAuditLog ++ [entry] }
  else none

/-- `criteria_configs_pkey` and `uq_criteria_configs_tenant_version`. -/
def insertConfig (config : CriteriaConfig) : Option DealDb :=
  if (db.configById config.id).isNone ∧
      (db.configsOf config.tenantId).all (fun c => c.version ≠ config.version) then
    some { db with criteriaConfigs := db.criteriaConfigs ++ [config] }
  else none

/-- The config exists. -/
def insertCriterion (criterion : Criterion) : Option DealDb :=
  if (db.configById criterion.configId).isSome then
    some { db with criteria := db.criteria ++ [criterion] }
  else none

/-! ## Updates -/

def updateDeal (id : Uuid) (f : Deal → Deal) : DealDb :=
  { db with deals := Table.modify Deal.id db.deals id f }

/-- `UPDATE criteria_configs SET is_active = false WHERE tenant_id = ... AND is_active`. -/
def deactivateConfigs (tenantId : Uuid) : DealDb :=
  { db with criteriaConfigs := db.criteriaConfigs.map fun c =>
      if c.tenantId = tenantId ∧ c.isActive then { c with isActive := false } else c }

/-- All that a change writes. -/
def change (dealId : Uuid) (c : DealChange) : DealDb :=
  { db with
    deals := Table.modify Deal.id db.deals dealId c.update
    extractedFields := db.extractedFields ++ c.fields
    dealScores := db.dealScores ++ c.scores
    dealDecisions := db.dealDecisions ++ c.decisions
    dealAuditLog := db.dealAuditLog ++ c.entries }

/-! ## Lookups after updates -/

section
variable {db : DealDb} {id dealId tenantId : Uuid} {deal : Deal} {f : Deal → Deal} {c : DealChange}

theorem deal_key (h : db.deal dealId tenantId = some deal) :
    deal.id = dealId ∧ deal.tenantId = tenantId := by
  simpa [DealDb.deal] using List.find?_some h

theorem dealById_isSome (h : db.deal dealId tenantId = some deal) :
    (db.dealById deal.id).isSome := by
  obtain ⟨d, hd⟩ := Table.lookup_isSome_of_mem Deal.id (List.mem_of_find?_eq_some h)
  simp [DealDb.dealById, hd]

theorem dealById_updateDeal (hf : ∀ d, (f d).id = d.id) :
    ((db.updateDeal id f).dealById dealId).isSome = (db.dealById dealId).isSome := by
  unfold DealDb.dealById DealDb.updateDeal
  rw [Table.lookup_modify hf]
  split
  · rename_i heq
    rw [heq, Option.isSome_map]
  · rfl

theorem deal_change :
    (db.change id c).deal dealId tenantId =
      (db.deal dealId tenantId).map fun d => if d.id = id then c.update d else d := by
  unfold DealDb.deal DealDb.change Table.modify
  rw [List.find?_map]
  congr 1
  refine congrArg (fun p => List.find? p db.deals) (funext fun d => ?_)
  simp only [Function.comp]
  split <;> rfl

theorem dealById_change :
    (db.change id c).dealById dealId =
      if dealId = id then (db.dealById id).map c.update else db.dealById dealId :=
  Table.lookup_modify c.update_id

end

end DealDb
