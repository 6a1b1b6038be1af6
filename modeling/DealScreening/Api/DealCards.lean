-- SUMMARY: The routes that list deals and show one: filter, sort order and page, and the card of a deal.
import DealScreening.Api.Deals

namespace DealsApi

open Python Session ScoringService

/-- The query parameters of `list_deals`. -/
structure ListQuery where
  status : Option DealStatus
  sortBy : String
  sortOrder : String
  limit : Nat
  offset : Nat
  limit_pos : 1 ≤ limit
  limit_le : limit ≤ 200

structure ExtractedFieldSchema where
  fieldName : PgText
  fieldValue : Option PgText
  fieldStatus : FieldExtractionStatus
  confidence : ConfidenceLevel
  deriving DecidableEq

structure DealCardSchema where
  id : Uuid
  filename : PgText
  status : DealStatus
  sourceChannel : PgText
  createdAt : Time
  extractedFields : Option (List ExtractedFieldSchema)
  extractionConfidence : Option ConfidenceLevel
  score : Option Int
  scoreConfidence : Option ConfidenceLevel
  rationale : Option PgText
  decision : Option DecisionType
  decisionNotes : Option PgText
  decidedAt : Option Time
  deriving DecidableEq

-- ---------------------------------------------------------------------------
-- The card of a deal
-- ---------------------------------------------------------------------------

/-- `_get_latest_decision`. -/
def getLatestDecision (dealId : Uuid) : ServiceM (Option DealDecision) :=
  select fun db => Table.latest DealDecision.createdAt (db.decisionsOf dealId)

/-- The rows of the latest run, in the order they come in. -/
def latestRunFields (rows : List ExtractedField) : List ExtractedField :=
  let latestRun := (rows.map ExtractedField.extractionRun).foldl max 0
  rows.filter fun f => f.extractionRun = latestRun

/-- `_get_latest_extracted_fields`. -/
def getLatestExtractedFields (order : Table.RowOrder) (dealId : Uuid) :
    ServiceM (List ExtractedField) := do
  let allFields ← select fun db =>
    Table.orderBy order (fun f g => g.extractionRun ≤ f.extractionRun) (db.fieldsOf dealId)
  return latestRunFields allFields

def fieldSchema (f : ExtractedField) : ExtractedFieldSchema :=
  ⟨f.fieldName, f.fieldValue, f.fieldStatus, f.confidence⟩

def card (deal : Deal) (fields : List ExtractedField) (latestScore : Option DealScore)
    (latestDecision : Option DealDecision) : DealCardSchema where
  id := deal.id
  filename := deal.filename
  status := deal.status
  sourceChannel := deal.sourceChannel
  createdAt := deal.createdAt
  extractedFields := if fields = [] then none else some (fields.map fieldSchema)
  extractionConfidence := fields.findSome? ExtractedField.overallConfidence
  score := latestScore.map DealScore.score
  scoreConfidence := latestScore.map DealScore.confidence
  rationale := latestScore.map DealScore.rationale
  decision := latestDecision.map DealDecision.decision
  decisionNotes := latestDecision.bind DealDecision.notes
  decidedAt := latestDecision.map DealDecision.createdAt

/-- `_build_deal_card`. -/
def buildDealCard (order : Table.RowOrder) (deal : Deal) : ServiceM DealCardSchema := do
  let fields ← getLatestExtractedFields order deal.id
  let latestScore ← getLatestScore deal.id
  let latestDecision ← getLatestDecision deal.id
  return card deal fields latestScore latestDecision

def buildDealCards (order : Table.RowOrder) : List Deal → ServiceM (List DealCardSchema)
  | [] => Session.pure []
  | deal :: deals => do
    let card ← buildDealCard order deal
    let cards ← buildDealCards order deals
    return card :: cards

/-- `get_deal`. -/
def getDeal (order : Table.RowOrder) (dealId tenantId : Uuid) : ServiceM DealCardSchema := do
  let deal ← getDealOr404 dealId tenantId
  buildDealCard order deal

-- ---------------------------------------------------------------------------
-- The list
-- ---------------------------------------------------------------------------

/-- `max(deal_scores.score)` of a deal, NULL without a score. -/
def maxScore (db : DealDb) (dealId : Uuid) : Option Int :=
  ((db.scoresOf dealId).map DealScore.score).max?

/-- The column that the list is sorted by. -/
def sortKey (db : DealDb) (query : ListQuery) (deal : Deal) : Option Int :=
  if query.sortBy = "score" then maxScore db deal.id else some deal.createdAt

/-- `NULLS LAST`, ascending or descending. -/
def sortLe (query : ListQuery) : Option Int → Option Int → Bool
  | some a, some b => if query.sortOrder = "asc" then a ≤ b else b ≤ a
  | none, some _ => false
  | _, none => true

/-- The deals that the query selects, joined with their sort keys. -/
def joinedDeals (tenantId : Uuid) (query : ListQuery) (db : DealDb) : List (Deal × Option Int) :=
  (db.deals.filter fun d => d.tenantId = tenantId ∧ query.status.all fun status => d.status = status).map
    fun d => (d, sortKey db query d)

def sortedDeals (order : Table.RowOrder) (tenantId : Uuid) (query : ListQuery) (db : DealDb) :
    List Deal :=
  (Table.orderBy order (fun row row' => sortLe query row.2 row'.2)
    (joinedDeals tenantId query db)).map Prod.fst

/-- `list_deals`. -/
def listDeals (order : Table.RowOrder) (tenantId : Uuid) (query : ListQuery) :
    ServiceM (List DealCardSchema) := do
  let deals ← select fun db =>
    ((sortedDeals order tenantId query db).drop query.offset).take query.limit
  buildDealCards order deals

end DealsApi
