-- SUMMARY: The route that records a decision on a scored deal.
import DealScreening.Services.ScoringService

namespace DealsApi

open Python Session ScoringService

structure DealDecisionRequest where
  decision : DecisionType
  notes : Option String
  deriving DecidableEq, Repr

/-- `_get_deal_or_404`. -/
def getDealOr404 (dealId tenantId : Uuid) : ServiceM Deal := do
  match ← select fun db => db.deal dealId tenantId with
  | none => raise (.http 404 (text "Deal not found."))
  | some deal => return deal

/-- `_get_latest_score`. -/
def getLatestScore (dealId : Uuid) : ServiceM (Option DealScore) :=
  select fun db => Table.latest DealScore.createdAt (db.scoresOf dealId)

/-- The decision row. The user id is text and the column a UUID. -/
def decisionRow (readUuid : String → Option Uuid) (now : Time) (dealId : Uuid) (userId : String)
    (body : DealDecisionRequest) (latestScore : Option DealScore) : Option DealDecision := do
  let userId ← readUuid userId
  let notes ←
    match body.notes with
    | none => some none
    | some notes => (PgText.ofStr (text notes)).map some
  return { dealId, userId, decision := body.decision, notes,
           scoreId := latestScore.map DealScore.id, createdAt := now }

theorem decisionRow_eq_some {readUuid : String → Option Uuid} {now : Time} {dealId : Uuid}
    {userId : String} {body : DealDecisionRequest} {latestScore : Option DealScore} {decision : DealDecision}
    (h : decisionRow readUuid now dealId userId body latestScore = some decision) :
    decision.dealId = dealId ∧ decision.scoreId = latestScore.map DealScore.id := by
  obtain ⟨user, -, h⟩ := Option.bind_eq_some_iff.mp h
  cases hnotes : body.notes with
  | none =>
    rw [hnotes] at h
    cases h
    exact ⟨rfl, rfl⟩
  | some text =>
    rw [hnotes] at h
    obtain ⟨notes, -, h⟩ := Option.bind_eq_some_iff.mp h
    cases h
    exact ⟨rfl, rfl⟩

def decisionAudit (deal : Deal) (userId : String) (body : DealDecisionRequest) : DealAuditLog :=
  { dealId := deal.id, tenantId := Uuid.str deal.tenantId, actorType := "user",
    actorId := some userId, action := "DECISION_MADE", beforeState := some deal.status,
    afterState := some .decided, metadata := .decision body.decision (body.notes.map text) }

/-- The decision row, the status and the audit row. -/
def persistDecision (readUuid : String → Option Uuid) (now : Time) (deal : Deal) (userId : String)
    (body : DealDecisionRequest) (latestScore : Option DealScore) : ServiceM Unit := do
  write fun db => (decisionRow readUuid now deal.id userId body latestScore).bind db.insertDecision
  update fun db => db.updateDeal deal.id (Deal.setStatus .decided)
  write fun db => db.insertAudit (decisionAudit deal userId body)
  flush

/-- `decide_deal`. `readUuid` is how the database reads the text of a UUID. -/
def decideDeal (readUuid : String → Option Uuid) (now : Time) (dealId tenantId : Uuid)
    (userId : String) (body : DealDecisionRequest) : ServiceM DecisionType := do
  let deal ← getDealOr404 dealId tenantId
  if deal.status ≠ .scored then
    raise (.http 400 (text (s!"Deal is in status {deal.status.value}. " ++
      "Decisions can only be made on SCORED deals.")))
  else
    let latestScore ← getLatestScore dealId
    persistDecision readUuid now deal userId body latestScore
    return body.decision

end DealsApi
