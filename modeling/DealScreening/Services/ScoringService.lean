-- SUMMARY: Scoring of an extracted deal: score, confidence and rationale over all criteria, and the transaction that records them.
import DealScreening.Lib.Session
import DealScreening.Services.CriteriaEvaluator
import DealScreening.Services.Exceptions

/-!
# Scoring service

Scores are computed in exact arithmetic: a weight counts as the rational number
it stands for, and the percentage is rounded to the nearest integer, halves to
the even one. A weight that is no number makes the rounding raise.
-/

structure ScoringResult where
  success : Bool
  dealId : Uuid
  score : Int
  confidence : ConfidenceLevel
  rationale : Python.Str
  criterionResults : List CriterionResult
  error : Option Python.Str
  deriving DecidableEq

namespace ScoringService

open Python CriteriaEvaluator

/-- The fields of the latest extraction run, by name. -/
abbrev FieldsMap := List (PgText × ExtractedField)

/-! ## Evaluation of all criteria -/

section
variable [Runtime]

def unavailableDetail (fieldName : Str) : Str :=
  text "Field '" ++ fieldName ++ text "' not available in extraction results."

def evaluateField (fields : FieldsMap) (criterion : Criterion) :
    Except Error CriterionEvalResult :=
  match getItem fields criterion.fieldName with
  | none =>
    .ok { criterionLabel := criterion.label.val, fieldName := criterion.fieldName.val,
          criterionType := criterion.criterionType, matched := false, weight := criterion.weight,
          detail := unavailableDetail criterion.fieldName.val, skipped := true }
  | some field =>
    evaluateCriterion criterion.fieldName.val (field.fieldValue.map PgText.val) field.fieldStatus
      criterion.operator.val criterion.targetValue.val criterion.criterionType criterion.weight
      criterion.label.val

/-- `_evaluate_all_criteria`. -/
def evaluateAllCriteria (criteria : List Criterion) (fields : FieldsMap) :
    Except Error (List CriterionEvalResult) :=
  criteria.mapM (evaluateField fields)

end

/-! ## Score -/

/-- A dealbreaker that was evaluated and is not met. -/
def dealbreakerFails (r : CriterionEvalResult) : Bool :=
  r.criterionType = .dealbreaker && !r.matched && !r.skipped

/-- The sum of the weights, if each is a number. -/
def exactSum (weights : List Float) : Option ℚ := (weights.mapM toRat).map List.sum

def totalWeight (results : List CriterionEvalResult) : Option ℚ :=
  exactSum ((results.filter fun r => !r.skipped).map (·.weight))

def matchedWeight (results : List CriterionEvalResult) : Option ℚ :=
  exactSum ((results.filter fun r => !r.skipped && r.matched).map (·.weight))

/-- `_compute_score`. -/
def computeScore (results : List CriterionEvalResult) : Except Error Int :=
  if results = [] then .ok 0
  else if results.any dealbreakerFails then .ok 0
  else match totalWeight results, matchedWeight results with
    | some total, some matched =>
      if total = 0 then .ok 0 else .ok (roundHalfEven (matched / total * 100))
    | _, _ => .error .valueError

/-! ## Confidence -/

/-- `_compute_scoring_confidence`. -/
def computeScoringConfidence (results : List CriterionEvalResult) (fields : FieldsMap) :
    ConfidenceLevel :=
  let total := results.length
  let evaluated := total - results.countP (·.skipped)
  if results = [] then .none
  else if evaluated = 0 then .none
  else
    let ratio : ℚ := evaluated / total
    if ratio = 1 then
      let found := (fields.map Prod.snd).filter fun f => f.fieldStatus ≠ .missing
      if found.all fun f => f.confidence = .high then .high else .medium
    else if 3 / 4 ≤ ratio then .medium
    else if 1 / 2 ≤ ratio then .low
    else .none

/-! ## Rationale -/

/-- A heading, a line for each result, and a blank line. -/
def rationaleSection (heading bullet : String) (results : List CriterionEvalResult) : List Str :=
  if results = [] then []
  else text heading :: results.map (fun r => text bullet ++ r.detail) ++ [[]]

def rationaleLines (results : List CriterionEvalResult) (score : Int)
    (confidence : ConfidenceLevel) : List Str :=
  [text "Deal scored " ++ Str.ofInt score ++ text "/100 (confidence: " ++ text confidence.value ++
      text ").\n"] ++
    rationaleSection "DEALBREAKER TRIGGERED:" "  - " (results.filter dealbreakerFails) ++
    rationaleSection "Criteria met:" "  + " (results.filter (·.matched)) ++
    rationaleSection "Criteria not met:" "  - "
      (results.filter fun r => !r.matched && !r.skipped && r.criterionType ≠ .dealbreaker) ++
    rationaleSection "Could not evaluate (missing data):" "  ? " (results.filter (·.skipped))

/-- `_generate_rationale`. -/
def generateRationale (results : List CriterionEvalResult) (score : Int)
    (confidence : ConfidenceLevel) : Str :=
  if results = [] then text "No criteria configured — unable to evaluate deal."
  else Str.join (text "\n") (rationaleLines results score confidence)

/-! ## The transaction -/

/-- Steps 4 to 7: what the criteria say about the fields. -/
structure Evaluation where
  results : List CriterionEvalResult
  score : Int
  confidence : ConfidenceLevel
  rationale : Str
  deriving DecidableEq

def evaluate [Runtime] (criteria : List Criterion) (fields : FieldsMap) :
    Except Error Evaluation := do
  let results ← evaluateAllCriteria criteria fields
  let score ← computeScore results
  let confidence := computeScoringConfidence results fields
  return { results, score, confidence, rationale := generateRationale results score confidence }

open Session

abbrev ServiceM := Session DealDb ServiceExn

/-- `_load_deal`. -/
def loadDeal (dealId tenantId : Uuid) : ServiceM Deal := do
  match ← select fun db => db.deal dealId tenantId with
  | none => raise (.valueError (text (s!"Deal {Uuid.str dealId} not found for tenant " ++
      Uuid.str tenantId)))
  | some deal =>
    if deal.status ≠ .extracted then
      raise (.valueError (text (s!"Deal {Uuid.str dealId} is in status DealStatus." ++
        deal.status.value ++ " — scoring requires EXTRACTED status")))
    else return deal

/-- `_load_active_config`, with its criteria. -/
def loadActiveConfig (tenantId : Uuid) : ServiceM (Option (CriteriaConfig × List Criterion)) := do
  match ← select fun db => db.activeConfig tenantId with
  | none => return none
  | some config =>
    let criteria ← select fun db => db.criteriaOf config.id
    return some (config, criteria)

/-- The rows of the latest run as a map; of two rows with one name the later one. -/
def latestFields (rows : List ExtractedField) : FieldsMap :=
  let latestRun := (rows.map ExtractedField.extractionRun).foldl max 0
  (rows.filter fun f => f.extractionRun = latestRun).foldl (fun d f => setItem d f.fieldName f) []

/-- `_load_extracted_fields`. -/
def loadExtractedFields (dealId : Uuid) : ServiceM FieldsMap := do
  let rows ← select fun db => db.fieldsOf dealId
  return latestFields rows

def toCriterionResult (r : CriterionEvalResult) : CriterionResult :=
  { criterionLabel := r.criterionLabel, fieldName := r.fieldName, matched := r.matched,
    detail := r.detail, weight := r.weight, skipped := r.skipped }

/-- The id of the score and the time of the transaction. -/
structure ScoreDraw where
  scoreId : Uuid
  now : Time
  deriving DecidableEq, Repr

/-- The score row, if the rationale can be stored. -/
def scoreRow (draw : ScoreDraw) (dealId configId : Uuid) (ev : Evaluation) : Option DealScore := do
  let rationale ← PgText.ofStr ev.rationale
  return { id := draw.scoreId, dealId, criteriaConfigId := configId, score := ev.score,
           confidence := ev.confidence, rationale,
           criterionResults := ev.results.map toCriterionResult, createdAt := draw.now }

def scoringAudit (deal : Deal) (ev : Evaluation) : DealAuditLog :=
  { dealId := deal.id, tenantId := Uuid.str deal.tenantId, actorType := "worker", actorId := none,
    action := "SCORING_COMPLETED", beforeState := some deal.status, afterState := some .scored,
    metadata := .score ev.score ev.confidence }

/-- Steps 9 and 10: the score row, the status and the audit row. -/
def persistScore (draw : ScoreDraw) (deal : Deal) (configId : Uuid) (ev : Evaluation) :
    ServiceM Unit := do
  write fun db => (scoreRow draw deal.id configId ev).bind db.insertScore
  update fun db => db.updateDeal deal.id (Deal.setStatus .scored)
  write fun db => db.insertAudit (scoringAudit deal ev)
  flush

def noConfigResult (dealId : Uuid) : ScoringResult :=
  { success := false, dealId, score := 0, confidence := .none, rationale := [],
    criterionResults := [],
    error := some (text ("No active criteria config found for tenant. " ++
      "Configure screening criteria first.")) }

def scoredResult (dealId : Uuid) (ev : Evaluation) : ScoringResult :=
  { success := true, dealId, score := ev.score, confidence := ev.confidence,
    rationale := ev.rationale, criterionResults := ev.results.map toCriterionResult, error := none }

def scoreDeal [Runtime] (draw : ScoreDraw) (dealId tenantId : Uuid) : ServiceM ScoringResult := do
  let deal ← loadDeal dealId tenantId
  match ← loadActiveConfig tenantId with
  | none => return noConfigResult dealId
  | some (config, criteria) =>
    let fields ← loadExtractedFields dealId
    let ev ← ofExcept ((evaluate criteria fields).mapError .builtin)
    persistScore draw deal config.id ev
    return scoredResult deal.id ev

/-! ## What the transaction does -/

section
variable {db : DealDb} {draw : ScoreDraw} {dealId tenantId configId : Uuid} {deal : Deal}
  {config : CriteriaConfig} {score : DealScore} {ev : Evaluation} {e : Error}

def scoreChange (deal : Deal) (score : DealScore) (ev : Evaluation) : DealChange :=
  { status := .scored, retryCount := none, fields := [], scores := [score], decisions := [],
    entries := [scoringAudit deal ev] }

/-- The rows after a score was recorded. -/
def scoredDb (db : DealDb) (deal : Deal) (score : DealScore) (ev : Evaluation) : DealDb :=
  db.change deal.id (scoreChange deal score ev)

/-- Why the database takes a score row. -/
def Insertable (db : DealDb) (score : DealScore) : Prop :=
  (db.scoreById score.id).isNone ∧ (db.dealById score.dealId).isSome ∧
    (db.configById score.criteriaConfigId).isSome ∧
    score.criterionResults.all CriterionResult.valid

theorem insertScore_of_insertable (h : Insertable db score) :
    db.insertScore score = some { db with dealScores := db.dealScores ++ [score] } := if_pos h

theorem insertScore_of_not (h : ¬ Insertable db score) : db.insertScore score = none := if_neg h

theorem scoreRow_eq_some (h : scoreRow draw dealId configId ev = some score) :
    Storable ev.rationale ∧ score.id = draw.scoreId ∧ score.dealId = dealId ∧
      score.criteriaConfigId = configId ∧
      score.criterionResults = ev.results.map toCriterionResult := by
  obtain ⟨rationale, hrationale, h⟩ := Option.bind_eq_some_iff.mp h
  cases h
  have hval := PgText.ofStr_eq_some.mp hrationale
  exact ⟨hval ▸ rationale.storable, rfl, rfl, rfl, rfl⟩

/-- The status and the audit row are accepted for a deal that exists. -/
theorem insertAudit_scored (hexists : (db.dealById deal.id).isSome) :
    DealDb.insertAudit (DealDb.updateDeal { db with dealScores := db.dealScores ++ [score] }
      deal.id (Deal.setStatus .scored)) (scoringAudit deal ev) = some (scoredDb db deal score ev) := by
  have hexists' : ((db.updateDeal deal.id (Deal.setStatus .scored)).dealById deal.id).isSome := by
    rw [DealDb.dealById_updateDeal (Deal.setStatus_id .scored)]
    exact hexists
  refine (if_pos hexists').trans ?_
  simp only [scoredDb, DealDb.change, scoreChange, List.append_nil]
  rfl

theorem persistScore_ok (hrow : scoreRow draw deal.id configId ev = some score)
    (hinsert : Insertable db score) :
    persistScore draw deal configId ev ⟨db, false, false⟩ =
      (.ok (), ⟨scoredDb db deal score ev, false, false⟩) := by
  have hexists : (db.dealById deal.id).isSome := (scoreRow_eq_some hrow).2.2.1 ▸ hinsert.2.1
  simp [persistScore, write, hrow, insertScore_of_insertable hinsert, insertAudit_scored hexists]

/-- A row that is refused fails the flush, and the session is lost. -/
theorem persistScore_refused
    (h : ∀ score, scoreRow draw deal.id configId ev = some score → ¬ Insertable db score) :
    ∃ x s, persistScore draw deal configId ev ⟨db, false, false⟩ = (.error x, s) ∧
      s.failed = true := by
  have hnone : (scoreRow draw deal.id configId ev).bind db.insertScore = none := by
    cases hrow : scoreRow draw deal.id configId ev with
    | none => rfl
    | some score => exact insertScore_of_not (h score hrow)
  unfold persistScore
  simp only [run_bind, write, hnone, run_update]
  split
  · rename_i hwrite
    split at hwrite <;> cases hwrite <;> exact ⟨_, _, rfl, rfl⟩
  · rename_i hwrite
    split at hwrite <;> cases hwrite

theorem persistScore_commits :
    Commits (persistScore draw deal configId ev) fun db _ db' =>
      ∃ score, scoreRow draw deal.id configId ev = some score ∧ Insertable db score ∧
        db' = scoredDb db deal score ev := by
  refine commits_write.bind fun _ => commits_update.bind fun _ => commits_write.bind fun _ =>
    commits_flush.weaken ?_
  rintro d₃ _ _ rfl d₂ haudit d₁ rfl d hinsert
  obtain ⟨score, hrow, hinsert⟩ := Option.bind_eq_some_iff.mp hinsert
  by_cases hok : Insertable d score
  · cases (insertScore_of_insertable hok).symm.trans hinsert
    have hexists : (d.dealById deal.id).isSome := (scoreRow_eq_some hrow).2.2.1 ▸ hok.2.1
    rw [insertAudit_scored hexists] at haudit
    exact ⟨score, hrow, hok, (Option.some.inj haudit).symm⟩
  · cases (insertScore_of_not hok).symm.trans hinsert

theorem persistScore_aborts {E : DealDb → Exn ServiceExn → DealDb → Prop} :
    Aborts (persistScore draw deal configId ev) E :=
  aborts_write.bind commits_write fun _ => aborts_update.bind commits_update fun _ =>
    aborts_write.bind commits_write fun _ => aborts_flush

theorem loadDeal_run (hdeal : db.deal dealId tenantId = some deal)
    (hstatus : deal.status = .extracted) :
    loadDeal dealId tenantId ⟨db, false, false⟩ = (.ok deal, ⟨db, false, false⟩) := by
  simp [loadDeal, hdeal, hstatus]

theorem loadActiveConfig_run (hconfig : db.activeConfig tenantId = some config) :
    loadActiveConfig tenantId ⟨db, false, false⟩ =
      (.ok (some (config, db.criteriaOf config.id)), ⟨db, false, false⟩) := by
  simp [loadActiveConfig, hconfig]

theorem loadActiveConfig_run_none (hconfig : db.activeConfig tenantId = none) :
    loadActiveConfig tenantId ⟨db, false, false⟩ = (.ok none, ⟨db, false, false⟩) := by
  simp [loadActiveConfig, hconfig]

variable [Runtime]

/-- Scoring a deal that is not EXTRACTED raises. -/
theorem scoreDeal_wrong_status
    (h : ∀ deal, db.deal dealId tenantId = some deal → deal.status ≠ .extracted) :
    ∃ x, Session.transaction (scoreDeal draw dealId tenantId) db = (.error x, db) := by
  apply Raises.transaction
  unfold Raises scoreDeal loadDeal
  cases hdeal : db.deal dealId tenantId with
  | none => simp [hdeal]
  | some deal => simp [hdeal, h deal hdeal]

theorem scoreDeal_no_config (hdeal : db.deal dealId tenantId = some deal)
    (hstatus : deal.status = .extracted) (hconfig : db.activeConfig tenantId = none) :
    Session.transaction (scoreDeal draw dealId tenantId) db = (.ok (noConfigResult dealId), db) := by
  apply transaction_ok
  simp [scoreDeal, loadDeal_run hdeal hstatus, loadActiveConfig_run_none hconfig]

/-! Once the deal and the config are found, scoring goes one of three ways. -/

theorem scoreDeal_recorded (hdeal : db.deal dealId tenantId = some deal)
    (hstatus : deal.status = .extracted) (hconfig : db.activeConfig tenantId = some config)
    (hev : evaluate (db.criteriaOf config.id) (latestFields (db.fieldsOf dealId)) = .ok ev)
    (hrow : scoreRow draw deal.id config.id ev = some score) (hinsert : Insertable db score) :
    scoreDeal draw dealId tenantId ⟨db, false, false⟩ =
      (.ok (scoredResult deal.id ev), ⟨scoredDb db deal score ev, false, false⟩) := by
  simp [scoreDeal, loadDeal_run hdeal hstatus, loadActiveConfig_run hconfig, loadExtractedFields,
    hev, Except.mapError, persistScore_ok hrow hinsert]

/-- A criterion that raises leaves the session as it was. -/
theorem scoreDeal_raised (hdeal : db.deal dealId tenantId = some deal)
    (hstatus : deal.status = .extracted) (hconfig : db.activeConfig tenantId = some config)
    (hev : evaluate (db.criteriaOf config.id) (latestFields (db.fieldsOf dealId)) = .error e) :
    scoreDeal draw dealId tenantId ⟨db, false, false⟩ =
      (.error (.raised (.builtin e)), ⟨db, false, false⟩) := by
  simp [scoreDeal, loadDeal_run hdeal hstatus, loadActiveConfig_run hconfig, loadExtractedFields,
    hev, Except.mapError]

/-- A row that is refused does not. -/
theorem scoreDeal_refused (hdeal : db.deal dealId tenantId = some deal)
    (hstatus : deal.status = .extracted) (hconfig : db.activeConfig tenantId = some config)
    (hev : evaluate (db.criteriaOf config.id) (latestFields (db.fieldsOf dealId)) = .ok ev)
    (h : ∀ score, scoreRow draw deal.id config.id ev = some score → ¬ Insertable db score) :
    ∃ x s, scoreDeal draw dealId tenantId ⟨db, false, false⟩ = (.error x, s) ∧
      s.failed = true := by
  obtain ⟨x, s, hpersist, hfailed⟩ := persistScore_refused h
  refine ⟨x, s, ?_, hfailed⟩
  simp [scoreDeal, loadDeal_run hdeal hstatus, loadActiveConfig_run hconfig, loadExtractedFields,
    hev, Except.mapError, hpersist]

/-- An evaluation whose row the database takes is committed. -/
theorem scoreDeal_ok (hdeal : db.deal dealId tenantId = some deal)
    (hstatus : deal.status = .extracted) (hconfig : db.activeConfig tenantId = some config)
    (hev : evaluate (db.criteriaOf config.id) (latestFields (db.fieldsOf dealId)) = .ok ev)
    (hrow : scoreRow draw deal.id config.id ev = some score) (hinsert : Insertable db score) :
    Session.transaction (scoreDeal draw dealId tenantId) db =
      (.ok (scoredResult deal.id ev), scoredDb db deal score ev) :=
  transaction_ok (scoreDeal_recorded hdeal hstatus hconfig hev hrow hinsert)

/-- Any other evaluation raises, and nothing is written. -/
theorem scoreDeal_raises (hdeal : db.deal dealId tenantId = some deal)
    (hstatus : deal.status = .extracted) (hconfig : db.activeConfig tenantId = some config)
    (h : ∀ ev score,
      evaluate (db.criteriaOf config.id) (latestFields (db.fieldsOf dealId)) = .ok ev →
      scoreRow draw deal.id config.id ev = some score → ¬ Insertable db score) :
    ∃ x, Session.transaction (scoreDeal draw dealId tenantId) db = (.error x, db) := by
  apply Raises.transaction
  cases hev : evaluate (db.criteriaOf config.id) (latestFields (db.fieldsOf dealId)) with
  | error e => exact ⟨_, _, scoreDeal_raised hdeal hstatus hconfig hev⟩
  | ok ev =>
    obtain ⟨x, s, hrun, -⟩ := scoreDeal_refused hdeal hstatus hconfig hev fun score => h ev score hev
    exact ⟨x, s, hrun⟩

/-- Scoring that returns has found no config, or has recorded a score. -/
theorem scoreDeal_returned {db' : DealDb} {result : ScoringResult}
    (h : Session.transaction (scoreDeal draw dealId tenantId) db = (.ok result, db')) :
    ∃ deal, db.deal dealId tenantId = some deal ∧ deal.status = .extracted ∧
      ((db.activeConfig tenantId = none ∧ result = noConfigResult dealId ∧ db' = db) ∨
        ∃ config ev score, db.activeConfig tenantId = some config ∧
          evaluate (db.criteriaOf config.id) (latestFields (db.fieldsOf dealId)) = .ok ev ∧
          scoreRow draw deal.id config.id ev = some score ∧ Insertable db score ∧
          result = scoredResult deal.id ev ∧ db' = scoredDb db deal score ev) := by
  have hraises : ¬ ∃ x, Session.transaction (scoreDeal draw dealId tenantId) db = (.error x, db) := by
    rintro ⟨x, hx⟩
    cases hx.symm.trans h
  have hdeal : ∃ deal, db.deal dealId tenantId = some deal ∧ deal.status = .extracted := by
    by_contra hnone
    exact hraises (scoreDeal_wrong_status fun deal hdeal hstatus => hnone ⟨deal, hdeal, hstatus⟩)
  obtain ⟨deal, hdeal, hstatus⟩ := hdeal
  refine ⟨deal, hdeal, hstatus, ?_⟩
  cases hconfig : db.activeConfig tenantId with
  | none =>
    cases (scoreDeal_no_config hdeal hstatus hconfig).symm.trans h
    exact .inl ⟨rfl, rfl, rfl⟩
  | some config =>
    by_cases hok : ∃ ev score,
        evaluate (db.criteriaOf config.id) (latestFields (db.fieldsOf dealId)) = .ok ev ∧
          scoreRow draw deal.id config.id ev = some score ∧ Insertable db score
    · obtain ⟨ev, score, hev, hrow, hinsert⟩ := hok
      cases (scoreDeal_ok hdeal hstatus hconfig hev hrow hinsert).symm.trans h
      exact .inr ⟨config, ev, score, rfl, hev, hrow, hinsert, rfl, rfl⟩
    · exact absurd (scoreDeal_raises hdeal hstatus hconfig fun ev score hev hrow hinsert =>
        hok ⟨ev, score, hev, hrow, hinsert⟩) hraises

end

end ScoringService
