-- SUMMARY: Which criteria the scoring of a deal survives: evaluation, score and rationale fail for a single criterion or not at all.
import DealScreening.Api.Criteria
import DealScreening.Services.ExtractionService

/-!
# Scorable criteria

Nothing isolates one criterion from the others: a target text that cannot be
decoded, a number out of range, or a weight that is no number makes the scoring
of the deal raise, and so does a target that the rationale cannot hold.
-/

namespace ScoringService

open Python CriteriaEvaluator

/-! ## Score and rationale -/

section
variable {results : List CriterionEvalResult}

theorem exactSum_isSome {weights : List Float} (h : ∀ w ∈ weights, (toRat w).isSome) :
    (exactSum weights).isSome := by
  unfold exactSum
  rw [Option.isSome_map]
  induction weights with
  | nil => rfl
  | cons w weights ih =>
    rw [List.forall_mem_cons] at h
    obtain ⟨q, hq⟩ := Option.isSome_iff_exists.mp h.1
    obtain ⟨qs, hqs⟩ := Option.isSome_iff_exists.mp (ih h.2)
    simp [List.mapM_cons, hq, hqs]

/-- The score of results whose weights are numbers. -/
theorem computeScore_ok (h : ∀ r ∈ results, (toRat r.weight).isSome) :
    ∃ score, computeScore results = .ok score := by
  have hsum : ∀ p : CriterionEvalResult → Bool,
      (exactSum ((results.filter p).map (·.weight))).isSome := by
    intro p
    apply exactSum_isSome
    intro w hw
    obtain ⟨r, hr, rfl⟩ := List.mem_map.mp hw
    exact h r (List.mem_of_mem_filter hr)
  obtain ⟨total, htotal⟩ := Option.isSome_iff_exists.mp (hsum fun r => !r.skipped)
  obtain ⟨matched, hmatched⟩ := Option.isSome_iff_exists.mp (hsum fun r => !r.skipped && r.matched)
  unfold computeScore totalWeight matchedWeight
  rw [htotal, hmatched]
  dsimp only
  split_ifs <;> exact ⟨_, rfl⟩

theorem storable_join {sep : Str} {parts : List Str} (hsep : Storable sep) :
    Storable (Str.join sep parts) ↔ ∀ p ∈ parts, Storable p := by
  unfold Str.join
  induction parts with
  | nil => simp [List.intercalate, Storable]
  | cons p parts ih =>
    cases parts with
    | nil => simp [List.intercalate]
    | cons q parts =>
      rw [List.intercalate_cons_cons, List.forall_mem_cons, ← ih]
      simp [hsep]

theorem storable_rationaleSection {heading bullet : String} (hheading : Storable (text heading))
    (hbullet : Storable (text bullet)) :
    (∀ line ∈ rationaleSection heading bullet results, Storable line) ↔
      ∀ r ∈ results, Storable r.detail := by
  unfold rationaleSection
  split
  · rename_i hnil
    simp [hnil]
  · have hempty : Storable ([] : Str) := nofun
    rw [List.forall_mem_append, List.forall_mem_cons, List.forall_mem_map]
    simp [hheading, hbullet, hempty]

/-- Every result is cited in one of the four parts, so the rationale can be stored
    exactly when each detail can. -/
theorem storable_generateRationale {score : Int} {confidence : ConfidenceLevel} :
    Storable (generateRationale results score confidence) ↔ ∀ r ∈ results, Storable r.detail := by
  unfold generateRationale
  split
  · rename_i hnil
    rw [hnil]
    simp only [List.not_mem_nil, false_implies, implies_true, iff_true]
    decide
  · rw [storable_join (by decide)]
    unfold rationaleLines
    have hscore := (clean_ofInt score).storable
    have hvalue : Storable (text confidence.value) := by cases confidence <;> decide
    have hfirst : Storable (text "Deal scored " ++ Str.ofInt score ++ text "/100 (confidence: " ++
        text confidence.value ++ text ").
") := by
      simp only [storable_append]
      exact ⟨⟨⟨⟨by decide, hscore⟩, by decide⟩, hvalue⟩, by decide⟩
    simp only [List.forall_mem_append, List.forall_mem_singleton, hfirst, true_and]
    rw [storable_rationaleSection (by decide) (by decide),
      storable_rationaleSection (by decide) (by decide),
      storable_rationaleSection (by decide) (by decide),
      storable_rationaleSection (by decide) (by decide)]
    simp only [List.mem_filter]
    constructor
    · rintro ⟨⟨⟨hfails, hmatched⟩, hunmatched⟩, hskipped⟩ r hr
      by_cases hskip : r.skipped = true
      · exact hskipped r ⟨hr, hskip⟩
      by_cases hmatch : r.matched = true
      · exact hmatched r ⟨hr, hmatch⟩
      by_cases htype : r.criterionType = .dealbreaker
      · exact hfails r ⟨hr, by simp [dealbreakerFails, *]⟩
      · exact hunmatched r ⟨hr, by simp [*]⟩
    · intro h
      exact ⟨⟨⟨fun r hr => h r hr.1, fun r hr => h r hr.1⟩, fun r hr => h r hr.1⟩,
        fun r hr => h r hr.1⟩

end

/-! ## Evaluation -/

section
variable [Runtime] {fields : FieldsMap} {criterion : Criterion} {criteria : List Criterion}
  {r : CriterionEvalResult} {results : List CriterionEvalResult}

/-- The value a criterion is evaluated on, if it is not skipped. -/
def evaluatedValue (fields : FieldsMap) (criterion : Criterion) : Option PgText :=
  match getItem fields criterion.fieldName with
  | none => none
  | some field => if field.fieldStatus = .missing then none else field.fieldValue

theorem evaluateField_skip (h : evaluatedValue fields criterion = none) :
    ∃ detail, Storable detail ∧ evaluateField fields criterion =
      .ok { criterionLabel := criterion.label.val, fieldName := criterion.fieldName.val,
            criterionType := criterion.criterionType, matched := false,
            weight := criterion.weight, detail, skipped := true } := by
  unfold evaluateField
  unfold evaluatedValue at h
  have hname := criterion.fieldName.storable
  cases hfield : getItem fields criterion.fieldName with
  | none =>
    refine ⟨unavailableDetail criterion.fieldName.val, ?_, rfl⟩
    simp only [unavailableDetail, storable_append]
    exact ⟨⟨by decide, hname⟩, by decide⟩
  | some field =>
    simp only [hfield] at h
    refine ⟨missingDetail criterion.fieldName.val, ?_, ?_⟩
    · simp only [missingDetail, storable_append]
      exact ⟨⟨by decide, hname⟩, by decide⟩
    · apply evaluateCriterion_skip
      split at h
      · exact .inl ‹_›
      · exact .inr (by rw [h]; rfl)

theorem evaluateField_value {value : PgText} (h : evaluatedValue fields criterion = some value) :
    evaluateField fields criterion = .ok r ↔
      ∃ target matched shown, Json.loads criterion.targetValue.val = .ok target ∧
        applyOperator value.val criterion.operator.val target = .ok matched ∧
        target.toStr = .ok shown ∧
        r = { criterionLabel := criterion.label.val, fieldName := criterion.fieldName.val,
              criterionType := criterion.criterionType, matched, weight := criterion.weight,
              detail := evaluatedDetail matched criterion.fieldName.val value.val
                criterion.operator.val criterion.label.val shown,
              skipped := false } := by
  unfold evaluateField
  unfold evaluatedValue at h
  cases hfield : getItem fields criterion.fieldName with
  | none =>
    rw [hfield] at h
    cases h
  | some field =>
    simp only [hfield] at h
    split at h
    · cases h
    · rename_i hstatus
      simp only [h]
      exact evaluateCriterion_value hstatus

/-- The target can be decoded, compared with the value, and shown in a text the
    database stores. -/
def ScorableOn (value operator targetValueJson : Str) : Prop :=
  ∃ target, Json.loads targetValueJson = .ok target ∧ Comparable value operator target ∧
    Json.reprCalls target ≤ Runtime.reprDepth ∧ ∀ s, target = .str s → Storable s

theorem storable_shown {target : Json} {shown : Str} (h : target.toStr = .ok shown) :
    Storable shown ↔ ∀ s, target = .str s → Storable s := by
  obtain ⟨-, ⟨s, rfl, rfl⟩ | ⟨hother, rfl⟩⟩ := Json.toStr_eq_ok.mp h
  · simp
  · exact ⟨fun _ s hs => absurd hs (hother s), fun _ => (Json.clean_repr target).storable⟩

omit [Runtime] in
theorem storable_evaluatedDetail {matched : Bool} {fieldName value operator label : PgText}
    {shown : Str} :
    Storable (evaluatedDetail matched fieldName.val value.val operator.val label.val shown) ↔
      Storable shown := by
  have hname := fieldName.storable
  have hvalue := value.storable
  have hoperator := operator.storable
  have hlabel := label.storable
  have hblank : Storable (text " ") := by decide
  have hquote : Storable (text "'") := by decide
  have hmatched : Storable (text "' matched: ") := by decide
  have hnot : Storable (text "' not matched: ") := by decide
  have heq : Storable (text "=") := by decide
  have hexpected : Storable (text ", expected ") := by decide
  unfold evaluatedDetail
  split <;> simp [*]

/-- A criterion gives a result that can be stored exactly when it is skipped or its
    target suits the value. -/
theorem evaluateField_storable_iff :
    (∃ r, evaluateField fields criterion = .ok r ∧ Storable r.detail) ↔
      ∀ value, evaluatedValue fields criterion = some value →
        ScorableOn value.val criterion.operator.val criterion.targetValue.val := by
  cases hvalue : evaluatedValue fields criterion with
  | none =>
    obtain ⟨detail, hdetail, heval⟩ := evaluateField_skip hvalue
    rw [heval]
    simpa using hdetail
  | some value =>
    simp only [Option.some.injEq, forall_eq']
    constructor
    · rintro ⟨r, hr, hstorable⟩
      obtain ⟨target, matched, shown, hload, hmatched, hshown, rfl⟩ :=
        (evaluateField_value hvalue).mp hr
      have hfits := (Json.toStr_eq_ok.mp hshown).1
      have hcomparable := (applyOperator_ok_iff hfits).mp ⟨matched, hmatched⟩
      have htext := (storable_shown hshown).mp (storable_evaluatedDetail.mp hstorable)
      exact ⟨target, hload, hcomparable, hfits, htext⟩
    · rintro ⟨target, hload, hcomparable, hfits, htext⟩
      obtain ⟨matched, hmatched⟩ := (applyOperator_ok_iff hfits).mpr hcomparable
      obtain ⟨shown, hshown⟩ := toStr_ok hfits
      refine ⟨_, (evaluateField_value hvalue).mpr
        ⟨target, matched, shown, hload, hmatched, hshown, rfl⟩, ?_⟩
      exact storable_evaluatedDetail.mpr ((storable_shown hshown).mpr htext)

/-- What a result says of its criterion. -/
structure ResultOf (fields : FieldsMap) (criterion : Criterion) (r : CriterionEvalResult) : Prop where
  criterionLabel : r.criterionLabel = criterion.label.val
  fieldName : r.fieldName = criterion.fieldName.val
  criterionType : r.criterionType = criterion.criterionType
  weight : r.weight = criterion.weight
  skipped : r.skipped = true ↔ evaluatedValue fields criterion = none
  unmatched : r.skipped = true → r.matched = false

theorem evaluateField_resultOf (h : evaluateField fields criterion = .ok r) :
    ResultOf fields criterion r := by
  cases hvalue : evaluatedValue fields criterion with
  | none =>
    obtain ⟨detail, -, heval⟩ := evaluateField_skip hvalue
    rw [heval] at h
    cases h
    exact ⟨rfl, rfl, rfl, rfl, iff_of_true rfl hvalue, fun _ => rfl⟩
  | some value =>
    obtain ⟨-, -, -, -, -, -, rfl⟩ := (evaluateField_value hvalue).mp h
    exact ⟨rfl, rfl, rfl, rfl, by simp [hvalue], fun h => (nomatch h)⟩

theorem evaluateField_weight (h : evaluateField fields criterion = .ok r) :
    r.weight = criterion.weight := (evaluateField_resultOf h).weight

/-- One result for each criterion, in their order. -/
theorem evaluateAllCriteria_results (h : evaluateAllCriteria criteria fields = .ok results) :
    List.Forall₂ (ResultOf fields) criteria results :=
  (Except.mapM_eq_ok.mp h).imp fun _ _ => evaluateField_resultOf

theorem evaluateAllCriteria_length (h : evaluateAllCriteria criteria fields = .ok results) :
    results.length = criteria.length := (evaluateAllCriteria_results h).length_eq.symm

end

/-! ## The record of a score -/

section
variable [Runtime] {db : DealDb} {draw : ScoreDraw} {dealId tenantId : Uuid} {deal : Deal}
  {config : CriteriaConfig} {criteria : List Criterion} {fields : FieldsMap}

/-- The weight is a number, and if the criterion is evaluated its target suits the
    value. -/
def CriterionScorable (fields : FieldsMap) (criterion : Criterion) : Prop :=
  criterion.weight.isNaN = false ∧ ∀ value, evaluatedValue fields criterion = some value →
    ScorableOn value.val criterion.operator.val criterion.targetValue.val

theorem evaluate_eq_ok {ev : Evaluation} (h : evaluate criteria fields = .ok ev) :
    evaluateAllCriteria criteria fields = .ok ev.results ∧
      ev.rationale = generateRationale ev.results ev.score ev.confidence := by
  obtain ⟨results, hresults, h⟩ := Except.bind_eq_ok.mp h
  obtain ⟨score, -, h⟩ := Except.bind_eq_ok.mp h
  cases h
  exact ⟨hresults, rfl⟩

/-- A score can be recorded exactly when every single criterion is scorable. -/
theorem recordable_iff (fields : FieldsMap)
    (hweight : ∀ c ∈ criteria, (toRat c.weight).isSome ↔ c.weight.isNaN = false)
    (hfresh : db.scoreById draw.scoreId = none) (hdeal : (db.dealById dealId).isSome)
    (hconfig : (db.configById config.id).isSome) :
    (∃ ev score, evaluate criteria fields = .ok ev ∧
        scoreRow draw dealId config.id ev = some score ∧ Insertable db score) ↔
      ∀ c ∈ criteria, CriterionScorable fields c := by
  constructor
  · rintro ⟨ev, score, hev, hrow, -, -, -, hvalid⟩ c hc
    obtain ⟨hresults, hrationale⟩ := evaluate_eq_ok hev
    obtain ⟨hstorable, -, -, -, hscore⟩ := scoreRow_eq_some hrow
    rw [hrationale, storable_generateRationale] at hstorable
    obtain ⟨r, hr, hfield⟩ := Except.mapM_ok_left hresults hc
    have hnumber : (toRat r.weight).isSome := by
      rw [hscore, List.all_map, List.all_eq_true] at hvalid
      exact hvalid r hr
    rw [evaluateField_weight hfield] at hnumber
    exact ⟨(hweight c hc).mp hnumber, evaluateField_storable_iff.mp ⟨r, hfield, hstorable r hr⟩⟩
  · intro h
    have hfields : ∀ c ∈ criteria, ∃ r, evaluateField fields c = .ok r ∧ Storable r.detail :=
      fun c hc => evaluateField_storable_iff.mpr (h c hc).2
    obtain ⟨results, hresults⟩ := Except.mapM_isOk_iff.mpr fun c hc =>
      (hfields c hc).imp fun _ hr => hr.1
    have hall : ∀ r ∈ results, (toRat r.weight).isSome ∧ Storable r.detail := by
      intro r hr
      obtain ⟨c, hc, hfield⟩ := Except.mapM_ok_right hresults hr
      obtain ⟨r', hfield', hstorable⟩ := hfields c hc
      cases hfield.symm.trans hfield'
      rw [evaluateField_weight hfield]
      exact ⟨(hweight c hc).mpr (h c hc).1, hstorable⟩
    obtain ⟨score, hscore⟩ := computeScore_ok fun r hr => (hall r hr).1
    have hev : evaluate criteria fields =
        .ok { results, score, confidence := computeScoringConfidence results fields,
              rationale := generateRationale results score
                (computeScoringConfidence results fields) } := by
      unfold evaluate evaluateAllCriteria
      rw [hresults]
      simp only [bind, Except.bind, hscore]
      rfl
    have hstorable : Storable (generateRationale results score
        (computeScoringConfidence results fields)) :=
      storable_generateRationale.mpr fun r hr => (hall r hr).2
    have hrow : ∃ row, scoreRow draw dealId config.id
        { results, score, confidence := computeScoringConfidence results fields,
          rationale := generateRationale results score (computeScoringConfidence results fields) } =
          some row := by
      unfold scoreRow
      rw [PgText.ofStr, dif_pos hstorable]
      exact ⟨_, rfl⟩
    obtain ⟨row, hrow⟩ := hrow
    obtain ⟨-, hid, hdealId, hconfigId, hresultsRow⟩ := scoreRow_eq_some hrow
    refine ⟨_, row, hev, hrow, ?_, ?_, ?_, ?_⟩
    · rw [hid, hfresh]
      rfl
    · rw [hdealId]
      exact hdeal
    · rw [hconfigId]
      exact hconfig
    · rw [hresultsRow, List.all_map, List.all_eq_true]
      exact fun r hr => (hall r hr).1

/-- Every criterion gives a result. -/
def EveryCriterionEvaluated (criteria : List Criterion) (fields : FieldsMap) : Prop :=
  ∃ results, evaluateAllCriteria criteria fields = .ok results ∧ results.length = criteria.length

/-- `score_deal` commits one more score, of this deal. -/
def PersistsScore (draw : ScoreDraw) (dealId tenantId : Uuid) (db : DealDb) : Prop :=
  ∃ result db' score, Session.transaction (scoreDeal draw dealId tenantId) db = (.ok result, db') ∧
    result.success = true ∧ db'.dealScores = db.dealScores ++ [score] ∧ score.dealId = dealId

omit [Runtime] in
/-- The weights of stored criteria are numbers or `NaN`. -/
theorem stored_weight {configId : Uuid} {body : CriteriaConfigCreateSchema}
    (hbody : body.criteria.mapM (CriteriaApi.criterionRow configId) = some criteria)
    (c : Criterion) (hc : c ∈ criteria) : (toRat c.weight).isSome ↔ c.weight.isNaN = false := by
  obtain ⟨schema, -, hrow⟩ := Option.mapM_mem hbody hc
  rw [CriteriaApi.criterionRow_weight hrow, ← Option.ne_none_iff_isSome, ne_eq,
    toRat_eq_none_iff schema.weight_ge schema.weight_le, Bool.not_eq_true]

omit [Runtime] in
theorem configById_activeConfig (h : db.activeConfig tenantId = some config) :
    (db.configById config.id).isSome := by
  have hmem := List.mem_of_mem_filter (List.mem_of_mem_filter (Table.latest_mem h))
  obtain ⟨c, hc⟩ := Table.lookup_isSome_of_mem CriteriaConfig.id hmem
  simp [DealDb.configById, hc]

/-- An accepted config scores an extracted deal exactly when each of its criteria
    is scorable on the fields of the deal. -/
theorem score_persisted_iff (body : CriteriaConfigCreateSchema)
    (hdeal : db.deal dealId tenantId = some deal) (hstatus : deal.status = .extracted)
    (hconfig : db.activeConfig tenantId = some config)
    (hbody : body.criteria.mapM (CriteriaApi.criterionRow config.id) =
      some (db.criteriaOf config.id))
    (hfresh : db.scoreById draw.scoreId = none) :
    EveryCriterionEvaluated (db.criteriaOf config.id) (latestFields (db.fieldsOf dealId)) ∧
        PersistsScore draw dealId tenantId db ↔
      ∀ c ∈ db.criteriaOf config.id, CriterionScorable (latestFields (db.fieldsOf dealId)) c := by
  have hrecordable := recordable_iff (latestFields (db.fieldsOf dealId))
    (stored_weight hbody) hfresh (DealDb.dealById_isSome hdeal) (configById_activeConfig hconfig)
  rw [← hrecordable]
  constructor
  · rintro ⟨-, result, db', score, hrun, -, -, -⟩
    obtain ⟨deal', hdeal', -, ⟨hnone, -⟩ | ⟨config', ev, score', hconfig', hev, hrow, hinsert, -⟩⟩ :=
      scoreDeal_returned hrun
    · cases hnone.symm.trans hconfig
    · cases hdeal.symm.trans hdeal'
      cases hconfig.symm.trans hconfig'
      exact ⟨ev, score', hev, hrow, hinsert⟩
  · rintro ⟨ev, score, hev, hrow, hinsert⟩
    have hresults := (evaluate_eq_ok hev).1
    refine ⟨⟨ev.results, hresults, evaluateAllCriteria_length hresults⟩, ?_⟩
    refine ⟨_, _, score, scoreDeal_ok hdeal hstatus hconfig hev hrow hinsert, rfl, rfl, ?_⟩
    rw [(scoreRow_eq_some hrow).2.2.1]
    exact (DealDb.deal_key hdeal).1

end

/-! ## Two configs -/

/-- One criterion on the revenue. -/
def sampleBody (targetValue : String) : CriteriaConfigCreateSchema where
  name := "Default"
  criteria :=
    [{ fieldName := "revenue", criterionType := .mustHave, operator := "gt", targetValue,
       weight := 1.0, label := "Revenue", operator_valid := by decide, weight_ge := by decide,
       weight_le := by decide }]
  name_length := by decide
  criteria_length := by simp

/-- The tenant of a deal configures the criterion, then the deal is extracted. -/
def sampleDb (targetValue : String) : DealDb :=
  letI := asciiRuntime
  let uploaded := { DealDb.empty with deals := [ExtractionService.sampleDeal] }
  let configured := (Session.transaction
    (CriteriaApi.createCriteriaConfig ⟨3, fun _ => 4, 0⟩ 2 (sampleBody targetValue)) uploaded).2
  (Session.transaction (ExtractionService.extractDeal ExtractionService.sampleWorld 1 2) configured).2

/-- The deal and the config as the two transactions leave them. -/
def SampleState (db : DealDb) (targetValue : String) : Prop :=
  db.deal 1 2 = some (ExtractionService.sampleDeal.setStatus .extracted) ∧
    db.activeConfig 2 = some ⟨3, 2, 1, true, .ofLiteral "Default" (by decide)⟩ ∧
    (sampleBody targetValue).criteria.mapM (CriteriaApi.criterionRow 3) = some (db.criteriaOf 3) ∧
    db.scoreById 5 = none

instance (db : DealDb) (targetValue : String) : Decidable (SampleState db targetValue) :=
  inferInstanceAs (Decidable (_ ∧ _ ∧ _ ∧ _))

theorem score_persisted_iff_number :
    letI := asciiRuntime
    EveryCriterionEvaluated ((sampleDb "1000").criteriaOf 3)
        (latestFields ((sampleDb "1000").fieldsOf 1)) ∧
      PersistsScore ⟨5, 0⟩ 1 2 (sampleDb "1000") := by
  let _ := asciiRuntime
  obtain ⟨⟨hdeal, hconfig, hbody, hfresh⟩, hcriteria⟩ : SampleState (sampleDb "1000") "1000" ∧
      (sampleDb "1000").criteriaOf 3 =
        [⟨3, .ofLiteral "revenue" (by decide), .mustHave, .ofLiteral "gt" (by decide),
          .ofLiteral "1000" (by decide), 1.0, .ofLiteral "Revenue" (by decide)⟩] := by
    decide +kernel
  generalize sampleDb "1000" = db at *
  refine (score_persisted_iff (sampleBody "1000") hdeal rfl hconfig hbody hfresh).mpr ?_
  rw [hcriteria, List.forall_mem_singleton]
  refine ⟨by decide, fun value _ => ⟨.int 1000, rfl, ?_, Nat.zero_le _, nofun⟩⟩
  rintro - - n ⟨⟩
  decide

/-- The target is written without the quotes of a JSON string. -/
theorem unquoted_target_fails :
    ¬ ∀ (_ : Runtime) (db : DealDb) (draw : ScoreDraw) (dealId tenantId : Uuid) (deal : Deal)
        (config : CriteriaConfig) (body : CriteriaConfigCreateSchema),
      db.deal dealId tenantId = some deal → deal.status = .extracted →
      db.activeConfig tenantId = some config →
      body.criteria.mapM (CriteriaApi.criterionRow config.id) = some (db.criteriaOf config.id) →
      db.scoreById draw.scoreId = none →
      EveryCriterionEvaluated (db.criteriaOf config.id) (latestFields (db.fieldsOf dealId)) ∧
        PersistsScore draw dealId tenantId db := by
  intro h
  obtain ⟨⟨hdeal, hconfig, hbody, hfresh⟩, hraises⟩ :
      SampleState (sampleDb "healthcare") "healthcare" ∧
        (@evaluateAllCriteria asciiRuntime ((sampleDb "healthcare").criteriaOf 3)
          (latestFields ((sampleDb "healthcare").fieldsOf 1))).isOk = false := by
    decide +kernel
  obtain ⟨⟨results, hresults, -⟩, -⟩ := h asciiRuntime (sampleDb "healthcare") ⟨5, 0⟩ 1 2 _ _
    (sampleBody "healthcare") hdeal rfl hconfig hbody hfresh
  rw [hresults] at hraises
  cases hraises

end ScoringService
