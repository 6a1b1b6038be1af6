-- SUMMARY: The confidence of a score: what it depends on, what a field that goes missing does to it, and how it compares with the confidence of the extraction.
import DealScreening.Services.Scorable
import DealScreening.Services.ExtractionOutcome
import Mathlib.Data.List.Nodup

/-!
# Confidence

The confidence of a score depends on how many criteria were evaluated, and, when all of
them were, on whether every field that was found is HIGH. The extraction has a rule of its
own over the same fields. Neither rule looks at the other.
-/

/-- The order `NONE < LOW < MEDIUM < HIGH`. -/
def ConfidenceLevel.rank : ConfidenceLevel → Nat
  | .none => 0
  | .low => 1
  | .medium => 2
  | .high => 3

namespace ScoringService

open Python CriteriaEvaluator ExtractionService

-- ---------------------------------------------------------------------------
-- What it depends on
-- ---------------------------------------------------------------------------

/-- Every field that is not MISSING has HIGH confidence. -/
def allHigh (fields : FieldsMap) : Bool :=
  ((fields.map Prod.snd).filter fun f => f.fieldStatus ≠ .missing).all fun f => f.confidence = .high

/-- The confidence of so many criteria of which so many were skipped. -/
def confidenceOf (total skipped : Nat) (high : Bool) : ConfidenceLevel :=
  if total ≤ skipped then .none
  else if skipped = 0 then (if high then .high else .medium)
  else if 4 * skipped ≤ total then .medium
  else if 2 * skipped ≤ total then .low
  else .none

/-- The criteria that have no value to be evaluated on. -/
def unevaluated (criteria : List Criterion) (fields : FieldsMap) : Nat :=
  criteria.countP fun c => (evaluatedValue fields c).isNone

section
variable {results : List CriterionEvalResult} {fields : FieldsMap} {total skipped : Nat} {high : Bool}

theorem allHigh_iff : allHigh fields = true ↔
    ∀ entry ∈ fields, entry.2.fieldStatus ≠ .missing → entry.2.confidence = .high := by
  simp only [allHigh, List.all_eq_true, List.mem_filter, List.mem_map, decide_eq_true_eq]
  constructor
  · exact fun h entry hentry hstatus => h entry.2 ⟨⟨entry, hentry, rfl⟩, hstatus⟩
  · rintro h _ ⟨⟨entry, hentry, rfl⟩, hstatus⟩
    exact h entry hentry hstatus

/-- The ratio of the source against its thresholds. -/
theorem ratio_thresholds (hpos : 0 < total) (hle : skipped ≤ total) :
    (((total - skipped : Nat) : ℚ) / total = 1 ↔ skipped = 0) ∧
      (3 / 4 ≤ ((total - skipped : Nat) : ℚ) / total ↔ 4 * skipped ≤ total) ∧
      (1 / 2 ≤ ((total - skipped : Nat) : ℚ) / total ↔ 2 * skipped ≤ total) := by
  have htotal : (0 : ℚ) < total := Nat.cast_pos.mpr hpos
  rw [div_eq_one_iff_eq htotal.ne', le_div_iff₀ htotal, le_div_iff₀ htotal, Nat.cast_sub hle]
  refine ⟨?_, ?_, ?_⟩
  · rw [sub_eq_self, Nat.cast_eq_zero]
  · rw [← Nat.cast_le (α := ℚ)]
    push_cast
    constructor <;> intro h <;> linarith
  · rw [← Nat.cast_le (α := ℚ)]
    push_cast
    constructor <;> intro h <;> linarith

theorem computeScoringConfidence_eq : computeScoringConfidence results fields =
    confidenceOf results.length (results.countP (·.skipped)) (allHigh fields) := by
  unfold computeScoringConfidence confidenceOf
  have hle : results.countP (·.skipped) ≤ results.length := List.countP_le_length
  by_cases hnil : results = []
  · rw [if_pos hnil, if_pos (by simp [hnil])]
  have hpos : 0 < results.length := List.length_pos_iff.mpr hnil
  obtain ⟨hall, hmost, hhalf⟩ := ratio_thresholds hpos hle
  dsimp only
  rw [if_neg hnil]
  simp only [hall, hmost, hhalf, Nat.sub_eq_zero_iff_le, allHigh]
  congr

end

section
variable {total skipped : Nat} {high : Bool}

theorem rank_le_three (confidence : ConfidenceLevel) : confidence.rank ≤ 3 := by
  cases confidence <;> decide

theorem confidenceOf_le_medium (hpos : 0 < total) :
    (confidenceOf total skipped high).rank ≤ 2 ↔ skipped ≠ 0 ∨ high = false := by
  unfold confidenceOf
  cases high <;> split_ifs <;> simp only [ConfidenceLevel.rank] <;> grind

theorem confidenceOf_le_low (hpos : 0 < total) :
    (confidenceOf total skipped high).rank ≤ 1 ↔ total < 4 * skipped := by
  unfold confidenceOf
  split_ifs <;> simp only [ConfidenceLevel.rank] <;> omega

end

section
variable [Runtime] {criteria : List Criterion} {fields : FieldsMap}
  {results : List CriterionEvalResult}

/-- The confidence of the criteria on the fields. -/
theorem evaluated_confidence (h : evaluateAllCriteria criteria fields = .ok results) :
    computeScoringConfidence results fields =
      confidenceOf criteria.length (unevaluated criteria fields) (allHigh fields) := by
  have hskipped : criteria.countP (fun c => (evaluatedValue fields c).isNone) =
      results.countP (·.skipped) := by
    refine (evaluateAllCriteria_results h).countP_eq fun c r hr => ?_
    rw [Bool.eq_iff_iff, hr.skipped, Option.isNone_iff_eq_none]
  rw [computeScoringConfidence_eq, evaluateAllCriteria_length h, unevaluated, hskipped]

end

-- ---------------------------------------------------------------------------
-- A field that goes missing
-- ---------------------------------------------------------------------------

/-- The fields with one of them MISSING. -/
def withMissing (fields : FieldsMap) (name : PgText) : FieldsMap :=
  fields.map fun entry =>
    if entry.1 = name then
      (entry.1, { entry.2 with fieldStatus := .missing, fieldValue := none })
    else entry

section
variable {fields : FieldsMap} {criteria : List Criterion} {criterion : Criterion} {name : PgText}
  {total skipped skipped' : Nat} {high high' : Bool}

theorem getItem_withMissing (other : PgText) :
    getItem (withMissing fields name) other =
      if other = name then (getItem fields other).map fun field =>
        { field with fieldStatus := .missing, fieldValue := none }
      else getItem fields other := by
  have hkey : (fun entry : PgText × ExtractedField => decide (entry.1 = other)) ∘ (fun entry =>
      if entry.1 = name then
        (entry.1, { entry.2 with fieldStatus := .missing, fieldValue := none })
      else entry) = fun entry => decide (entry.1 = other) := by
    funext entry
    dsimp only [Function.comp]
    split <;> rfl
  unfold getItem withMissing
  rw [List.find?_map, hkey]
  cases hfind : fields.find? fun entry => entry.1 = other with
  | none => simp
  | some entry =>
    have hother : entry.1 = other := by simpa using List.find?_some hfind
    by_cases hname : other = name <;> simp [hother, hname]

theorem evaluatedValue_withMissing : evaluatedValue (withMissing fields name) criterion =
    if criterion.fieldName = name then none else evaluatedValue fields criterion := by
  unfold evaluatedValue
  rw [getItem_withMissing]
  by_cases hname : criterion.fieldName = name
  · rw [if_pos hname, if_pos hname]
    cases getItem fields criterion.fieldName <;> simp
  · rw [if_neg hname, if_neg hname]

theorem unevaluated_withMissing : unevaluated criteria fields ≤
    unevaluated criteria (withMissing fields name) := by
  refine List.countP_mono_left fun c _ hc => ?_
  rw [evaluatedValue_withMissing]
  split
  · rfl
  · exact hc

theorem unevaluated_withMissing_eq_zero : unevaluated criteria (withMissing fields name) = 0 ↔
    ∀ c ∈ criteria, c.fieldName ≠ name ∧ evaluatedValue fields c ≠ none := by
  simp only [unevaluated, List.countP_eq_zero, evaluatedValue_withMissing]
  refine forall₂_congr fun c _ => ?_
  by_cases hname : c.fieldName = name <;> simp [hname, Option.isNone_iff_eq_none]

theorem allHigh_withMissing : allHigh (withMissing fields name) = true ↔
    ∀ entry ∈ fields, entry.1 ≠ name → entry.2.fieldStatus ≠ .missing → entry.2.confidence = .high := by
  rw [allHigh_iff, withMissing, List.forall_mem_map]
  refine forall₂_congr fun entry _ => ?_
  by_cases hname : entry.1 = name <;> simp [hname]

/-- With no more evaluated the confidence can only rise when the fields become HIGH. -/
theorem confidenceOf_le_iff (hle : skipped ≤ skipped') (hhigh : high = true → high' = true) :
    (confidenceOf total skipped' high').rank ≤ (confidenceOf total skipped high).rank ↔
      ¬ (total ≠ 0 ∧ skipped' = 0 ∧ high' = true ∧ high = false) := by
  unfold confidenceOf
  by_cases hzero : skipped' = 0
  · obtain rfl : skipped = 0 := by omega
    subst hzero
    cases high <;> cases high' <;> by_cases htotal : total = 0 <;>
      simp [htotal, ConfidenceLevel.rank] at hhigh ⊢
  · -- Neither is HIGH now, and the thresholds are passed in their order.
    simp only [hzero, false_and, and_false, not_false_eq_true, iff_true, if_false]
    split_ifs <;> simp only [ConfidenceLevel.rank] <;> omega

end

section
variable [Runtime] {criteria : List Criterion} {fields : FieldsMap} {name : PgText}
  {field : ExtractedField} {results : List CriterionEvalResult}

/-- Criteria that can be evaluated can still be when a field is MISSING. -/
theorem evaluateAllCriteria_withMissing (h : evaluateAllCriteria criteria fields = .ok results)
    (name : PgText) : ∃ results', evaluateAllCriteria criteria (withMissing fields name) = .ok results' := by
  refine Except.mapM_isOk_iff.mpr fun c hc => ?_
  by_cases hname : c.fieldName = name
  · have hmissing : evaluatedValue (withMissing fields name) c = none := by
      rw [evaluatedValue_withMissing, if_pos hname]
    obtain ⟨detail, -, hskip⟩ := evaluateField_skip hmissing
    exact ⟨_, hskip⟩
  · obtain ⟨r, -, hr⟩ := Except.mapM_ok_left h hc
    refine ⟨r, ?_⟩
    rw [← hr, evaluateField, evaluateField, getItem_withMissing, if_neg hname]

/-- The other fields are HIGH, this one is not, and no criterion needs it. -/
def OnlyUncertain (criteria : List Criterion) (fields : FieldsMap) (name : PgText)
    (field : ExtractedField) : Prop :=
  criteria ≠ [] ∧ (∀ c ∈ criteria, c.fieldName ≠ name ∧ evaluatedValue fields c ≠ none) ∧
    field.confidence ≠ .high ∧
    ∀ entry ∈ fields, entry.1 ≠ name → entry.2.fieldStatus ≠ .missing → entry.2.confidence = .high

/-- A field that goes missing does not raise the confidence, unless it was the only one
    that kept it from being HIGH. -/
theorem missing_lowers_iff (h : evaluateAllCriteria criteria fields = .ok results)
    (hnames : (fields.map Prod.fst).Nodup) (hfield : (name, field) ∈ fields)
    (hfound : field.fieldStatus ≠ .missing) :
    (∃ results', evaluateAllCriteria criteria (withMissing fields name) = .ok results' ∧
      (computeScoringConfidence results' (withMissing fields name)).rank ≤
        (computeScoringConfidence results fields).rank) ↔
      ¬ OnlyUncertain criteria fields name field := by
  obtain ⟨results', hresults'⟩ := evaluateAllCriteria_withMissing h name
  have hhigh : allHigh fields = true ↔ field.confidence = .high ∧
      allHigh (withMissing fields name) = true := by
    rw [allHigh_iff, allHigh_withMissing]
    constructor
    · exact fun hall => ⟨hall _ hfield hfound, fun entry hentry _ => hall entry hentry⟩
    · rintro ⟨hhigh, hall⟩ ⟨key, f⟩ hentry hstatus
      by_cases hkey : key = name
      · subst hkey
        cases List.inj_on_of_nodup_map hnames hentry hfield rfl
        exact hhigh
      · exact hall _ hentry hkey hstatus
  have honly : OnlyUncertain criteria fields name field ↔ criteria.length ≠ 0 ∧
      unevaluated criteria (withMissing fields name) = 0 ∧
      allHigh (withMissing fields name) = true ∧ allHigh fields = false := by
    have hnil : criteria ≠ [] ↔ criteria.length ≠ 0 := List.length_eq_zero_iff.not.symm
    rw [OnlyUncertain, hnil, unevaluated_withMissing_eq_zero, ← allHigh_withMissing,
      ← Bool.not_eq_true (allHigh fields), hhigh]
    tauto
  rw [honly, ← confidenceOf_le_iff unevaluated_withMissing fun hall => (hhigh.mp hall).2,
    ← evaluated_confidence h, ← evaluated_confidence hresults']
  constructor
  · rintro ⟨results'', hresults'', hle⟩
    cases hresults'.symm.trans hresults''
    exact hle
  · exact fun hle => ⟨results', hresults', hle⟩

end

-- ---------------------------------------------------------------------------
-- The fields of an extraction
-- ---------------------------------------------------------------------------

/-- The confidence that the extraction computes for the fields of a response. -/
def extractionConfidence (llm : List LlmField) : ConfidenceLevel :=
  computeOverallConfidence llm (llm.countP LlmField.isFound)

/-- The fields that scoring loads when its last run was that of an accepted response. -/
structure ExtractedFrom [Runtime] (response : Json) (llm : List LlmField) (fields : FieldsMap) :
    Prop where
  accepted : LlmClient.validateExtractionResponse response = .ok ()
  read : readFields response = .ok llm
  stored : ∃ dealId run rows earlier,
    fieldRows dealId run (extractionConfidence llm) llm = some rows ∧
    (∀ row ∈ earlier, row.extractionRun < run) ∧ fields = latestFields (earlier ++ rows)

section
variable {rows earlier : List ExtractedField} {d : FieldsMap} {run : Nat}

theorem foldl_setItem (hnodup : (rows.map ExtractedField.fieldName).Nodup)
    (hnew : ∀ row ∈ rows, row.fieldName ∉ d.map Prod.fst) :
    rows.foldl (fun d f => setItem d f.fieldName f) d =
      d ++ rows.map fun row => (row.fieldName, row) := by
  induction rows generalizing d with
  | nil => simp
  | cons row rows ih =>
    obtain ⟨hrow, hnodup⟩ := List.nodup_cons.mp hnodup
    rw [List.forall_mem_cons] at hnew
    rw [List.foldl_cons, setItem_new hnew.1, ih hnodup ?_, List.append_assoc]
    · rfl
    · intro row' hrow' hmem
      rw [List.map_append, List.mem_append] at hmem
      rcases hmem with hmem | hmem
      · exact hnew.2 row' hrow' hmem
      · refine hrow (List.mem_map.mpr ⟨row', hrow', ?_⟩)
        simpa using hmem

/-- A run with distinct names is loaded as it is. -/
theorem latestFields_run (hne : rows ≠ []) (hrun : ∀ row ∈ rows, row.extractionRun = run)
    (hearlier : ∀ row ∈ earlier, row.extractionRun < run)
    (hnodup : (rows.map ExtractedField.fieldName).Nodup) :
    latestFields (earlier ++ rows) = rows.map fun row => (row.fieldName, row) := by
  have hmax : ((earlier ++ rows).map ExtractedField.extractionRun).foldl max 0 = run := by
    refine max_run_eq (fun row hrow => ?_) ?_
    · rcases List.mem_append.mp hrow with hrow | hrow
      · exact (hearlier row hrow).le
      · exact (hrun row hrow).le
    · obtain ⟨row, hrow⟩ := List.exists_mem_of_ne_nil rows hne
      exact ⟨row, List.mem_append_right _ hrow, hrun row hrow⟩
  unfold latestFields
  dsimp only
  rw [hmax, filter_run_append hearlier hrun, foldl_setItem hnodup (by simp), List.nil_append]

end

section
variable [Runtime] {response : Json} {llm : List LlmField} {fields : FieldsMap}
  {criteria : List Criterion}

/-- One entry for each field of the response, with its status and its confidence. -/
theorem ExtractedFrom.entries (h : ExtractedFrom response llm fields) :
    llm.length = coreExtractionFields.length ∧ (fields.map Prod.fst).Nodup ∧
      List.Forall₂ (fun f entry => entry.2.fieldStatus = f.fieldStatus ∧
        entry.2.confidence = f.confidence) llm fields := by
  obtain ⟨dealId, run, rows, earlier, hrows, hearlier, rfl⟩ := h.stored
  obtain ⟨entries, items, llm', -, -, hread, -, hnames⟩ :=
    readFields_grammar (LlmClient.validate_ok_iff.mp h.accepted)
  cases h.read.symm.trans hread
  have hlength : llm.length = coreExtractionFields.length := by simpa using hnames.length_eq
  obtain ⟨hrowsLength, -, hrun⟩ := fieldRows_rows hrows
  have hnodup : (rows.map ExtractedField.fieldName).Nodup := by
    have hval : (rows.map fun row => row.fieldName.val).Nodup := by
      rw [fieldRows_names hrows]
      exact hnames.nodup_iff.mpr (by decide)
    refine List.Nodup.of_map PgText.val ?_
    rw [List.map_map]
    exact hval
  have hne : rows ≠ [] := by
    rintro rfl
    rw [hlength] at hrowsLength
    cases hrowsLength
  rw [latestFields_run hne (fun row hrow => (hrun row hrow).2) hearlier hnodup]
  refine ⟨hlength, by rw [List.map_map]; exact hnodup, ?_⟩
  rw [List.forall₂_map_right_iff, ← List.zipIdx_map_fst 0 llm, List.forall₂_map_left_iff]
  refine (Option.mapM_eq_some.mp hrows).imp fun field row hrow => ?_
  exact ⟨(indexedRow_row hrow).2.2, indexedRow_confidence hrow⟩

omit [Runtime] in
theorem isFound_iff {f : LlmField} : f.isFound = true ↔ f.fieldStatus ≠ .missing := by
  unfold LlmField.isFound
  cases f.fieldStatus <;> decide

/-- Every field that was found is HIGH. -/
theorem ExtractedFrom.allHigh_iff (h : ExtractedFrom response llm fields) :
    allHigh fields = true ↔ ∀ f ∈ llm, f.isFound = true → f.confidence = .high := by
  have hentries := h.entries.2.2
  rw [ScoringService.allHigh_iff]
  constructor
  · intro hall f hf hfound
    obtain ⟨entry, hentry, hstatus, hconfidence⟩ := hentries.flip.exists_left hf
    rw [← hconfidence]
    exact hall entry hentry (hstatus ▸ isFound_iff.mp hfound)
  · intro hall entry hentry hfound
    obtain ⟨f, hf, hstatus, hconfidence⟩ := hentries.exists_left hentry
    rw [hconfidence]
    exact hall f hf (isFound_iff.mpr (hstatus ▸ hfound))

omit [Runtime] in
theorem countP_high_iff : (llm.countP fun f => f.isFound && f.confidence = .high) =
      llm.countP LlmField.isFound ↔ ∀ f ∈ llm, f.isFound = true → f.confidence = .high := by
  have hcount : (llm.countP fun f => f.isFound && f.confidence = .high) =
      (llm.filter LlmField.isFound).countP fun f => f.confidence = .high := by
    rw [List.countP_filter]
    exact List.countP_congr fun f _ => by rw [Bool.and_comm]
  rw [hcount, List.countP_eq_length_filter (p := LlmField.isFound), List.countP_eq_length]
  simp only [List.mem_filter, decide_eq_true_eq, and_imp]

-- ---------------------------------------------------------------------------
-- The confidence of the score and of the extraction
-- ---------------------------------------------------------------------------

/-- All six fields are found and HIGH, or four are MEDIUM and something is not as it
    should be, or too few criteria were evaluated. -/
def NotMoreConfident (criteria : List Criterion) (llm : List LlmField) (fields : FieldsMap) : Prop :=
  (llm.countP LlmField.isFound = coreExtractionFields.length ∧
      ∀ f ∈ llm, f.isFound = true → f.confidence = .high) ∨
    (4 ≤ llm.countP (fun f => f.isFound && (f.confidence = .high || f.confidence = .medium)) ∧
      (unevaluated criteria fields ≠ 0 ∨ ∃ f ∈ llm, f.isFound = true ∧ f.confidence ≠ .high)) ∨
    criteria.length < 4 * unevaluated criteria fields

omit [Runtime] in
/-- The confidence of an extraction that found enough. -/
theorem extractionConfidence_eq (hfound : minFieldsForExtraction ≤ llm.countP LlmField.isFound) :
    extractionConfidence llm =
      if llm.countP LlmField.isFound = coreExtractionFields.length ∧
        ∀ f ∈ llm, f.isFound = true → f.confidence = .high then .high
      else if 4 ≤ llm.countP (fun f => f.isFound && (f.confidence = .high || f.confidence = .medium))
        then .medium
      else .low := by
  unfold extractionConfidence computeOverallConfidence
  rw [if_neg (Nat.not_lt.mpr hfound)]
  simp only [countP_high_iff]

theorem ExtractedFrom.rank_le_iff (h : ExtractedFrom response llm fields)
    (hfound : minFieldsForExtraction ≤ llm.countP LlmField.isFound) (hne : criteria ≠ []) :
    (confidenceOf criteria.length (unevaluated criteria fields) (allHigh fields)).rank ≤
        (extractionConfidence llm).rank ↔ NotMoreConfident criteria llm fields := by
  have hpos : 0 < criteria.length := List.length_pos_iff.mpr hne
  have hexists : (∃ f ∈ llm, f.isFound = true ∧ f.confidence ≠ .high) ↔ allHigh fields = false := by
    rw [← Bool.not_eq_true, h.allHigh_iff]
    simp
  have hextraction := extractionConfidence_eq hfound
  unfold NotMoreConfident
  rw [hexists]
  by_cases hsix : llm.countP LlmField.isFound = coreExtractionFields.length ∧
      ∀ f ∈ llm, f.isFound = true → f.confidence = .high
  · rw [hextraction, if_pos hsix]
    exact iff_of_true (rank_le_three _) (.inl hsix)
  rw [if_neg hsix] at hextraction
  by_cases hfour : 4 ≤ llm.countP fun f =>
      f.isFound && (f.confidence = .high || f.confidence = .medium)
  · rw [hextraction, if_pos hfour]
    refine (confidenceOf_le_medium hpos).trans ⟨fun hless => .inr (.inl ⟨hfour, hless⟩), ?_⟩
    rintro (hsix' | ⟨-, hless⟩ | hfew)
    · exact absurd hsix' hsix
    · exact hless
    · exact .inl (by omega)
  · rw [hextraction, if_neg hfour]
    refine (confidenceOf_le_low hpos).trans ⟨fun hfew => .inr (.inr hfew), ?_⟩
    rintro (hsix' | ⟨hfour', -⟩ | hfew)
    · exact absurd hsix' hsix
    · exact absurd hfour' hfour
    · exact hfew

theorem evaluate_confidence {ev : Evaluation} (h : evaluate criteria fields = .ok ev) :
    ev.confidence = computeScoringConfidence ev.results fields := by
  obtain ⟨results, -, h⟩ := Except.bind_eq_ok.mp h
  obtain ⟨score, -, h⟩ := Except.bind_eq_ok.mp h
  cases h
  rfl

/-- A transaction that succeeds stores one score, with the confidence of its evaluation. -/
theorem scoreDeal_stores {draw : ScoreDraw} {dealId tenantId : Uuid} {db db' : DealDb}
    {result : ScoringResult}
    (hrun : Session.transaction (scoreDeal draw dealId tenantId) db = (.ok result, db'))
    (hsuccess : result.success = true) :
    ∃ config ev score, db.activeConfig tenantId = some config ∧
      evaluate (db.criteriaOf config.id) (latestFields (db.fieldsOf dealId)) = .ok ev ∧
      db'.dealScores = db.dealScores ++ [score] ∧ score.confidence = ev.confidence := by
  obtain ⟨deal, -, -, ⟨-, rfl, -⟩ | ⟨config, ev, score, hconfig, hev, hrow, -, -, rfl⟩⟩ :=
    scoreDeal_returned hrun
  · cases hsuccess
  · obtain ⟨rationale, -, hscore⟩ := Option.bind_eq_some_iff.mp hrow
    cases hscore
    exact ⟨config, ev, _, hconfig, hev, rfl, rfl⟩

/-- The stored confidence against that of the extraction the fields are from. -/
theorem score_confidence_iff {draw : ScoreDraw} {dealId tenantId : Uuid} {db db' : DealDb}
    {config : CriteriaConfig} {result : ScoringResult}
    (hfrom : ExtractedFrom response llm (latestFields (db.fieldsOf dealId)))
    (hfound : minFieldsForExtraction ≤ llm.countP LlmField.isFound)
    (hconfig : db.activeConfig tenantId = some config) (hne : db.criteriaOf config.id ≠ [])
    (hrun : Session.transaction (scoreDeal draw dealId tenantId) db = (.ok result, db'))
    (hsuccess : result.success = true) :
    (∃ score, db'.dealScores = db.dealScores ++ [score] ∧
        score.confidence.rank ≤ (extractionConfidence llm).rank) ↔
      NotMoreConfident (db.criteriaOf config.id) llm (latestFields (db.fieldsOf dealId)) := by
  obtain ⟨config', ev, score, hconfig', hev, hscores, hconfidence⟩ := scoreDeal_stores hrun hsuccess
  cases hconfig.symm.trans hconfig'
  rw [← hfrom.rank_le_iff hfound hne, ← evaluated_confidence (evaluate_eq_ok hev).1,
    ← evaluate_confidence hev, ← hconfidence]
  constructor
  · rintro ⟨score', hscores', hle⟩
    obtain rfl : score = score' := by simpa [hscores] using hscores'
    exact hle
  · exact fun hle => ⟨score, hscores, hle⟩

end

-- ---------------------------------------------------------------------------
-- Two responses
-- ---------------------------------------------------------------------------

def sampleEntry (name status confidence : String) : Json :=
  .dict [(text "field_name", .str (text name)),
    (text "field_value", if status = "MISSING" then .null else .str (text "1500")),
    (text "field_status", .str (text status)), (text "confidence", .str (text confidence))]

/-- A response with the statuses and confidences of the six fields. -/
def sampleResponse (fields : List (String × String)) : Json :=
  .dict [(text "fields", .list (List.zipWith (fun name field => sampleEntry name field.1 field.2)
    coreExtractionFields fields))]

/-- The sector is uncertain, the other fields are not. -/
def uncertainSector : Json :=
  sampleResponse [("FOUND", "LOW"), ("FOUND", "HIGH"), ("FOUND", "HIGH"), ("FOUND", "HIGH"),
    ("FOUND", "HIGH"), ("FOUND", "HIGH")]

/-- Half of the fields are found, each with HIGH confidence. -/
def halfFound : Json :=
  sampleResponse [("FOUND", "HIGH"), ("FOUND", "HIGH"), ("FOUND", "HIGH"), ("MISSING", "LOW"),
    ("MISSING", "LOW"), ("MISSING", "LOW")]

/-- The rows of the first run of the sample deal. -/
def sampleRows (response : Json) : Option (List ExtractedField) :=
  (readFields response).toOption.bind fun llm => fieldRows 1 1 (extractionConfidence llm) llm

theorem extractedFrom_sample [Runtime] {response : Json} {rows : List ExtractedField}
    (haccepted : (LlmClient.validateExtractionResponse response).toOption = some ())
    (hrows : sampleRows response = some rows) :
    ∃ llm, readFields response = .ok llm ∧ ExtractedFrom response llm (latestFields rows) := by
  obtain ⟨llm, hread, hrows⟩ := Option.bind_eq_some_iff.mp hrows
  have hread' := Except.toOption_eq_some.mp hread
  exact ⟨llm, hread', Except.toOption_eq_some.mp haccepted, hread', 1, 1, rows, [], hrows, nofun, rfl⟩

def revenueCriterion : Criterion :=
  ⟨3, .ofLiteral "revenue" (by decide), .mustHave, .ofLiteral "gt" (by decide),
    .ofLiteral "1000" (by decide), 1.0, .ofLiteral "Revenue" (by decide)⟩

def sectorName : PgText := .ofLiteral "sector" (by decide)

/-- Without the uncertain sector the confidence goes from MEDIUM to HIGH. -/
theorem missing_raises_confidence :
    ¬ ∀ (_ : Runtime) (response : Json) (llm : List LlmField) (fields : FieldsMap)
        (criteria : List Criterion) (results : List CriterionEvalResult) (name : PgText)
        (field : ExtractedField),
      ExtractedFrom response llm fields → evaluateAllCriteria criteria fields = .ok results →
      (name, field) ∈ fields → field.fieldStatus ≠ .missing →
      ∃ results', evaluateAllCriteria criteria (withMissing fields name) = .ok results' ∧
        (computeScoringConfidence results' (withMissing fields name)).rank ≤
          (computeScoringConfidence results fields).rank := by
  intro h
  let _ := asciiRuntime
  have haccepted : (LlmClient.validateExtractionResponse uncertainSector).toOption = some () := by
    decide +kernel
  obtain ⟨rows, hrows, hfield, hbefore, hafter⟩ : ∃ rows, sampleRows uncertainSector = some rows ∧
      (∃ entry ∈ latestFields rows, entry.1 = sectorName ∧ entry.2.fieldStatus = .found) ∧
      (evaluateAllCriteria [revenueCriterion] (latestFields rows)).toOption.map
        (computeScoringConfidence · (latestFields rows)) = some .medium ∧
      (evaluateAllCriteria [revenueCriterion] (withMissing (latestFields rows) sectorName)).toOption.map
        (computeScoringConfidence · (withMissing (latestFields rows) sectorName)) = some .high := by
    refine ⟨(sampleRows uncertainSector).get (by decide +kernel), ?_⟩
    decide +kernel
  obtain ⟨llm, -, hfrom⟩ := extractedFrom_sample haccepted hrows
  obtain ⟨results, hresults, hmedium⟩ := Option.map_eq_some_iff.mp hbefore
  obtain ⟨results', hresults', hhigh⟩ := Option.map_eq_some_iff.mp hafter
  rw [Except.toOption_eq_some] at hresults hresults'
  obtain ⟨⟨_, field⟩, hentry, rfl, hfound⟩ := hfield
  obtain ⟨results'', hresults'', hle⟩ := h _ _ llm _ [revenueCriterion] results _ field hfrom hresults
    hentry (by rw [hfound]; decide)
  cases hresults'.symm.trans hresults''
  rw [hmedium, hhigh] at hle
  exact absurd hle (by decide)

theorem missing_lowers_revenue :
    letI := asciiRuntime
    ∃ rows results results', sampleRows uncertainSector = some rows ∧
      evaluateAllCriteria [revenueCriterion] (latestFields rows) = .ok results ∧
      evaluateAllCriteria [revenueCriterion]
        (withMissing (latestFields rows) revenueCriterion.fieldName) = .ok results' ∧
      (computeScoringConfidence results'
        (withMissing (latestFields rows) revenueCriterion.fieldName)).rank ≤
          (computeScoringConfidence results (latestFields rows)).rank := by
  let _ := asciiRuntime
  obtain ⟨rows, hrows, hnames, ⟨⟨_, field⟩, hfield, rfl, hfound, hhigh⟩, hevaluated⟩ :
      ∃ rows, sampleRows uncertainSector = some rows ∧
        ((latestFields rows).map Prod.fst).Nodup ∧
        (∃ entry ∈ latestFields rows, entry.1 = revenueCriterion.fieldName ∧
          entry.2.fieldStatus = .found ∧ entry.2.confidence = .high) ∧
        (evaluateAllCriteria [revenueCriterion] (latestFields rows)).toOption.isSome = true := by
    refine ⟨(sampleRows uncertainSector).get (by decide +kernel), ?_⟩
    decide +kernel
  obtain ⟨results, hresults⟩ := Option.isSome_iff_exists.mp hevaluated
  rw [Except.toOption_eq_some] at hresults
  have hiff := missing_lowers_iff hresults hnames hfield (by rw [hfound]; decide)
  obtain ⟨results', hresults', hle⟩ := hiff.mpr fun honly => honly.2.2.1 hhigh
  exact ⟨rows, results, results', hrows, hresults, hresults', hle⟩

/-- The sample deal is extracted, with a criterion on the revenue configured. -/
def extractedDb (response : Json) : DealDb :=
  letI := asciiRuntime
  let uploaded := { DealDb.empty with deals := [sampleDeal] }
  let configured := (Session.transaction
    (CriteriaApi.createCriteriaConfig ⟨3, fun _ => 4, 0⟩ 2 (sampleBody "1000")) uploaded).2
  (Session.transaction (processExtractionResult sampleDeal response) configured).2

/-- What is scored of a response: its fields, and the configured criterion. -/
def SampleExtraction (response : Json) (db : DealDb) : Prop :=
  sampleRows response = some (db.fieldsOf 1) ∧
    (db.activeConfig 2).map CriteriaConfig.id = some 3 ∧ db.criteriaOf 3 = [revenueCriterion]

instance (response : Json) (db : DealDb) : Decidable (SampleExtraction response db) :=
  inferInstanceAs (Decidable (_ ∧ _ ∧ _))

/-- It is scored under the configured criterion. -/
theorem scored_sample [Runtime] {response : Json} {db : DealDb} (hsample : SampleExtraction response db)
    (hrun : (Session.transaction (scoreDeal ⟨5, 0⟩ 1 2) db).1.toOption.map ScoringResult.success =
      some true) :
    ∃ config result, db.activeConfig 2 = some config ∧ db.criteriaOf config.id = [revenueCriterion] ∧
      Session.transaction (scoreDeal ⟨5, 0⟩ 1 2) db =
        (.ok result, (Session.transaction (scoreDeal ⟨5, 0⟩ 1 2) db).2) ∧
      result.success = true := by
  obtain ⟨-, hconfig, hcriteria⟩ := hsample
  obtain ⟨config, hconfig, hid⟩ := Option.map_eq_some_iff.mp hconfig
  obtain ⟨result, hresult, hsuccess⟩ := Option.map_eq_some_iff.mp hrun
  rw [Except.toOption_eq_some] at hresult
  rw [← hid] at hcriteria
  exact ⟨config, result, hconfig, hcriteria, by rw [← hresult], hsuccess⟩

/-- Half of the fields are enough for a LOW extraction and a HIGH score. -/
theorem score_more_confident :
    ¬ ∀ (_ : Runtime) (response : Json) (llm : List LlmField) (draw : ScoreDraw)
        (dealId tenantId : Uuid) (db db' : DealDb) (config : CriteriaConfig) (result : ScoringResult),
      ExtractedFrom response llm (latestFields (db.fieldsOf dealId)) →
      minFieldsForExtraction ≤ llm.countP LlmField.isFound →
      db.activeConfig tenantId = some config → db.criteriaOf config.id ≠ [] →
      Session.transaction (scoreDeal draw dealId tenantId) db = (.ok result, db') →
      result.success = true →
      ∃ score, db'.dealScores = db.dealScores ++ [score] ∧
        score.confidence.rank ≤ (extractionConfidence llm).rank := by
  intro h
  let _ := asciiRuntime
  have haccepted : (LlmClient.validateExtractionResponse halfFound).toOption = some () := by
    decide +kernel
  have hextraction : (readFields halfFound).toOption.map (fun llm =>
      (llm.countP LlmField.isFound, extractionConfidence llm)) = some (3, .low) := by
    decide +kernel
  obtain ⟨hsample, hev, hrun⟩ : SampleExtraction halfFound (extractedDb halfFound) ∧
      (evaluate [revenueCriterion] (latestFields ((extractedDb halfFound).fieldsOf 1))).toOption.map
        Evaluation.confidence = some .high ∧
      (Session.transaction (scoreDeal ⟨5, 0⟩ 1 2) (extractedDb halfFound)).1.toOption.map
        ScoringResult.success = some true := by
    decide +kernel
  generalize extractedDb halfFound = db at *
  obtain ⟨llm, hread, hfrom⟩ := extractedFrom_sample haccepted hsample.1
  rw [hread] at hextraction
  obtain ⟨hfound, hlow⟩ := Prod.mk.inj (Option.some.inj hextraction)
  obtain ⟨config, result, hconfig, hcriteria, hrun, hsuccess⟩ := scored_sample hsample hrun
  obtain ⟨score, hscores, hle⟩ := h _ _ llm ⟨5, 0⟩ 1 2 db _ config result hfrom (by rw [hfound]; decide)
    hconfig (by rw [hcriteria]; decide) hrun hsuccess
  obtain ⟨config', ev, score', hconfig', hev', hscores', hconfidence⟩ := scoreDeal_stores hrun hsuccess
  cases hconfig.symm.trans hconfig'
  obtain rfl : score' = score := by simpa [hscores'] using hscores
  rw [hcriteria] at hev'
  rw [hev'] at hev
  have hhigh : ev.confidence = .high := Option.some.inj hev
  rw [hconfidence, hhigh, hlow] at hle
  exact absurd hle (by decide)

instance (criteria : List Criterion) (llm : List LlmField) (fields : FieldsMap) :
    Decidable (NotMoreConfident criteria llm fields) :=
  inferInstanceAs (Decidable (_ ∨ _ ∨ _))

theorem score_confidence_uncertain :
    letI := asciiRuntime
    ∃ llm result db' score, readFields uncertainSector = .ok llm ∧
      Session.transaction (scoreDeal ⟨5, 0⟩ 1 2) (extractedDb uncertainSector) = (.ok result, db') ∧
      db'.dealScores = (extractedDb uncertainSector).dealScores ++ [score] ∧
      score.confidence.rank ≤ (extractionConfidence llm).rank := by
  let _ := asciiRuntime
  have haccepted : (LlmClient.validateExtractionResponse uncertainSector).toOption = some () := by
    decide +kernel
  obtain ⟨hsample, hllm, hrun⟩ :
      SampleExtraction uncertainSector (extractedDb uncertainSector) ∧
      (readFields uncertainSector).toOption.map (fun llm =>
        decide (minFieldsForExtraction ≤ llm.countP LlmField.isFound ∧ NotMoreConfident
          [revenueCriterion] llm (latestFields ((extractedDb uncertainSector).fieldsOf 1)))) = some true ∧
      (Session.transaction (scoreDeal ⟨5, 0⟩ 1 2) (extractedDb uncertainSector)).1.toOption.map
        ScoringResult.success = some true := by
    decide +kernel
  generalize extractedDb uncertainSector = db at *
  obtain ⟨llm, hread, hfrom⟩ := extractedFrom_sample haccepted hsample.1
  rw [hread] at hllm
  obtain ⟨hfound, hcondition⟩ := of_decide_eq_true (Option.some.inj hllm)
  obtain ⟨config, result, hconfig, hcriteria, hrun, hsuccess⟩ := scored_sample hsample hrun
  have hiff := score_confidence_iff hfrom hfound hconfig (by rw [hcriteria]; decide) hrun hsuccess
  rw [hcriteria] at hiff
  obtain ⟨score, hscores, hle⟩ := hiff.mpr hcondition
  exact ⟨llm, result, _, score, hread, hrun, hscores, hle⟩

end ScoringService
