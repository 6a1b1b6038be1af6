-- SUMMARY: Evaluation of one criterion against one extracted field, and when it raises.
import DealScreening.Models.Deal
import DealScreening.Python.Json

/-!
# Criteria evaluator

One rule, one field, one result. The target of a criterion is JSON text that is
decoded at every evaluation, after the test for a missing field.
-/

namespace CriteriaEvaluator

open Python

/-- The result of one criterion. -/
structure CriterionEvalResult where
  criterionLabel : Str
  fieldName : Str
  criterionType : CriterionType
  matched : Bool
  weight : Float
  detail : Str
  skipped : Bool
  deriving DecidableEq

variable [Runtime]

/-- `_str_normalize`. -/
def strNormalize (s : Str) : Str := Str.lower (Str.strip s)

def numericOperators : List Str := [text "gt", text "lt", text "gte", text "lte"]

/-- The number a field value stands for. -/
def fieldNumber (fieldValue : Str) : Option Float :=
  floatOfStr (Str.strip (Str.remove '$' (Str.remove ',' fieldValue)))

/-- `_numeric_compare`: false if a conversion raises `ValueError` or `TypeError`. -/
def numericCompare (fieldValue operator : Str) (target : Json) : Except Error Bool :=
  match fieldNumber fieldValue with
  | none => .ok false
  | some fieldNum =>
    match target.toFloat with
    | .error .valueError => .ok false
    | .error .typeError => .ok false
    | .error e => .error e
    | .ok targetNum =>
      if operator = text "gt" then .ok (targetNum < fieldNum)
      else if operator = text "lt" then .ok (fieldNum < targetNum)
      else if operator = text "gte" then .ok (targetNum ≤ fieldNum)
      else if operator = text "lte" then .ok (fieldNum ≤ targetNum)
      else .ok false

/-- `[_str_normalize(str(t)) for t in target]`. -/
def normalizedTargets (items : List Json) : Except Error (List Str) :=
  items.mapM fun t => t.toStr.map strNormalize

/-- `_apply_operator`. -/
def applyOperator (fieldValue operator : Str) (target : Json) : Except Error Bool :=
  if operator ∈ numericOperators then numericCompare fieldValue operator target
  else if operator = text "eq" then
    target.toStr.map fun t => strNormalize fieldValue = strNormalize t
  else if operator = text "ne" then
    target.toStr.map fun t => strNormalize fieldValue ≠ strNormalize t
  else if operator = text "in" then
    match target with
    | .list items => (normalizedTargets items).map fun ts => strNormalize fieldValue ∈ ts
    | _ => .ok false
  else if operator = text "not_in" then
    match target with
    | .list items => (normalizedTargets items).map fun ts => strNormalize fieldValue ∉ ts
    | _ => .ok false
  else if operator = text "contains" then
    target.toStr.map fun t => Str.hasSubstring (strNormalize t) (strNormalize fieldValue)
  else .ok false

def missingDetail (fieldName : Str) : Str :=
  text "Field '" ++ fieldName ++ text "' is MISSING — criterion could not be evaluated."

/-- The detail of an evaluated criterion, with the target as `str` shows it. -/
def evaluatedDetail (matched : Bool) (fieldName fieldValue operator label shown : Str) : Str :=
  if matched then
    text "'" ++ label ++ text "' matched: " ++ fieldName ++ text " " ++ operator ++ text " " ++ shown
  else
    text "'" ++ label ++ text "' not matched: " ++ fieldName ++ text "=" ++ fieldValue ++
      text ", expected " ++ operator ++ text " " ++ shown

def evaluateCriterion (fieldName : Str) (fieldValue : Option Str)
    (fieldStatus : FieldExtractionStatus) (operator targetValueJson : Str)
    (criterionType : CriterionType) (weight : Float) (label : Str) :
    Except Error CriterionEvalResult :=
  let skip : CriterionEvalResult :=
    { criterionLabel := label, fieldName, criterionType, matched := false, weight,
      detail := missingDetail fieldName, skipped := true }
  if fieldStatus = .missing then .ok skip
  else match fieldValue with
    | none => .ok skip
    | some value => do
      let target ← Json.loads targetValueJson
      let matched ← applyOperator value operator target
      let shown ← target.toStr
      return { criterionLabel := label, fieldName, criterionType, matched, weight,
               detail := evaluatedDetail matched fieldName value operator label shown,
               skipped := false }

/-! ## When evaluation raises -/

/-- The comparison of a value with a decoded target does not overflow. -/
def Comparable (fieldValue operator : Str) (target : Json) : Prop :=
  operator ∈ numericOperators → fieldNumber fieldValue ≠ none →
    ∀ n, target = .int n → floatOfInt n ≠ none

/-- The target text can be decoded, compared with the value and shown. -/
def Evaluable (fieldValue operator targetValueJson : Str) : Prop :=
  ∃ target, Json.loads targetValueJson = .ok target ∧ Comparable fieldValue operator target ∧
    Json.reprCalls target ≤ Runtime.reprDepth

theorem numericCompare_ok_iff {fieldValue operator : Str} {target : Json} :
    (∃ b, numericCompare fieldValue operator target = .ok b) ↔
      (fieldNumber fieldValue ≠ none → ∀ n, target = .int n → floatOfInt n ≠ none) := by
  unfold numericCompare
  cases hfield : fieldNumber fieldValue with
  | none => simp
  | some fieldNum =>
    simp only [ne_eq, reduceCtorEq, not_false_eq_true, forall_const]
    cases htarget : target.toFloat with
    | ok targetNum =>
      have hfinite : ∀ n, target = .int n → ¬ floatOfInt n = none := by
        rintro n rfl hnone
        simp [Json.toFloat, hnone] at htarget
      refine ⟨fun _ n hn => hfinite n hn, fun _ => ?_⟩
      split_ifs <;> exact ⟨_, rfl⟩
    | error e =>
      obtain rfl | rfl | ⟨rfl, n, rfl, hnone⟩ := Json.toFloat_error htarget
      · simp only [Except.ok.injEq, exists_eq', true_iff]
        rintro n rfl hnone
        simp [Json.toFloat, hnone] at htarget
      · simp only [Except.ok.injEq, exists_eq', true_iff]
        rintro n rfl hnone
        simp [Json.toFloat, hnone] at htarget
      · simp [hnone]

theorem toStr_ok {v : Json} (h : Json.reprCalls v ≤ Runtime.reprDepth) :
    ∃ s, v.toStr = .ok s := by
  unfold Json.toStr
  rw [if_neg (by omega)]
  split <;> exact ⟨_, rfl⟩

theorem normalizedTargets_ok {items : List Json}
    (h : ∀ v ∈ items, Json.reprCalls v ≤ Runtime.reprDepth) :
    ∃ ts, normalizedTargets items = .ok ts := by
  unfold normalizedTargets
  induction items with
  | nil => exact ⟨[], rfl⟩
  | cons v items ih =>
    rw [List.forall_mem_cons] at h
    obtain ⟨s, hs⟩ := toStr_ok h.1
    obtain ⟨ts, hts⟩ := ih h.2
    refine ⟨strNormalize s :: ts, ?_⟩
    rw [List.mapM_cons, hs, hts]
    rfl

/-- A target that can be shown is compared by every operator, up to overflow. -/
theorem applyOperator_ok_iff {fieldValue operator : Str} {target : Json}
    (hshown : Json.reprCalls target ≤ Runtime.reprDepth) :
    (∃ b, applyOperator fieldValue operator target = .ok b) ↔
      Comparable fieldValue operator target := by
  unfold applyOperator Comparable
  by_cases hnum : operator ∈ numericOperators
  · simp only [hnum, if_true, forall_const]
    exact numericCompare_ok_iff
  · simp only [hnum, if_false, false_implies, iff_true]
    obtain ⟨s, hs⟩ := toStr_ok hshown
    have hitems : ∀ items, target = .list items → ∃ ts, normalizedTargets items = .ok ts := by
      rintro items rfl
      refine normalizedTargets_ok fun v hv => ?_
      have := Json.reprCalls_item hv
      omega
    rw [hs]
    split_ifs
    · exact ⟨_, rfl⟩
    · exact ⟨_, rfl⟩
    · split
      · obtain ⟨ts, hts⟩ := hitems _ rfl
        exact ⟨_, by rw [hts]; rfl⟩
      · exact ⟨_, rfl⟩
    · split
      · obtain ⟨ts, hts⟩ := hitems _ rfl
        exact ⟨_, by rw [hts]; rfl⟩
      · exact ⟨_, rfl⟩
    · exact ⟨_, rfl⟩
    · exact ⟨_, rfl⟩

section
variable {fieldName operator targetValueJson label value : Str} {fieldValue : Option Str}
  {fieldStatus : FieldExtractionStatus} {criterionType : CriterionType} {weight : Float}
  {r : CriterionEvalResult}

/-- A field without a value is skipped, whatever the target. -/
theorem evaluateCriterion_skip (h : fieldStatus = .missing ∨ fieldValue = none) :
    evaluateCriterion fieldName fieldValue fieldStatus operator targetValueJson criterionType
        weight label =
      .ok { criterionLabel := label, fieldName, criterionType, matched := false, weight,
            detail := missingDetail fieldName, skipped := true } := by
  unfold evaluateCriterion
  obtain hmissing | hnone := h
  · simp [hmissing]
  · subst hnone
    simp

/-- A field with a value gives the result of the comparison, or raises. -/
theorem evaluateCriterion_value (h : fieldStatus ≠ .missing) :
    evaluateCriterion fieldName (some value) fieldStatus operator targetValueJson criterionType
        weight label = .ok r ↔
      ∃ target matched shown, Json.loads targetValueJson = .ok target ∧
        applyOperator value operator target = .ok matched ∧ target.toStr = .ok shown ∧
        r = { criterionLabel := label, fieldName, criterionType, matched, weight,
              detail := evaluatedDetail matched fieldName value operator label shown,
              skipped := false } := by
  unfold evaluateCriterion
  rw [if_neg h]
  constructor
  · intro hr
    cases hload : Json.loads targetValueJson with
    | error e => simp [hload, bind, Except.bind] at hr
    | ok target =>
      cases hmatched : applyOperator value operator target with
      | error e => simp [hload, hmatched, bind, Except.bind] at hr
      | ok matched =>
        cases hshown : target.toStr with
        | error e => simp [hload, hmatched, hshown, bind, Except.bind] at hr
        | ok shown =>
          simp only [hload, hmatched, hshown, bind, Except.bind] at hr
          cases hr
          exact ⟨target, matched, shown, rfl, hmatched, hshown, rfl⟩
  · rintro ⟨target, matched, shown, hload, hmatched, hshown, rfl⟩
    simp only [hload, hmatched, hshown, bind, Except.bind]
    rfl

theorem evaluateCriterion_ok_iff :
    (∃ r, evaluateCriterion fieldName fieldValue fieldStatus operator targetValueJson criterionType
        weight label = .ok r) ↔
      ∀ value, fieldStatus ≠ .missing → fieldValue = some value →
        Evaluable value operator targetValueJson := by
  by_cases hskip : fieldStatus = .missing ∨ fieldValue = none
  · rw [evaluateCriterion_skip hskip]
    simp only [Except.ok.injEq, exists_eq', true_iff]
    rintro value hstatus rfl
    simp [hstatus] at hskip
  · rw [not_or] at hskip
    obtain ⟨hstatus, hvalue⟩ := hskip
    obtain ⟨value, rfl⟩ := Option.ne_none_iff_exists'.mp hvalue
    constructor
    · rintro ⟨r, hr⟩ _ _ ⟨⟩
      obtain ⟨target, matched, shown, hload, hmatched, hshown, -⟩ :=
        (evaluateCriterion_value hstatus).mp hr
      have hfits := (Json.toStr_eq_ok.mp hshown).1
      exact ⟨target, hload, (applyOperator_ok_iff hfits).mp ⟨matched, hmatched⟩, hfits⟩
    · intro h
      obtain ⟨target, hload, hcomparable, hfits⟩ := h value hstatus rfl
      obtain ⟨matched, hmatched⟩ := (applyOperator_ok_iff hfits).mpr hcomparable
      obtain ⟨shown, hshown⟩ := toStr_ok hfits
      exact ⟨_, (evaluateCriterion_value hstatus).mpr
        ⟨target, matched, shown, hload, hmatched, hshown, rfl⟩⟩

end

end CriteriaEvaluator
