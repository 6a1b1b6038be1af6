-- SUMMARY: The request body that configures screening criteria, with what its validators check.
import DealScreening.Models.Criteria
import DealScreening.Python.Number

/-- `VALID_OPERATORS`. -/
def validOperators : List String :=
  ["eq", "ne", "gt", "lt", "gte", "lte", "in", "not_in", "contains"]

/-- A criterion that validation accepted. Its texts are `str` of a request body,
    which hold no surrogates. The bounds of the weight are read as the validator
    checks them: a weight below 0 or above 1 is refused. -/
structure CriterionCreateSchema where
  fieldName : String
  criterionType : CriterionType
  operator : String
  targetValue : String
  weight : Float
  label : String
  operator_valid : operator ∈ validOperators
  weight_ge : ¬ weight < 0.0
  weight_le : ¬ 1.0 < weight

/-- A config body that validation accepted. -/
structure CriteriaConfigCreateSchema where
  name : String
  criteria : List CriterionCreateSchema
  name_length : name.length ≤ 256
  criteria_length : 1 ≤ criteria.length

/-- A weight within the bounds is a number, unless it is `NaN`. -/
theorem toRat_eq_none_iff {weight : Float} (hge : ¬ weight < 0.0) (hle : ¬ 1.0 < weight) :
    Python.toRat weight = none ↔ weight.isNaN = true := by
  have hzero : (0.0 : Float).toModel.unpack = .zero .positive := by rfl
  have hone : (1.0 : Float).toModel.unpack = .finite .positive (2 ^ 52) (-52) (by decide) := by rfl
  rw [Python.lt_iff, hzero] at hge
  rw [Python.lt_iff, hone] at hle
  unfold Python.toRat
  change _ ↔ weight.toModel.unpack.isNaN = true
  generalize weight.toModel.unpack = u at *
  cases u with
  | notANumber => exact iff_of_true rfl rfl
  | infinity sign =>
    cases sign with
    | positive => exact absurd rfl hle
    | negative => exact absurd rfl hge
  | zero sign => exact iff_of_false (Option.some_ne_none _) Bool.false_ne_true
  | finite sign m e hpos =>
    cases sign <;> exact iff_of_false (Option.some_ne_none _) Bool.false_ne_true
