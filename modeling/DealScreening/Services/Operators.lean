-- SUMMARY: The laws between the operators of a criterion: what each holds of, and where the numeric operators and equality agree.
import DealScreening.Lib.Except
import DealScreening.Python.FloatOrder
import DealScreening.Services.CriteriaEvaluator

/-!
# Operators

Equality and membership compare normalized texts, the other comparisons numbers. The laws
within each family hold for every value and target. Between the two they hold where the
texts of two numbers are the same exactly when the numbers are.
-/

namespace CriteriaEvaluator

open Python

section
variable [Runtime] {fieldValue : Str} {target : Json} {items : List Json} {x y : Float}

-- ---------------------------------------------------------------------------
-- Texts
-- ---------------------------------------------------------------------------

theorem applyOperator_eq : applyOperator fieldValue (text "eq") target =
    target.toStr.map fun t => decide (strNormalize fieldValue = strNormalize t) := by
  unfold applyOperator
  rw [if_neg (by decide), if_pos rfl]

theorem applyOperator_ne : applyOperator fieldValue (text "ne") target =
    (applyOperator fieldValue (text "eq") target).map (!·) := by
  rw [applyOperator_eq]
  unfold applyOperator
  rw [if_neg (by decide), if_neg (by decide), if_pos rfl]
  cases target.toStr <;> simp [Except.map]

theorem applyOperator_in : applyOperator fieldValue (text "in") (.list items) =
    (normalizedTargets items).map fun ts => decide (strNormalize fieldValue ∈ ts) := by
  unfold applyOperator
  rw [if_neg (by decide), if_neg (by decide), if_neg (by decide), if_pos rfl]

theorem applyOperator_not_in : applyOperator fieldValue (text "not_in") (.list items) =
    (applyOperator fieldValue (text "in") (.list items)).map (!·) := by
  rw [applyOperator_in]
  unfold applyOperator
  rw [if_neg (by decide), if_neg (by decide), if_neg (by decide), if_neg (by decide), if_pos rfl]
  cases hitems : normalizedTargets items <;> simp [hitems, Except.map]

/-- One candidate is equality with it. -/
theorem applyOperator_in_singleton : applyOperator fieldValue (text "in") (.list [target]) =
    applyOperator fieldValue (text "eq") target := by
  rw [applyOperator_in, applyOperator_eq, normalizedTargets]
  cases hshown : target.toStr <;>
    simp [hshown, Except.map, bind, Except.bind, pure, Except.pure]

-- ---------------------------------------------------------------------------
-- Numbers
-- ---------------------------------------------------------------------------

theorem numericCompare_ok (operator : Str) (hfield : fieldNumber fieldValue = some x)
    (htarget : target.toFloat = .ok y) : numericCompare fieldValue operator target =
      if operator = text "gt" then .ok (y < x)
      else if operator = text "lt" then .ok (x < y)
      else if operator = text "gte" then .ok (y ≤ x)
      else if operator = text "lte" then .ok (x ≤ y)
      else .ok false := by
  unfold numericCompare
  rw [hfield, htarget]

/-- The four comparisons of two numbers. -/
theorem applyOperator_numbers (hfield : fieldNumber fieldValue = some x)
    (htarget : target.toFloat = .ok y) :
    applyOperator fieldValue (text "gt") target = .ok (y < x) ∧
      applyOperator fieldValue (text "lt") target = .ok (x < y) ∧
      applyOperator fieldValue (text "gte") target = .ok (y ≤ x) ∧
      applyOperator fieldValue (text "lte") target = .ok (x ≤ y) := by
  have hnumeric : ∀ operator ∈ numericOperators, applyOperator fieldValue operator target =
      numericCompare fieldValue operator target := fun operator h => if_pos h
  refine ⟨?_, ?_, ?_, ?_⟩
  · rw [hnumeric _ (by decide), numericCompare_ok _ hfield htarget, if_pos rfl]
  · rw [hnumeric _ (by decide), numericCompare_ok _ hfield htarget, if_neg (by decide), if_pos rfl]
  · rw [hnumeric _ (by decide), numericCompare_ok _ hfield htarget, if_neg (by decide),
      if_neg (by decide), if_pos rfl]
  · rw [hnumeric _ (by decide), numericCompare_ok _ hfield htarget, if_neg (by decide),
      if_neg (by decide), if_neg (by decide), if_pos rfl]

/-- How the results of the numeric operators on two numbers go together. -/
structure NumericLaws (x y : Float) (gt lt gte lte : Bool) : Prop where
  gt_lte : gt = !lte
  lt_gte : lt = !gte
  gte_gt : gte = (gt || (y == x))
  same : (gte && lte) = (y == x)
  exact : ∀ p q, toRat x = some p → toRat y = some q →
    (gt = true ↔ q < p) ∧ (lt = true ↔ p < q) ∧ ((y == x) = true ↔ q = p)

omit [Runtime] in
theorem numericLaws (hx : x.isNaN = false) (hy : y.isNaN = false) :
    NumericLaws x y (y < x) (x < y) (y ≤ x) (x ≤ y) where
  gt_lte := by simp [lt_iff_not_le hy hx]
  lt_gte := by simp [lt_iff_not_le hx hy]
  gte_gt := by
    rw [Bool.eq_iff_iff]
    simp only [Bool.or_eq_true, decide_eq_true_iff, le_iff_lt_or_beq]
  same := by
    rw [Bool.eq_iff_iff]
    simp only [Bool.and_eq_true, decide_eq_true_iff, le_and_ge_iff]
  exact p q hp hq := by
    simp [lt_iff_toRat hq hp, lt_iff_toRat hp hq, beq_iff_toRat hq hp]

end

end CriteriaEvaluator
