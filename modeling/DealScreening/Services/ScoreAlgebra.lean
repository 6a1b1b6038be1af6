-- SUMMARY: The score as a percentage of exact weights: what it depends on, and which changes of the results can only raise it.
import DealScreening.Services.ScoreRange
import Mathlib.Algebra.BigOperators.Group.List.Basic
import Mathlib.Algebra.Order.BigOperators.Group.List
import Mathlib.Algebra.Order.Field.Basic

/-!
# The algebra of scores

With weights that are numbers the score is a function of the evaluated results alone: the
rounded percentage that the matched weight is of the whole, unless a dealbreaker fails.
-/

namespace ScoringService

open Python CriteriaEvaluator

-- ---------------------------------------------------------------------------
-- The percentage
-- ---------------------------------------------------------------------------

/-- Every weight is a number that is not negative. -/
def Weighted (results : List CriterionEvalResult) : Prop :=
  ∀ r ∈ results, ∃ q, toRat r.weight = some q ∧ 0 ≤ q

def exactWeight (r : CriterionEvalResult) : ℚ := (toRat r.weight).getD 0

/-- The results that were evaluated. -/
def evaluated (results : List CriterionEvalResult) : List CriterionEvalResult :=
  results.filter fun r => !r.skipped

/-- The weight of all of them. -/
def evaluatedWeight (results : List CriterionEvalResult) : ℚ :=
  ((evaluated results).map exactWeight).sum

/-- The weight of those that matched. -/
def metWeight (results : List CriterionEvalResult) : ℚ :=
  (((evaluated results).filter (·.matched)).map exactWeight).sum

/-- The rounded percentage, or 0 of nothing. -/
def percentage (results : List CriterionEvalResult) : Int :=
  if evaluatedWeight results = 0 then 0
  else roundHalfEven (metWeight results / evaluatedWeight results * 100)

section
variable {results results' before after : List CriterionEvalResult} {r r' : CriterionEvalResult}

theorem Weighted.subset (h : Weighted results) (hsub : results' ⊆ results) : Weighted results' :=
  fun r hr => h r (hsub hr)

theorem Weighted.evaluated (h : Weighted results) : Weighted (evaluated results) :=
  h.subset (List.filter_subset_self results)

theorem exactSum_eq (h : ∀ r ∈ results, ∃ q, toRat r.weight = some q) :
    exactSum (results.map (·.weight)) = some (results.map exactWeight).sum := by
  induction results with
  | nil => rfl
  | cons r results ih =>
    rw [List.forall_mem_cons] at h
    obtain ⟨⟨q, hq⟩, hrest⟩ := h
    rw [List.map_cons, exactSum_cons]
    exact ⟨q, _, hq, ih hrest, by rw [List.map_cons, List.sum_cons, exactWeight, hq]; rfl⟩

theorem Weighted.exactSum_filter (h : Weighted results) (p : CriterionEvalResult → Bool) :
    exactSum ((results.filter p).map (·.weight)) = some ((results.filter p).map exactWeight).sum :=
  exactSum_eq fun r hr => (h r (List.mem_of_mem_filter hr)).imp fun _ hq => hq.1

theorem evaluated_matched (results : List CriterionEvalResult) :
    results.filter (fun r => !r.skipped && r.matched) = (evaluated results).filter (·.matched) := by
  rw [evaluated, List.filter_filter]
  exact List.filter_congr fun r _ => Bool.and_comm _ _

/-- The score of results with weights. -/
theorem computeScore_eq (h : Weighted results) :
    computeScore results =
      .ok (if results.any dealbreakerFails then 0 else percentage results) := by
  unfold computeScore totalWeight matchedWeight
  rw [h.exactSum_filter, h.exactSum_filter, evaluated_matched]
  by_cases hnil : results = []
  · subst hnil
    rfl
  · rw [if_neg hnil]
    split
    · rfl
    · show (if evaluatedWeight results = 0 then _ else _) = _
      unfold percentage
      split <;> rfl

-- ---------------------------------------------------------------------------
-- What the score depends on
-- ---------------------------------------------------------------------------

theorem any_dealbreakerFails_evaluated (results : List CriterionEvalResult) :
    (evaluated results).any dealbreakerFails = results.any dealbreakerFails := by
  rw [evaluated, List.any_filter]
  refine congrArg (fun p => results.any p) (funext fun r => ?_)
  unfold dealbreakerFails
  cases r.skipped <;> simp

/-- Only the evaluated results count. -/
theorem computeScore_evaluated (h : Weighted results) (h' : Weighted results')
    (hsame : evaluated results' = evaluated results) : computeScore results' = computeScore results := by
  have hany : results'.any dealbreakerFails = results.any dealbreakerFails := by
    rw [← any_dealbreakerFails_evaluated, hsame, any_dealbreakerFails_evaluated]
  have hpercentage : percentage results' = percentage results := by
    unfold percentage evaluatedWeight metWeight
    rw [hsame]
  rw [computeScore_eq h', computeScore_eq h, hany, hpercentage]

theorem exactSum_cons' {w : Float} {ws : List Float} :
    exactSum (w :: ws) = (toRat w).bind fun q => (exactSum ws).map (q + ·) := by
  rw [exactSum, exactSum, List.mapM_cons]
  cases toRat w with
  | none => rfl
  | some q => cases ws.mapM toRat <;> rfl

theorem exactSum_perm {ws ws' : List Float} (hperm : ws'.Perm ws) : exactSum ws' = exactSum ws := by
  induction hperm with
  | nil => rfl
  | cons w _ ih => rw [exactSum_cons', exactSum_cons', ih]
  | swap w w' ws =>
    simp only [exactSum_cons']
    cases toRat w <;> cases toRat w' <;> cases exactSum ws <;> simp [add_left_comm]
  | trans _ _ ih ih' => rw [ih, ih']

/-- Their order does not, whatever the weights are. -/
theorem computeScore_perm (hperm : results'.Perm results) :
    computeScore results' = computeScore results := by
  have hsum : ∀ p : CriterionEvalResult → Bool, exactSum ((results'.filter p).map (·.weight)) =
      exactSum ((results.filter p).map (·.weight)) := fun p => exactSum_perm ((hperm.filter p).map _)
  have hnil : results' = [] ↔ results = [] := by
    rw [← List.length_eq_zero_iff, ← List.length_eq_zero_iff, hperm.length_eq]
  simp only [computeScore, totalWeight, matchedWeight, hnil, hperm.any_eq, hsum]

-- ---------------------------------------------------------------------------
-- The range
-- ---------------------------------------------------------------------------

theorem Weighted.exactWeight_nonneg (h : Weighted results) (hr : r ∈ results) : 0 ≤ exactWeight r := by
  obtain ⟨q, hq, hnonneg⟩ := h r hr
  rw [exactWeight, hq]
  exact hnonneg

theorem Weighted.sum_nonneg (h : Weighted results) : 0 ≤ (results.map exactWeight).sum :=
  List.sum_nonneg fun q hq => by
    obtain ⟨r, hr, rfl⟩ := List.mem_map.mp hq
    exact h.exactWeight_nonneg hr

theorem Weighted.score_range (h : Weighted results) {score : Int}
    (hscore : computeScore results = .ok score) : 0 ≤ score ∧ score ≤ 100 :=
  computeScore_range (fun r hr q hq => by
    obtain ⟨q', hq', hnonneg⟩ := h r hr
    cases hq.symm.trans hq'
    exact hnonneg) hscore

/-- When all that was evaluated matched the score is 100. -/
theorem computeScore_all (h : Weighted results) (hall : ∀ r ∈ results, r.skipped = false → r.matched = true)
    (hpos : 0 < evaluatedWeight results) : computeScore results = .ok 100 := by
  have hfails : results.any dealbreakerFails = false := by
    refine List.any_eq_false.mpr fun r hr hfail => ?_
    simp only [dealbreakerFails, Bool.and_eq_true, Bool.not_eq_true'] at hfail
    cases hfail.1.2.symm.trans (hall r hr hfail.2)
  have hmet : metWeight results = evaluatedWeight results := by
    rw [metWeight, List.filter_eq_self.mpr fun r hr => ?_]
    · rfl
    · obtain ⟨hmem, hskipped⟩ := List.mem_filter.mp hr
      exact hall r hmem (by simpa using hskipped)
  have hround : roundHalfEven (1 * 100) = 100 :=
    le_antisymm (roundHalfEven_le (by norm_num)) (le_roundHalfEven (by norm_num))
  rw [computeScore_eq h, hfails, percentage, if_neg hpos.ne', hmet, div_self hpos.ne', hround]
  rfl

-- ---------------------------------------------------------------------------
-- Monotonicity
-- ---------------------------------------------------------------------------

/-- The result of the same criterion, evaluated to a match. -/
structure NowMatched (r r' : CriterionEvalResult) : Prop where
  evaluated : r.skipped = false
  unmatched : r.matched = false
  evaluated' : r'.skipped = false
  matched : r'.matched = true
  weight : r'.weight = r.weight

theorem Weighted.nowMatched (h : Weighted (before ++ r :: after)) (hnow : NowMatched r r') :
    Weighted (before ++ r' :: after) := by
  intro x hx
  simp only [List.mem_append, List.mem_cons] at hx
  rcases hx with hx | rfl | hx
  · exact h x (by simp [hx])
  · rw [hnow.weight]
    exact h r (by simp)
  · exact h x (by simp [hx])

theorem evaluatedWeight_nowMatched (hnow : NowMatched r r') :
    evaluatedWeight (before ++ r' :: after) = evaluatedWeight (before ++ r :: after) := by
  simp [evaluatedWeight, evaluated, List.filter_append, hnow.evaluated, hnow.evaluated',
    exactWeight, hnow.weight]

theorem metWeight_nowMatched (hnow : NowMatched r r') :
    metWeight (before ++ r' :: after) = metWeight (before ++ r :: after) + exactWeight r := by
  simp only [metWeight, evaluated, List.filter_append, List.filter_cons, hnow.evaluated,
    hnow.evaluated', hnow.matched, hnow.unmatched, Bool.not_false, if_true, Bool.false_eq_true,
    if_false, List.map_append, List.map_cons, List.sum_append, List.sum_cons]
  rw [exactWeight, hnow.weight, ← exactWeight]
  ring

/-- A criterion that comes to match never lowers the score. -/
theorem computeScore_mono (h : Weighted (before ++ r :: after)) (hnow : NowMatched r r')
    {score score' : Int} (hscore : computeScore (before ++ r :: after) = .ok score)
    (hscore' : computeScore (before ++ r' :: after) = .ok score') : score ≤ score' := by
  have h' := h.nowMatched hnow
  have hrange' := (h'.score_range hscore').1
  rw [computeScore_eq h] at hscore
  rw [computeScore_eq h'] at hscore'
  cases hfails : (before ++ r :: after).any dealbreakerFails with
  | true =>
    rw [hfails] at hscore
    cases hscore
    exact hrange'
  | false =>
    -- No other dealbreaker fails either, and this one matches now.
    have hfails' : (before ++ r' :: after).any dealbreakerFails = false := by
      rw [List.any_append, List.any_cons, Bool.or_eq_false_iff, Bool.or_eq_false_iff] at hfails ⊢
      exact ⟨hfails.1, by simp [dealbreakerFails, hnow.matched], hfails.2.2⟩
    rw [hfails, if_neg Bool.false_ne_true] at hscore
    rw [hfails', if_neg Bool.false_ne_true] at hscore'
    cases hscore
    cases hscore'
    unfold percentage
    rw [evaluatedWeight_nowMatched hnow, metWeight_nowMatched hnow]
    split
    · exact Int.le_refl 0
    · refine roundHalfEven_mono (mul_le_mul_of_nonneg_right ?_ (by norm_num : (0 : ℚ) ≤ 100))
      refine div_le_div_of_nonneg_right ?_ h.evaluated.sum_nonneg
      exact le_add_of_nonneg_right (h.exactWeight_nonneg (by simp))

/-- The laws of the score. -/
theorem score_algebra (h : Weighted results) :
    (∃ score, computeScore results = .ok score ∧ 0 ≤ score ∧ score ≤ 100) ∧
    (∀ results', results'.Perm results → computeScore results' = computeScore results) ∧
    (∀ results', Weighted results' → evaluated results' = evaluated results →
      computeScore results' = computeScore results) ∧
    ((∃ r ∈ results, r.criterionType = .dealbreaker ∧ r.matched = false ∧ r.skipped = false) →
      computeScore results = .ok 0) ∧
    ((∀ r ∈ results, ¬ (r.criterionType = .dealbreaker ∧ r.matched = false ∧ r.skipped = false)) →
      computeScore results = .ok (if evaluatedWeight results = 0 then 0
        else roundHalfEven (metWeight results / evaluatedWeight results * 100))) ∧
    (∀ before r r' after, results = before ++ r :: after → NowMatched r r' →
      ∃ score score', computeScore results = .ok score ∧
        computeScore (before ++ r' :: after) = .ok score' ∧ score ≤ score') ∧
    ((∀ r ∈ results, r.skipped = false → r.matched = true) → 0 < evaluatedWeight results →
      computeScore results = .ok 100) := by
  have hscore := computeScore_eq h
  have hfails : ∀ r, dealbreakerFails r = true ↔
      r.criterionType = .dealbreaker ∧ r.matched = false ∧ r.skipped = false := by
    intro r
    simp [dealbreakerFails, and_assoc]
  refine ⟨⟨_, hscore, h.score_range hscore⟩, fun _ => computeScore_perm,
    fun _ h' => computeScore_evaluated h h', ?_, ?_, ?_, computeScore_all h⟩
  · rintro ⟨r, hr, hfail⟩
    rw [hscore, List.any_eq_true.mpr ⟨r, hr, (hfails r).mpr hfail⟩]
    rfl
  · intro hnone
    rw [hscore, List.any_eq_false.mpr fun r hr hfail => hnone r hr ((hfails r).mp hfail)]
    rfl
  · rintro before r r' after rfl hnow
    have hscore' := computeScore_eq (h.nowMatched hnow)
    exact ⟨_, _, hscore, hscore', computeScore_mono h hnow hscore hscore'⟩

end

/-- A dealbreaker that is met, and a criterion of the third of its weight that was skipped. -/
def sampleResults : List CriterionEvalResult :=
  [⟨text "Revenue", text "revenue", .dealbreaker, true, 0.75, [], false⟩,
    ⟨text "Sector", text "sector", .niceToHave, false, 0.25, [], true⟩]

theorem sampleResults_weighted : Weighted sampleResults := by
  intro r hr
  rcases List.mem_cons.mp hr with rfl | hr
  · exact ⟨3 / 4, by decide +kernel, by norm_num⟩
  · rw [List.mem_singleton.mp hr]
    exact ⟨1 / 4, by decide +kernel, by norm_num⟩

theorem score_algebra_sample : ∃ score, computeScore sampleResults = .ok score ∧
    0 ≤ score ∧ score ≤ 100 :=
  (score_algebra sampleResults_weighted).1

end ScoringService
