-- SUMMARY: A score lies between 0 and 100 when no weight is negative.
import DealScreening.Services.Scorable
import Mathlib.Tactic.Positivity

/-!
# The range of a score

The matched weight is part of the total weight, so the percentage cannot pass 100. It
takes that no weight is negative, which the request that configures them checks.
-/

namespace ScoringService

open Python CriteriaEvaluator

theorem exactSum_cons {w : Float} {ws : List Float} {sum : ℚ} :
    exactSum (w :: ws) = some sum ↔
      ∃ q rest, toRat w = some q ∧ exactSum ws = some rest ∧ q + rest = sum := by
  simp only [exactSum, List.mapM_cons]
  cases toRat w with
  | none => simp
  | some q => cases ws.mapM toRat <;> simp

/-- The weights of some of the results are part of the weights of more of them. -/
theorem exactSum_filter_le {results : List CriterionEvalResult} {p p' : CriterionEvalResult → Bool}
    {sum sum' : ℚ} (hweight : ∀ r ∈ results, ∀ q, toRat r.weight = some q → 0 ≤ q)
    (himp : ∀ r, p r = true → p' r = true)
    (hsum : exactSum ((results.filter p).map (·.weight)) = some sum)
    (hsum' : exactSum ((results.filter p').map (·.weight)) = some sum') :
    0 ≤ sum ∧ sum ≤ sum' := by
  induction results generalizing sum sum' with
  | nil =>
    cases hsum
    cases hsum'
    exact ⟨le_refl _, le_refl _⟩
  | cons r results ih =>
    have hrest := fun r' hr' => hweight r' (List.mem_cons_of_mem r hr')
    by_cases hp : p r = true
    · rw [List.filter_cons_of_pos hp, List.map_cons, exactSum_cons] at hsum
      rw [List.filter_cons_of_pos (himp r hp), List.map_cons, exactSum_cons] at hsum'
      obtain ⟨q, rest, hq, hrestSum, rfl⟩ := hsum
      obtain ⟨q', rest', hq', hrestSum', rfl⟩ := hsum'
      cases hq.symm.trans hq'
      have hnonneg := hweight r (List.mem_cons_self ..) q hq
      obtain ⟨hle, hle'⟩ := ih hrest hrestSum hrestSum'
      exact ⟨by linarith, by linarith⟩
    · rw [List.filter_cons_of_neg hp] at hsum
      by_cases hp' : p' r = true
      · rw [List.filter_cons_of_pos hp', List.map_cons, exactSum_cons] at hsum'
        obtain ⟨q', rest', hq', hrestSum', rfl⟩ := hsum'
        have hnonneg := hweight r (List.mem_cons_self ..) q' hq'
        obtain ⟨hle, hle'⟩ := ih hrest hsum hrestSum'
        exact ⟨hle, by linarith⟩
      · rw [List.filter_cons_of_neg hp'] at hsum'
        exact ih hrest hsum hsum'

theorem computeScore_range {results : List CriterionEvalResult} {score : Int}
    (hweight : ∀ r ∈ results, ∀ q, toRat r.weight = some q → 0 ≤ q)
    (h : computeScore results = .ok score) : 0 ≤ score ∧ score ≤ 100 := by
  unfold computeScore at h
  split at h
  · cases h
    decide
  · split at h
    · cases h
      decide
    · cases htotal : totalWeight results with
      | none => simp [htotal] at h
      | some total =>
        cases hmatched : matchedWeight results with
        | none => simp [htotal, hmatched] at h
        | some matched =>
          obtain ⟨hnonneg, hle⟩ := exactSum_filter_le hweight
            (fun r hr => (Bool.and_eq_true_iff.mp hr).1) hmatched htotal
          simp only [htotal, hmatched] at h
          split at h
          · cases h
            decide
          · rename_i hzero
            cases h
            have htotalPos : 0 < total := lt_of_le_of_ne (hnonneg.trans hle) (Ne.symm hzero)
            have hratio : matched / total ≤ 1 := (div_le_one htotalPos).mpr hle
            have hpercent : 0 ≤ matched / total := div_nonneg hnonneg htotalPos.le
            refine ⟨le_roundHalfEven ?_, roundHalfEven_le ?_⟩
            · push_cast
              positivity
            · push_cast
              linarith

/-- A config whose weights are not negative scores between 0 and 100. -/
theorem evaluate_range [Runtime] {criteria : List Criterion} {fields : FieldsMap} {ev : Evaluation}
    (hweight : ∀ c ∈ criteria, ¬ c.weight < 0.0) (h : evaluate criteria fields = .ok ev) :
    0 ≤ ev.score ∧ ev.score ≤ 100 := by
  obtain ⟨results, hresults, h⟩ := Except.bind_eq_ok.mp h
  obtain ⟨score, hscore, h⟩ := Except.bind_eq_ok.mp h
  cases h
  refine computeScore_range (fun r hr q hq => ?_) hscore
  obtain ⟨c, hc, hfield⟩ := Except.mapM_ok_right hresults hr
  rw [evaluateField_weight hfield] at hq
  exact toRat_nonneg (hweight c hc) hq

end ScoringService
