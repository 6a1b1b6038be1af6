-- SUMMARY: An evaluation does not depend on the order in which fields and criteria are loaded.
import DealScreening.Services.Confidence
import DealScreening.Services.ScoreAlgebra

/-!
# The order of an evaluation

The rows of a run and the criteria of a config are loaded without an order. The fields
are a dictionary, so theirs is never seen. That of the criteria shows in the results and
in the rationale, and not in the score and its confidence.
-/

namespace ScoringService

open Python CriteriaEvaluator

-- ---------------------------------------------------------------------------
-- The fields
-- ---------------------------------------------------------------------------

/-- What a dictionary holds under a key. -/
theorem getItem_eq_some {K V : Type} [DecidableEq K] {entries : List (K × V)} {key : K} {value : V}
    (hnodup : (entries.map Prod.fst).Nodup) :
    getItem entries key = some value ↔ (key, value) ∈ entries := by
  unfold getItem
  constructor
  · intro h
    obtain ⟨⟨key', value'⟩, hfind, rfl⟩ := Option.map_eq_some_iff.mp h
    obtain rfl : key' = key := by simpa using List.find?_some hfind
    exact List.mem_of_find?_eq_some hfind
  · intro h
    have hsome : (entries.find? fun entry => entry.1 = key).isSome := by
      rw [List.find?_isSome]
      exact ⟨_, h, decide_eq_true rfl⟩
    obtain ⟨entry, hfind⟩ := Option.isSome_iff_exists.mp hsome
    have hkey : entry.1 = key := by simpa using List.find?_some hfind
    have hentry := List.inj_on_of_nodup_map hnodup (List.mem_of_find?_eq_some hfind) h hkey
    rw [hfind, hentry]
    rfl

theorem getItem_perm {K V : Type} [DecidableEq K] {entries entries' : List (K × V)}
    (hperm : entries'.Perm entries) (hnodup : (entries.map Prod.fst).Nodup) (key : K) :
    getItem entries' key = getItem entries key := by
  have hnodup' : (entries'.map Prod.fst).Nodup := (hperm.map _).nodup_iff.mpr hnodup
  refine Option.ext fun value => ?_
  rw [getItem_eq_some hnodup', getItem_eq_some hnodup, hperm.mem_iff]

section
variable [Runtime] {criteria criteria' : List Criterion} {fields fields' : FieldsMap}
  {ev : Evaluation}

/-- A dictionary with the same entries gives the same evaluation. -/
theorem evaluate_fields_perm (hperm : fields'.Perm fields) (hnodup : (fields.map Prod.fst).Nodup) :
    evaluate criteria fields' = evaluate criteria fields := by
  have hfield : evaluateField fields' = evaluateField fields := by
    funext criterion
    rw [evaluateField, evaluateField, getItem_perm hperm hnodup]
  have hconfidence : ∀ results, computeScoringConfidence results fields' =
      computeScoringConfidence results fields := fun results => by
    simp only [computeScoringConfidence, (((hperm.map Prod.snd).filter _).all_eq)]
  simp only [evaluate, evaluateAllCriteria, hfield, hconfidence]

-- ---------------------------------------------------------------------------
-- The criteria
-- ---------------------------------------------------------------------------

/-- The criteria in another order give the same results, in that order. -/
theorem evaluateAllCriteria_perm {results : List CriterionEvalResult}
    (hperm : criteria'.Perm criteria) (h : evaluateAllCriteria criteria fields = .ok results) :
    ∃ results', evaluateAllCriteria criteria' fields = .ok results' ∧ results'.Perm results := by
  obtain ⟨results', hresults', hperm'⟩ := List.perm_comp_forall₂ hperm (Except.mapM_eq_ok.mp h)
  exact ⟨results', Except.mapM_eq_ok.mpr hresults', hperm'⟩

theorem evaluate_criteria_perm (hperm : criteria'.Perm criteria)
    (h : evaluate criteria fields = .ok ev) : ∃ ev', evaluate criteria' fields = .ok ev' ∧
      ev'.score = ev.score ∧ ev'.confidence = ev.confidence := by
  obtain ⟨results, hresults, h⟩ := Except.bind_eq_ok.mp h
  obtain ⟨score, hscore, h⟩ := Except.bind_eq_ok.mp h
  cases h
  obtain ⟨results', hresults', hperm'⟩ := evaluateAllCriteria_perm hperm hresults
  have hscore' : computeScore results' = .ok score := (computeScore_perm hperm').trans hscore
  refine ⟨⟨results', score, _, _⟩,
    Except.bind_eq_ok.mpr ⟨results', hresults', Except.bind_eq_ok.mpr ⟨score, hscore', rfl⟩⟩, rfl, ?_⟩
  have hunevaluated : unevaluated criteria' fields = unevaluated criteria fields :=
    hperm.countP_eq _
  dsimp only
  rw [evaluated_confidence hresults', evaluated_confidence hresults, hperm.length_eq, hunevaluated]

end

end ScoringService
