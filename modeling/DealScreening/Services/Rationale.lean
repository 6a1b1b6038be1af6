-- SUMMARY: The rationale as a report under four headings: every result is listed under exactly one, in the order of the criteria.
import DealScreening.Services.Scorable

/-!
# The headings of a rationale

Each heading of the rationale has its own filter. The filters partition the results
because the evaluation never marks a skipped result as matched.
-/

namespace ScoringService

open Python CriteriaEvaluator

inductive Heading where
  | dealbreakerTriggered
  | met
  | notMet
  | couldNotEvaluate
  deriving DecidableEq, Repr

namespace Heading

def all : List Heading := [.dealbreakerTriggered, .met, .notMet, .couldNotEvaluate]

def title : Heading → String
  | .dealbreakerTriggered => "DEALBREAKER TRIGGERED:"
  | .met => "Criteria met:"
  | .notMet => "Criteria not met:"
  | .couldNotEvaluate => "Could not evaluate (missing data):"

def bullet : Heading → String
  | .dealbreakerTriggered => "  - "
  | .met => "  + "
  | .notMet => "  - "
  | .couldNotEvaluate => "  ? "

/-- The filter of a heading. -/
def lists : Heading → CriterionEvalResult → Bool
  | .dealbreakerTriggered, r => dealbreakerFails r
  | .met, r => r.matched
  | .notMet, r => !r.matched && !r.skipped && r.criterionType ≠ .dealbreaker
  | .couldNotEvaluate, r => r.skipped

/-- The heading of a result, when a skipped one is unmatched. -/
def ofResult (r : CriterionEvalResult) : Heading :=
  if r.skipped then .couldNotEvaluate
  else if r.matched then .met
  else if r.criterionType = .dealbreaker then .dealbreakerTriggered
  else .notMet

theorem mem_all (heading : Heading) : heading ∈ all := by
  cases heading <;> decide

end Heading

section
variable {results : List CriterionEvalResult} {r : CriterionEvalResult} {score : Int}
  {confidence : ConfidenceLevel}

theorem Heading.lists_iff (hunmatched : r.skipped = true → r.matched = false) (heading : Heading) :
    heading.lists r = true ↔ Heading.ofResult r = heading := by
  unfold Heading.ofResult
  cases hskipped : r.skipped with
  | true =>
    have hmatched := hunmatched hskipped
    cases heading <;> simp [Heading.lists, dealbreakerFails, hskipped, hmatched]
  | false =>
    cases hmatched : r.matched with
    | true => cases heading <;> simp [Heading.lists, dealbreakerFails, hskipped, hmatched]
    | false =>
      by_cases htype : r.criterionType = .dealbreaker
      · cases heading <;> simp [Heading.lists, dealbreakerFails, hskipped, hmatched, htype]
      · cases heading <;> simp [Heading.lists, dealbreakerFails, hskipped, hmatched, htype]

/-- Only one heading lists a result. -/
theorem Heading.lists_unique (hunmatched : r.skipped = true → r.matched = false) :
    ∃! heading : Heading, heading.lists r = true :=
  ⟨ofResult r, (lists_iff hunmatched _).mpr rfl,
    fun heading h => ((lists_iff hunmatched heading).mp h).symm⟩

/-- The results under the headings are all of them, each as often as it occurs. -/
theorem listed_perm (hunmatched : ∀ r ∈ results, r.skipped = true → r.matched = false) :
    (Heading.all.flatMap fun heading => results.filter heading.lists).Perm results := by
  have hfilters : (Heading.all.flatMap fun heading => results.filter heading.lists) =
      Heading.all.flatMap fun heading => results.filter (Heading.ofResult · = heading) := by
    refine List.flatMap_congr fun heading _ => List.filter_congr fun r hr => ?_
    rw [Bool.eq_iff_iff, Heading.lists_iff (hunmatched r hr), decide_eq_true_iff]
  rw [hfilters]
  exact Table.groups_perm Heading.ofResult (by decide) fun r _ => Heading.mem_all _

/-- A first line, and a section for each heading that lists something. -/
theorem generateRationale_sections (hne : results ≠ []) :
    generateRationale results score confidence = Str.join (text "\n")
      ((text "Deal scored " ++ Str.ofInt score ++ text "/100 (confidence: " ++
          text confidence.value ++ text ").\n") ::
        Heading.all.flatMap fun heading =>
          rationaleSection heading.title heading.bullet (results.filter heading.lists)) := by
  unfold generateRationale rationaleLines
  rw [if_neg hne]
  simp only [Heading.all, List.flatMap_cons, List.flatMap_nil, List.append_nil,
    List.cons_append, List.append_assoc]
  rfl

/-- A dealbreaker is listed as triggered only where it makes the score 0. -/
theorem computeScore_triggered (hscore : computeScore results = .ok score)
    (h : results.filter Heading.dealbreakerTriggered.lists ≠ []) : score = 0 := by
  obtain ⟨r, hr⟩ := List.exists_mem_of_ne_nil _ h
  obtain ⟨hmem, hfails⟩ := List.mem_filter.mp hr
  have hany : results.any dealbreakerFails = true := List.any_eq_true.mpr ⟨r, hmem, hfails⟩
  unfold computeScore at hscore
  rw [if_neg (List.ne_nil_of_mem hmem), if_pos hany] at hscore
  exact (Except.ok.inj hscore).symm

end

theorem evaluatedValue_eq_none {fields : FieldsMap} {criterion : Criterion} :
    evaluatedValue fields criterion = none ↔
      ∀ field, getItem fields criterion.fieldName = some field →
        field.fieldStatus = .missing ∨ field.fieldValue = none := by
  unfold evaluatedValue
  cases getItem fields criterion.fieldName with
  | none => simp
  | some field =>
    simp only [Option.some.injEq, forall_eq']
    split <;> simp [*]

section
variable [Runtime] {fields : FieldsMap} {criteria : List Criterion}
  {results : List CriterionEvalResult}

end

end ScoringService
