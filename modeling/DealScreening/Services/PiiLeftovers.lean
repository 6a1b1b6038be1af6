-- SUMMARY: What the scrubber leaves behind: no match after the first four substitutions, and when the last one opens new ones.
import DealScreening.Services.PiiScrubber

/-!
# What scrubbing leaves

The first four patterns ask for word boundaries at both ends, and their replacements are walls,
so that they leave nothing of each other. The last substitution takes away letters that stood
next to a number, and after it a labelled name may be put together anew.
-/

namespace PiiScrubber

open Python Python.Re

section
variable [ReTables]

/-- The text before the last substitution. -/
def beforeNames (s : Str) : Str := applyAll constantPatterns s

/-- A match with a mark wherever its group stands. -/
def groupMarks (m : Match) : Marked :=
  Replacing.replace (·.getD 0) m.group [none] (m.text.map some)

/-- The texts that the last substitution leaves between the names it replaces. -/
def keptTexts (s : Str) : List Str :=
  segments [] (marks groupMarks (cuts names.finder 0 none s))

/-- Nothing is recognised in the scrubbed text, and scrubbing it again changes nothing. -/
structure LeavesNothing (s : Str) : Prop where
  absent : ∀ rule ∈ piiPatterns, Absent rule.re (scrubPii s)
  idempotent : scrubPii (scrubPii s) = scrubPii s

/-! ## The first four substitutions -/

theorem bounded_of_constant : ∀ rule ∈ constantPatterns, Bounded rule.re := by
  simp only [constantPatterns, List.forall_mem_cons, constant]
  exact ⟨bounded_bounded _, bounded_bounded _, bounded_bounded _, bounded_bounded _, by simp⟩

/-- The replacements of the first four rules are markers. -/
theorem new_of_constant : ∀ rule ∈ constantPatterns, ∃ inner : Str,
    rule.new = (fun _ => bracketed inner) ∧ ∀ c ∈ inner, isAsciiLetter c = true ∨ c = 0x5F := by
  simp only [constantPatterns, List.forall_mem_cons, constant]
  exact ⟨⟨_, rfl, by decide⟩, ⟨_, rfl, by decide⟩, ⟨_, rfl, by decide⟩, ⟨_, rfl, by decide⟩, by simp⟩

/-- After them none of their patterns matches. -/
theorem absent_beforeNames (s : Str) : ∀ rule ∈ constantPatterns, Absent rule.re (beforeNames s) := by
  intro rule hrule
  refine absent_applyAll (bounded_of_constant rule hrule) (fun other hother => ?_) (.inr ⟨rule, hrule, rfl⟩)
  obtain ⟨inner, hnew, hinner⟩ := new_of_constant other hother
  exact ⟨bounded_of_constant other hother, inner, hnew, wall_of_marker hinner rule hrule⟩

/-! ## The substitution of names -/

theorem wall_names : ∀ rule ∈ piiPatterns, Wall rule.re (text "NAME_REDACTED") := by
  intro rule hrule
  rcases List.mem_append.1 hrule with hrule | hrule
  · exact wall_of_marker (by decide) rule hrule
  · obtain rfl := List.mem_singleton.1 hrule
    exact ⟨rfl, rfl, (absent_iff names.finds names.nonempty).2 rfl, names.nonempty⟩

theorem names_apply (s : Str) :
    names.apply s = fill nameMarker (marks groupMarks (cuts names.finder 0 none s)) := by
  rw [fill_marks, Rule.apply, sub]
  congr 1
  funext m
  exact (@Replacing.flatMap_scan _ _ _ (·.getD 0) m.group [none] some
    (·.elim nameMarker fun c => [c]) (fun _ => rfl) (fun _ => rfl) 0 m.text).symm

/-- A pattern matches after the last substitution when it matches in a text between the names. -/
theorem absent_scrubPii {rule : Rule} (hrule : rule ∈ piiPatterns) (s : Str) :
    Absent rule.re (scrubPii s) ↔ ∀ x ∈ keptTexts (beforeNames s), Absent rule.re x := by
  have hscrub : scrubPii s = names.apply (beforeNames s) := by
    rw [scrubPii, piiPatterns, applyAll, List.foldl_append]
    rfl
  rw [hscrub, names_apply, ← List.nil_append (fill _ _)]
  exact absent_fill (wall_names rule hrule)

omit [ReTables] in
theorem under_replace {group x : Str} {skip : Nat} (hskip : skip ≤ x.length) :
    Under (Replacing.scan (·.getD 0) group [none] skip (x.map some)) (x.drop skip) := by
  induction x generalizing skip with
  | nil =>
    cases skip <;> exact .nil
  | cons c x ih =>
    cases skip with
    | succ skip => exact ih (Nat.le_of_succ_le_succ hskip)
    | zero =>
      simp only [Replacing.scan, List.map_cons, List.drop_zero]
      split
      · next hmatch =>
        have hlength : group.length - 1 ≤ x.length := by
          have hle := hmatch.length_le
          simp at hle
          omega
        have hunder := ih hlength
        have hsplit : c :: x = (c :: x.take (group.length - 1)) ++ x.drop (group.length - 1) := by
          rw [List.cons_append, List.take_append_drop]
        rw [hsplit]
        exact .mark _ hunder
      · exact .char c (ih (Nat.zero_le _))

/-- The kept texts are parts of the text. -/
theorem infix_of_kept {s x : Str} (hx : x ∈ keptTexts s) : x <:+: s := by
  have hcut : Cut names.finder none s (cuts names.finder 0 none s) := cut_cuts names.finds names.nonempty
  have hunder : Under (marks groupMarks (cuts names.finder 0 none s)) s := by
    conv_rhs => rw [← hcut.text]
    exact under_marks fun p _ => under_replace (Nat.zero_le _)
  exact hunder.part_of_text hx

end

end PiiScrubber
