-- SUMMARY: The scrubber of document texts: its five patterns and their replacements.
import DealScreening.Lib.Replace
import DealScreening.Python.ReRules

/-!
# Scrubbing personal data

`scrub_pii` runs five substitutions one after the other over the text that goes to the model.
-/

namespace PiiScrubber

open Python Python.Re

variable [ReTables]

-- ---------------------------------------------------------------------------
-- The patterns
-- ---------------------------------------------------------------------------

/-- `[-.\s]`. -/
def isPhoneSeparator (c : Nat) : Bool := c == 0x2D || c == 0x2E || isSpace c

/-- `[-\s]`. -/
def isCardSeparator (c : Nat) : Bool := c == 0x2D || isSpace c

/-- `[A-Za-z0-9.-]`. -/
def isDomainChar (c : Nat) : Bool := isAsciiLetter c || isDigit c || c == 0x2E || c == 0x2D

/-- `[A-Za-z0-9._%+-]`. -/
def isLocalChar (c : Nat) : Bool := isDomainChar c || c == 0x5F || c == 0x25 || c == 0x2B

/-- `[A-Z|a-z]`. -/
def isTopLevelChar (c : Nat) : Bool := isAsciiLetter c || c == 0x7C

/-- `\b\d{3}-\d{2}-\d{4}\b`. -/
def ssn : Re :=
  bounded (all [times isDecimal 3, char '-', times isDecimal 2, char '-', times isDecimal 4])

/-- `\b[A-Za-z0-9._%+-]+@[A-Za-z0-9.-]+\.[A-Z|a-z]{2,}\b`. -/
def email : Re :=
  bounded (all [run isLocalChar 1 none, char '@', run isDomainChar 1 none, char '.',
    run isTopLevelChar 2 none])

/-- `(?:\+?1[-.\s]?)?\(?\d{3}\)?[-.\s]?\d{3}[-.\s]?\d{4}`. -/
def phoneBody : Re :=
  all [opt (all [opt (char '+'), char '1', opt (one isPhoneSeparator)]),
    opt (char '('), times isDecimal 3, opt (char ')'), opt (one isPhoneSeparator),
    times isDecimal 3, opt (one isPhoneSeparator), times isDecimal 4]

def phone : Re := bounded phoneBody

/-- `\d{4}[-\s]?\d{4}[-\s]?\d{4}[-\s]?\d{1,7}`. -/
def cardBody : Re :=
  all [times isDecimal 4, opt (one isCardSeparator), times isDecimal 4,
    opt (one isCardSeparator), times isDecimal 4, opt (one isCardSeparator),
    run isDecimal 1 (some 7)]

def card : Re := bounded cardBody

/-- The label of a name and what separates it: `(?:contact|...|attn)[:\s]+`. -/
def label : Re :=
  seq (alt (fold (text "contact")) (alt (fold (text "prepared by")) (alt (fold (text "authored by"))
    (alt (fold (text "from")) (alt (fold (text "attention")) (fold (text "attn")))))))
    (run (fun c => c == 0x3A || isSpace c) 1 none)

/-- The name: `([A-Z][a-z]+ [A-Z][a-z]+)`. -/
def name : Re :=
  all [one isLetterFold, run isLetterFold 1 none, char ' ', one isLetterFold, run isLetterFold 1 none]

/-- `"[NAME_REDACTED]"`. -/
def nameMarker : Str := bracketed (text "NAME_REDACTED")

/-- The group is replaced wherever it stands in the match. -/
def nameNew (m : Match) : Str := Replacing.replace id m.group nameMarker m.text

/-- A pattern whose matches become a constant text in brackets. -/
def constant (re : Re) (inner : String) (nonempty : 0 < re.minLength)
    (opening : re.takes 0x5B = false) : Rule where
  re
  finder := find re
  new := fun _ => bracketed (text inner)
  finds := finds_find re
  nonempty
  opening
  brackets := fun _ _ _ _ => List.mem_cons_self ..

/-- The pattern of the labelled names with its callback. -/
def names : Rule where
  re := seq label name
  finder := findGroup label name
  new := nameNew
  finds := finds_findGroup label name
  nonempty := by decide
  opening := by rfl
  brackets := by
    intro prev s m h
    obtain ⟨u, htext, hlength⟩ := group_suffix h
    have hne : m.group ≠ [] := List.ne_nil_of_length_pos (Nat.lt_of_lt_of_le (by decide) hlength)
    refine Replacing.mem_replace (List.mem_cons_self ..) hne ?_
    rw [List.map_id, htext]
    exact (List.suffix_append u m.group).isInfix

/-- The first four of `_PII_PATTERNS`. -/
def constantPatterns : List Rule :=
  [constant ssn "SSN_REDACTED" (Nat.succ_pos 10) rfl,
    constant email "EMAIL_REDACTED" (Nat.succ_pos 5) rfl,
    constant phone "PHONE_REDACTED" (Nat.succ_pos 9) rfl,
    constant card "CC_REDACTED" (Nat.succ_pos 12) rfl]

/-- `_PII_PATTERNS`. -/
def piiPatterns : List Rule := constantPatterns ++ [names]

/-- `scrub_pii`. -/
def scrubPii (s : Str) : Str := applyAll piiPatterns s

section
variable {c : Nat}

/-- A telephone number begins with a digit, a plus or a parenthesis. -/
theorem phoneBody_first (hdecimal : isDecimal c = false) (hplus : c ≠ 0x2B) (hparen : c ≠ 0x28)
    (hone : c ≠ 0x31) : phoneBody.first c = false := by
  simp [phoneBody, all, Re.first, Re.char, Re.one, Re.times, Re.empty, Re.minLength,
    hdecimal, hplus, hparen, hone]

/-- It ends with a digit. -/
theorem phoneBody_final (hdecimal : isDecimal c = false) : phoneBody.final c = false := by
  simp [phoneBody, all, Re.final, Re.times, Re.empty, Re.minLength, hdecimal]

theorem cardBody_edges (hdecimal : isDecimal c = false) :
    cardBody.first c = false ∧ cardBody.final c = false := by
  simp [cardBody, all, Re.first, Re.final, Re.one, Re.times, Re.empty, Re.minLength, hdecimal]

/-- No class of the first four patterns reaches into a marker, and nothing matches in it. -/
theorem wall_of_marker {inner : Str} (hinner : ∀ c ∈ inner, isAsciiLetter c = true ∨ c = 0x5F) :
    ∀ rule ∈ constantPatterns, Wall rule.re inner := by
  have hrange : ∀ c ∈ inner, 0x41 ≤ c ∧ c ≤ 0x7A := by
    intro c hc
    have hc := hinner c hc
    simp only [isAsciiLetter, Bool.or_eq_true, Bool.and_eq_true, decide_eq_true_eq] at hc
    omega
  have hdecimal : ∀ c ∈ inner, isDecimal c = false := by
    intro c hc
    have hc := hrange c hc
    rw [isDecimal, if_pos (by omega), isDigit]
    simp
    omega
  simp only [constantPatterns, List.forall_mem_cons, constant]
  refine ⟨⟨rfl, rfl, ?_, Nat.succ_pos 10⟩, ⟨rfl, rfl, ?_, Nat.succ_pos 5⟩,
    ⟨rfl, rfl, ?_, Nat.succ_pos 9⟩, ⟨rfl, rfl, ?_, Nat.succ_pos 12⟩, by simp⟩
  · refine absent_of_notMem (d := '-') (by simp) fun hmem => ?_
    exact absurd (hrange _ hmem) (by decide)
  · refine absent_of_notMem (d := '@') (by simp) fun hmem => ?_
    exact absurd (hrange _ hmem) (by decide)
  · refine absent_of_final (Nat.succ_pos 9) fun c hc => ?_
    rw [phone, final_bounded]
    exact phoneBody_final (hdecimal c hc)
  · refine absent_of_final (Nat.succ_pos 12) fun c hc => ?_
    rw [card, final_bounded]
    exact (cardBody_edges (hdecimal c hc)).2

end

end PiiScrubber
