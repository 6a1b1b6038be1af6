-- SUMMARY: The target of a criterion from the form to the evaluator: what is typed is decoded once too often, so a text that reaches the evaluator never means what was typed.
import DealScreening.Api.Criteria

/-!
# Criteria form

The form parses a typed target as JSON where it can, and posts the value. The schema
takes a string only, and the evaluator decodes the stored string as JSON again.
-/

namespace CriteriaForm

open Python Json

-- ---------------------------------------------------------------------------
-- JSON in the browser
-- ---------------------------------------------------------------------------

/-- A number, after the sign. All numbers are doubles. -/
def scanDouble (neg : Bool) (s : Str) : Scan Json :=
  let whole := if s.head? = some 0x30 then [0x30] else s.takeWhile isDigit
  let rest := s.drop whole.length
  let fraction :=
    match rest with
    | 0x2E :: r => r.takeWhile isDigit
    | _ => []
  let afterFraction := if fraction = [] then rest else rest.drop (fraction.length + 1)
  if whole = [] then fail
  else match splitExponent afterFraction with
    | some (exp, r) => .ok (.float (decimalFloat neg whole fraction exp), r)
    | none => .ok (.float (decimalFloat neg whole fraction 0), afterFraction)

def names : List (Str × Json) :=
  [(text "null", .null), (text "true", .bool true), (text "false", .bool false)]

def scanAtom (s : Str) : Scan Json :=
  match s with
  | 0x22 :: rest => (scanString rest).map fun (u, rest) => (.str u, rest)
  | 0x2D :: rest => scanDouble true rest
  | _ =>
    match names.find? fun (name, _) => name.isPrefixOf s with
    | some (name, v) => .ok (v, s.drop name.length)
    | none => scanDouble false s

/-- A value that enters at most `depth` arrays and objects within each other. -/
def scanValue : Nat → Str → Scan Json
  | 0, s => scanAtom s
  | depth + 1, s =>
    match s with
    | 0x7B :: rest => scanObject (scanValue depth) rest
    | 0x5B :: rest => scanArray (scanValue depth) rest
    | s => scanAtom s

/-- `JSON.parse`, `none` where it throws. A text does not nest deeper than it is long. -/
def parse (s : Str) : Option Json :=
  match scanValue s.length (skipSpace s) with
  | .error _ => none
  | .ok (v, rest) => if skipSpace rest = [] then some v else none

/-- The letter of a short escape. -/
def escapeLetter (c : Nat) : Option Nat :=
  if c = 0x22 ∨ c = 0x5C then some c
  else if c = 0x08 then some 0x62
  else if c = 0x0C then some 0x66
  else if c = 0x0A then some 0x6E
  else if c = 0x0D then some 0x72
  else if c = 0x09 then some 0x74
  else none

def escapeUnit (c : Nat) : Str :=
  match escapeLetter c with
  | some letter => [0x5C, letter]
  | none => if c < 0x20 ∨ isSurrogate c then [0x5C, 0x75] ++ Str.hex 4 c else [c]

/-- `JSON.stringify` of a string. -/
def stringify (s : Str) : Str := 0x22 :: (s.flatMap escapeUnit ++ [0x22])

-- ---------------------------------------------------------------------------
-- From the form to the evaluator
-- ---------------------------------------------------------------------------

/-- `tryParseJSON`. -/
def tryParseJSON (value : Str) : Json := (parse value).getD (.str value)

/-- The text that is stored for a `target_value` that is posted with valid other members.
    The schema takes `str`, with no coercion; the column takes what it can store. -/
def storedTarget [Runtime] (target : Json) : Option PgText :=
  match target with
  | .str s =>
    match loads (stringify s) with
    | .ok (.str received) => PgText.ofStr received
    | _ => none
  | _ => none

/-- Whatever is stored for a typed target is decoded to what was typed. -/
def Survives [Runtime] (typed : Str) : Prop :=
  ∀ stored, storedTarget (tryParseJSON typed) = some stored →
    loads stored.val = .ok (tryParseJSON typed)

-- ---------------------------------------------------------------------------
-- What the server receives of a string
-- ---------------------------------------------------------------------------

/-- The escape of four digits is used. -/
def isNumbered (c : Nat) : Bool := (escapeLetter c).isNone && (c < 0x20 || isSurrogate c)

def units (s : Str) : List Unit16 := s.foldr (fun c units => consUnit (isNumbered c, c) units) []

/-- The characters of a string: adjacent halves of a pair are one character. -/
def codePoints (s : Str) : Str := (units s).map Prod.snd

theorem escapeLetter_spec {c letter : Nat} (h : escapeLetter c = some letter) :
    letter ≠ 0x75 ∧ simpleEscape letter = some c := by
  unfold escapeLetter at h
  split_ifs at h <;> cases h
  · rename_i hc
    rcases hc with rfl | rfl <;> decide
  all_goals
    subst_vars
    decide

theorem scanUnits_escapeUnit (c : Nat) (s : Str) :
    scanUnits (escapeUnit c ++ s) = consScan (isNumbered c, c) (scanUnits s) := by
  unfold escapeUnit isNumbered
  cases hletter : escapeLetter c with
  | some letter =>
    obtain ⟨hu, hsimple⟩ := escapeLetter_spec hletter
    simp only [List.cons_append, List.nil_append, Option.isNone_some, Bool.false_and]
    rw [scanUnits]
    · simp only [hsimple]
    · intros
      simp_all
  | none =>
    have hc : c ≠ 0x22 ∧ c ≠ 0x5C := by
      constructor <;>
      · rintro rfl
        exact Option.some_ne_none _ hletter
    by_cases hnumbered : c < 0x20 ∨ isSurrogate c = true
    · have hlt : c < 0x10000 := by
        rcases hnumbered with h | h
        · omega
        · have := isSurrogate_iff.mp h
          omega
      obtain ⟨p, q, r, t, hhex, hvalue⟩ := hex4_hex hlt
      simp only [if_pos hnumbered, hhex, List.cons_append, List.nil_append, Option.isNone_none,
        Bool.true_and]
      have hflag : (decide (c < 0x20) || isSurrogate c) = true := by simpa using hnumbered
      rw [scanUnits, hflag]
      simp only [hvalue]
    · have hflag : (decide (c < 0x20) || isSurrogate c) = false := by simpa using hnumbered
      have hplain : ¬ (c = 0x5C ∨ c < 0x20) := by
        rintro (h | h)
        · exact hc.2 h
        · exact hnumbered (.inl h)
      simp only [if_neg hnumbered, List.cons_append, List.nil_append]
      rw [scanUnits, if_neg hplain, hflag]
      · rfl
      · exact hc.1
      · rintro _ _ _ _ _ rfl
        exact absurd rfl hc.2
      · intro _ _ hbackslash _
        exact hc.2 hbackslash

theorem scanUnits_stringify (s rest : Str) :
    scanUnits (s.flatMap escapeUnit ++ 0x22 :: rest) = .ok (units s, rest) := by
  induction s with
  | nil => rfl
  | cons c s ih =>
    rw [List.flatMap_cons, List.append_assoc, scanUnits_escapeUnit, ih]
    rfl

/-- The server decodes the string that was posted. -/
theorem loads_stringify [Runtime] (s : Str) :
    loads (stringify s) = .ok (.str (codePoints s)) := by
  have hscan : ∀ depth, scanOnce depth (stringify s) = .ok (.str (codePoints s), []) := by
    intro depth
    have hstring : scanString (s.flatMap escapeUnit ++ [0x22]) =
        .ok (codePoints s, []) := by
      rw [scanString, scanUnits_stringify]
      rfl
    have hleaf : scanLeaf (stringify s) = .ok (.str (codePoints s), []) := by
      rw [stringify, scanLeaf, hstring]
      rfl
    cases depth with
    | zero => exact hleaf
    | succ depth => exact hleaf
  have hhead : (stringify s).head? ≠ some 0xFEFF := by simp [stringify]
  have hskip : skipSpace (stringify s) = stringify s := rfl
  rw [loads, if_neg hhead, hskip, hscan]
  rfl

theorem units_length (s : Str) : (units s).length ≤ s.length := by
  induction s with
  | nil => exact Nat.le_refl 0
  | cons c s ih =>
    have hcons := consUnit_length (isNumbered c, c) (units s)
    rw [units, List.foldr_cons, List.length_cons]
    change (consUnit (isNumbered c, c) (units s)).length ≤ s.length + 1
    omega

/-- A string without surrogates arrives as it is. -/
theorem codePoints_clean {s : Str} (h : ∀ c ∈ s, isSurrogate c = false) :
    codePoints s = s := by
  induction s with
  | nil => rfl
  | cons c s ih =>
    have hcons : consUnit (isNumbered c, c) (units s) = (isNumbered c, c) :: units s := by
      have hhigh : isHigh c = false := by
        have hc := h c (List.mem_cons_self ..)
        simp only [isSurrogate, isHigh, Bool.and_eq_false_iff, decide_eq_false_iff_not] at hc ⊢
        omega
      exact consUnit_of_not_high hhigh _
    change (consUnit (isNumbered c, c) (units s)).map Prod.snd = c :: s
    rw [hcons, List.map_cons]
    exact congrArg (c :: ·) (ih fun c' hc' => h c' (List.mem_cons_of_mem c hc'))

-- ---------------------------------------------------------------------------
-- What the evaluator makes of it
-- ---------------------------------------------------------------------------

theorem storedTarget_str [Runtime] (s : Str) :
    storedTarget (.str s) = PgText.ofStr (codePoints s) := by
  simp only [storedTarget, loads_stringify]

theorem storedTarget_of_not_str [Runtime] {v : Json} (h : ∀ s, v ≠ .str s) :
    storedTarget v = none := by
  cases v with
  | str s => exact absurd rfl (h s)
  | _ => rfl

/-- What is stored for a string does not decode to the string: JSON is longer. -/
theorem not_decoded [Runtime] {s : Str} {stored : PgText}
    (hstored : storedTarget (.str s) = some stored) : loads stored.val ≠ .ok (.str s) := by
  intro hloads
  have hval : stored.val = codePoints s :=
    PgText.ofStr_eq_some.mp ((storedTarget_str s).symm.trans hstored)
  have hshort := loads_str_length hloads
  have hle := units_length s
  rw [hval, codePoints, List.length_map] at hshort
  omega

/-- A target survives exactly when it is never stored: when it is no string, or a string
    that the column refuses. -/
theorem survives_iff [Runtime] (typed : Str) :
    Survives typed ↔ ∀ s, tryParseJSON typed = .str s → ¬ Storable (codePoints s) := by
  unfold Survives
  constructor
  · intro hsurvives s htarget hstorable
    rw [htarget] at hsurvives
    have hstored : storedTarget (.str s) = some ⟨codePoints s, hstorable⟩ :=
      (storedTarget_str s).trans (PgText.ofStr_eq_some.mpr rfl)
    exact not_decoded hstored (hsurvives _ hstored)
  · intro hrefused stored hstored
    by_cases hstr : ∃ s, tryParseJSON typed = .str s
    · obtain ⟨s, htarget⟩ := hstr
      rw [htarget, storedTarget_str] at hstored
      have hval := PgText.ofStr_eq_some.mp hstored
      exact absurd (hval ▸ stored.storable) (hrefused s htarget)
    · rw [storedTarget_of_not_str fun s heq => hstr ⟨s, heq⟩] at hstored
      cases hstored

/-- `healthcare` is stored as it is typed, and is no JSON. -/
theorem plain_text_not_decoded : ¬ ∀ (_ : Runtime) (typed : Str), Survives typed := by
  intro h
  have htarget : (parse (text "healthcare")).isNone = true := by decide +kernel
  have hloads : (@loads asciiRuntime (text "healthcare")).isOk = false := by decide +kernel
  have hsame : codePoints (text "healthcare") = text "healthcare" :=
    codePoints_clean (by decide)
  have hstored : @storedTarget asciiRuntime (.str (text "healthcare")) =
      some ⟨text "healthcare", by decide⟩ :=
    (@storedTarget_str asciiRuntime _).trans (PgText.ofStr_eq_some.mpr hsame.symm)
  have hsurvives := h asciiRuntime (text "healthcare")
  unfold Survives at hsurvives
  rw [tryParseJSON, Option.isNone_iff_eq_none.mp htarget] at hsurvives
  rw [hsurvives _ hstored] at hloads
  cases hloads

end CriteriaForm
