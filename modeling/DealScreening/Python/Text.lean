-- SUMMARY: Python strings as lists of code points: `strip`, `lower`, `in`, `join` and the `repr` of a string.
import Mathlib.Data.List.DropRight
import Mathlib.Data.List.Infix
import Mathlib.Data.Nat.Digits.Defs

/-!
# Python strings

A string is the list of its code points. It can hold a lone surrogate, which a
Lean `String` cannot: `json.loads` makes one of the escape `\ud800`.
-/

namespace Python

/-- The type `str`. -/
abbrev Str := List Nat

instance : LawfulBEq Str := inferInstanceAs (LawfulBEq (List Nat))

def isSurrogate (c : Nat) : Bool := 0xD800 ≤ c && c ≤ 0xDFFF

/-- The built-in exceptions a program meets here. -/
inductive Error where
  | valueError
  | jsonDecodeError
  | overflowError
  | recursionError
  | typeError
  | attributeError
  | keyError
  deriving DecidableEq, Repr

/-- What a program sees of its interpreter: the Unicode tables of the version it
    is, the texts of its exceptions, and how deep the C recursion of `json.loads`
    and `repr` may still go. -/
class Runtime where
  lower : Str → Str
  /-- The digit value of a decimal character beyond ASCII. -/
  decimal : Nat → Option Nat
  printable : Nat → Bool
  /-- Category `Cs` is not printable. -/
  printable_surrogate : ∀ c, isSurrogate c = true → printable c = false
  errorText : Error → Str
  scanDepth : Nat
  reprDepth : Nat

/-- A string literal, and the text of a database column. -/
def text (s : String) : Str := s.toList.map Char.toNat

theorem text_injective : Function.Injective text := by
  intro s t h
  have hchars : s.toList = t.toList :=
    List.map_injective_iff.mpr (fun a b hab => Char.toNat_inj.mp hab) h
  exact String.toList_inj.mp hchars

theorem text_append (a b : String) : text (a ++ b) = text a ++ text b := by
  simp [text]

/-- `str.isspace` of one character. -/
def isSpace (c : Nat) : Bool :=
  (0x09 ≤ c && c ≤ 0x0D) || (0x1C ≤ c && c ≤ 0x20) || c == 0x85 || c == 0xA0 || c == 0x1680 ||
  (0x2000 ≤ c && c ≤ 0x200A) || c == 0x2028 || c == 0x2029 || c == 0x202F || c == 0x205F ||
  c == 0x3000

def isAsciiSpace (c : Nat) : Bool := (0x09 ≤ c && c ≤ 0x0D) || c == 0x20

def isDigit (c : Nat) : Bool := 0x30 ≤ c && c ≤ 0x39

namespace Str

/-- Drop the characters with `p` at both ends. -/
def stripBy (p : Nat → Bool) (s : Str) : Str := (s.dropWhile p).rdropWhile p

def strip (s : Str) : Str := stripBy isSpace s

def lower [Runtime] (s : Str) : Str := Runtime.lower s

/-- `s.replace(c, "")`. -/
def remove (c : Char) (s : Str) : Str := s.filter (· ≠ c.toNat)

/-- `sub in s`. -/
def hasSubstring (sub s : Str) : Bool := decide (sub <:+: s)

/-- `sep.join(parts)`. -/
def join (sep : Str) (parts : List Str) : Str := List.intercalate sep parts

/-- The decimal digits of a number, without leading zeros. -/
def ofNat (n : Nat) : Str := if n = 0 then [0x30] else (Nat.digits 10 n).reverse.map (0x30 + ·)

def ofInt : Int → Str
  | .ofNat n => ofNat n
  | .negSucc n => 0x2D :: ofNat (n + 1)

/-! ## `repr` -/

def hexDigit (n : Nat) : Nat := if n < 10 then 0x30 + n else 0x61 + (n - 10)

/-- The last `width` hexadecimal digits of a number. -/
def hex : Nat → Nat → Str
  | 0, _ => []
  | width + 1, n => hex width (n / 16) ++ [hexDigit (n % 16)]

/-- Single quotes, unless the string holds one and no double quote. -/
def quoteOf (s : Str) : Nat := if 0x27 ∈ s ∧ 0x22 ∉ s then 0x22 else 0x27

def escape [Runtime] (quote c : Nat) : Str :=
  if c = quote ∨ c = 0x5C then [0x5C, c]
  else if c = 0x09 then text "\\t"
  else if c = 0x0A then text "\\n"
  else if c = 0x0D then text "\\r"
  else if c < 0x20 ∨ c = 0x7F then text "\\x" ++ hex 2 c
  else if c < 0x7F ∨ Runtime.printable c then [c]
  else if c ≤ 0xFF then text "\\x" ++ hex 2 c
  else if c ≤ 0xFFFF then text "\\u" ++ hex 4 c
  else text "\\U" ++ hex 8 c

def repr [Runtime] (s : Str) : Str :=
  quoteOf s :: s.flatMap (escape (quoteOf s)) ++ [quoteOf s]

end Str

/-! ## Characters that reach the screen -/

/-- No control character of ASCII and no surrogate. -/
def Clean (s : Str) : Prop := ∀ c ∈ s, 0x20 ≤ c ∧ isSurrogate c = false

instance (s : Str) : Decidable (Clean s) := inferInstanceAs (Decidable (∀ c ∈ s, _))

section
variable {s t : Str} {c : Nat}

theorem mem_hex {width n : Nat} (h : c ∈ Str.hex width n) : ∃ k < 16, c = Str.hexDigit k := by
  induction width generalizing n with
  | zero => cases h
  | succ width ih =>
    rcases List.mem_append.mp h with h | h
    · exact ih h
    · exact ⟨n % 16, Nat.mod_lt n (by decide), List.mem_singleton.mp h⟩

theorem length_hex (width n : Nat) : (Str.hex width n).length = width := by
  induction width generalizing n with
  | zero => rfl
  | succ width ih => simp [Str.hex, ih]

theorem hex_injective {width m n : Nat} (hm : m < 16 ^ width) (hn : n < 16 ^ width)
    (h : Str.hex width m = Str.hex width n) : m = n := by
  induction width generalizing m n with
  | zero => omega
  | succ width ih =>
    obtain ⟨hhigh, hlow⟩ := List.append_inj' h rfl
    have hdigit : ∀ i < 16, ∀ j < 16, Str.hexDigit i = Str.hexDigit j → i = j := by decide
    have hmod := hdigit (m % 16) (Nat.mod_lt m (by decide)) (n % 16) (Nat.mod_lt n (by decide))
      (List.singleton_inj.mp hlow)
    have hdiv := ih (Nat.div_lt_of_lt_mul (by rw [pow_succ'] at hm; omega))
      (Nat.div_lt_of_lt_mul (by rw [pow_succ'] at hn; omega)) hhigh
    omega
theorem isSurrogate_iff : isSurrogate c = true ↔ 0xD800 ≤ c ∧ c ≤ 0xDFFF := by
  simp [isSurrogate]

theorem isSurrogate_ascii (h : c < 0x80) : isSurrogate c = false := by
  rw [← Bool.not_eq_true, isSurrogate_iff]
  omega

@[simp] theorem clean_nil : Clean [] := nofun

@[simp] theorem clean_cons : Clean (c :: s) ↔ (0x20 ≤ c ∧ isSurrogate c = false) ∧ Clean s := by
  simp [Clean]

@[simp] theorem clean_append : Clean (s ++ t) ↔ Clean s ∧ Clean t := by
  simp only [Clean, List.mem_append]
  constructor
  · intro h
    exact ⟨fun c hc => h c (.inl hc), fun c hc => h c (.inr hc)⟩
  · rintro ⟨hs, ht⟩ c (hc | hc)
    · exact hs c hc
    · exact ht c hc

theorem Clean.subset (h : Clean s) (hsub : t ⊆ s) : Clean t := fun c hc => h c (hsub hc)

theorem clean_flatMap {f : Nat → Str} (h : ∀ c ∈ s, Clean (f c)) : Clean (s.flatMap f) := by
  intro c hc
  obtain ⟨d, hd, hc⟩ := List.mem_flatMap.mp hc
  exact h d hd c hc

theorem clean_join {sep : Str} {parts : List Str} (hsep : Clean sep)
    (h : ∀ p ∈ parts, Clean p) : Clean (Str.join sep parts) := by
  unfold Str.join
  induction parts with
  | nil => simp [List.intercalate]
  | cons p parts ih =>
    cases parts with
    | nil => simpa [List.intercalate] using h p
    | cons q parts =>
      rw [List.intercalate_cons_cons]
      simp only [clean_append]
      have hp := h p (List.mem_cons_self ..)
      have hrest := ih fun r hr => h r (List.mem_cons_of_mem p hr)
      exact ⟨⟨hp, hsep⟩, hrest⟩

theorem clean_ofNat (n : Nat) : Clean (Str.ofNat n) := by
  unfold Str.ofNat
  split
  · decide
  · intro c hc
    simp only [List.mem_map, List.mem_reverse] at hc
    obtain ⟨d, hd, rfl⟩ := hc
    have hlt : d < 10 := Nat.digits_lt_base (by decide) hd
    exact ⟨by omega, isSurrogate_ascii (by omega)⟩

theorem clean_ofInt (n : Int) : Clean (Str.ofInt n) := by
  cases n with
  | ofNat n => exact clean_ofNat n
  | negSucc n => exact clean_cons.mpr ⟨by decide, clean_ofNat (n + 1)⟩

theorem clean_hex (width n : Nat) : Clean (Str.hex width n) := by
  induction width generalizing n with
  | zero => exact clean_nil
  | succ width ih =>
    have hdigit : 0x20 ≤ Str.hexDigit (n % 16) ∧ Str.hexDigit (n % 16) < 0x80 := by
      unfold Str.hexDigit
      split <;> omega
    have hlast := clean_cons.mpr ⟨⟨hdigit.1, isSurrogate_ascii hdigit.2⟩, clean_nil⟩
    exact clean_append.mpr ⟨ih (n / 16), hlast⟩

theorem clean_quoteOf (s : Str) : Clean [Str.quoteOf s] := by
  unfold Str.quoteOf
  split <;> decide

theorem clean_escape [Runtime] {quote : Nat} (hquote : Clean [quote]) :
    Clean (Str.escape quote c) := by
  unfold Str.escape
  split
  · rename_i h
    obtain rfl | rfl := h
    · exact clean_append (s := [0x5C]) |>.mpr ⟨by decide, hquote⟩
    · decide
  · split_ifs with htab hnl hcr hctl hprint
    · decide
    · decide
    · decide
    · exact clean_append.mpr ⟨by decide, clean_hex _ _⟩
    · have hlow : 0x20 ≤ c := by omega
      have hsur : isSurrogate c = false := by
        obtain hascii | hprint := hprint
        · exact isSurrogate_ascii (by omega)
        · by_contra hsur
          have hnot := Runtime.printable_surrogate c (by simpa using hsur)
          simp [hprint] at hnot
      exact clean_cons.mpr ⟨⟨hlow, hsur⟩, clean_nil⟩
    · exact clean_append.mpr ⟨by decide, clean_hex _ _⟩
    · exact clean_append.mpr ⟨by decide, clean_hex _ _⟩
    · exact clean_append.mpr ⟨by decide, clean_hex _ _⟩

/-- The `repr` of any string can be shown, whatever the string holds. -/
theorem clean_strRepr [Runtime] (s : Str) : Clean (Str.repr s) := by
  have hquote := clean_quoteOf s
  have hbody : Clean (s.flatMap (Str.escape (Str.quoteOf s))) :=
    clean_flatMap fun c _ => clean_escape hquote
  unfold Str.repr
  exact clean_append.mpr ⟨clean_cons.mpr ⟨(clean_cons.mp hquote).1, hbody⟩, hquote⟩

end

end Python
