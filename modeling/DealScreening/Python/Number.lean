-- SUMMARY: Python numbers: `float` of a string and of an integer, `round`, and the `repr` of a float. A float is a Lean `Float`.
import DealScreening.Python.Text
import Mathlib.Data.Int.Log
import Mathlib.Data.Nat.Digits.Lemmas
import Mathlib.Data.Rat.Floor

/-!
# Python numbers

The type `float` is the binary64 format, as is Lean's `Float`. Where a sum or a
quotient has to be exact, a float stands for the rational number `toRat`.
-/

namespace Python

/-! ## Decimal numerals -/

def digitsValue (ds : Str) : Nat := ds.foldl (fun n d => 10 * n + (d - 0x30)) 0

/-- The float nearest to `m * 10 ^ e`. -/
def scientific (m : Nat) (e : Int) : Float := Float.ofScientific m (e < 0) e.natAbs

/-- The float nearest to the numeral `whole.frac` times `10 ^ exp`. -/
def decimalFloat (neg : Bool) (whole frac : Str) (exp : Int) : Float :=
  let x := scientific (digitsValue (whole ++ frac)) (exp - frac.length)
  if neg then -x else x

/-- A sign at the front, and whether it is a minus. -/
def splitSign : Str → Bool × Str
  | 0x2D :: s => (true, s)
  | 0x2B :: s => (false, s)
  | s => (false, s)

/-- An exponent part at the front. Without a digit there is none. -/
def splitExponent (s : Str) : Option (Int × Str) :=
  match s with
  | e :: rest =>
    let (neg, ds) := splitSign rest
    let exp : Int := digitsValue (ds.takeWhile isDigit)
    if (e = 0x65 ∨ e = 0x45) ∧ ds.takeWhile isDigit ≠ [] then
      some (if neg then -exp else exp, ds.dropWhile isDigit)
    else none
  | [] => none

/-! ## The digits of a number -/

theorem digit_range {c : Nat} (h : isDigit c = true) : 0x30 ≤ c ∧ c ≤ 0x39 := by
  simpa [isDigit] using h

theorem isDigit_ofNat {n c : Nat} (h : c ∈ Str.ofNat n) : isDigit c = true := by
  unfold Str.ofNat at h
  split at h
  · obtain rfl := List.mem_singleton.1 h
    rfl
  · simp only [List.mem_map, List.mem_reverse] at h
    obtain ⟨d, hd, rfl⟩ := h
    have hlt : d < 10 := Nat.digits_lt_base (by decide) hd
    simp only [isDigit, Bool.and_eq_true, decide_eq_true_eq]
    omega

theorem ofNat_append {n : Nat} (h : 10 ≤ n) :
    Str.ofNat n = Str.ofNat (n / 10) ++ [0x30 + n % 10] := by
  have hpos : n ≠ 0 := by omega
  have hrest : n / 10 ≠ 0 := by omega
  rw [Str.ofNat, Str.ofNat, if_neg hpos, if_neg hrest, Nat.digits_def' (by decide) (by omega)]
  simp

/-- A number of so many digits, and the first of them. -/
theorem ofNat_digits {n k : Nat} (hlow : 10 ^ k ≤ n) (hhigh : n < 10 ^ (k + 1)) :
    (Str.ofNat n).length = k + 1 ∧ (Str.ofNat n).head? = some (0x30 + n / 10 ^ k) := by
  induction k generalizing n with
  | zero =>
    have hpos : n ≠ 0 := by omega
    have hlt : n < 10 := hhigh
    rw [Str.ofNat, if_neg hpos, Nat.digits_of_lt 10 n hpos hlt]
    simp
  | succ k ih =>
    have hten : 10 ≤ n := by
      have hpow : 10 ^ 1 ≤ 10 ^ (k + 1) := Nat.pow_le_pow_right (by decide) (by omega)
      omega
    rw [pow_succ] at hlow hhigh
    obtain ⟨hlength, hhead⟩ := ih (n := n / 10) (by omega) (by omega)
    rw [ofNat_append hten]
    constructor
    · rw [List.length_append, hlength, List.length_singleton]
    · rw [List.head?_append, hhead, Nat.div_div_eq_div_mul, ← pow_succ', Option.some_or]

theorem length_ofNat (n : Nat) : (Str.ofNat n).length = Nat.log 10 n + 1 := by
  rcases Nat.eq_zero_or_pos n with rfl | hpos
  · rfl
  · exact (ofNat_digits (Nat.pow_log_le_self 10 (by omega))
      (Nat.lt_pow_succ_log_self (by decide) n)).1

theorem ofNat_ne_nil (n : Nat) : Str.ofNat n ≠ [] :=
  List.ne_nil_of_length_pos (by rw [length_ofNat]; exact Nat.succ_pos _)

/-! ## `float(s)` -/

/-- `float` reads every decimal digit and every blank of Unicode. -/
def toAscii [Runtime] (c : Nat) : Nat :=
  if c < 0x7F then c
  else if isSpace c then 0x20
  else match Runtime.decimal c with
    | some d => 0x30 + d
    | none => 0x3F

/-- Remove the underscores; each stands between two digits. `prev` is the
    character read last. -/
def removeUnderscores (prev : Nat) : Str → Option Str
  | [] => if prev = 0x5F then none else some []
  | c :: s =>
    if c = 0x5F then
      if isDigit prev then removeUnderscores c s else none
    else if prev = 0x5F ∧ isDigit c = false then none
    else (removeUnderscores c s).map (c :: ·)

def asciiLower (c : Nat) : Nat := if 0x41 ≤ c ∧ c ≤ 0x5A then c + 0x20 else c

def inf : Float := 1.0 / 0.0

def nan : Float := 0.0 / 0.0

/-- A whole numeral of `float`. -/
def parseNumeral (s : Str) : Option Float :=
  let (neg, u) := splitSign s
  let name := u.map asciiLower
  if name = text "inf" ∨ name = text "infinity" then some (if neg then -inf else inf)
  else if name = text "nan" then some nan
  else
    let whole := u.takeWhile isDigit
    let (frac, rest) :=
      match u.dropWhile isDigit with
      | 0x2E :: r => (r.takeWhile isDigit, r.dropWhile isDigit)
      | r => ([], r)
    if whole ++ frac = [] then none
    else match splitExponent rest, rest with
      | some (exp, []), _ => some (decimalFloat neg whole frac exp)
      | none, [] => some (decimalFloat neg whole frac 0)
      | _, _ => none

/-- `float(s)` of a string; `none` is `ValueError`. -/
def floatOfStr [Runtime] (s : Str) : Option Float :=
  (removeUnderscores 0 (Str.stripBy isAsciiSpace (s.map toAscii))).bind parseNumeral

/-- `float(n)` of an integer; `none` is `OverflowError`. -/
def floatOfInt (n : Int) : Option Float :=
  let x := Float.ofInt n
  if x.isInf then none else some x

/-! ## Exact values -/

/-- The rational number a finite float stands for. -/
def toRat (x : Float) : Option ℚ :=
  match x.toModel.unpack with
  | .zero _ => some 0
  | .finite .positive m e _ => some (m * 2 ^ e)
  | .finite .negative m e _ => some (-(m * 2 ^ e))
  | .infinity _ => none
  | .notANumber => none

theorem lt_iff {x y : Float} : x < y ↔ x.toModel.unpack.lt y.toModel.unpack = true := by
  change decide _ = true ↔ _
  exact decide_eq_true_iff

/-- A weight that is not below zero stands for no negative number. -/
theorem toRat_nonneg {x : Float} {q : ℚ} (h : ¬ x < 0.0) (hq : toRat x = some q) : 0 ≤ q := by
  have hzero : (0.0 : Float).toModel.unpack = .zero .positive := by rfl
  rw [lt_iff, hzero] at h
  unfold toRat at hq
  generalize x.toModel.unpack = u at *
  cases u with
  | notANumber => cases hq
  | infinity sign => cases hq
  | zero sign =>
    cases hq
    exact le_refl _
  | finite sign m e hpos =>
    cases sign with
    | positive =>
      cases hq
      exact mul_nonneg (Nat.cast_nonneg m) (zpow_nonneg (by norm_num) e)
    | negative => exact absurd rfl h

/-- `round(q)`: to the nearest integer, and to the even one of two. -/
def roundHalfEven (q : ℚ) : Int :=
  if q - ⌊q⌋ < 1 / 2 then ⌊q⌋
  else if 1 / 2 < q - ⌊q⌋ then ⌊q⌋ + 1
  else if ⌊q⌋ % 2 = 0 then ⌊q⌋
  else ⌊q⌋ + 1

theorem roundHalfEven_cases (q : ℚ) :
    roundHalfEven q = ⌊q⌋ ∨ (roundHalfEven q = ⌊q⌋ + 1 ∧ (⌊q⌋ : ℚ) < q) := by
  unfold roundHalfEven
  split
  · exact .inl rfl
  · rename_i hhalf
    have hlt : (⌊q⌋ : ℚ) < q := by linarith
    split
    · exact .inr ⟨rfl, hlt⟩
    · split
      · exact .inl rfl
      · exact .inr ⟨rfl, hlt⟩

theorem roundHalfEven_le {q : ℚ} {n : Int} (h : q ≤ n) : roundHalfEven q ≤ n := by
  rcases roundHalfEven_cases q with heq | ⟨heq, hlt⟩
  · rw [heq]
    exact Int.cast_le.mp ((Int.floor_le q).trans h)
  · rw [heq]
    exact Int.add_one_le_of_lt (Int.cast_lt.mp (hlt.trans_le h))

theorem le_roundHalfEven {q : ℚ} {n : Int} (h : n ≤ q) : n ≤ roundHalfEven q := by
  have hfloor : n ≤ ⌊q⌋ := Int.le_floor.mpr h
  rcases roundHalfEven_cases q with heq | ⟨heq, -⟩
  · exact heq ▸ hfloor
  · rw [heq]
    exact Int.le_add_one hfloor

theorem roundHalfEven_mono {p q : ℚ} (h : p ≤ q) : roundHalfEven p ≤ roundHalfEven q := by
  rcases (Int.floor_le_floor h).lt_or_eq with hlt | heq
  · have hnext : ((⌊p⌋ + 1 : Int) : ℚ) ≤ q := (Int.cast_le.mpr hlt).trans (Int.floor_le q)
    have hle := le_roundHalfEven hnext
    rcases roundHalfEven_cases p with hp | ⟨hp, -⟩ <;> omega
  · -- Between the same two integers only the fraction decides.
    unfold roundHalfEven
    rw [heq]
    split_ifs <;> first | omega | linarith

/-! ## `repr` of a float -/

/-- The two `n`-digit neighbours of `q` as multiples of `10 ^ (k + 1 - n)`, the
    nearer one first; `10 ^ k` is the leading power of `q`. -/
def neighbours (q : ℚ) (k : Int) (n : Nat) : List Nat :=
  let scaled := q * 10 ^ ((n : Int) - 1 - k)
  let near := (roundHalfEven scaled).toNat
  let far := if near = ⌊scaled⌋ then near + 1 else near - 1
  [near, far]

/-- The least number of digits that reads back as `x`: digits and exponent. The
    first argument is the number of digits still allowed, and 17 are enough. -/
def shortest (x : Float) (q : ℚ) (k : Int) : Nat → Nat → Nat × Int
  | 0, n => ((roundHalfEven (q * 10 ^ ((n : Int) - 1 - k))).toNat, k + 1 - n)
  | more + 1, n =>
    match (neighbours q k n).find? fun m => scientific m (k + 1 - n) = x with
    | some m => (m, k + 1 - n)
    | none => shortest x q k more (n + 1)

/-- Lay out the digits `ds` with the decimal point after the first `point` of them. -/
def placePoint (ds : Str) (point : Int) : Str :=
  if point ≤ 0 then
    text "0." ++ List.replicate (-point).toNat 0x30 ++ ds
  else if ds.length ≤ point then
    ds ++ List.replicate (point - ds.length).toNat 0x30 ++ text ".0"
  else
    ds.take point.toNat ++ text "." ++ ds.drop point.toNat

def exponentForm (ds : Str) (exp : Int) : Str :=
  let mantissa := if ds.length ≤ 1 then ds else ds.take 1 ++ text "." ++ ds.drop 1
  let pad := if exp.natAbs < 10 then text "0" else []
  mantissa ++ text (if exp < 0 then "e-" else "e+") ++ pad ++ Str.ofNat exp.natAbs

def positiveRepr (x : Float) (q : ℚ) : Str :=
  let (m, e) := shortest x q (Int.log 10 q) 16 1
  let all := Str.ofNat m
  let point := all.length + e
  let ds := all.rdropWhile (· = 0x30)
  if -4 < point ∧ point ≤ 16 then placePoint ds point else exponentForm ds (point - 1)

/-- `repr(x)`. -/
def floatRepr (x : Float) : Str :=
  match toRat x with
  | some q =>
    if q = 0 then text (if x.toBits = 0 then "0.0" else "-0.0")
    else if q < 0 then text "-" ++ positiveRepr (-x) (-q)
    else positiveRepr x q
  | none => text (if x.isNaN then "nan" else if x < 0 then "-inf" else "inf")

section
variable {c : Nat}

theorem mem_placePoint {ds : Str} {point : Int} (h : c ∈ placePoint ds point) :
    c ∈ ds ∨ c = 0x30 ∨ c = 0x2E := by
  have hzero : ∀ n, c ∈ List.replicate n 0x30 → c = 0x30 := fun _ hc => List.eq_of_mem_replicate hc
  have hpoint : c ∈ text "." → c = 0x2E := List.mem_singleton.mp
  unfold placePoint at h
  split_ifs at h <;> simp only [List.mem_append] at h
  · rcases h with (h | h) | h
    · have : c = 0x30 ∨ c = 0x2E := by simpa [text] using h
      exact .inr this
    · exact .inr (.inl (hzero _ h))
    · exact .inl h
  · rcases h with (h | h) | h
    · exact .inl h
    · exact .inr (.inl (hzero _ h))
    · have : c = 0x2E ∨ c = 0x30 := by simpa [text] using h
      exact .inr this.symm
  · rcases h with (h | h) | h
    · exact .inl (List.mem_of_mem_take h)
    · exact .inr (.inr (hpoint h))
    · exact .inl (List.mem_of_mem_drop h)

theorem mem_exponentForm {ds : Str} {exp : Int} (h : c ∈ exponentForm ds exp) :
    c ∈ ds ∨ isDigit c = true ∨ c ∈ text ".e-+" := by
  unfold exponentForm at h
  simp only [List.mem_append] at h
  rcases h with ((h | h) | h) | h
  · split_ifs at h
    · exact .inl h
    · simp only [List.mem_append] at h
      rcases h with (h | h) | h
      · exact .inl (List.mem_of_mem_take h)
      · obtain rfl := List.mem_singleton.mp h
        exact .inr (.inr (by decide))
      · exact .inl (List.mem_of_mem_drop h)
  · have hsign : ∀ c ∈ text (if exp < 0 then "e-" else "e+"), c ∈ text ".e-+" := by split <;> decide
    exact .inr (.inr (hsign c h))
  · split at h
    · obtain rfl := List.mem_singleton.mp h
      exact .inr (.inl rfl)
    · cases h
  · exact .inr (.inl (isDigit_ofNat h))

theorem mem_positiveRepr {x : Float} {q : ℚ} (h : c ∈ positiveRepr x q) :
    isDigit c = true ∨ c ∈ text ".e-+" := by
  unfold positiveRepr at h
  have hds : ∀ m : Nat, c ∈ (Str.ofNat m).rdropWhile (· = 0x30) → isDigit c = true :=
    fun m hc => isDigit_ofNat ((List.rdropWhile_prefix _ _).subset hc)
  dsimp only at h
  split at h
  · rcases mem_placePoint h with h | rfl | rfl
    · exact .inl (hds _ h)
    · exact .inl rfl
    · exact .inr (by decide)
  · rcases mem_exponentForm h with h | h
    · exact .inl (hds _ h)
    · exact h

/-- A float is shown with digits and a few other characters. -/
theorem mem_floatRepr {x : Float} (h : c ∈ floatRepr x) : isDigit c = true ∨ c ∈ text ".e-+naif" := by
  have hmore : ∀ c ∈ text ".e-+", c ∈ text ".e-+naif" := by decide
  have hword : ∀ s ∈ [text "nan", text "-inf", text "inf"], ∀ c ∈ s, c ∈ text ".e-+naif" := by decide
  have hzero : ∀ s ∈ [text "0.0", text "-0.0"], ∀ c ∈ s, isDigit c = true ∨ c ∈ text ".e-+naif" := by
    decide
  unfold floatRepr at h
  split at h
  · split_ifs at h
    · exact hzero _ (by simp) c h
    · exact hzero _ (by simp) c h
    · rcases List.mem_append.mp h with h | h
      · obtain rfl := List.mem_singleton.mp h
        exact .inr (by decide)
      · exact (mem_positiveRepr h).imp_right (hmore c)
    · exact (mem_positiveRepr h).imp_right (hmore c)
  · split_ifs at h <;> exact .inr (hword _ (by simp) c h)

end

theorem clean_floatRepr (x : Float) : Clean (floatRepr x) := by
  have hother : Clean (text ".e-+naif") := by decide
  intro c hc
  rcases mem_floatRepr hc with h | h
  · have hrange := digit_range h
    exact ⟨by omega, isSurrogate_ascii (by omega)⟩
  · exact hother c h

end Python
