-- SUMMARY: Finite floats compare as the rational numbers they stand for.
import DealScreening.Python.Number
import Mathlib.Algebra.Order.Field.Power
import Mathlib.Order.Compare
import Mathlib.Tactic.Positivity

/-!
# The order of floats

A finite float that is not zero has a mantissa of 53 bits, or of fewer at the least
exponent. So of two positive ones that of the larger exponent is the larger.
-/

namespace Python

open Float.Model

/-- The mantissa has 53 bits, unless the exponent is the least. -/
structure Canonical (m : Nat) (e : Int) : Prop where
  bound : m < 2 ^ 53
  normal : -1074 < e → 2 ^ 52 ≤ m
  least : -1074 ≤ e

theorem unpack_canonical {b : BitVec 64} {sign : UnpackedFloat.Sign} {m : Nat} {e : Int}
    {hpos : 0 < m} (h : UnpackedFloat.unpack Format.binary64 b = .finite sign m e hpos) :
    Canonical m e := by
  have hfraction : (@UnpackedFloat.unpackMantissa Format.binary64 b).toNat < 2 ^ 52 :=
    (@UnpackedFloat.unpackMantissa Format.binary64 b).isLt
  have hbias : (Format.binary64.exponentBias : Int) + Format.binary64.mantissaBitsWithoutImplicit =
      1075 := by decide
  unfold UnpackedFloat.unpack at h
  dsimp only at h
  rw [hbias] at h
  by_cases hones : @UnpackedFloat.unpackExponent Format.binary64 b = -1#_
  · rw [if_pos hones] at h
    by_cases hinfinity : @UnpackedFloat.unpackMantissa Format.binary64 b = 0#_
    · rw [if_pos hinfinity] at h
      cases h
    · rw [if_neg hinfinity] at h
      cases h
  rw [if_neg hones] at h
  by_cases hzero : @UnpackedFloat.unpackExponent Format.binary64 b = 0#_
  · rw [if_pos hzero] at h
    by_cases hfinite : @UnpackedFloat.unpackMantissa Format.binary64 b = 0#_
    · rw [dif_pos hfinite] at h
      cases h
    · -- Subnormal: the exponent is the least, and the leading bit is missing.
      rw [dif_neg hfinite] at h
      cases h
      rw [hzero, BitVec.toNat_ofNat, Nat.zero_mod]
      exact ⟨by omega, by omega, by omega⟩
  · rw [if_neg hzero] at h
    have hexponent : (@UnpackedFloat.unpackExponent Format.binary64 b).toNat ≠ 0 :=
      fun hnat => hzero (BitVec.eq_of_toNat_eq hnat)
    have hleading : (1#1 ++ @UnpackedFloat.unpackMantissa Format.binary64 b).toNat =
        2 ^ 52 + (@UnpackedFloat.unpackMantissa Format.binary64 b).toNat := by
      rw [BitVec.toNat_append, ← Nat.shiftLeft_add_eq_or_of_lt hfraction]
      rfl
    cases h
    rw [hleading]
    exact ⟨by omega, fun _ => by omega, by omega⟩

/-- Of two positive floats that of the larger exponent is the larger. -/
theorem scaled_lt {m m' : Nat} {e e' : Int} (h : Canonical m e) (h' : Canonical m' e')
    (hlt : e < e') : (m : ℚ) * 2 ^ e < m' * 2 ^ e' := by
  have hbound : (m : ℚ) < 2 ^ 53 := by exact_mod_cast h.bound
  have hnormal : (2 : ℚ) ^ 52 ≤ m' := by
    exact_mod_cast h'.normal (Int.lt_of_le_of_lt h.least hlt)
  have hpow : (2 : ℚ) ^ (e + 1) ≤ 2 ^ e' := zpow_le_zpow_right₀ (by norm_num) (by omega)
  calc (m : ℚ) * 2 ^ e
      < 2 ^ 53 * 2 ^ e := mul_lt_mul_of_pos_right hbound (by positivity)
    _ = 2 ^ 52 * 2 ^ (e + 1) := by rw [zpow_add_one₀ (by norm_num)]; ring
    _ ≤ m' * 2 ^ e' := mul_le_mul hnormal hpow (by positivity) (by positivity)

theorem compare_scaled {m m' : Nat} {e e' : Int} (h : Canonical m e) (h' : Canonical m' e') :
    (compare e e').then (compare m m') = compare ((m : ℚ) * 2 ^ e) (m' * 2 ^ e') := by
  rcases lt_trichotomy e e' with hlt | rfl | hgt
  · rw [compare_lt_iff_lt.mpr hlt, compare_lt_iff_lt.mpr (scaled_lt h h' hlt)]
    rfl
  · have hpos : (0 : ℚ) < 2 ^ e := by positivity
    rw [compare_eq_iff_eq.mpr rfl, Ordering.eq_then]
    rcases lt_trichotomy m m' with hlt | rfl | hgt
    · rw [compare_lt_iff_lt.mpr hlt, compare_lt_iff_lt.mpr]
      exact mul_lt_mul_of_pos_right (Nat.cast_lt.mpr hlt) hpos
    · rw [compare_eq_iff_eq.mpr rfl, compare_eq_iff_eq.mpr rfl]
    · rw [compare_gt_iff_gt.mpr hgt, compare_gt_iff_gt.mpr]
      exact mul_lt_mul_of_pos_right (Nat.cast_lt.mpr hgt) hpos
  · rw [compare_gt_iff_gt.mpr hgt, compare_gt_iff_gt.mpr (scaled_lt h' h hgt)]
    rfl

theorem compare_neg_neg (p q : ℚ) : compare (-p) (-q) = (compare p q).swap := by
  rcases lt_trichotomy p q with hlt | rfl | hgt
  · rw [compare_lt_iff_lt.mpr hlt, compare_gt_iff_gt.mpr (neg_lt_neg hlt)]
    rfl
  · rw [compare_eq_iff_eq.mpr rfl, compare_eq_iff_eq.mpr rfl]
    rfl
  · rw [compare_gt_iff_gt.mpr hgt, compare_lt_iff_lt.mpr (neg_lt_neg hgt)]
    rfl

theorem compare_toRat {x y : Float} {p q : ℚ} (hx : toRat x = some p) (hy : toRat y = some q) :
    x.toModel.unpack.compare y.toModel.unpack = some (compare p q) := by
  have hpos : ∀ {m : Nat} (e : Int), 0 < m → (0 : ℚ) < m * 2 ^ e := by
    intro m e hm
    have hm' : (0 : ℚ) < m := Nat.cast_pos.mpr hm
    positivity
  have hcanonical := fun {s m e hm} => @unpack_canonical x.toModel.toBits.toBitVec s m e hm
  have hcanonical' := fun {s m e hm} => @unpack_canonical y.toModel.toBits.toBitVec s m e hm
  change ∀ {s m e hm}, x.toModel.unpack = .finite s m e hm → Canonical m e at hcanonical
  change ∀ {s m e hm}, y.toModel.unpack = .finite s m e hm → Canonical m e at hcanonical'
  unfold toRat at hx hy
  generalize x.toModel.unpack = u at *
  generalize y.toModel.unpack = v at *
  cases u with
  | infinity sign => cases hx
  | notANumber => cases hx
  | zero sign =>
    cases hx
    cases v with
    | infinity sign' => cases hy
    | notANumber => cases hy
    | zero sign' =>
      cases hy
      rfl
    | finite sign' m' e' hm' =>
      cases sign' with
      | positive =>
        cases hy
        exact congrArg some (compare_lt_iff_lt.mpr (hpos e' hm')).symm
      | negative =>
        cases hy
        exact congrArg some (compare_gt_iff_gt.mpr (neg_neg_of_pos (hpos e' hm'))).symm
  | finite sign m e hm =>
    cases sign with
    | positive =>
      cases hx
      cases v with
      | infinity sign' => cases hy
      | notANumber => cases hy
      | zero sign' =>
        cases hy
        exact congrArg some (compare_gt_iff_gt.mpr (hpos e hm)).symm
      | finite sign' m' e' hm' =>
        cases sign' with
        | positive =>
          cases hy
          exact congrArg some (compare_scaled (hcanonical rfl) (hcanonical' rfl))
        | negative =>
          cases hy
          refine congrArg some (compare_gt_iff_gt.mpr ?_).symm
          exact (neg_neg_of_pos (hpos e' hm')).trans (hpos e hm)
    | negative =>
      cases hx
      cases v with
      | infinity sign' => cases hy
      | notANumber => cases hy
      | zero sign' =>
        cases hy
        exact congrArg some (compare_lt_iff_lt.mpr (neg_neg_of_pos (hpos e hm))).symm
      | finite sign' m' e' hm' =>
        cases sign' with
        | positive =>
          cases hy
          refine congrArg some (compare_lt_iff_lt.mpr ?_).symm
          exact (neg_neg_of_pos (hpos e hm)).trans (hpos e' hm')
        | negative =>
          cases hy
          rw [compare_neg_neg, ← compare_scaled (hcanonical rfl) (hcanonical' rfl)]
          rfl

theorem le_iff {x y : Float} :
    x ≤ y ↔ (x.toModel.unpack.compare y.toModel.unpack).any (·.isLE) = true := by
  change decide _ = true ↔ _
  exact decide_eq_true_iff

/-- The comparisons of two floats are those of the numbers they stand for. -/
theorem lt_iff_toRat {x y : Float} {p q : ℚ} (hx : toRat x = some p) (hy : toRat y = some q) :
    x < y ↔ p < q := by
  rw [lt_iff, Float.Model.UnpackedFloat.lt, compare_toRat hx hy, ← compare_lt_iff_lt]
  simp

theorem le_iff_toRat {x y : Float} {p q : ℚ} (hx : toRat x = some p) (hy : toRat y = some q) :
    x ≤ y ↔ p ≤ q := by
  rw [le_iff, compare_toRat hx hy, ← compare_le_iff_le]
  cases compare p q <;> decide

-- ---------------------------------------------------------------------------
-- Comparisons of numbers and infinities
-- ---------------------------------------------------------------------------

theorem beq_iff {x y : Float} : (x == y) = true ↔
    x.toModel.unpack.compare y.toModel.unpack = some .eq := by
  change (x.toModel.unpack.compare y.toModel.unpack == some .eq) = true ↔ _
  exact beq_iff_eq

theorem beq_iff_toRat {x y : Float} {p q : ℚ} (hx : toRat x = some p) (hy : toRat y = some q) :
    (x == y) = true ↔ p = q := by
  rw [beq_iff, compare_toRat hx hy, Option.some.injEq, compare_eq_iff_eq]

theorem compare_swap (u v : UnpackedFloat) : v.compare u = (u.compare v).map Ordering.swap := by
  have hscaled : ∀ (m m' : Nat) (e e' : Int), (compare e' e).then (compare m' m) =
      ((compare e e').then (compare m m')).swap := by
    intro m m' e e'
    rw [Ordering.swap_then, ← Int.compare_swap, ← Nat.compare_swap]
  cases u with
  | notANumber => cases v <;> rfl
  | infinity sign =>
    cases v with
    | infinity sign' => cases sign <;> cases sign' <;> rfl
    | _ => cases sign <;> rfl
  | zero sign =>
    cases v with
    | infinity sign' => cases sign' <;> rfl
    | finite sign' m' e' hm' => cases sign' <;> rfl
    | _ => rfl
  | finite sign m e hm =>
    cases v with
    | notANumber => rfl
    | infinity sign' => cases sign' <;> rfl
    | zero sign' => cases sign <;> rfl
    | finite sign' m' e' hm' =>
      cases sign <;> cases sign'
      · exact congrArg some (congrArg Ordering.swap (hscaled m m' e e'))
      · rfl
      · rfl
      · exact congrArg some (hscaled m m' e e')

/-- Only what is not a number cannot be compared. -/
theorem compare_isSome {x y : Float} (hx : x.isNaN = false) (hy : y.isNaN = false) :
    ∃ order, x.toModel.unpack.compare y.toModel.unpack = some order := by
  change x.toModel.unpack.isNaN = false at hx
  change y.toModel.unpack.isNaN = false at hy
  generalize x.toModel.unpack = u at *
  generalize y.toModel.unpack = v at *
  cases u with
  | notANumber => cases hx
  | infinity sign =>
    cases v with
    | notANumber => cases hy
    | infinity sign' => exact ⟨_, rfl⟩
    | _ => cases sign <;> exact ⟨_, rfl⟩
  | zero sign =>
    cases v with
    | notANumber => cases hy
    | infinity sign' => cases sign' <;> exact ⟨_, rfl⟩
    | finite sign' m' e' hm' => cases sign' <;> exact ⟨_, rfl⟩
    | zero sign' => exact ⟨_, rfl⟩
  | finite sign m e hm =>
    cases v with
    | notANumber => cases hy
    | infinity sign' => cases sign' <;> exact ⟨_, rfl⟩
    | zero sign' => cases sign <;> exact ⟨_, rfl⟩
    | finite sign' m' e' hm' => cases sign <;> cases sign' <;> exact ⟨_, rfl⟩

/-- Of two numbers one is below the other or it is not. -/
theorem lt_iff_not_le {x y : Float} (hx : x.isNaN = false) (hy : y.isNaN = false) :
    x < y ↔ ¬ y ≤ x := by
  obtain ⟨order, horder⟩ := compare_isSome hx hy
  rw [lt_iff, le_iff, UnpackedFloat.lt, compare_swap x.toModel.unpack, horder]
  cases order <;> decide

theorem le_iff_lt_or_beq {x y : Float} : x ≤ y ↔ x < y ∨ (x == y) = true := by
  rw [le_iff, lt_iff, beq_iff, UnpackedFloat.lt]
  cases x.toModel.unpack.compare y.toModel.unpack with
  | none => decide
  | some order => cases order <;> decide

theorem le_and_ge_iff {x y : Float} : x ≤ y ∧ y ≤ x ↔ (x == y) = true := by
  rw [le_iff, le_iff, beq_iff, compare_swap x.toModel.unpack]
  cases x.toModel.unpack.compare y.toModel.unpack with
  | none => decide
  | some order => cases order <;> decide

end Python
