-- SUMMARY: Counting along runs: what a run gains is paid for by its costs, when every step pays from a potential; the potential of many parties.
import DealScreening.Lib.Run
import Mathlib.Algebra.BigOperators.Group.Finset.Piecewise
import Mathlib.Algebra.Order.BigOperators.Group.Finset
import Mathlib.Logic.Function.Basic

/-!
# Amortised counting

A measure gives each step a number, which may depend on the state the step is taken in. A
potential is a number of the state. When no step gains more than it costs and lets the
potential drop by, no run gains more than it costs and the potential of its first state.
-/

namespace Run

variable {S A : Type*} {step : S → A → Option S} {s t u : S} {a : A} {as : List A}

/-- The sum of a measure over the steps of a run. -/
def tally (step : S → A → Option S) (measure : S → A → Nat) : S → List A → Nat
  | _, [] => 0
  | s, a :: as =>
    measure s a + match step s a with
      | some t => tally step measure t as
      | none => 0

theorem tally_cons {measure : S → A → Nat} (h : step s a = some t) :
    tally step measure s (a :: as) = measure s a + tally step measure t as := by
  simp only [tally, h]

/-- A measure of the actions alone counts them. -/
theorem tally_countP (p : A → Bool) (hrun : exec step s as = some t) :
    tally step (fun _ a => if p a then 1 else 0) s as = as.countP p := by
  induction as generalizing s with
  | nil => rfl
  | cons a as ih =>
    obtain ⟨u, hu, hrest⟩ := exec_cons_eq_some.mp hrun
    rw [tally_cons hu, ih hrest, List.countP_cons, Nat.add_comm]

theorem tally_mul (n : Nat) (measure : S → A → Nat) (s : S) (as : List A) :
    tally step (fun s a => n * measure s a) s as = n * tally step measure s as := by
  induction as generalizing s with
  | nil => rfl
  | cons a as ih =>
    cases h : step s a with
    | none => simp [tally, h]
    | some t => rw [tally_cons h, tally_cons h, ih, Nat.mul_add]

/-- The amortised rule. -/
theorem tally_le (step : S → A → Option S) (Inv : S → Prop) (gain cost : S → A → Nat)
    (potential : S → Nat)
    (hkeep : ∀ {s a t}, Inv s → step s a = some t → Inv t)
    (hpay : ∀ {s a t}, Inv s → a ∈ as → step s a = some t →
      gain s a + potential t ≤ potential s + cost s a)
    (hs : Inv s) (hrun : exec step s as = some u) :
    tally step gain s as + potential u ≤ potential s + tally step cost s as := by
  induction as generalizing s with
  | nil =>
    cases hrun
    simp [tally]
  | cons a as ih =>
    obtain ⟨t, ht, hrest⟩ := exec_cons_eq_some.mp hrun
    have hfirst := hpay hs (List.mem_cons_self ..) ht
    have hmore := ih (fun h hmem hstep => hpay h (List.mem_cons_of_mem a hmem) hstep) (hkeep hs ht) hrest
    rw [tally_cons ht, tally_cons ht]
    omega

/-! ## Parties under names

The potential of a system of parties is the sum over the names that a run mentions. -/

section
variable {I X : Type*} [DecidableEq I] {names : Finset I} {v : I}

/-- One party changes from `f v` to `x`. -/
theorem sum_update (hv : v ∈ names) (g : X → Nat) (f : I → X) (x : X) :
    (∑ w ∈ names, g (Function.update f v x w)) + g (f v) = (∑ w ∈ names, g (f w)) + g x := by
  have hnew : (∑ w ∈ names, g (Function.update f v x w)) = g x + ∑ w ∈ names.erase v, g (f w) := by
    rw [← Finset.sdiff_singleton_eq_erase, ← Finset.sum_update_of_mem hv]
    exact Finset.sum_congr rfl fun w _ => congrFun (Function.comp_update g f v x) w
  have hold := Finset.add_sum_erase names (fun w => g (f w)) hv
  omega

end

end Run
