-- SUMMARY: Deterministic automata with output: the state after a list of inputs, the invariant rule, and the amortised bound on what a block of inputs is paid.
import Mathlib.Algebra.Order.Group.Defs
import Mathlib.Tactic.Abel

/-!
# Automata

An automaton answers every input with an output and its next state.
-/

structure Automaton (σ ι ω : Type) where
  step : σ → ι → ω × σ

namespace Automaton

variable {σ ι ω : Type} (m : Automaton σ ι ω)

-- ---------------------------------------------------------------------------
-- The state after a list of inputs
-- ---------------------------------------------------------------------------

def after (s : σ) (inputs : List ι) : σ := inputs.foldl (fun s i => (m.step s i).2) s

@[simp] theorem after_nil (s : σ) : m.after s [] = s := rfl

@[simp] theorem after_cons (s : σ) (i : ι) (inputs : List ι) :
    m.after s (i :: inputs) = m.after (m.step s i).2 inputs := rfl

theorem after_append (s : σ) (inputs inputs' : List ι) :
    m.after s (inputs ++ inputs') = m.after (m.after s inputs) inputs' :=
  List.foldl_append ..

theorem after_snoc (s : σ) (inputs : List ι) (i : ι) :
    m.after s (inputs ++ [i]) = (m.step (m.after s inputs) i).2 :=
  m.after_append s inputs [i]

variable {m} {Inv : σ → Prop} {P : ι → Prop}

/-- What each step keeps, a list of inputs keeps. -/
theorem invariant (hstep : ∀ s i, P i → Inv s → Inv (m.step s i).2) {s : σ} (hs : Inv s)
    {inputs : List ι} (hinputs : ∀ i ∈ inputs, P i) : Inv (m.after s inputs) := by
  induction inputs generalizing s with
  | nil => exact hs
  | cons i inputs ih =>
    rw [List.forall_mem_cons] at hinputs
    exact ih (hstep s i hinputs.1 hs) hinputs.2

-- ---------------------------------------------------------------------------
-- Amortised bounds
-- ---------------------------------------------------------------------------

variable {A : Type} [AddCommGroup A] [LinearOrder A] [IsOrderedAddMonoid A]

/-- What is paid along a list of inputs, where a step pays `pay`. -/
def paid (m : Automaton σ ι ω) (pay : σ → ι → A) : σ → List ι → A
  | _, [] => 0
  | s, i :: inputs => pay s i + paid m pay (m.step s i).2 inputs

omit [LinearOrder A] [IsOrderedAddMonoid A] in
theorem paid_append (pay : σ → ι → A) (s : σ) (inputs inputs' : List ι) :
    m.paid pay s (inputs ++ inputs') = m.paid pay s inputs + m.paid pay (m.after s inputs) inputs' := by
  induction inputs generalizing s with
  | nil => exact (zero_add _).symm
  | cons i inputs ih => rw [List.cons_append, paid, paid, ih, add_assoc, after_cons]

theorem paid_nonneg {pay : σ → ι → A} (hpay : ∀ s i, P i → 0 ≤ pay s i) (s : σ) {inputs : List ι}
    (hinputs : ∀ i ∈ inputs, P i) : 0 ≤ m.paid pay s inputs := by
  induction inputs generalizing s with
  | nil => exact le_refl _
  | cons i inputs ih =>
    rw [List.forall_mem_cons] at hinputs
    exact add_nonneg (hpay s i hinputs.1) (ih _ hinputs.2)

/-- If a step pays at most what it takes from the potential and what it gains in
    income, then so does a list of inputs. -/
theorem paid_le (pay : σ → ι → A) (potential income : σ → A)
    (hkeep : ∀ s i, P i → Inv s → Inv (m.step s i).2)
    (hpay : ∀ s i, P i → Inv s →
      pay s i + potential (m.step s i).2 ≤ potential s + (income (m.step s i).2 - income s))
    {s : σ} (hs : Inv s) {inputs : List ι} (hinputs : ∀ i ∈ inputs, P i) :
    m.paid pay s inputs + potential (m.after s inputs) ≤
      potential s + (income (m.after s inputs) - income s) := by
  induction inputs generalizing s with
  | nil => simp [paid]
  | cons i inputs ih =>
    rw [List.forall_mem_cons] at hinputs
    have hstep := hpay s i hinputs.1 hs
    have hrest := ih (hkeep s i hinputs.1 hs) hinputs.2
    calc
      m.paid pay s (i :: inputs) + potential (m.after s (i :: inputs))
          = pay s i + (m.paid pay (m.step s i).2 inputs +
              potential (m.after (m.step s i).2 inputs)) := by
            rw [paid, add_assoc, after_cons]
      _ ≤ pay s i + (potential (m.step s i).2 +
            (income (m.after (m.step s i).2 inputs) - income (m.step s i).2)) := by gcongr
      _ = pay s i + potential (m.step s i).2 +
            (income (m.after (m.step s i).2 inputs) - income (m.step s i).2) := by abel
      _ ≤ potential s + (income (m.step s i).2 - income s) +
            (income (m.after (m.step s i).2 inputs) - income (m.step s i).2) := by gcongr
      _ = potential s + (income (m.after s (i :: inputs)) - income s) := by
            rw [after_cons]
            abel

end Automaton
