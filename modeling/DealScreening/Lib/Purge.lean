-- SUMMARY: Runs with some of their actions left out: when no state shows what is left out, the rest of a run goes on as before.
import DealScreening.Lib.Run

/-!
# Purged runs

An observer shares a system with others. Which actions are left out for the observer may depend
on the state that they are taken in. The rule is the one of two runs side by side: a step that
is kept is taken by both, a step that is left out by the first alone.
-/

namespace Run

variable {S A O : Type*} {step : S → A → Option S} {keep : S → A → Bool} {out : S → A → Option O}
  {ok : S → A → Prop} {s s' t : S} {a : A} {as : List A}

/-- The actions of a run that are kept. -/
def purge (step : S → A → Option S) (keep : S → A → Bool) : S → List A → List A
  | _, [] => []
  | s, a :: as =>
    let rest := match step s a with
      | some t => purge step keep t as
      | none => []
    if keep s a then a :: rest else rest

/-- What the steps of a run put out. -/
def outputs (step : S → A → Option S) (out : S → A → Option O) : S → List A → List O
  | _, [] => []
  | s, a :: as =>
    (out s a).toList ++ match step s a with
      | some t => outputs step out t as
      | none => []

theorem purge_kept (hkeep : keep s a = true) (h : step s a = some t) :
    purge step keep s (a :: as) = a :: purge step keep t as := by
  simp only [purge, hkeep, h, if_true]

theorem purge_gone (hgone : keep s a = false) (h : step s a = some t) :
    purge step keep s (a :: as) = purge step keep t as := by
  simp only [purge, hgone, h, Bool.false_eq_true, if_false]

theorem outputs_cons (h : step s a = some t) :
    outputs step out s (a :: as) = (out s a).toList ++ outputs step out t as := by
  simp only [outputs, h]

/-- What is left out is not missed: the rest of the run is possible without it and puts out
    the same. -/
theorem Guarded.purged (keep : S → A → Bool) (out : S → A → Option O) (R : S → S → Prop)
    (hkept : ∀ s s' a t, R s s' → ok s a → keep s a = true → step s a = some t →
      ∃ t', step s' a = some t' ∧ out s' a = out s a ∧ R t t')
    (hgone : ∀ s s' a t, R s s' → ok s a → keep s a = false → step s a = some t →
      out s a = none ∧ R t s')
    (hs : R s s') (hok : Guarded step ok s as) (hrun : exec step s as = some t) :
    ∃ t', exec step s' (purge step keep s as) = some t' ∧
      outputs step out s' (purge step keep s as) = outputs step out s as ∧ R t t' := by
  induction as generalizing s s' with
  | nil =>
    cases hrun
    exact ⟨s', rfl, rfl, hs⟩
  | cons a as ih =>
    obtain ⟨u, hu, hrest⟩ := exec_cons_eq_some.mp hrun
    rw [outputs_cons hu]
    cases hkeep : keep s a with
    | true =>
      obtain ⟨u', hu', hout, hR⟩ := hkept s s' a u hs hok.1 hkeep hu
      obtain ⟨t', hrun', houts, hlast⟩ := ih hR (hok.2 u hu) hrest
      rw [purge_kept hkeep hu]
      refine ⟨t', exec_cons_eq_some.mpr ⟨u', hu', hrun'⟩, ?_, hlast⟩
      rw [outputs_cons hu', hout, houts]
    | false =>
      obtain ⟨hout, hR⟩ := hgone s s' a u hs hok.1 hkeep hu
      obtain ⟨t', hrun', houts, hlast⟩ := ih hR (hok.2 u hu) hrest
      rw [purge_gone hkeep hu]
      refine ⟨t', hrun', ?_, hlast⟩
      rw [houts, hout]
      rfl

end Run
