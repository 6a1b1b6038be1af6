-- SUMMARY: Reaching a goal: what some run of admissible steps leads to, how such runs compose, and the rule for a measure that they decrease.
import DealScreening.Lib.Run

/-!
# Progress

A system is not stuck when from every state some run leads on. A goal is reached by runs that
each decrease a measure.
-/

namespace Run

variable {S A : Type*} {step : S → A → Option S} {ok : S → A → Prop} {P Q Inv Goal : S → Prop}
  {s t : S} {a : A}

/-- Some run of steps that meet `ok` leads from `s` to a state with `Q`. -/
def Leads (step : S → A → Option S) (ok : S → A → Prop) (s : S) (Q : S → Prop) : Prop :=
  ∃ as t, Guarded step ok s as ∧ exec step s as = some t ∧ Q t

theorem Leads.here (h : Q s) : Leads step ok s Q := ⟨[], s, trivial, rfl, h⟩

theorem Leads.cons (hstep : step s a = some t) (hok : ok s a) (h : Leads step ok t Q) :
    Leads step ok s Q := by
  obtain ⟨as, u, hguarded, hrun, hu⟩ := h
  refine ⟨a :: as, u, ⟨hok, fun t' ht' => ?_⟩, exec_cons_eq_some.mpr ⟨t, hstep, hrun⟩, hu⟩
  cases hstep.symm.trans ht'
  exact hguarded

theorem Leads.mono (h : Leads step ok s P) (himp : ∀ t, P t → Q t) : Leads step ok s Q := by
  obtain ⟨as, t, hguarded, hrun, ht⟩ := h
  exact ⟨as, t, hguarded, hrun, himp t ht⟩

theorem Leads.trans (h : Leads step ok s P) (hnext : ∀ t, P t → Leads step ok t Q) :
    Leads step ok s Q := by
  obtain ⟨as, t, hguarded, hrun, ht⟩ := h
  obtain ⟨bs, u, hguarded', hrun', hu⟩ := hnext t ht
  refine ⟨as ++ bs, u, guarded_append.mpr ⟨hguarded, fun t' ht' => ?_⟩,
    exec_append_eq_some.mpr ⟨t, hrun, hrun'⟩, hu⟩
  cases hrun.symm.trans ht'
  exact hguarded'

/-- What every admissible step keeps holds where they lead. -/
theorem Leads.keeps (h : Leads step ok s Q)
    (hkeep : ∀ {s a t}, Inv s → ok s a → step s a = some t → Inv t) (hs : Inv s) :
    Leads step ok s fun t => Inv t ∧ Q t := by
  obtain ⟨as, t, hguarded, hrun, ht⟩ := h
  exact ⟨as, t, hguarded, hrun, Guarded.invariant hkeep hs hguarded hrun, ht⟩

/-- The goal is reached, if short of it some run keeps the invariant and decreases the measure. -/
theorem leads_of_measure (measure : S → Nat)
    (h : ∀ s, Inv s → ¬ Goal s → Leads step ok s fun t => Inv t ∧ measure t < measure s)
    (hs : Inv s) : Leads step ok s fun t => Inv t ∧ Goal t := by
  induction hn : measure s using Nat.strongRecOn generalizing s with
  | _ n ih =>
    by_cases hgoal : Goal s
    · exact .here ⟨hs, hgoal⟩
    · refine (h s hs hgoal).trans ?_
      rintro t ⟨ht, hlt⟩
      exact ih (measure t) (hn ▸ hlt) ht rfl

end Run
