-- SUMMARY: Runs of a system given by a partial step function: invariants, guarded runs, and properties of every state along a run.
import Mathlib.Data.List.Basic

/-!
# Runs

A system is a partial step function `step : S → A → Option S`: in state `s` the
action `a` leads to `t` when `step s a = some t`, and is not enabled when the
step gives `none`. A run is a list of actions. Each induction over runs that the
development needs is proved here once.
-/

namespace Run

variable {S A : Type*} {step : S → A → Option S} {ok : S → A → Prop} {P Inv : S → Prop}
  {s t u : S} {a : A} {as bs : List A}

/-- The state reached from `s` by the actions `as`, if every one is enabled. -/
def exec (step : S → A → Option S) (s : S) (as : List A) : Option S :=
  as.foldlM step s

@[simp] theorem exec_nil : exec step s [] = some s := rfl

theorem exec_cons : exec step s (a :: as) = (step s a).bind (exec step · as) := by
  simp [exec, List.foldlM_cons]

theorem exec_cons_eq_some :
    exec step s (a :: as) = some u ↔ ∃ t, step s a = some t ∧ exec step t as = some u := by
  rw [exec_cons, Option.bind_eq_some_iff]

theorem exec_append : exec step s (as ++ bs) = (exec step s as).bind (exec step · bs) := by
  simp [exec, List.foldlM_append]

theorem exec_append_eq_some :
    exec step s (as ++ bs) = some u ↔ ∃ t, exec step s as = some t ∧ exec step t bs = some u := by
  rw [exec_append, Option.bind_eq_some_iff]

theorem exec_snoc_eq_some :
    exec step s (as ++ [a]) = some u ↔ ∃ t, exec step s as = some t ∧ step t a = some u := by
  simp [exec_append_eq_some, exec_cons_eq_some]

/-- Every action of the run meets the condition `ok` in the state it is taken in. -/
def Guarded (step : S → A → Option S) (ok : S → A → Prop) : S → List A → Prop
  | _, [] => True
  | s, a :: as => ok s a ∧ ∀ t, step s a = some t → Guarded step ok t as

/-- `Guarded` for a condition that can be computed. -/
def checks (step : S → A → Option S) (ok : S → A → Bool) : S → List A → Bool
  | _, [] => true
  | s, a :: as =>
    ok s a && match step s a with
      | some t => checks step ok t as
      | none => true

/-- Every state of the run, the first and the last included, satisfies `P`. -/
def Always (step : S → A → Option S) (P : S → Prop) : S → List A → Prop
  | s, [] => P s
  | s, a :: as => P s ∧ ∀ t, step s a = some t → Always step P t as

@[simp] theorem guarded_nil : Guarded step ok s [] := trivial

@[simp] theorem guarded_cons :
    Guarded step ok s (a :: as) ↔ ok s a ∧ ∀ t, step s a = some t → Guarded step ok t as :=
  Iff.rfl

theorem guarded_append :
    Guarded step ok s (as ++ bs) ↔
      Guarded step ok s as ∧ ∀ t, exec step s as = some t → Guarded step ok t bs := by
  induction as generalizing s with
  | nil => simp
  | cons a as ih =>
    simp only [List.cons_append, guarded_cons, ih, exec_cons_eq_some]
    constructor
    · rintro ⟨ha, h⟩
      exact ⟨⟨ha, fun t ht => (h t ht).1⟩, fun u ⟨t, ht, hu⟩ => (h t ht).2 u hu⟩
    · rintro ⟨⟨ha, h⟩, hbs⟩
      exact ⟨ha, fun t ht => ⟨h t ht, fun u hu => hbs u ⟨t, ht, hu⟩⟩⟩

/-- A condition on the actions alone. -/
theorem guarded_actions {p : A → Prop} (hrun : exec step s as = some t) :
    Guarded step (fun _ a => p a) s as ↔ ∀ a ∈ as, p a := by
  induction as generalizing s with
  | nil => simp
  | cons a as ih =>
    obtain ⟨u, hu, hrest⟩ := exec_cons_eq_some.mp hrun
    rw [guarded_cons, List.forall_mem_cons, ← ih hrest]
    constructor
    · exact fun ⟨ha, h⟩ => ⟨ha, h u hu⟩
    · rintro ⟨ha, h⟩
      refine ⟨ha, fun v hv => ?_⟩
      cases hu.symm.trans hv
      exact h

theorem guarded_of_checks (okb : S → A → Bool) (hok : ∀ s a, okb s a = true → ok s a)
    (h : checks step okb s as = true) : Guarded step ok s as := by
  induction as generalizing s with
  | nil => trivial
  | cons a as ih =>
    simp only [checks, Bool.and_eq_true] at h
    refine ⟨hok s a h.1, fun t ht => ih ?_⟩
    simpa [ht] using h.2

theorem Always.head (h : Always step P s as) : P s := by
  cases as with
  | nil => exact h
  | cons a as => exact h.1

theorem Always.last (h : Always step P s as) (hrun : exec step s as = some t) : P t := by
  induction as generalizing s with
  | nil =>
    cases hrun
    exact h
  | cons a as ih =>
    obtain ⟨u, hu, hrest⟩ := exec_cons_eq_some.mp hrun
    exact ih (h.2 u hu) hrest

/-! ## Invariants -/

/-- An invariant that every guarded step keeps holds at the end of every guarded run. -/
theorem Guarded.invariant (hkeep : ∀ {s a t}, Inv s → ok s a → step s a = some t → Inv t)
    (hs : Inv s) (hok : Guarded step ok s as) (hrun : exec step s as = some t) : Inv t := by
  induction as generalizing s with
  | nil =>
    cases hrun
    exact hs
  | cons a as ih =>
    obtain ⟨u, hu, hrest⟩ := exec_cons_eq_some.mp hrun
    exact ih (hkeep hs hok.1 hu) (hok.2 u hu) hrest

/-- An invariant that every step keeps holds at the end of every run. -/
theorem invariant (hkeep : ∀ {s a t}, Inv s → step s a = some t → Inv t)
    (hs : Inv s) (hrun : exec step s as = some t) : Inv t := by
  induction as generalizing s with
  | nil =>
    cases hrun
    exact hs
  | cons a as ih =>
    obtain ⟨u, hu, hrest⟩ := exec_cons_eq_some.mp hrun
    exact ih (hkeep hs hu) hrest

/-- Under an invariant of the guarded steps, one condition may imply another. -/
theorem Guarded.imp {ok' : S → A → Prop}
    (hkeep : ∀ {s a t}, Inv s → ok s a → step s a = some t → Inv t)
    (himp : ∀ {s a}, Inv s → ok s a → ok' s a) (hs : Inv s) (hok : Guarded step ok s as) :
    Guarded step ok' s as := by
  induction as generalizing s with
  | nil => trivial
  | cons a as ih => exact ⟨himp hs hok.1, fun t ht => ih (hkeep hs hok.1 ht) (hok.2 t ht)⟩

/-- A fact about the actions taken so far and the state they lead to, kept by
    every guarded step, holds of every guarded run. -/
theorem Guarded.history (H : List A → S → Prop)
    (hkeep : ∀ {as s a t}, H as s → ok s a → step s a = some t → H (as ++ [a]) t)
    (hs : H [] s) (hok : Guarded step ok s as) (hrun : exec step s as = some t) : H as t := by
  suffices h : ∀ bs s, H bs s → Guarded step ok s as → exec step s as = some t → H (bs ++ as) t by
    simpa using h [] s hs hok hrun
  clear hs hok hrun
  induction as with
  | nil =>
    intro bs s hs _ hrun
    cases hrun
    simpa using hs
  | cons a as ih =>
    intro bs s hs hok hrun
    obtain ⟨u, hu, hrest⟩ := exec_cons_eq_some.mp hrun
    simpa using ih (bs ++ [a]) u (hkeep hs hok.1 hu) (hok.2 u hu) hrest

/-- An invariant that guarded steps keep and that implies `P` makes `P` hold in
    every state of a guarded run. -/
theorem Guarded.always (hkeep : ∀ {s a t}, Inv s → ok s a → step s a = some t → Inv t)
    (hsafe : ∀ {s}, Inv s → P s) (hs : Inv s) (hok : Guarded step ok s as) :
    Always step P s as := by
  induction as generalizing s with
  | nil => exact hsafe hs
  | cons a as ih => exact ⟨hsafe hs, fun t ht => ih (hkeep hs hok.1 ht) (hok.2 t ht)⟩

/-- An invariant that every step keeps and that implies `P` makes `P` hold in every
    state of every run. -/
theorem always_of_invariant (Inv : S → Prop) (hkeep : ∀ {s a t}, Inv s → step s a = some t → Inv t)
    (hsafe : ∀ {s}, Inv s → P s) (hs : Inv s) : Always step P s as := by
  induction as generalizing s with
  | nil => exact hsafe hs
  | cons a as ih => exact ⟨hsafe hs, fun t ht => ih (hkeep hs ht)⟩

/-- The first bad step decides: when guarded steps keep the invariant and every
    unguarded step out of it leaves `P`, a run of admissible actions stays in `P`
    exactly when all its steps are guarded. -/
theorem always_iff_guarded (adm : A → Prop) (Inv : S → Prop)
    (hkeep : ∀ {s a t}, Inv s → adm a → ok s a → step s a = some t → Inv t)
    (hsafe : ∀ {s}, Inv s → P s)
    (hbad : ∀ {s a t}, Inv s → adm a → ¬ ok s a → step s a = some t → ¬ P t)
    (hs : Inv s) (hadm : ∀ a ∈ as, adm a) (hrun : exec step s as = some t) :
    Always step P s as ↔ Guarded step ok s as := by
  induction as generalizing s with
  | nil => exact ⟨fun _ => trivial, fun _ => hsafe hs⟩
  | cons a as ih =>
    obtain ⟨u, hu, hrest⟩ := exec_cons_eq_some.mp hrun
    have hadma := hadm a (List.mem_cons_self ..)
    have hadmas := fun b hb => hadm b (List.mem_cons_of_mem a hb)
    by_cases hok : ok s a
    · have hu' := hkeep hs hadma hok hu
      refine ⟨fun h => ⟨hok, fun v hv => ?_⟩, fun h => ⟨hsafe hs, fun v hv => ?_⟩⟩
      · cases hu.symm.trans hv
        exact (ih hu' hadmas hrest).mp (h.2 u hu)
      · cases hu.symm.trans hv
        exact (ih hu' hadmas hrest).mpr (h.2 u hu)
    · exact ⟨fun h => absurd (h.2 u hu).head (hbad hs hadma hok hu), fun h => absurd h.1 hok⟩

/-- When every unguarded step out of the invariant leads into `Bad`, and no step
    leads out of it, a run is guarded to its end or ends in `Bad`. -/
theorem guarded_or_bad (Inv Bad : S → Prop)
    (hkeep : ∀ {s a t}, Inv s → ok s a → step s a = some t → Inv t)
    (hbad : ∀ {s a t}, Inv s → ¬ ok s a → step s a = some t → Bad t)
    (hstay : ∀ {s a t}, Bad s → step s a = some t → Bad t) (hs : Inv s)
    (hrun : exec step s as = some t) :
    (Guarded step ok s as ∧ Inv t) ∨ (¬ Guarded step ok s as ∧ Bad t) := by
  have hstays : ∀ {bs s u}, Bad s → exec step s bs = some u → Bad u :=
    fun hs hrun => invariant hstay hs hrun
  induction as generalizing s with
  | nil =>
    cases hrun
    exact .inl ⟨trivial, hs⟩
  | cons a as ih =>
    obtain ⟨u, hu, hrest⟩ := exec_cons_eq_some.mp hrun
    by_cases hok : ok s a
    · rcases ih (hkeep hs hok hu) hrest with ⟨hguarded, ht⟩ | ⟨hnot, ht⟩
      · refine .inl ⟨⟨hok, fun v hv => ?_⟩, ht⟩
        cases hu.symm.trans hv
        exact hguarded
      · exact .inr ⟨fun h => hnot (h.2 u hu), ht⟩
    · exact .inr ⟨fun h => hok h.1, hstays (hbad hs hok hu) hrest⟩

/-! ## Parties in a list

The parties of a system are often a list, of which a step replaces one or adds one. -/

section
variable {X : Type*} {xs : List X} {x y z : X} {i j : Nat}

theorem getElem?_set_of_some (h : xs[i]? = some x) :
    (xs.set i y)[j]? = if j = i then some y else xs[j]? := by
  obtain ⟨hi, -⟩ := List.getElem?_eq_some_iff.mp h
  rw [List.getElem?_set]
  by_cases hij : i = j
  · rw [if_pos hij, if_pos hi, if_pos hij.symm]
  · rw [if_neg hij, if_neg (Ne.symm hij)]

theorem mem_set_self (h : xs[i]? = some x) : y ∈ xs.set i y := by
  refine List.mem_iff_getElem?.mpr ⟨i, ?_⟩
  rw [getElem?_set_of_some h, if_pos rfl]

/-- What all parties meet and the new one does. -/
theorem forall_mem_set {P : X → Prop} (h : ∀ z ∈ xs, P z) (hy : P y) : ∀ z ∈ xs.set i y, P z := by
  intro z hz
  rcases List.mem_or_eq_of_mem_set hz with hmem | rfl
  · exact h z hmem
  · exact hy

/-- A party other than the one replaced stays. -/
theorem mem_set_of_ne (h : xs[i]? = some x) (hz : z ∈ xs) (hne : z ≠ x) : z ∈ xs.set i y := by
  obtain ⟨j, hj⟩ := List.mem_iff_getElem?.mp hz
  have hji : j ≠ i := by
    rintro rfl
    exact hne (Option.some.inj (hj.symm.trans h))
  refine List.mem_iff_getElem?.mpr ⟨j, ?_⟩
  rw [getElem?_set_of_some h, if_neg hji, hj]

/-- Only one of the parties meets a condition. -/
theorem length_filter_eq_one {p : X → Bool} (hx : xs[i]? = some x) (hp : p x = true)
    (hothers : ∀ (j : Nat) (y : X), xs[j]? = some y → j ≠ i → p y = false) :
    (xs.filter p).length = 1 := by
  induction xs generalizing i with
  | nil => cases hx
  | cons z xs ih =>
    cases i with
    | zero =>
      cases hx
      have hrest : xs.filter p = [] := by
        refine List.filter_eq_nil_iff.mpr fun y hy => ?_
        obtain ⟨j, hj⟩ := List.mem_iff_getElem?.mp hy
        simp [hothers (j + 1) y hj (Nat.succ_ne_zero j)]
      rw [List.filter_cons_of_pos hp, hrest]
      rfl
    | succ i =>
      have hz : p z = false := hothers 0 z rfl (Nat.zero_ne_add_one i)
      rw [List.filter_cons_of_neg (by simp [hz])]
      exact ih hx fun j y hj hne => hothers (j + 1) y hj fun heq => hne (Nat.succ.inj heq)

theorem getElem?_snoc_eq_some :
    (xs ++ [y])[j]? = some z ↔ xs[j]? = some z ∨ (j = xs.length ∧ z = y) := by
  rw [List.getElem?_append]
  by_cases hj : j < xs.length
  · rw [if_pos hj]
    simp [Nat.ne_of_lt hj]
  · rw [if_neg hj, List.getElem?_eq_none (Nat.le_of_not_lt hj)]
    by_cases heq : j = xs.length
    · simp [heq, eq_comm]
    · have hpos : ∃ k, j - xs.length = k + 1 := ⟨j - xs.length - 1, by omega⟩
      obtain ⟨k, hk⟩ := hpos
      simp [heq, hk]

end

end Run
