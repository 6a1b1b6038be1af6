-- SUMMARY: When computations that can raise return: map, bind and map over a list.
import Mathlib.Data.List.Forall2

/-- Every element on the right stands in the relation to one on the left. -/
theorem List.Forall₂.exists_left {α β : Type} {R : α → β → Prop} {as : List α} {bs : List β}
    (h : List.Forall₂ R as bs) {b : β} (hb : b ∈ bs) : ∃ a ∈ as, R a b := by
  induction h with
  | nil => cases hb
  | @cons a' b' as bs hab _ ih =>
    cases hb with
    | head => exact ⟨a', List.mem_cons_self .., hab⟩
    | tail _ hb =>
      obtain ⟨a, ha, hR⟩ := ih hb
      exact ⟨a, List.mem_cons_of_mem a' ha, hR⟩

/-- Related lists have as many elements with related properties. -/
theorem List.Forall₂.countP_eq {α β : Type} {R : α → β → Prop} {p : α → Bool} {q : β → Bool}
    {as : List α} {bs : List β} (h : List.Forall₂ R as bs) (hpq : ∀ a b, R a b → p a = q b) :
    as.countP p = bs.countP q := by
  induction h with
  | nil => rfl
  | cons hab _ ih => rw [List.countP_cons, List.countP_cons, ih, hpq _ _ hab]

namespace Except

variable {ε ε' α β : Type} {r : Except ε α} {f : α → Except ε β} {as : List α} {bs : List β} {b : β}

theorem map_eq_ok {g : α → β} : r.map g = .ok b ↔ ∃ a, r = .ok a ∧ g a = b := by
  cases r <;> simp [Except.map]

theorem bind_eq_ok : r.bind f = .ok b ↔ ∃ a, r = .ok a ∧ f a = .ok b := by
  cases r <;> simp [Except.bind]

theorem mapError_eq_ok {ε' : Type} {g : ε → ε'} {a : α} : r.mapError g = .ok a ↔ r = .ok a := by
  cases r <;> simp [Except.mapError]

theorem mapError_eq_error {ε' : Type} {g : ε → ε'} {e' : ε'} :
    r.mapError g = .error e' ↔ ∃ e, r = .error e ∧ g e = e' := by
  cases r <;> simp [Except.mapError]

theorem toOption_eq_some {a : α} : r.toOption = some a ↔ r = .ok a := by
  cases r <;> simp [Except.toOption]

theorem ok_bind {a : α} : (Except.ok a >>= f) = f a := rfl

theorem mapM_eq_ok : as.mapM f = .ok bs ↔ List.Forall₂ (fun a b => f a = .ok b) as bs := by
  induction as generalizing bs with
  | nil => simp [pure, Except.pure, eq_comm]
  | cons a as ih =>
    rw [List.mapM_cons]
    constructor
    · intro h
      obtain ⟨b, hb, h⟩ := bind_eq_ok.mp h
      obtain ⟨bs', hbs, h⟩ := bind_eq_ok.mp h
      cases h
      exact .cons hb (ih.mp hbs)
    · rintro (_ | ⟨hb, hbs⟩)
      exact bind_eq_ok.mpr ⟨_, hb, bind_eq_ok.mpr ⟨_, ih.mpr hbs, rfl⟩⟩

theorem mapM_ok_left {a : α} (h : as.mapM f = .ok bs) (ha : a ∈ as) : ∃ b ∈ bs, f a = .ok b := by
  replace h := mapM_eq_ok.mp h
  induction h with
  | nil => cases ha
  | @cons a' b' as bs hab _ ih =>
    cases ha with
    | head => exact ⟨b', List.mem_cons_self .., hab⟩
    | tail _ ha =>
      obtain ⟨b, hb, hfa⟩ := ih ha
      exact ⟨b, List.mem_cons_of_mem b' hb, hfa⟩

theorem mapM_ok_right (h : as.mapM f = .ok bs) (hb : b ∈ bs) : ∃ a ∈ as, f a = .ok b :=
  (mapM_eq_ok.mp h).exists_left hb

theorem mapM_isOk_iff : (∃ bs, as.mapM f = .ok bs) ↔ ∀ a ∈ as, ∃ b, f a = .ok b := by
  simp only [mapM_eq_ok]
  induction as with
  | nil => simp
  | cons a as ih =>
    rw [List.forall_mem_cons, ← ih]
    constructor
    · rintro ⟨_, _ | ⟨hb, hbs⟩⟩
      exact ⟨⟨_, hb⟩, _, hbs⟩
    · rintro ⟨⟨b, hb⟩, bs, hbs⟩
      exact ⟨b :: bs, .cons hb hbs⟩

end Except

theorem Option.mapM_isSome_iff {α β : Type} {f : α → Option β} {as : List α} :
    (as.mapM f).isSome ↔ ∀ a ∈ as, (f a).isSome := by
  induction as with
  | nil => simp
  | cons a as ih =>
    rw [List.mapM_cons, List.forall_mem_cons, ← ih]
    cases f a <;> cases as.mapM f <;> simp

theorem Option.mapM_eq_some {α β : Type} {f : α → Option β} {as : List α} {bs : List β} :
    as.mapM f = some bs ↔ List.Forall₂ (fun a b => f a = some b) as bs := by
  induction as generalizing bs with
  | nil => simp [eq_comm]
  | cons a as ih =>
    rw [List.mapM_cons]
    constructor
    · intro h
      obtain ⟨b, hb, h⟩ := Option.bind_eq_some_iff.mp h
      obtain ⟨bs', hbs, h⟩ := Option.bind_eq_some_iff.mp h
      cases h
      exact .cons hb (ih.mp hbs)
    · rintro (_ | ⟨hb, hbs⟩)
      exact Option.bind_eq_some_iff.mpr ⟨_, hb, Option.bind_eq_some_iff.mpr ⟨_, ih.mpr hbs, rfl⟩⟩

/-- Every value of a list of results came from an element. -/
theorem Option.mapM_mem {α β : Type} {f : α → Option β} {as : List α} {bs : List β} {b : β}
    (h : as.mapM f = some bs) (hb : b ∈ bs) : ∃ a ∈ as, f a = some b :=
  (Option.mapM_eq_some.mp h).exists_left hb
