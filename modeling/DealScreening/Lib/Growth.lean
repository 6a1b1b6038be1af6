-- SUMMARY: Tables that only grow: rows are added at the end, and a row that is there is changed within a relation.
import Mathlib.Data.List.Forall2
import Mathlib.Order.Defs.Unbundled

/-!
# Growing tables

No row of a growing table is deleted, and none moves. What may happen to the row itself is a
relation between the row and what it is later; for equality the table before is a prefix.
-/

namespace Table

variable {R : Type*} {K : R → R → Prop} {rows rows' rows'' new : List R}

/-- The rows are the first of the later ones, each changed within `K`. -/
def Grows (K : R → R → Prop) (rows rows' : List R) : Prop :=
  List.Forall₂ K rows (rows'.take rows.length)

theorem Grows.length_le (h : Grows K rows rows') : rows.length ≤ rows'.length := by
  have hlength := List.Forall₂.length_eq h
  rw [List.length_take] at hlength
  omega

/-- A row is still there, as what it has become. -/
theorem Grows.mem {r : R} (h : Grows K rows rows') (hr : r ∈ rows) : ∃ r' ∈ rows', K r r' := by
  obtain ⟨i, hi, rfl⟩ := List.getElem_of_mem hr
  have hlength := List.Forall₂.length_eq h
  refine ⟨_, List.mem_of_mem_take (List.getElem_mem (hlength ▸ hi)), ?_⟩
  exact List.Forall₂.get h hi (hlength ▸ hi)

/-- When no row was added, every row has been there. -/
theorem Grows.of_mem {r' : R} (h : Grows K rows rows') (hlength : rows'.length = rows.length)
    (hr' : r' ∈ rows') : ∃ r ∈ rows, K r r' := by
  obtain ⟨i, hi, rfl⟩ := List.getElem_of_mem hr'
  have hall : List.Forall₂ K rows rows' := by
    rwa [Grows, ← hlength, List.take_length] at h
  exact ⟨_, List.getElem_mem (hlength ▸ hi), List.Forall₂.get hall (hlength ▸ hi) hi⟩

/-- Every row is changed within the relation, and others are added. -/
theorem grows_map_append {f : R → R} (h : ∀ r ∈ rows, K r (f r)) :
    Grows K rows (rows.map f ++ new) := by
  rw [Grows, List.take_append_of_le_length (by simp), List.take_of_length_le (by simp)]
  exact List.forall₂_map_right_iff.mpr (List.forall₂_same.mpr h)

theorem grows_append [Std.Refl K] : Grows K rows (rows ++ new) := by
  have h : Grows K rows (rows.map id ++ new) := grows_map_append fun r _ => refl_of K r
  rwa [List.map_id] at h

theorem forall₂_trans [IsTrans R K] (h : List.Forall₂ K rows rows') (h' : List.Forall₂ K rows' rows'') :
    List.Forall₂ K rows rows'' := by
  induction h generalizing rows'' with
  | nil => exact h'
  | cons hrow _ ih =>
    obtain _ | ⟨hrow', hrows'⟩ := h'
    exact .cons (trans_of K hrow hrow') (ih hrows')

instance [IsPreorder R K] : IsPreorder (List R) (Grows K) where
  refl rows := by
    have h : Grows K rows (rows ++ []) := grows_append
    rwa [List.append_nil] at h
  trans rows rows' rows'' h h' := by
    have hle := h.length_le
    have hfirst : List.Forall₂ K (rows'.take rows.length) (rows''.take rows.length) := by
      have htake := List.forall₂_take rows.length h'
      rwa [List.take_take, Nat.min_eq_left hle] at htake
    exact forall₂_trans h hfirst

end Table
