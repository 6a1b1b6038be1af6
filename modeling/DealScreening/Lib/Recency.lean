-- SUMMARY: The elements of a list in the order they were last seen, and the first few of them.
import Mathlib.Data.List.Dedup

/-!
# Recency

What a store that keeps the most recently used keys holds, as a function of its history.
-/

namespace Recency

variable {α : Type} [DecidableEq α]

/-- The elements of a history, each once, the one seen last first. -/
def recency (history : List α) : List α := history.dedup.reverse

/-- The element comes to the front. -/
def touch (a : α) (seen : List α) : List α := a :: seen.filter (· ≠ a)

theorem dedup_snoc (history : List α) (a : α) :
    (history ++ [a]).dedup = history.dedup.filter (· ≠ a) ++ [a] := by
  induction history with
  | nil => rfl
  | cons b history ih =>
    rw [List.cons_append]
    by_cases hmem : b ∈ history
    · rw [List.dedup_cons_of_mem (List.mem_append_left [a] hmem), List.dedup_cons_of_mem hmem, ih]
    · rw [List.dedup_cons_of_notMem hmem]
      by_cases hb : b = a
      · rw [List.dedup_cons_of_mem (by simp [hb]), ih, List.filter_cons_of_neg (by simpa using hb)]
      · rw [List.dedup_cons_of_notMem (by simp [hmem, hb]), ih,
          List.filter_cons_of_pos (by simpa using hb), List.cons_append]

@[simp] theorem recency_nil : recency ([] : List α) = [] := rfl

theorem recency_snoc (history : List α) (a : α) :
    recency (history ++ [a]) = touch a (recency history) := by
  simp only [recency, touch, dedup_snoc, List.reverse_append, List.filter_reverse,
    List.reverse_singleton, List.singleton_append]

theorem nodup_recency (history : List α) : (recency history).Nodup :=
  List.nodup_reverse.mpr (List.nodup_dedup history)

theorem mem_recency {a : α} {history : List α} : a ∈ recency history ↔ a ∈ history := by
  rw [recency, List.mem_reverse, List.mem_dedup]

/-- A short list of the most recent elements is enough to make the next one. -/
theorem take_touch_take {seen : List α} (hseen : seen.Nodup) (a : α) (n : Nat) :
    (touch a (seen.take n)).take n = (touch a seen).take n := by
  cases n with
  | zero => rfl
  | succ n =>
    rw [touch, touch, List.take_succ_cons, List.take_succ_cons]
    congr 1
    induction seen generalizing n with
    | nil => rfl
    | cons b seen ih =>
      rw [List.nodup_cons] at hseen
      rw [List.take_succ_cons]
      by_cases hb : b = a
      · -- the rest does not hold `a`, so that nothing more is removed
        have hkeep : ∀ l : List α, l ⊆ seen → l.filter (· ≠ a) = l := by
          intro l hl
          refine List.filter_eq_self.mpr fun c hc => ?_
          simpa using fun heq : c = a => hseen.1 (hb ▸ heq ▸ hl hc)
        rw [List.filter_cons_of_neg (by simpa using hb), List.filter_cons_of_neg (by simpa using hb),
          hkeep _ (List.take_subset n seen), hkeep _ (List.Subset.refl seen), List.take_take,
          Nat.min_self]
      · rw [List.filter_cons_of_pos (by simpa using hb), List.filter_cons_of_pos (by simpa using hb)]
        cases n with
        | zero => rfl
        | succ n => rw [List.take_succ_cons, List.take_succ_cons, ih hseen.2 n]

theorem touch_map {β : Type} [DecidableEq β] {f : α → β} (hf : Function.Injective f) (a : α)
    (seen : List α) : touch (f a) (seen.map f) = (touch a seen).map f := by
  rw [touch, touch, List.map_cons, List.filter_map]
  congr 2
  refine List.filter_congr fun b _ => ?_
  simp [hf.eq_iff]

theorem nodup_touch {seen : List α} (hseen : seen.Nodup) (a : α) : (touch a seen).Nodup :=
  List.nodup_cons.mpr ⟨by simp, hseen.filter _⟩

theorem mem_touch {a b : α} {seen : List α} : b ∈ touch a seen ↔ b = a ∨ b ∈ seen := by
  by_cases hb : b = a
  · simp [touch, hb]
  · simp [touch, hb]

/-- A history has seen all it holds. -/
theorem length_le_recency {l history : List α} (hl : l.Nodup) (h : l ⊆ history) :
    l.length ≤ (recency history).length :=
  hl.length_le_of_subset fun _ ha => mem_recency.mpr (h ha)

/-- A longer history has seen no fewer elements. -/
theorem length_recency_le {history history' : List α} (h : history ⊆ history') :
    (recency history).length ≤ (recency history').length :=
  length_le_recency (nodup_recency history) fun _ ha => h (mem_recency.mp ha)

end Recency
