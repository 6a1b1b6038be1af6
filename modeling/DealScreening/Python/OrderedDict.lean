-- SUMMARY: `OrderedDict`: a dictionary that remembers the order of its keys, oldest first.
import DealScreening.Lib.Recency
import Mathlib.Data.List.Nodup

/-!
# Ordered dictionaries
-/

/-- The entries, oldest first. No key is there twice. -/
structure OrderedDict (κ α : Type) where
  entries : List (κ × α)
  nodup : (entries.map Prod.fst).Nodup

namespace OrderedDict

variable {κ α : Type} [DecidableEq κ]

def empty : OrderedDict κ α := ⟨[], List.nodup_nil⟩

def keys (d : OrderedDict κ α) : List κ := d.entries.map Prod.fst

/-- `len(d)`. -/
def length (d : OrderedDict κ α) : Nat := d.entries.length

/-- `d.get(k)`. -/
def get (d : OrderedDict κ α) (k : κ) : Option α :=
  (d.entries.find? fun e => e.1 = k).map Prod.snd

/-- `d[k] = v`. A key that is there keeps its place, a new one comes last. -/
def set (d : OrderedDict κ α) (k : κ) (v : α) : OrderedDict κ α :=
  if h : k ∈ d.keys then
    { entries := d.entries.map fun e => if e.1 = k then (k, v) else e
      nodup := by
        have hkeys : (d.entries.map fun e => if e.1 = k then (k, v) else e).map Prod.fst =
            d.entries.map Prod.fst := by
          rw [List.map_map]
          refine List.map_congr_left fun e _ => ?_
          by_cases he : e.1 = k
          · simp [he]
          · simp [he]
        rw [hkeys]
        exact d.nodup }
  else
    { entries := d.entries ++ [(k, v)]
      nodup := by
        rw [List.map_append, List.map_singleton]
        exact d.nodup.append (List.nodup_singleton k) (List.disjoint_singleton.mpr h) }

/-- `d.move_to_end(k)`. -/
def moveToEnd (d : OrderedDict κ α) (k : κ) : OrderedDict κ α where
  entries := d.entries.filter (fun e => e.1 ≠ k) ++ d.entries.filter (fun e => e.1 = k)
  nodup := by
    have hperm : (d.entries.filter (fun e => e.1 ≠ k) ++
        d.entries.filter (fun e => e.1 = k)).Perm d.entries := by
      refine List.perm_append_comm.trans ?_
      simpa using List.filter_append_perm (fun e => e.1 = k) d.entries
    exact ((hperm.map Prod.fst).nodup_iff).mpr d.nodup

/-- `d.popitem(last=False)`. -/
def popFirst (d : OrderedDict κ α) : OrderedDict κ α where
  entries := d.entries.tail
  nodup := by
    rw [List.map_tail]
    exact d.nodup.tail

-- ---------------------------------------------------------------------------
-- What is found
-- ---------------------------------------------------------------------------

variable {d : OrderedDict κ α} {k : κ} {v : α}

theorem get_eq_some : d.get k = some v ↔ (k, v) ∈ d.entries := by
  obtain ⟨entries, hnodup⟩ := d
  unfold get
  induction entries with
  | nil => simp
  | cons e entries ih =>
    rw [List.map_cons, List.nodup_cons] at hnodup
    by_cases he : e.1 = k
    · rw [List.find?_cons_of_pos (by simpa using he), Option.map_some, Option.some.injEq,
        List.mem_cons]
      constructor
      · rintro rfl
        exact .inl (by rw [← he])
      · rintro (rfl | hmem)
        · rfl
        · exact absurd (List.mem_map_of_mem hmem) (he ▸ hnodup.1)
    · rw [List.find?_cons_of_neg (by simpa using he), ih hnodup.2, List.mem_cons]
      refine ⟨.inr, ?_⟩
      rintro (rfl | hmem)
      · exact absurd rfl he
      · exact hmem

theorem get_eq_none : d.get k = none ↔ k ∉ d.keys := by
  unfold get keys
  rw [Option.map_eq_none_iff, List.find?_eq_none, List.mem_map]
  constructor
  · rintro h ⟨e, he, heq⟩
    exact h e he (by simpa using heq)
  · intro h e he heq
    exact h ⟨e, he, by simpa using heq⟩

theorem get_set (k' : κ) : (d.set k v).get k' = if k' = k then some v else d.get k' := by
  ext w
  rw [get_eq_some]
  unfold set
  by_cases hmem : k ∈ d.keys
  · rw [dif_pos hmem, List.mem_map]
    by_cases hk : k' = k
    · subst hk
      rw [if_pos rfl, Option.some.injEq]
      constructor
      · rintro ⟨e, -, he⟩
        by_cases heq : e.1 = k'
        · rw [if_pos heq] at he
          cases he
          rfl
        · rw [if_neg heq] at he
          exact absurd (congrArg Prod.fst he) heq
      · rintro rfl
        obtain ⟨e, he, heq⟩ := List.mem_map.mp hmem
        exact ⟨e, he, if_pos heq⟩
    · rw [if_neg hk, get_eq_some]
      constructor
      · rintro ⟨e, he, heq⟩
        by_cases hkey : e.1 = k
        · rw [if_pos hkey] at heq
          exact absurd (congrArg Prod.fst heq).symm hk
        · rw [if_neg hkey] at heq
          exact heq ▸ he
      · exact fun he => ⟨(k', w), he, if_neg hk⟩
  · rw [dif_neg hmem, List.mem_append, List.mem_singleton]
    by_cases hk : k' = k
    · subst hk
      have hnone : (k', w) ∉ d.entries := fun he => hmem (List.mem_map_of_mem he)
      simp [hnone, eq_comm]
    · simp [hk, get_eq_some]

/-- A key that is set and moved to the end is the last. -/
theorem entries_set_moveToEnd :
    ((d.set k v).moveToEnd k).entries = d.entries.filter (fun e => e.1 ≠ k) ++ [(k, v)] := by
  unfold set
  by_cases hk : k ∈ d.keys
  · rw [dif_pos hk]
    have hothers : (d.entries.map fun e => if e.1 = k then (k, v) else e).filter
        (fun e => e.1 ≠ k) = d.entries.filter (fun e => e.1 ≠ k) := by
      induction d.entries with
      | nil => rfl
      | cons e entries ih =>
        by_cases he : e.1 = k
        · simpa [he] using ih
        · simpa [he] using ih
    have hself : (d.entries.map fun e => if e.1 = k then (k, v) else e).filter
        (fun e => e.1 = k) = [(k, v)] := by
      obtain ⟨entries, hnodup⟩ := d
      obtain ⟨e, he, rfl⟩ := List.mem_map.mp hk
      obtain ⟨before, rest, rfl⟩ := List.append_of_mem he
      rw [List.map_append, List.map_cons, List.nodup_append, List.nodup_cons] at hnodup
      have hnone : ∀ l : List (κ × α), e.1 ∉ l.map Prod.fst →
          (l.map fun e' => if e'.1 = e.1 then (e.1, v) else e').filter (fun e' => e'.1 = e.1) = [] := by
        intro l hl
        rw [List.filter_eq_nil_iff]
        intro e'' he''
        obtain ⟨e', he', rfl⟩ := List.mem_map.mp he''
        have hne : e'.1 ≠ e.1 := fun heq => hl (heq ▸ List.mem_map_of_mem he')
        simp [hne]
      have hbefore : e.1 ∉ before.map Prod.fst :=
        fun hmem => hnodup.2.2 _ hmem _ (List.mem_cons_self ..) rfl
      rw [List.map_append, List.map_cons, List.filter_append, hnone before hbefore,
        List.filter_cons_of_pos (by simp), hnone rest hnodup.2.1.1]
      simp
    simp only [moveToEnd, hothers, hself]
  · rw [dif_neg hk]
    have hkeep : d.entries.filter (fun e => e.1 = k) = [] := by
      rw [List.filter_eq_nil_iff]
      intro e he
      simpa using fun heq => hk (List.mem_map.mpr ⟨e, he, heq⟩)
    simp only [moveToEnd, List.filter_append, hkeep]
    simp

theorem keys_set_moveToEnd :
    ((d.set k v).moveToEnd k).keys.reverse = Recency.touch k d.keys.reverse := by
  rw [keys, entries_set_moveToEnd, List.map_append, List.reverse_append, List.map_singleton,
    List.reverse_singleton, List.singleton_append, Recency.touch, keys, List.filter_reverse,
    List.filter_map]
  rfl

theorem get_set_moveToEnd (k' : κ) :
    ((d.set k v).moveToEnd k).get k' = if k' = k then some v else d.get k' := by
  ext w
  rw [get_eq_some, entries_set_moveToEnd, List.mem_append, List.mem_filter, List.mem_singleton]
  by_cases hk : k' = k
  · subst hk
    simp [eq_comm]
  · simp [hk, get_eq_some]

/-- What is kept is found as before. -/
theorem get_of_suffix {d' : OrderedDict κ α} (hsuffix : d'.entries <:+ d.entries) (k : κ) :
    d'.get k = if k ∈ d'.keys then d.get k else none := by
  by_cases hk : k ∈ d'.keys
  · rw [if_pos hk]
    cases hget : d'.get k with
    | none => exact absurd hk (get_eq_none.mp hget)
    | some w => exact (get_eq_some.mpr (hsuffix.subset (get_eq_some.mp hget))).symm
  · rw [if_neg hk]
    exact get_eq_none.mpr hk

end OrderedDict
