-- SUMMARY: Database tables as lists of rows with a primary key: lookup, update by key, and how they compose.
import Mathlib.Data.List.Basic

/-!
# Tables

A table is the list of its rows in insertion order. `key` gives the primary key
of a row. Lookups read the first row with the key; updates keep the key of every
row, so a lookup after an update reads the updated row.
-/

namespace Table

variable {R K : Type*} [DecidableEq K] {key : R → K} {rows : List R} {k l : K} {r : R} {f : R → R}

/-- `SELECT ... WHERE key = k`, at most one row. -/
def lookup (key : R → K) (rows : List R) (k : K) : Option R :=
  rows.find? fun r => key r = k

/-- `UPDATE ... WHERE key = k`. -/
def modify (key : R → K) (rows : List R) (k : K) (f : R → R) : List R :=
  rows.map fun r => if key r = k then f r else r

/-- `DELETE ... WHERE key = k`. -/
def delete (key : R → K) (rows : List R) (k : K) : List R :=
  rows.filter fun r => key r ≠ k

/-- `ORDER BY rank DESC LIMIT 1`; of equal ranks the later row. -/
def latest {T : Type*} [LT T] [DecidableLT T] (rank : R → T) : List R → Option R
  | [] => none
  | r :: rows =>
    match latest rank rows with
    | some s => if rank s < rank r then some r else some s
    | none => some r

/-- In which order the database finds the rows of a query. -/
structure RowOrder where
  arrange : {α : Type} → List α → List α
  perm : ∀ {α : Type} (rows : List α), (arrange rows).Perm rows

/-- `ORDER BY`: rows that tie are in the order they are found in. -/
def orderBy {α : Type} (order : RowOrder) (le : α → α → Bool) (rows : List α) : List α :=
  (order.arrange rows).mergeSort le

@[simp] theorem lookup_nil : lookup key [] k = none := rfl

theorem lookup_key (h : lookup key rows k = some r) : key r = k := by
  simpa using List.find?_some h

theorem lookup_mem (h : lookup key rows k = some r) : r ∈ rows :=
  List.mem_of_find?_eq_some h

theorem lookup_eq_none : lookup key rows k = none ↔ ∀ r ∈ rows, key r ≠ k := by
  simp [lookup]

theorem lookup_isSome_of_mem (key : R → K) (h : r ∈ rows) :
    ∃ r', lookup key rows (key r) = some r' := by
  cases hl : lookup key rows (key r) with
  | none => exact absurd rfl (lookup_eq_none.mp hl r h)
  | some r' => exact ⟨r', rfl⟩

/-- With distinct keys, a row is what its key finds. -/
theorem lookup_of_mem (hdistinct : rows.Pairwise fun r s => key r ≠ key s) (h : r ∈ rows) :
    lookup key rows (key r) = some r := by
  induction rows with
  | nil => cases h
  | cons s rows ih =>
    obtain ⟨hs, hrows⟩ := List.pairwise_cons.mp hdistinct
    cases h with
    | head => simp [lookup]
    | tail _ h =>
      rw [lookup, List.find?_cons_of_neg (by simpa using hs r h)]
      exact ih hrows h

omit [DecidableEq K] in
theorem pairwise_map (hf : ∀ r, key (f r) = key r)
    (hdistinct : rows.Pairwise fun r s => key r ≠ key s) :
    (rows.map f).Pairwise fun r s => key r ≠ key s :=
  List.pairwise_map.mpr (hdistinct.imp fun hne => by rwa [hf, hf])

/-- `INSERT` of a row under a key that is not in use. -/
theorem pairwise_insert (hdistinct : rows.Pairwise fun r s => key r ≠ key s)
    (hfresh : lookup key rows (key r) = none) :
    (rows ++ [r]).Pairwise fun r s => key r ≠ key s := by
  refine List.pairwise_append.mpr ⟨hdistinct, List.pairwise_singleton _ _, fun s hs r' hr' => ?_⟩
  cases List.mem_singleton.mp hr'
  exact lookup_eq_none.mp hfresh s hs

/-- An update of every row that keeps the keys. -/
theorem lookup_map (hf : ∀ r, key (f r) = key r) :
    lookup key (rows.map f) k = (lookup key rows k).map f := by
  have hkeys : (fun r => decide (key r = k)) ∘ f = fun r => decide (key r = k) := by
    funext r
    rw [Function.comp, hf]
  rw [lookup, List.find?_map, hkeys, lookup]

theorem lookup_modify (hf : ∀ r, key (f r) = key r) :
    lookup key (modify key rows k f) l =
      if l = k then (lookup key rows k).map f else lookup key rows l := by
  rw [modify, lookup_map (fun r => by split <;> simp [hf])]
  by_cases hl : l = k
  · subst hl
    cases h : lookup key rows l with
    | none => simp
    | some r => simp [lookup_key h]
  · cases h : lookup key rows l with
    | none => simp [hl]
    | some r => simp [lookup_key h, hl]

theorem lookup_append {rows' : List R} :
    lookup key (rows ++ rows') k = (lookup key rows k).or (lookup key rows' k) := by
  simp [lookup, List.find?_append]

/-- `INSERT` of a row under a key that is not in use. -/
theorem lookup_insert (hfresh : lookup key rows (key r) = none) :
    lookup key (rows ++ [r]) k = if k = key r then some r else lookup key rows k := by
  rw [lookup_append]
  by_cases hk : k = key r
  · subst hk
    rw [hfresh]
    simp [lookup]
  · have hr : lookup key [r] k = none := by
      simpa [lookup] using fun h => hk h.symm
    simp [hr, hk]

theorem lookup_delete :
    lookup key (delete key rows k) l = if l = k then none else lookup key rows l := by
  induction rows with
  | nil => simp [delete]
  | cons r rows ih =>
    unfold lookup delete at ih ⊢
    by_cases hr : key r = k <;> by_cases hl : l = k <;> by_cases hrl : key r = l <;>
      simp_all

section
variable {T : Type*} [LT T] [DecidableLT T] {rank : R → T}

theorem latest_mem (h : latest rank rows = some r) : r ∈ rows := by
  induction rows generalizing r with
  | nil => cases h
  | cons s rows ih =>
    unfold latest at h
    split at h
    · rename_i t ht
      split at h <;> cases h
      · exact List.mem_cons_self ..
      · exact List.mem_cons_of_mem _ (ih ht)
    · cases h
      exact List.mem_cons_self ..

theorem latest_singleton : latest rank [r] = some r := rfl

end

/-- `MAX(column)`. -/
theorem foldl_max_eq {values : List Nat} {m n : Nat} (hm : m ≤ n) (hle : ∀ v ∈ values, v ≤ n)
    (hn : n ∈ values ∨ m = n) : values.foldl max m = n := by
  induction values generalizing m with
  | nil =>
    rcases hn with hn | hn
    · cases hn
    · exact hn
  | cons v values ih =>
    have hv := hle v (List.mem_cons_self ..)
    refine ih (Nat.max_le.mpr ⟨hm, hv⟩) (fun w hw => hle w (List.mem_cons_of_mem v hw)) ?_
    rcases hn with hn | rfl
    · rcases List.mem_cons.mp hn with rfl | hn
      · exact .inr (Nat.max_eq_right hm)
      · exact .inl hn
    · exact .inr (Nat.max_eq_left hv)

/-- `GROUP BY`: the groups of all keys together are the rows. -/
theorem groups_perm (key : R → K) {keys : List K} (hnodup : keys.Nodup)
    (hkey : ∀ r ∈ rows, key r ∈ keys) :
    (keys.flatMap fun k => rows.filter (key · = k)).Perm rows := by
  induction keys generalizing rows with
  | nil =>
    rw [List.eq_nil_iff_forall_not_mem.mpr fun r hr => List.not_mem_nil (hkey r hr)]
    exact List.Perm.nil
  | cons k keys ih =>
    obtain ⟨hk, hkeys⟩ := List.nodup_cons.mp hnodup
    -- The other groups are those of the rows that are not in the first.
    have hrest : (keys.flatMap fun l => rows.filter (key · = l)) =
        keys.flatMap fun l => (rows.filter fun r => !decide (key r = k)).filter (key · = l) := by
      refine List.flatMap_congr fun l hl => ?_
      rw [List.filter_filter]
      refine List.filter_congr fun r _ => ?_
      by_cases hr : key r = l
      · simp [hr, ne_of_mem_of_not_mem hl hk]
      · simp [hr]
    rw [List.flatMap_cons, hrest]
    refine ((ih hkeys fun r hr => ?_).append_left _).trans (List.filter_append_perm _ rows)
    obtain ⟨hmem, hne⟩ := List.mem_filter.mp hr
    exact (List.mem_cons.mp (hkey r hmem)).resolve_left (by simpa using hne)

-- ---------------------------------------------------------------------------
-- ORDER BY
-- ---------------------------------------------------------------------------

section
variable {α : Type} {xs ys : List α} {le : α → α → Bool} {order : RowOrder}

/-- Rows can be found in every order. -/
theorem RowOrder.exists_arrange (h : xs.Perm ys) : ∃ order : RowOrder, order.arrange xs = ys := by
  induction h with
  | nil => exact ⟨⟨id, fun rows => List.Perm.refl rows⟩, rfl⟩
  | @cons x xs ys _ ih =>
    obtain ⟨order, horder⟩ := ih
    refine ⟨⟨fun | [] => [] | r :: rows => r :: order.arrange rows, fun rows => ?_⟩, ?_⟩
    · cases rows with
      | nil => exact List.Perm.refl []
      | cons r rows => exact (order.perm rows).cons r
    · exact congrArg (x :: ·) horder
  | swap x y xs =>
    refine ⟨⟨fun | r :: s :: rows => s :: r :: rows | rows => rows, fun rows => ?_⟩, rfl⟩
    split
    · exact List.Perm.swap _ _ _
    · exact List.Perm.refl _
  | trans _ _ ih ih' =>
    obtain ⟨order, rfl⟩ := ih
    obtain ⟨order', rfl⟩ := ih'
    exact ⟨⟨order'.arrange ∘ order.arrange, fun rows => (order'.perm _).trans (order.perm rows)⟩, rfl⟩

theorem orderBy_perm : (orderBy order le xs).Perm xs :=
  (List.mergeSort_perm _ le).trans (order.perm xs)

theorem orderBy_sorted (htotal : ∀ a b, (le a b || le b a) = true)
    (htrans : ∀ a b c, le a b → le b c → le a c) :
    (orderBy order le xs).Pairwise fun a b => le a b :=
  List.pairwise_mergeSort htrans htotal _

/-- `ORDER BY` can give every sorted arrangement of the rows. -/
theorem exists_orderBy (hsorted : ys.Pairwise fun a b => le a b) (h : xs.Perm ys) :
    ∃ order, orderBy order le xs = ys := by
  obtain ⟨order, horder⟩ := RowOrder.exists_arrange h
  exact ⟨order, by rw [orderBy, horder, List.mergeSort_of_pairwise hsorted]⟩

end

end Table
