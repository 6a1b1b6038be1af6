-- SUMMARY: Pages of a sorted list whose ties may be broken anew for each page: when the pages together are the list.
import Mathlib.Data.List.Perm.Basic
import Mathlib.Tactic.Push

/-!
# Pages

The `j`-th page is cut out of a list that is sorted for this page alone. Elements that tie
may stand in another order each time, so an element on the edge of a page can be on both
sides of it or on neither. The pages fit together when every page starts with a new key.
-/

namespace Paging

variable {α : Type}

/-- The elements on a page. -/
def page (l : List α) (limit j : Nat) : List α := (l.drop (j * limit)).take limit

theorem take_page (l : List α) (limit j : Nat) :
    l.take ((j + 1) * limit) = l.take (j * limit) ++ page l limit j := by
  rw [Nat.succ_mul, List.take_add]
  rfl

/-- The first pages of one list are its first elements. -/
theorem flatMap_page (l : List α) (limit m : Nat) :
    (List.range m).flatMap (page l limit) = l.take (m * limit) := by
  induction m with
  | zero => simp
  | succ m ih => rw [List.range_succ, List.flatMap_append, ih, take_page]; simp

theorem page_eq_nil {l : List α} {limit j : Nat} (hlimit : 0 < limit) :
    page l limit j = [] ↔ l.length ≤ j * limit := by
  simp [page, Nat.ne_of_gt hlimit]

theorem map_page {β : Type} (f : α → β) (l : List α) (limit j : Nat) :
    (page l limit j).map f = page (l.map f) limit j := by
  simp [page]

variable (le : α → α → Bool)

/-- How many of the rows come strictly before `v`. -/
def rank (rows : List α) (v : α) : Nat := rows.countP fun r => !le v r

/-- The position `p` is past the rows, or it is where the rows of some key begin. -/
def NewKeyAt (rows : List α) (p : Nat) : Prop := p < rows.length → ∃ v ∈ rows, rank le rows v = p

section
variable {le} {l l' rows : List α} {p : Nat}
  (htotal : ∀ a b, (le a b || le b a) = true) (htrans : ∀ a b c, le a b → le b c → le a c)

-- ---------------------------------------------------------------------------
-- Where a key begins
-- ---------------------------------------------------------------------------

/-- What holds of all that comes before an element where it holds, holds of a first part. -/
theorem filter_append_of_sorted {q : α → Bool} (hsorted : l.Pairwise fun a b => le a b)
    (hq : ∀ a b, le a b → q b → q a) : l.filter q ++ l.filter (fun a => !q a) = l := by
  induction hsorted with
  | nil => rfl
  | @cons a l hle hsorted ih =>
    by_cases ha : q a = true
    · rw [List.filter_cons_of_pos ha, List.filter_cons_of_neg (by simp [ha]), List.cons_append, ih]
    · have hnone : l.filter q = [] :=
        List.filter_eq_nil_iff.mpr fun b hb hqb => ha (hq a b (hle b hb) hqb)
      rw [hnone] at ih
      rw [List.filter_cons_of_neg ha, List.filter_cons_of_pos (by simpa using ha), hnone]
      exact congrArg (a :: ·) ih

include htrans in
theorem take_rank (hsorted : l.Pairwise fun a b => le a b) (v : α) :
    l.take (rank le l v) = l.filter fun r => !le v r := by
  have hdown : ∀ a b, le a b → (!le v b) = true → (!le v a) = true := by
    intro a b hab hb
    rw [Bool.not_eq_true'] at hb ⊢
    exact (Bool.not_eq_true _).mp fun hva => by simp [htrans v a b hva hab] at hb
  have hsplit := filter_append_of_sorted hsorted hdown
  rw [rank, List.countP_eq_length_filter]
  conv_lhs => rw [← hsplit]
  rw [List.filter_append, List.filter_filter, List.filter_filter]
  simp

include htrans in
/-- Before the beginning of a key the same elements stand, however ties are broken. -/
theorem take_perm (hl : l.Pairwise fun a b => le a b) (hl' : l'.Pairwise fun a b => le a b)
    (hrows : l.Perm rows) (hrows' : l'.Perm rows) (hp : NewKeyAt le rows p) :
    (l.take p).Perm (l'.take p) := by
  by_cases hlt : p < rows.length
  · obtain ⟨v, -, rfl⟩ := hp hlt
    have hrank : rank le rows v = rank le l v := (hrows.countP_eq _).symm
    have hrank' : rank le rows v = rank le l' v := (hrows'.countP_eq _).symm
    rw [hrank, take_rank htrans hl, ← hrank, hrank', take_rank htrans hl']
    exact (hrows.trans hrows'.symm).filter _
  · have hlength := hrows.length_eq
    have hlength' := hrows'.length_eq
    rw [List.take_of_length_le (by omega), List.take_of_length_le (by omega)]
    exact hrows.trans hrows'.symm

include htrans in
theorem page_perm {limit j : Nat} (hl : l.Pairwise fun a b => le a b)
    (hl' : l'.Pairwise fun a b => le a b) (hrows : l.Perm rows) (hrows' : l'.Perm rows)
    (hnew : ∀ i, NewKeyAt le rows (i * limit)) : (page l limit j).Perm (page l' limit j) := by
  have hbefore := take_perm htrans hl hl' hrows hrows' (hnew j)
  have hafter := take_perm htrans hl hl' hrows hrows' (hnew (j + 1))
  rw [take_page, take_page] at hafter
  exact (List.perm_append_left_iff _).mp ((hbefore.append_right _).symm.trans hafter)

include htotal in
theorem newKeyAt_zero (hsorted : l.Pairwise fun a b => le a b) (hrows : l.Perm rows) :
    NewKeyAt le rows 0 := by
  intro hpos
  cases hsorted with
  | nil => exact absurd hrows.length_eq (Nat.ne_of_lt hpos)
  | @cons v l hle _ =>
    refine ⟨v, hrows.subset (List.mem_cons_self ..), ?_⟩
    rw [rank, ← hrows.countP_eq, List.countP_eq_zero]
    intro r hr
    rcases List.mem_cons.mp hr with rfl | hr
    · simpa using htotal r r
    · simp [hle r hr]

-- ---------------------------------------------------------------------------
-- Pages of different lists
-- ---------------------------------------------------------------------------

include htrans in
/-- When every page starts with a new key, the pages together are the rows. -/
theorem flatMap_perm {limit m : Nat} {ls : Nat → List α}
    (hsorted : ∀ j, (ls j).Pairwise fun a b => le a b) (hrows : ∀ j, (ls j).Perm rows)
    (hnew : ∀ i, NewKeyAt le rows (i * limit)) (hm : rows.length ≤ m * limit) :
    ((List.range m).flatMap fun j => page (ls j) limit j).Perm rows := by
  have hpages : ((List.range m).flatMap fun j => page (ls j) limit j).Perm
      ((List.range m).flatMap (page (ls 0) limit)) :=
    List.Perm.flatMap_left _ fun j _ => page_perm htrans (hsorted j) (hsorted 0) (hrows j) (hrows 0) hnew
  rw [flatMap_page, List.take_of_length_le ((hrows 0).length_eq ▸ hm)] at hpages
  exact hpages.trans (hrows 0)

/-- Sorted arrangements have the same keys in the same places. -/
theorem map_eq_of_sorted {κ : Type} {key : α → κ} {leKey : κ → κ → Bool}
    (hkey : ∀ a b, le a b = leKey (key a) (key b))
    (hantisymm : ∀ x y, leKey x y → leKey y x → x = y)
    (hl : l.Pairwise fun a b => le a b) (hl' : l'.Pairwise fun a b => le a b) (h : l.Perm l') :
    l.map key = l'.map key := by
  have hsorted : ∀ {xs : List α}, (xs.Pairwise fun a b => le a b) →
      (xs.map key).Pairwise fun x y => leKey x y := fun hxs =>
    List.pairwise_map.mpr (hxs.imp fun hab => hkey _ _ ▸ hab)
  exact (h.map key).eq_of_pairwise (fun x y _ _ hxy hyx => hantisymm x y hxy hyx) (hsorted hl)
    (hsorted hl')

/-- The keys of the pages are in order, whatever the ties. -/
theorem flatMap_sorted {κ : Type} (key : α → κ) (leKey : κ → κ → Bool) {limit m : Nat}
    {ls : Nat → List α} (hkey : ∀ a b, le a b = leKey (key a) (key b))
    (hantisymm : ∀ x y, leKey x y → leKey y x → x = y)
    (hsorted : ∀ j, (ls j).Pairwise fun a b => le a b) (hrows : ∀ j, (ls j).Perm rows) :
    ((List.range m).flatMap fun j => page (ls j) limit j).Pairwise fun a b => le a b := by
  have hkeys : ((List.range m).flatMap fun j => page (ls j) limit j).map key =
      ((ls 0).map key).take (m * limit) := by
    rw [List.map_flatMap, ← flatMap_page]
    refine List.flatMap_congr fun j _ => ?_
    rw [map_page, map_eq_of_sorted hkey hantisymm (hsorted j) (hsorted 0)
      ((hrows j).trans (hrows 0).symm)]
  have hfirst : (((ls 0).map key).take (m * limit)).Pairwise fun x y => leKey x y := by
    refine List.Pairwise.sublist (List.take_sublist _ _) (List.pairwise_map.mpr ?_)
    exact (hsorted 0).imp fun hab => hkey _ _ ▸ hab
  rw [← hkeys, List.pairwise_map] at hfirst
  exact hfirst.imp fun hab => (hkey _ _).trans hab

-- ---------------------------------------------------------------------------
-- A tie across the edge of a page
-- ---------------------------------------------------------------------------

include htotal htrans in
/-- Where no key begins, the elements on both sides tie. -/
theorem tie_of_not_newKeyAt (hsorted : l.Pairwise fun a b => le a b) (hrows : l.Perm rows)
    (hp : ¬ NewKeyAt le rows (p + 1)) :
    ∃ xs a b ys, l = xs ++ a :: b :: ys ∧ xs.length = p ∧ le b a := by
  unfold NewKeyAt at hp
  push Not at hp
  obtain ⟨hlt, hne⟩ := hp
  obtain ⟨xs, a, b, ys, rfl, hlength⟩ : ∃ xs a b ys, l = xs ++ a :: b :: ys ∧ xs.length = p := by
    rw [← hrows.length_eq] at hlt
    refine ⟨l.take p, l[p], l[p + 1], l.drop (p + 2), ?_, by simp; omega⟩
    rw [← List.drop_eq_getElem_cons, ← List.drop_eq_getElem_cons, List.take_append_drop]
  refine ⟨xs, a, b, ys, rfl, hlength, ?_⟩
  by_contra htie
  -- All before `b` come strictly before it, and nothing after it does.
  rw [List.pairwise_append, List.pairwise_cons, List.pairwise_cons] at hsorted
  obtain ⟨-, ⟨-, hafter, -⟩, hbefore⟩ := hsorted
  have hself : le b b = true := by simpa using htotal b b
  have hearlier : ∀ r ∈ xs, (!le b r) = true := by
    intro r hr
    rw [Bool.not_eq_true']
    refine (Bool.not_eq_true _).mp fun hbr => htie ?_
    exact htrans _ _ _ hbr (hbefore r hr _ (List.mem_cons_self ..))
  have hlater : ∀ r ∈ ys, ¬ (!le b r) = true := fun r hr => by simp [hafter r hr]
  refine hne b (hrows.subset (by simp)) ?_
  rw [rank, ← hrows.countP_eq, List.countP_append, List.countP_cons_of_pos (by simpa using htie),
    List.countP_cons_of_neg (by simp [hself]), List.countP_eq_zero.mpr hlater,
    List.countP_eq_length.mpr hearlier, hlength]

include htotal htrans in
/-- Then some arrangement puts the element before the edge behind it. -/
theorem exists_repeated (hsorted : l.Pairwise fun a b => le a b) (hrows : l.Perm rows)
    {limit j : Nat} (hlimit : 0 < limit) (hp : ¬ NewKeyAt le rows ((j + 1) * limit)) :
    ∃ l' a, (l'.Pairwise fun a b => le a b) ∧ l'.Perm rows ∧ a ∈ page l limit j ∧
      a ∈ page l' limit (j + 1) := by
  have hpos : 0 < (j + 1) * limit := Nat.mul_pos (Nat.succ_pos j) hlimit
  obtain ⟨p, hp'⟩ : ∃ p, (j + 1) * limit = p + 1 := ⟨(j + 1) * limit - 1, by omega⟩
  rw [hp'] at hp
  obtain ⟨xs, a, b, ys, rfl, hlength, htie⟩ := tie_of_not_newKeyAt htotal htrans hsorted hrows hp
  have hswap : (xs ++ b :: a :: ys).Perm (xs ++ a :: b :: ys) := (List.Perm.swap a b ys).append_left xs
  refine ⟨xs ++ b :: a :: ys, a, ?_, hswap.trans hrows, ?_, ?_⟩
  · rw [List.pairwise_append, List.pairwise_cons, List.pairwise_cons] at hsorted ⊢
    obtain ⟨hxs, ⟨ha, hb, hys⟩, hbefore⟩ := hsorted
    refine ⟨hxs, ⟨?_, fun y hy => ha y (List.mem_cons_of_mem b hy), hys⟩, fun x hx y hy => ?_⟩
    · intro y hy
      rcases List.mem_cons.mp hy with rfl | hy
      · exact htie
      · exact hb y hy
    · exact hbefore x hx y ((List.Perm.swap a b ys).subset hy)
  · have hlast : (xs ++ a :: b :: ys)[p]? = some a := by simp [← hlength]
    rw [Nat.succ_mul] at hp'
    refine List.mem_of_getElem? (i := p - j * limit) ?_
    rw [page, List.getElem?_take, if_pos (by omega), List.getElem?_drop, ← hlast]
    congr 1
    omega
  · have hfirst : (xs ++ b :: a :: ys)[p + 1]? = some a := by
      simp [← hlength]
    refine List.mem_of_getElem? (i := 0) ?_
    rw [page, List.getElem?_take, if_pos hlimit, List.getElem?_drop, ← hfirst, hp', Nat.add_zero]

end

end Paging
