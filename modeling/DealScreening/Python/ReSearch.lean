-- SUMMARY: Where the matches of an expression can stand in a text, and how that changes when the text is cut or put together.
import DealScreening.Python.Re

/-!
# Matches in a text

A match in a text is one of its parts with the characters around it. A character that no class
has stands between the matches.
-/

namespace Python.Re

/-- Some match stands in the text. -/
def Occurs [ReTables] (r : Re) (prev : Option Nat) (s : Str) (after : Option Nat) : Prop :=
  ∃ a w b, s = a ++ w ++ b ∧ Accepts r (last prev a) w (next b after)

/-- No match stands in the text. -/
def Absent [ReTables] (r : Re) (s : Str) : Prop := ¬ Occurs r none s none

section
variable [ReTables] {q r : Re} {prev : Option Nat} {x y : Str} {c : Nat}

theorem Occurs.append {after : Option Nat} {a b : Str} (h : Occurs r (last prev a) x (next b after)) :
    Occurs r prev (a ++ x ++ b) after := by
  obtain ⟨u, w, v, rfl, haccepts⟩ := h
  refine ⟨a ++ u, w, v ++ b, by simp, ?_⟩
  rwa [last_append, next_append]

/-- What does not look at the context and is absent from a text is absent from its parts. -/
theorem Absent.of_part (hq : q.boundaryFree = true) (h : Absent q s) (hx : x <:+: s) :
    Absent q x := by
  obtain ⟨a, b, rfl⟩ := hx
  rintro ⟨u, w, v, rfl, haccepts⟩
  exact h (Occurs.append ⟨u, w, v, rfl, (accepts_free hq).1 haccepts⟩)

/-- A match in a part that stands alone is one in its place, unless a word goes on there. -/
theorem occurs_in_context {after : Option Nat} (hq : Bounded q)
    (hleft : ¬ (atWord prev = true ∧ atWord x.head? = true))
    (hright : ¬ (atWord x.getLast? = true ∧ atWord after = true)) (h : Occurs q none x none) :
    Occurs q prev x after := by
  obtain ⟨a, w, b, rfl, haccepts⟩ := h
  obtain ⟨hstart, hend⟩ := hq _ _ _ haccepts
  refine ⟨a, w, b, rfl, (accepts_congr ?_ ?_).1 haccepts⟩
  · rcases a.eq_nil_or_concat with rfl | ⟨a, c, rfl⟩
    · rw [last_nil, next_none, next_head?] at hstart
      have hword : atWord (w ++ b).head? = true := Bool.of_not_eq_false fun h => hstart h.symm
      rw [List.nil_append] at hleft
      simp only [hword, and_true, Bool.not_eq_true] at hleft
      exact hleft.symm
    · rw [List.concat_eq_append, last_concat, last_concat]
  · cases b with
    | cons c b => rfl
    | nil =>
      rw [← last_append, last_none, next_nil] at hend
      have hword : atWord (a ++ w).getLast? = true := Bool.of_not_eq_false hend
      rw [List.append_nil] at hright
      simp only [hword, true_and, Bool.not_eq_true] at hright
      exact hright.symm

/-- The same for the part of a cut text next to matches between word boundaries. -/
theorem occurs_of_part {a b : Str} (hq : Bounded q)
    (hstart : a = [] ∨ atWord (last prev a) ≠ atWord (x ++ b).head?)
    (hend : b = [] ∨ atWord (last prev (a ++ x)) ≠ atWord b.head?) (hprev : atWord prev = false)
    (h : Occurs q none x none) : Occurs q (last prev a) x b.head? := by
  refine occurs_in_context hq ?_ ?_ h
  · rintro ⟨hbefore, hfirst⟩
    rcases hstart with rfl | hne
    · rw [last_nil, hprev] at hbefore
      cases hbefore
    · cases x with
      | nil => cases hfirst
      | cons c x => exact hne (hbefore.trans hfirst.symm)
  · rintro ⟨hlast, hbehind⟩
    rcases hend with rfl | hne
    · cases hbehind
    · rcases x.eq_nil_or_concat with rfl | ⟨x, c, rfl⟩
      · cases hlast
      · rw [List.concat_eq_append, ← List.append_assoc, last_concat] at hne
        rw [List.concat_eq_append, List.getLast?_concat] at hlast
        exact hne (hlast.trans hbehind.symm)

/-- Behind a character outside the words a text begins anew, and behind any character when
    there is no `\b`. -/
theorem accepts_behind (hc : isWord c = false ∨ q.boundaryFree = true) {a w : Str}
    {after : Option Nat} :
    Accepts q (last (some c) a) w after ↔ Accepts q (last none a) w after := by
  rcases hc with hword | hfree
  · exact accepts_congr (atWord_last hword) rfl
  · exact accepts_free hfree

/-- So does it end before such a character. -/
theorem accepts_before (hc : isWord c = false ∨ q.boundaryFree = true) {w b : Str}
    {prev : Option Nat} :
    Accepts q prev w (next b (some c)) ↔ Accepts q prev w (next b none) := by
  rcases hc with hword | hfree
  · exact accepts_congr rfl (atWord_next hword)
  · exact accepts_free hfree

/-- Without one of the literals there is no match. -/
theorem absent_of_notMem {rs : List Re} {d : Char} (hd : char d ∈ rs) (h : d.toNat ∉ x) :
    Absent (bounded (all rs)) x := by
  rintro ⟨a, w, b, rfl, haccepts⟩
  have hmem := (accepts_bounded.1 haccepts).2.2.mem_char hd
  exact h (List.mem_append_left b (List.mem_append_right a hmem))

/-- A character that no class has stands between the matches. -/
theorem absent_append_cons (hpos : 0 < q.minLength) (htakes : q.takes c = false)
    (hc : isWord c = false ∨ q.boundaryFree = true) :
    Absent q (x ++ c :: y) ↔ Absent q x ∧ Absent q y := by
  rw [Absent, Absent, Absent, ← not_or, not_iff_not]
  constructor
  · rintro ⟨a, w, b, hsplit, haccepts⟩
    have hnot : c ∉ w := fun hmem => by
      rw [haccepts.takes c hmem] at htakes
      cases htakes
    have hne : w ≠ [] := List.ne_nil_of_length_pos (Nat.lt_of_lt_of_le hpos haccepts.minLength_le)
    rw [List.append_assoc] at hsplit
    rcases List.append_eq_append_iff.1 hsplit with ⟨a', rfl, hy⟩ | ⟨e, rfl, he⟩
    · cases a' with
      | nil =>
        obtain ⟨d, w, rfl⟩ := List.exists_cons_of_ne_nil hne
        obtain ⟨rfl, -⟩ := List.cons.injEq .. |>.mp hy
        exact absurd (List.mem_cons_self ..) hnot
      | cons d a' =>
        obtain ⟨rfl, rfl⟩ := List.cons.injEq .. |>.mp hy
        rw [last_append, last_cons] at haccepts
        exact .inr ⟨a', w, b, by simp, (accepts_behind hc).1 haccepts⟩
    · rcases List.append_eq_append_iff.1 he with ⟨e', rfl, hb⟩ | ⟨e', rfl, hb⟩
      · rw [hb, next_append] at haccepts
        exact .inl ⟨a, w, e', by simp, (accepts_before hc).1 haccepts⟩
      · cases e' with
        | nil =>
          rw [← show c :: y = b from hb, List.append_nil] at haccepts
          exact .inl ⟨a, e, [], by simp, (accepts_before (b := []) hc).1 haccepts⟩
        | cons d e' =>
          obtain ⟨rfl, -⟩ := List.cons.injEq .. |>.mp hb
          exact absurd (by simp) hnot
  · rintro (⟨a, w, b, rfl, haccepts⟩ | ⟨a, w, b, rfl, haccepts⟩)
    · refine ⟨a, w, b ++ c :: y, by simp, ?_⟩
      rw [next_append]
      exact (accepts_before hc).2 haccepts
    · refine ⟨x ++ c :: a, w, b, by simp, ?_⟩
      rw [last_append, last_cons]
      exact (accepts_behind hc).2 haccepts

theorem absent_nil (hpos : 0 < q.minLength) : Absent q [] := by
  rintro ⟨a, w, b, hsplit, haccepts⟩
  have hw : w = [] := (List.append_eq_nil_iff.1 (List.append_eq_nil_iff.1 hsplit.symm).1).2
  subst hw
  exact absurd haccepts.minLength_le (Nat.not_le.2 hpos)

/-- So does a run of such characters. -/
theorem absent_append_run {run : Str} (hpos : 0 < q.minLength) (hfree : q.boundaryFree = true)
    (hne : run ≠ []) (hrun : ∀ c ∈ run, q.takes c = false) :
    Absent q (x ++ run ++ y) ↔ Absent q x ∧ Absent q y := by
  induction run generalizing x with
  | nil => exact absurd rfl hne
  | cons c run ih =>
    rw [List.append_assoc, List.cons_append, absent_append_cons hpos (hrun c (by simp)) (.inr hfree)]
    cases run with
    | nil => rw [List.nil_append]
    | cons d run =>
      have hrest := ih (x := []) (by simp) fun e he => hrun e (List.mem_cons_of_mem c he)
      rw [List.nil_append] at hrest
      rw [hrest, and_iff_right (absent_nil hpos)]

/-- Without a character that a match can end with there is none. -/
theorem absent_of_final (hpos : 0 < q.minLength) (h : ∀ c ∈ x, q.final c = false) : Absent q x := by
  rintro ⟨a, w, b, rfl, haccepts⟩
  have hne : w ≠ [] := List.ne_nil_of_length_pos (Nat.lt_of_lt_of_le hpos haccepts.minLength_le)
  obtain ⟨w, c, rfl⟩ := List.eq_nil_or_concat w |>.resolve_left hne
  have htrue := haccepts.final c (by simp)
  rw [h c (by simp)] at htrue
  cases htrue

/-- The last character does not count when no match ends with it. -/
theorem absent_concat (hpos : 0 < q.minLength) (hfinal : q.final c = false)
    (hc : isWord c = false ∨ q.boundaryFree = true) : Absent q (x ++ [c]) ↔ Absent q x := by
  refine not_congr ⟨?_, ?_⟩
  · rintro ⟨a, w, b, hsplit, haccepts⟩
    rcases b.eq_nil_or_concat with rfl | ⟨b, d, rfl⟩
    · have hne : w ≠ [] := List.ne_nil_of_length_pos (Nat.lt_of_lt_of_le hpos haccepts.minLength_le)
      obtain ⟨w, d, rfl⟩ := List.eq_nil_or_concat w |>.resolve_left hne
      rw [List.append_nil, List.concat_eq_append, ← List.append_assoc] at hsplit
      obtain ⟨-, heq⟩ := List.append_inj' hsplit rfl
      obtain rfl := List.singleton_inj.1 heq
      have htrue := haccepts.final c (by simp)
      rw [hfinal] at htrue
      cases htrue
    · rw [List.concat_eq_append, ← List.append_assoc] at hsplit
      obtain ⟨rfl, heq⟩ := List.append_inj' hsplit rfl
      obtain rfl := List.singleton_inj.1 heq
      rw [List.concat_eq_append, next_append] at haccepts
      exact ⟨a, w, b, rfl, (accepts_before hc).1 haccepts⟩
  · rintro ⟨a, w, b, rfl, haccepts⟩
    refine ⟨a, w, b ++ [c], by simp, ?_⟩
    rw [next_append]
    exact (accepts_before hc).2 haccepts

/-- The first character does not count when no match begins with it. -/
theorem absent_cons (hpos : 0 < q.minLength) (hfirst : q.first c = false)
    (hc : isWord c = false ∨ q.boundaryFree = true) : Absent q (c :: x) ↔ Absent q x := by
  refine not_congr ⟨?_, ?_⟩
  · rintro ⟨a, w, b, hsplit, haccepts⟩
    cases a with
    | nil =>
      have hne : w ≠ [] := List.ne_nil_of_length_pos (Nat.lt_of_lt_of_le hpos haccepts.minLength_le)
      obtain ⟨d, w, rfl⟩ := List.exists_cons_of_ne_nil hne
      obtain ⟨rfl, -⟩ := List.cons.injEq .. |>.mp hsplit
      have htrue := haccepts.first c rfl
      rw [hfirst] at htrue
      cases htrue
    | cons d a =>
      obtain ⟨rfl, hx⟩ := List.cons.injEq .. |>.mp hsplit
      rw [last_cons] at haccepts
      exact ⟨a, w, b, hx, (accepts_behind hc).1 haccepts⟩
  · rintro ⟨a, w, b, rfl, haccepts⟩
    refine ⟨c :: a, w, b, by simp, ?_⟩
    rw [last_cons]
    exact (accepts_behind hc).2 haccepts

omit [ReTables] in
/-- A text does not begin in front of a part that has not its first character. -/
theorem drop_left {a w b z : Str} (hne : w ≠ []) (hfirst : ∀ c ∈ w.head?, c ∉ x)
    (h : x ++ z = a ++ w ++ b) : ∃ a', a = x ++ a' ∧ z = a' ++ w ++ b := by
  rw [List.append_assoc] at h
  rcases List.append_eq_append_iff.1 h with ⟨a', rfl, hz⟩ | ⟨e, rfl, hz⟩
  · exact ⟨a', rfl, by rw [hz, List.append_assoc]⟩
  · cases e with
    | nil => exact ⟨[], by simp, by simpa using hz.symm⟩
    | cons d e =>
      obtain ⟨c, w, rfl⟩ := List.exists_cons_of_ne_nil hne
      obtain ⟨rfl, -⟩ := List.cons.injEq .. |>.mp hz
      exact absurd (by simp) (hfirst c rfl)

omit [ReTables] in
/-- It does not end behind a part that has not its last character. -/
theorem drop_right {a w b z : Str} (hne : w ≠ []) (hfinal : ∀ c ∈ w.getLast?, c ∉ y)
    (h : z ++ y = a ++ w ++ b) : ∃ b', b = b' ++ y ∧ z = a ++ w ++ b' := by
  rcases List.append_eq_append_iff.1 h with ⟨e, hw, rfl⟩ | ⟨b', hz, rfl⟩
  · rcases e.eq_nil_or_concat with rfl | ⟨e, d, rfl⟩
    · exact ⟨[], rfl, by simpa using hw.symm⟩
    · obtain ⟨w, c, rfl⟩ := List.eq_nil_or_concat w |>.resolve_left hne
      rw [List.concat_eq_append, List.concat_eq_append, ← List.append_assoc, ← List.append_assoc] at hw
      obtain rfl := List.singleton_inj.1 (List.append_inj' hw rfl).2
      exact absurd (by simp) (hfinal c (by simp))
  · exact ⟨b', rfl, hz⟩

/-- Between texts where no match begins or ends, a run of word characters is matched as a
    whole or not at all. -/
theorem occurs_run {r : Re} {run : Str} (hfree : r.boundaryFree = true) (hpos : 0 < r.minLength)
    (hx : ∀ c ∈ x, r.first c = false) (hy : ∀ c ∈ y, r.final c = false)
    (hrun : ∀ c ∈ run, isWord c = true) (hbefore : atWord x.getLast? = false)
    (hafter : atWord y.head? = false) :
    Occurs (bounded r) none (x ++ run ++ y) none ↔ Accepts r none run none := by
  constructor
  · rintro ⟨a, w, b, hsplit, haccepts⟩
    obtain ⟨hstart, hend, hw⟩ := accepts_bounded.1 haccepts
    have hne : w ≠ [] := List.ne_nil_of_length_pos (Nat.lt_of_lt_of_le hpos hw.minLength_le)
    have hfirst : ∀ c ∈ w.head?, c ∉ x := fun c hc hmem =>
      Bool.false_ne_true ((hx c hmem).symm.trans (hw.first c hc))
    have hfinal : ∀ c ∈ w.getLast?, c ∉ y := fun c hc hmem =>
      Bool.false_ne_true ((hy c hmem).symm.trans (hw.final c hc))
    rw [List.append_assoc] at hsplit
    obtain ⟨a, rfl, hrest⟩ := drop_left hne hfirst hsplit
    obtain ⟨b, rfl, rfl⟩ := drop_right hne hfinal hrest
    -- At a boundary inside the run there would be a word character on both sides.
    have ha : a = [] := by
      rcases a.eq_nil_or_concat with rfl | ⟨a, d, rfl⟩
      · rfl
      · obtain ⟨c, w, rfl⟩ := List.exists_cons_of_ne_nil hne
        rw [List.concat_eq_append, ← List.append_assoc, last_concat, next_cons] at hstart
        exact absurd ((hrun d (by simp)).trans (hrun c (by simp)).symm) hstart
    have hb : b = [] := by
      cases b with
      | nil => rfl
      | cons d b =>
        obtain ⟨w, c, rfl⟩ := List.eq_nil_or_concat w |>.resolve_left hne
        rw [List.concat_eq_append, last_concat, List.cons_append, next_cons] at hend
        exact absurd ((hrun c (by simp)).trans (hrun d (by simp)).symm) hend
    subst ha hb
    rw [List.nil_append, List.append_nil]
    exact (accepts_free hfree).1 hw
  · intro hw
    have hne : run ≠ [] := List.ne_nil_of_length_pos (Nat.lt_of_lt_of_le hpos hw.minLength_le)
    refine ⟨x, run, y, rfl, accepts_bounded.2 ⟨?_, ?_, (accepts_free hfree).1 hw⟩⟩
    · obtain ⟨c, run, rfl⟩ := List.exists_cons_of_ne_nil hne
      rw [last_none, hbefore, next_cons, show atWord (some c) = true from hrun c (by simp)]
      exact Bool.false_ne_true
    · obtain ⟨run, c, rfl⟩ := List.eq_nil_or_concat run |>.resolve_left hne
      rw [next_none, hafter, List.concat_eq_append, last_concat,
        show atWord (some c) = true from hrun c (by simp)]
      exact Bool.false_ne_true.symm

/-- A match stands at the beginning or at the end of the text. -/
def TouchesEnd (q : Re) (x : Str) : Prop :=
  ∃ a w b, x = a ++ w ++ b ∧ Accepts q (last none a) w (next b none) ∧ (a = [] ∨ b = [])

/-- A part of a text without a match can have one at its ends only. -/
theorem absent_part_iff {s : Str} (h : Absent q s) (hx : x <:+: s) :
    Absent q x ↔ ¬ TouchesEnd q x := by
  refine not_congr ⟨?_, fun ⟨a, w, b, hsplit, haccepts, _⟩ => ⟨a, w, b, hsplit, haccepts⟩⟩
  rintro ⟨a, w, b, rfl, haccepts⟩
  refine ⟨a, w, b, rfl, haccepts, ?_⟩
  by_contra hinside
  obtain ⟨ha, hb⟩ := not_or.1 hinside
  obtain ⟨u, v, rfl⟩ := hx
  obtain ⟨a, d, rfl⟩ := List.eq_nil_or_concat a |>.resolve_left ha
  obtain ⟨e, b, rfl⟩ := List.exists_cons_of_ne_nil hb
  refine h (Occurs.append ⟨a.concat d, w, e :: b, rfl, ?_⟩)
  rw [List.concat_eq_append, last_concat, next_cons] at haccepts ⊢
  exact haccepts

theorem absent_map {f : Nat → Nat} (hq : Invariant f q) : Absent q (x.map f) ↔ Absent q x := by
  refine not_congr ⟨?_, ?_⟩
  · rintro ⟨a', w', b', hsplit, haccepts⟩
    obtain ⟨aw, b, rfl, haw, rfl⟩ := List.map_eq_append_iff.1 hsplit
    obtain ⟨a, w, rfl, rfl, rfl⟩ := List.map_eq_append_iff.1 haw
    refine ⟨a, w, b, rfl, (accepts_map hq).1 ?_⟩
    rw [last_none, next_none] at haccepts ⊢
    rwa [← List.getLast?_map, ← List.head?_map]
  · rintro ⟨a, w, b, rfl, haccepts⟩
    refine ⟨a.map f, w.map f, b.map f, by simp, ?_⟩
    rw [last_none, next_none] at haccepts ⊢
    rw [List.getLast?_map, List.head?_map]
    exact (accepts_map hq).2 haccepts

end

end Python.Re
