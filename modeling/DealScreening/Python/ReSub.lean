-- SUMMARY: `re.sub`: the cut of a text at its matches, the text with the matches replaced, and what is left outside them.
import DealScreening.Python.ReSearch

/-!
# Substitution

The scan tries every place from left to right and goes on after a match.
-/

namespace Python.Re

/-- Group 0 and group 1 of a match. -/
structure Match where
  text : Str
  group : Str
  deriving DecidableEq

/-- What is matched at the front of a text, after a character. -/
abbrev Finder := Option Nat → Str → Option Match

section
variable [ReTables]

/-- The match of an expression without groups. -/
def find (r : Re) : Finder := fun prev s =>
  (lengths r prev s).head?.map fun n => ⟨s.take n, []⟩

/-- The match of an expression whose last part is its group. -/
def findGroup (before group : Re) : Finder := fun prev s =>
  ((lengths before prev s).flatMap fun i =>
    (lengths group (last prev (s.take i)) (s.drop i)).map fun j => (i, j)).head?.map
      fun (i, j) => ⟨s.take (i + j), (s.drop i).take j⟩

/-- The finder matches what the expression matches first. -/
def Finds (f : Finder) (r : Re) : Prop := ∀ prev s,
  (f prev s).map Match.text = (lengths r prev s).head?.map (s.take ·)

end

/-- The text before the first match, and each match with the text that follows it. So many
    characters of the last match are still to be passed. The empty match is not one here. -/
def cuts (f : Finder) : Nat → Option Nat → Str → Str × List (Match × Str)
  | _, _, [] => ([], [])
  | skip + 1, _, c :: s => cuts f skip (some c) s
  | 0, prev, c :: s =>
    match f prev (c :: s) with
    | some m =>
      let (following, others) := cuts f (m.text.length - 1) (some c) s
      ([], (m, following) :: others)
    | none =>
      let (start, found) := cuts f 0 (some c) s
      (c :: start, found)

/-- A cut text, put together with something for each match. -/
def glue (new : Match → Str) (parts : Str × List (Match × Str)) : Str :=
  parts.1 ++ parts.2.flatMap fun p => new p.1 ++ p.2

/-- The parts of the text outside the matches. -/
def outside (f : Finder) (s : Str) : List Str :=
  (cuts f 0 none s).1 :: (cuts f 0 none s).2.map Prod.snd

/-- `pattern.sub(new, s)`. -/
def sub (f : Finder) (new : Match → Str) (s : Str) : Str := glue new (cuts f 0 none s)

/-- `pattern.finditer(s)`. -/
def finditer (f : Finder) (s : Str) : List Match := (cuts f 0 none s).2.map Prod.fst

-- ---------------------------------------------------------------------------
-- Finders
-- ---------------------------------------------------------------------------

section
variable [ReTables] {f : Finder} {r : Re} {prev after : Option Nat} {s : Str} {m : Match}

theorem finds_find (r : Re) : Finds (find r) r := fun prev s => by
  simp [find, Function.comp_def]

theorem finds_findGroup (before group : Re) :
    Finds (findGroup before group) (seq before group) := by
  intro prev s
  have hlengths : lengths (seq before group) prev s =
      ((lengths before prev s).flatMap fun i =>
        (lengths group (last prev (s.take i)) (s.drop i)).map fun j => (i, j)).map
          fun p => p.1 + p.2 := by
    simp [lengths, List.map_flatMap, Function.comp_def]
  rw [hlengths, List.head?_map]
  simp [findGroup, Function.comp_def]

/-- The group of a match is its end. -/
theorem group_suffix {before group : Re} (h : findGroup before group prev s = some m) :
    ∃ u, m.text = u ++ m.group ∧ group.minLength ≤ m.group.length := by
  simp only [findGroup, Option.map_eq_some_iff] at h
  obtain ⟨⟨i, j⟩, hfirst, rfl⟩ := h
  obtain ⟨i', hi, hpair⟩ := List.mem_flatMap.1 (List.mem_of_mem_head? hfirst)
  obtain ⟨j', hj, heq⟩ := List.mem_map.1 hpair
  obtain ⟨rfl, rfl⟩ := Prod.mk.injEq .. |>.mp heq
  refine ⟨s.take i', List.take_add .., ?_⟩
  have hle := le_of_mem_lengths hj
  have haccepts := @mem_lengths _ group (last prev (s.take i')) ((s.drop i').take j') ((s.drop i').drop j')
  rw [List.take_append_drop, List.length_take, Nat.min_eq_left hle] at haccepts
  exact (haccepts.1 hj).minLength_le

theorem Finds.none_iff (hf : Finds f r) : f prev s = none ↔ lengths r prev s = [] := by
  have h := congrArg Option.isNone (hf prev s)
  rw [Option.isNone_map, Option.isNone_map] at h
  rw [← Option.isNone_iff_eq_none, h, Option.isNone_iff_eq_none, List.head?_eq_none_iff]

/-- What is found is a match at the front. -/
theorem Finds.accepts (hf : Finds f r) (h : f prev s = some m) :
    ∃ t, s = m.text ++ t ∧ Accepts r prev m.text t.head? := by
  have htext := hf prev s
  rw [h, Option.map_some, eq_comm, Option.map_eq_some_iff] at htext
  obtain ⟨n, hn, htake⟩ := htext
  have hmem := List.mem_of_mem_head? hn
  have hle := le_of_mem_lengths hmem
  refine ⟨s.drop n, ?_, ?_⟩
  · rw [← htake, List.take_append_drop]
  · rw [← htake, ← mem_lengths, List.take_append_drop, List.length_take, Nat.min_eq_left hle]
    exact hmem

/-- Where nothing is found there is no match at the front. -/
theorem Finds.not_accepts (hf : Finds f r) (h : f prev s = none) {w t : Str} (hs : s = w ++ t) :
    ¬ Accepts r prev w t.head? := by
  rw [← mem_lengths, ← hs, hf.none_iff.1 h]
  exact List.not_mem_nil

theorem Finds.text_ne_nil (hf : Finds f r) (hpos : 0 < r.minLength) (h : f prev s = some m) :
    m.text ≠ [] := by
  obtain ⟨t, -, haccepts⟩ := hf.accepts h
  exact List.ne_nil_of_length_pos (Nat.lt_of_lt_of_le hpos haccepts.minLength_le)

end

-- ---------------------------------------------------------------------------
-- The cut
-- ---------------------------------------------------------------------------

/-- At no place of the text, with `rest` behind it, is anything found. -/
def NoneIn (f : Finder) (prev : Option Nat) (x rest : Str) : Prop :=
  ∀ a b, x = a ++ b → b ≠ [] → f (last prev a) (b ++ rest) = none

/-- A text that is cut at its matches from left to right. -/
inductive Cut (f : Finder) : Option Nat → Str → Str × List (Match × Str) → Prop
  | done {prev : Option Nat} {x : Str} : NoneIn f prev x [] → Cut f prev x (x, [])
  | found {prev : Option Nat} {x s : Str} {m : Match} {parts : Str × List (Match × Str)} :
      NoneIn f prev x (m.text ++ s) → f (last prev x) (m.text ++ s) = some m →
      Cut f (last (last prev x) m.text) s parts →
      Cut f prev (x ++ (m.text ++ s)) (x, (m, parts.1) :: parts.2)

section
variable {f : Finder} {prev : Option Nat} {s x : Str} {c : Nat} {cut : Str × List (Match × Str)}

theorem NoneIn.cons {rest : Str} (hc : f prev (c :: (x ++ rest)) = none)
    (h : NoneIn f (some c) x rest) : NoneIn f prev (c :: x) rest := by
  intro a b hab hb
  cases a with
  | nil =>
    rw [List.nil_append] at hab
    subst hab
    exact hc
  | cons d a =>
    obtain ⟨rfl, hx⟩ := List.cons.injEq .. |>.mp hab
    have hfound := h a b hx hb
    rwa [← last_cons (w := a)] at hfound

theorem Cut.cons (hc : f prev (c :: s) = none) (h : Cut f (some c) s cut) :
    Cut f prev (c :: s) (c :: cut.1, cut.2) := by
  cases h with
  | done hnone => exact .done (hnone.cons (by rwa [List.append_nil]))
  | @found _ x s m cut hnone hm hrest =>
    refine .found (x := c :: x) (hnone.cons hc) ?_ ?_
    · rwa [last_cons]
    · rwa [last_cons]

theorem cuts_skip (x s : Str) : cuts f x.length prev (x ++ s) = cuts f 0 (last prev x) s := by
  induction x generalizing prev with
  | nil => rfl
  | cons c x ih =>
    rw [List.length_cons, List.cons_append, cuts, ih, last_cons]

/-- The scan cuts the text at its matches. -/
theorem cut_cuts [ReTables] {r : Re} (hf : Finds f r) (hpos : 0 < r.minLength) :
    Cut f prev s (cuts f 0 prev s) := by
  induction hn : s.length using Nat.strong_induction_on generalizing prev s with
  | _ n ih =>
  cases s with
  | nil => exact .done fun a b hab hb => absurd (List.append_eq_nil_iff.1 hab.symm).2 hb
  | cons c s =>
    rw [cuts]
    cases hfound : f prev (c :: s) with
    | none =>
      have hshorter : s.length < n := by
        rw [← hn, List.length_cons]
        exact Nat.lt_succ_self _
      exact (ih s.length hshorter rfl).cons hfound
    | some m =>
      obtain ⟨t, ht, -⟩ := hf.accepts hfound
      cases htext : m.text with
      | nil => exact absurd htext (hf.text_ne_nil hpos hfound)
      | cons d u =>
        rw [htext, List.cons_append] at ht
        obtain ⟨rfl, rfl⟩ := List.cons.injEq .. |>.mp ht
        have hshorter : t.length < n := by
          rw [← hn, List.length_cons, List.length_append]
          omega
        have hrest : Cut f (last prev m.text) t _ := ih t.length hshorter rfl
        have hcut := Cut.found (x := []) (fun a b hab hb => absurd (List.append_eq_nil_iff.1 hab.symm).2 hb)
          (by rwa [htext]) hrest
        have hlast : last (some c) u = last prev m.text := by
          rw [htext]
          exact last_cons.symm
        have hlength : m.text.length - 1 = u.length := by simp [htext]
        have hfront : [] ++ (m.text ++ t) = c :: (u ++ t) := by rw [htext, List.nil_append, List.cons_append]
        dsimp only
        rw [hlength, cuts_skip, hlast]
        rwa [hfront] at hcut

/-- The matches and the parts outside make up the text. -/
theorem Cut.text (h : Cut f prev s cut) : glue Match.text cut = s := by
  induction h with
  | done _ => exact List.append_nil _
  | found _ _ _ ih =>
    rw [← ih]
    simp [glue]

/-- A match of the cut was found in its place. -/
theorem Cut.mem_found (h : Cut f prev s cut) {p : Match × Str} (hp : p ∈ cut.2) :
    ∃ a t, s = a ++ (p.1.text ++ t) ∧ f (last prev a) (p.1.text ++ t) = some p.1 := by
  induction h with
  | done _ => cases hp
  | @found prev x s m cut _ hm _ ih =>
    rcases List.mem_cons.1 hp with rfl | hp
    · exact ⟨x, s, rfl, hm⟩
    · obtain ⟨a, t, rfl, hfound⟩ := ih hp
      refine ⟨x ++ (m.text ++ a), t, by simp, ?_⟩
      rwa [last_append, last_append]

section
variable [ReTables] {r q : Re}

/-- No match begins in a text at whose places nothing is found. -/
theorem NoneIn.not_occurs (hf : Finds f r) (hpos : 0 < r.minLength) {rest : Str}
    (h : NoneIn f prev x rest) : ¬ Occurs r prev x rest.head? := by
  rintro ⟨a, w, b, rfl, haccepts⟩
  have hne : w ++ b ≠ [] := List.append_ne_nil_of_left_ne_nil
    (List.ne_nil_of_length_pos (Nat.lt_of_lt_of_le hpos haccepts.minLength_le)) b
  have hfound := h a (w ++ b) (by simp) hne
  refine hf.not_accepts hfound (w := w) (t := b ++ rest) (by simp) ?_
  rwa [← next_head?]

/-- A match occurs when the cut has one. -/
theorem Cut.occurs_iff (hf : Finds f r) (hpos : 0 < r.minLength) (h : Cut f prev s cut) :
    Occurs r prev s none ↔ cut.2 ≠ [] := by
  cases h with
  | done hnone => exact iff_of_false (hnone.not_occurs hf hpos) (by simp)
  | @found _ x s m cut hnone hm hrest =>
    refine iff_of_true ?_ (by simp)
    obtain ⟨t, ht, haccepts⟩ := hf.accepts hm
    obtain rfl := List.append_cancel_left ht
    refine ⟨x, m.text, s, by simp, ?_⟩
    rwa [next_none]

/-- Where a part outside stands: no match begins in it, and the matches next to it end at it
    as the expression asks. -/
theorem Cut.mem_parts (hf : Finds f r) (h : Cut f prev s cut) (hx : x ∈ cut.1 :: cut.2.map Prod.snd) :
    ∃ a b, s = a ++ x ++ b ∧ NoneIn f (last prev a) x b ∧ (Bounded r →
      (a = [] ∨ atWord (last prev a) ≠ atWord (x ++ b).head?) ∧
      (b = [] ∨ atWord (last prev (a ++ x)) ≠ atWord b.head?)) := by
  induction h with
  | @done prev y hnone =>
    obtain rfl := List.mem_singleton.1 hx
    exact ⟨[], [], by simp, hnone, fun _ => ⟨.inl rfl, .inl rfl⟩⟩
  | @found prev y s m cut hnone hm hrest ih =>
    obtain ⟨t, ht, haccepts⟩ := hf.accepts hm
    obtain rfl := List.append_cancel_left ht
    rcases List.mem_cons.1 hx with rfl | hx
    · refine ⟨[], m.text ++ s, by simp, hnone, fun hr => ⟨.inl rfl, .inr ?_⟩⟩
      rw [List.nil_append, ← next_head?]
      exact (hr _ _ _ haccepts).1
    · obtain ⟨a, b, rfl, hnone', hedges⟩ := ih hx
      refine ⟨y ++ (m.text ++ a), b, by simp, ?_, fun hr => ⟨.inr ?_, ?_⟩⟩
      · rwa [last_append, last_append]
      · rcases (hedges hr).1 with rfl | hedge
        · rw [List.append_nil, last_append]
          exact (hr _ _ _ haccepts).2
        · rwa [last_append, last_append]
      · refine (hedges hr).2.imp_right fun hedge => ?_
        rwa [List.append_assoc, List.append_assoc, last_append, last_append]

end

-- ---------------------------------------------------------------------------
-- The parts outside the matches
-- ---------------------------------------------------------------------------

section
variable [ReTables] {r q : Re} (hf : Finds f r) (hpos : 0 < r.minLength)
include hf hpos

theorem mem_outside (hx : x ∈ outside f s) :
    ∃ a b, s = a ++ x ++ b ∧ NoneIn f (last none a) x b ∧ (Bounded r →
      (a = [] ∨ atWord (last none a) ≠ atWord (x ++ b).head?) ∧
      (b = [] ∨ atWord (last none (a ++ x)) ≠ atWord b.head?)) :=
  (cut_cuts hf hpos).mem_parts hf hx

/-- No match is left outside, when the expression does not look at the context. -/
theorem absent_outside_free (hr : r.boundaryFree = true) (hx : x ∈ outside f s) : Absent r x := by
  obtain ⟨a, b, -, hnone, -⟩ := mem_outside hf hpos hx
  rintro ⟨u, w, v, rfl, haccepts⟩
  exact hnone.not_occurs hf hpos ⟨u, w, v, rfl, (accepts_free hr).1 haccepts⟩

/-- No match is left outside, when it asks for word boundaries at its ends. -/
theorem absent_outside_bounded (hr : Bounded r) (hx : x ∈ outside f s) : Absent r x := by
  obtain ⟨a, b, -, hnone, hedges⟩ := mem_outside hf hpos hx
  intro h
  exact hnone.not_occurs hf hpos (occurs_of_part hr (hedges hr).1 (hedges hr).2 rfl h)

/-- What is absent from a text is absent from its parts next to matches between word
    boundaries. -/
theorem Absent.outside_bounded (hr : Bounded r) (hq : Bounded q) (h : Absent q s)
    (hx : x ∈ outside f s) : Absent q x := by
  obtain ⟨a, b, rfl, -, hedges⟩ := mem_outside hf hpos hx
  intro hoccurs
  have hpart := occurs_of_part hq (hedges hr).1 (hedges hr).2 rfl hoccurs
  rw [← next_none] at hpart
  exact h hpart.append

end

-- ---------------------------------------------------------------------------
-- What a substitution keeps and adds
-- ---------------------------------------------------------------------------

section
variable [ReTables] {r : Re} {new : Match → Str}

/-- A character that no match has is kept wherever it stands. -/
theorem Cut.count_le (hf : Finds f r) (htakes : r.takes c = false) (h : Cut f prev s cut) :
    s.count c ≤ (glue new cut).count c := by
  induction h with
  | done _ => simp [glue]
  | @found prev x s m cut _ hm _ ih =>
    obtain ⟨t, -, haccepts⟩ := hf.accepts hm
    have hnone : m.text.count c = 0 := by
      refine List.count_eq_zero.2 fun hmem => ?_
      rw [haccepts.takes c hmem] at htakes
      cases htakes
    simp only [glue, List.count_append, List.flatMap_cons, hnone] at ih ⊢
    omega

/-- With a match more of them stand there, when the replacement has one. -/
theorem Cut.count_lt (hf : Finds f r) (htakes : r.takes c = false)
    (hnew : ∀ prev s m, f prev s = some m → c ∈ new m) (h : Cut f prev s cut) (hcut : cut.2 ≠ []) :
    s.count c < (glue new cut).count c := by
  cases h with
  | done _ => exact absurd rfl hcut
  | @found _ x s m cut _ hm hrest =>
    obtain ⟨t, -, haccepts⟩ := hf.accepts hm
    have hnone : m.text.count c = 0 := by
      refine List.count_eq_zero.2 fun hmem => ?_
      rw [haccepts.takes c hmem] at htakes
      cases htakes
    have hone : 0 < (new m).count c := List.count_pos_iff.2 (hnew _ _ _ hm)
    have hle : s.count c ≤ (glue new cut).count c := hrest.count_le hf htakes
    simp only [glue, List.count_append, List.flatMap_cons, hnone] at hle ⊢
    omega

/-- Absence is seen from the scan. -/
theorem absent_iff (hf : Finds f r) (hpos : 0 < r.minLength) :
    Absent r s ↔ (cuts f 0 none s).2 = [] := by
  have hcut : Cut f none s (cuts f 0 none s) := cut_cuts hf hpos
  rw [Absent, hcut.occurs_iff hf hpos, not_not]

theorem sub_of_absent (hf : Finds f r) (hpos : 0 < r.minLength) (h : Absent r s) :
    sub f new s = s := by
  have hcut : Cut f none s (cuts f 0 none s) := cut_cuts hf hpos
  have hnil := (absent_iff hf hpos).1 h
  rw [sub]
  conv_rhs => rw [← hcut.text]
  simp [glue, hnil]

end

end

end Python.Re
