-- SUMMARY: Substitution on characters that know where they stood, and the same substitutions in two texts with one front.
import DealScreening.Python.ReRules

/-!
# Two texts with one front

A substitution goes through two texts with one front in step until it finds something else in
one of them. Which lengths a match can have at a place depends on what follows only when it
reaches that far, so from there on one of the two matches covers all of the front.
-/

namespace Python.Re

-- ---------------------------------------------------------------------------
-- Characters with their places
-- ---------------------------------------------------------------------------

/-- A text whose characters know where they stood, but for those that were put in. -/
abbrev Traced := List (Nat × Option Nat)

namespace Traced

/-- A text that stands at a place. -/
def ofStr (place : Nat) (s : Str) : Traced := (s.zipIdx place).map fun c => (c.1, some c.2)

def putIn (new : Str) : Traced := new.map fun c => (c, none)

def chars (s : Traced) : Str := s.map Prod.fst

/-- The places of the characters that are still there. -/
def places (s : Traced) : List Nat := s.filterMap Prod.snd

/-- `pattern.sub(new, s)`. So many characters of the last match are still to be passed. -/
def sub (f : Finder) (new : Str) : Nat → Option Nat → Traced → Traced
  | _, _, [] => []
  | skip + 1, _, c :: s => sub f new skip (some c.1) s
  | 0, prev, c :: s =>
    match f prev (chars (c :: s)) with
    | some m => putIn new ++ sub f new (m.text.length - 1) (some c.1) s
    | none => c :: sub f new 0 (some c.1) s

/-- One pattern after the other, each with its replacement. -/
def subAll [ReTables] (patterns : List (Re × Str)) (s : Traced) : Traced :=
  patterns.foldl (fun s p => sub (find p.1) p.2 0 none s) s

variable {f : Finder} {new : Str} {skip : Nat} {prev : Option Nat} {s t x : Traced}

@[simp] theorem chars_append : chars (s ++ t) = chars s ++ chars t := List.map_append

@[simp] theorem chars_putIn : chars (putIn new) = new := by
  rw [chars, putIn, List.map_map]
  exact List.map_id new

@[simp] theorem chars_ofStr {place : Nat} {s : Str} : chars (ofStr place s) = s := by
  rw [chars, ofStr, List.map_map]
  exact List.zipIdx_map_fst place s

@[simp] theorem length_chars : (chars s).length = s.length := List.length_map _

@[simp] theorem places_append : places (s ++ t) = places s ++ places t := List.filterMap_append

@[simp] theorem places_putIn : places (putIn new) = [] := by
  rw [places, putIn, List.filterMap_map]
  exact List.filterMap_eq_nil_iff.2 fun _ _ => rfl

theorem places_ofStr {place : Nat} {s : Str} : places (ofStr place s) = List.range' place s.length := by
  rw [places, ofStr, List.filterMap_map, ← List.zipIdx_map_snd, ← List.filterMap_eq_map]
  rfl

theorem ofStr_append {place : Nat} {s t : Str} :
    ofStr place (s ++ t) = ofStr place s ++ ofStr (place + s.length) t := by
  rw [ofStr, List.zipIdx_append, List.map_append]
  rfl

/-- On the characters it is the substitution. -/
theorem chars_sub : chars (sub f new skip prev s) = glue (fun _ => new) (cuts f skip prev (chars s)) := by
  induction s generalizing skip prev with
  | nil => cases skip <;> rfl
  | cons c s ih =>
    cases skip with
    | succ skip => exact ih
    | zero =>
      have hcuts : chars (c :: s) = c.1 :: chars s := rfl
      rw [sub, hcuts, cuts]
      cases f prev (c.1 :: chars s) with
      | none =>
        dsimp only
        rw [chars, List.map_cons, ← chars, ih]
        rfl
      | some m =>
        dsimp only
        rw [glue_found, ← ih, chars_append, chars_putIn]

theorem subAll_cons [ReTables] {p : Re × Str} {patterns : List (Re × Str)} :
    subAll (p :: patterns) s = subAll patterns (sub (find p.1) p.2 0 none s) := rfl

theorem chars_subAll [ReTables] {patterns : List (Re × Str)} : chars (subAll patterns s) =
    patterns.foldl (fun s p => Re.sub (find p.1) (fun _ => p.2) s) (chars s) := by
  induction patterns generalizing s with
  | nil => rfl
  | cons p patterns ih =>
    rw [subAll_cons, ih, chars_sub]
    rfl

/-- What has a place was there before. -/
theorem mem_sub {c : Nat × Option Nat} (h : c ∈ sub f new skip prev s) : c ∈ putIn new ∨ c ∈ s := by
  induction s generalizing skip prev with
  | nil => cases skip <;> cases h
  | cons d s ih =>
    cases skip with
    | succ skip => exact (ih h).imp_right (List.mem_cons_of_mem d)
    | zero =>
      rw [sub] at h
      split at h
      · rcases List.mem_append.1 h with h | h
        · exact .inl h
        · exact (ih h).imp_right (List.mem_cons_of_mem d)
      · rcases List.mem_cons.1 h with rfl | h
        · exact .inr (List.mem_cons_self ..)
        · exact (ih h).imp_right (List.mem_cons_of_mem d)

theorem mem_subAll [ReTables] {patterns : List (Re × Str)} {c : Nat × Option Nat}
    (h : c ∈ subAll patterns s) : (∃ p ∈ patterns, c ∈ putIn p.2) ∨ c ∈ s := by
  induction patterns generalizing s with
  | nil => exact .inr h
  | cons p patterns ih =>
    rcases ih h with ⟨q, hq, hc⟩ | hc
    · exact .inl ⟨q, List.mem_cons_of_mem p hq, hc⟩
    · exact (mem_sub hc).imp_left fun hc => ⟨p, List.mem_cons_self .., hc⟩

/-- It brings no character to a new place. -/
theorem places_sub : (places (sub f new skip prev s)).Sublist (places s) := by
  induction s generalizing skip prev with
  | nil => cases skip <;> exact List.Sublist.refl _
  | cons c s ih =>
    have htail : (places s).Sublist (places (c :: s)) :=
      (List.sublist_cons_self c s).filterMap Prod.snd
    cases skip with
    | succ skip => exact ih.trans htail
    | zero =>
      rw [sub]
      split
      · rw [places_append, places_putIn, List.nil_append]
        exact ih.trans htail
      · have hhead : ∀ s, places (c :: s) = places [c] ++ places s := fun s =>
          places_append (s := [c]) (t := s)
        rw [hhead, hhead s]
        exact ih.append_left _

/-- A match that covers a text leaves none of its places. -/
theorem places_sub_skip (h : x.length ≤ skip) :
    (places (sub f new skip prev (x ++ s))).Sublist (places s) := by
  induction x generalizing skip prev with
  | nil => exact places_sub
  | cons c x ih =>
    cases skip with
    | zero => cases h
    | succ skip => exact ih (Nat.le_of_succ_le_succ h)

/-- At characters with which no match begins it does nothing. -/
theorem sub_plain [ReTables] {r : Re} (hpos : 0 < r.minLength) (hplain : ∀ c ∈ x, r.first c.1 = false) :
    sub (find r) new 0 prev (x ++ s) = x ++ sub (find r) new 0 (last prev (chars x)) s := by
  induction x generalizing prev with
  | nil => rfl
  | cons c x ih =>
    obtain ⟨hc, hplain⟩ := List.forall_mem_cons.1 hplain
    have hnone : find r prev (chars (c :: (x ++ s))) = none := by
      refine Option.eq_none_iff_forall_ne_some.2 fun m hm => ?_
      obtain ⟨t, ht, haccepts⟩ := (finds_find r).accepts hm
      have hfirst := haccepts.first
      cases htext : m.text with
      | nil => exact (finds_find r).text_ne_nil hpos hm htext
      | cons d u =>
        rw [htext] at ht hfirst
        obtain ⟨rfl, -⟩ := List.cons.inj ht
        rw [hfirst _ rfl] at hc
        cases hc
    have hlast : last (some c.1) (chars x) = last prev (chars (c :: x)) := last_cons.symm
    rw [List.cons_append, sub, hnone, ← hlast]
    exact congrArg (c :: ·) (ih hplain)

theorem subAll_plain [ReTables] {patterns : List (Re × Str)}
    (hplain : ∀ p ∈ patterns, 0 < p.1.minLength ∧ ∀ c ∈ x, p.1.first c.1 = false) :
    subAll patterns (x ++ s) =
      x ++ patterns.foldl (fun s p => sub (find p.1) p.2 0 (last none (chars x)) s) s := by
  induction patterns generalizing s with
  | nil => rfl
  | cons p patterns ih =>
    obtain ⟨⟨hpos, hp⟩, hplain⟩ := List.forall_mem_cons.1 hplain
    rw [subAll_cons, sub_plain hpos hp, ih hplain]
    rfl

theorem places_sub_covered (new : Str) {c : Nat × Option Nat} {m : Match}
    (hfound : f prev (chars (c :: x ++ s)) = some m) (hcovers : (c :: x).length ≤ m.text.length) :
    (places (sub f new 0 prev (c :: x ++ s))).Sublist (places s) := by
  rw [List.cons_append, sub, ← List.cons_append, hfound]
  dsimp only
  rw [places_append, places_putIn, List.nil_append]
  exact places_sub_skip (Nat.le_sub_one_of_lt hcovers)

end Traced

-- ---------------------------------------------------------------------------
-- What follows a text decides only about matches that reach it
-- ---------------------------------------------------------------------------

theorem down_succ {least most : Nat} (h : least ≤ most + 1) :
    down least (most + 1) = (most + 1) :: down least most := by
  have hrange : most + 1 + 1 - least = (most + 1 - least) + 1 := by omega
  rw [down, hrange, List.range_succ_eq_map, List.map_cons, List.map_map, down]
  refine congrArg _ (List.map_congr_left fun i _ => ?_)
  simp only [Function.comp]
  omega

theorem filter_down {least n m : Nat} (h : n ≤ m) :
    (down least m).filter (· < n) = (down least n).filter (· < n) := by
  induction m, h using Nat.le_induction with
  | base => rfl
  | succ m hle ih =>
    by_cases hleast : least ≤ m + 1
    · rw [down_succ hleast, List.filter_cons_of_neg (by simp; omega), ih]
    · have hnone : ∀ k ≤ m + 1, down least k = [] := fun k hk => by
        rw [down, Nat.sub_eq_zero_of_le (by omega)]
        rfl
      rw [hnone (m + 1) le_rfl, hnone n (by omega)]

section
variable [ReTables] {r : Re} {prev : Option Nat} {x b c : Str}

omit [ReTables] in
theorem takeWhile_below (p : Nat → Bool) (x b c : Str) :
    ((x ++ b).takeWhile p).length = ((x ++ c).takeWhile p).length ∨
      (x.length ≤ ((x ++ b).takeWhile p).length ∧ x.length ≤ ((x ++ c).takeWhile p).length) := by
  by_cases hall : ∀ d ∈ x, p d = true
  · exact .inr ⟨length_takeWhile_append hall, length_takeWhile_append hall⟩
  · refine .inl ?_
    have hstop : x.takeWhile p ≠ x := fun h => hall (List.takeWhile_eq_self_iff.1 h)
    have hlt : (x.takeWhile p).length ≠ x.length := fun h =>
      hstop ((List.takeWhile_prefix p).eq_of_length h)
    rw [List.takeWhile_append, List.takeWhile_append, if_neg hlt, if_neg hlt]

/-- The lengths of matches that end before a text are the same whatever it is. -/
theorem lengths_below : (lengths r prev (x ++ b)).filter (· < x.length) =
    (lengths r prev (x ++ c)).filter (· < x.length) := by
  induction r generalizing prev x b c with
  | run p lo hi =>
    simp only [lengths]
    rcases takeWhile_below p x b c with heq | ⟨hb, hc⟩
    · rw [heq]
    · cases hi with
      | none => rw [Option.elim_none, Option.elim_none, filter_down hb, filter_down hc]
      | some hi =>
        rw [Option.elim_some, Option.elim_some]
        by_cases hhi : hi < x.length
        · rw [Nat.min_eq_right (by omega), Nat.min_eq_right (by omega)]
        · rw [filter_down (Nat.le_min.2 ⟨hb, by omega⟩), filter_down (Nat.le_min.2 ⟨hc, by omega⟩)]
  | seq a₁ a₂ ih₁ ih₂ =>
    have hseq : ∀ y : Str, (lengths (seq a₁ a₂) prev (x ++ y)).filter (· < x.length) =
        ((lengths a₁ prev (x ++ y)).filter (· < x.length)).flatMap fun i =>
          ((lengths a₂ (last prev (x.take i)) (x.drop i ++ y)).filter (· < (x.drop i).length)).map
            (i + ·) := by
      intro y
      rw [lengths, List.filter_flatMap]
      generalize lengths a₁ prev (x ++ y) = firsts
      induction firsts with
      | nil => rfl
      | cons i firsts ih =>
        by_cases hi : i < x.length
        · rw [List.flatMap_cons, List.filter_cons_of_pos (by simpa using hi), List.flatMap_cons, ih,
            List.filter_map, List.take_append_of_le_length hi.le, List.drop_append_of_le_length hi.le]
          refine congrArg (· ++ _) (congrArg _ (List.filter_congr fun j _ => ?_))
          simp only [Function.comp, List.length_drop, decide_eq_decide]
          omega
        · have hnone : ((lengths a₂ (last prev ((x ++ y).take i)) ((x ++ y).drop i)).map (i + ·)).filter
              (fun k => decide (k < x.length)) = [] := by
            refine List.filter_eq_nil_iff.2 fun k hk => ?_
            obtain ⟨j, -, rfl⟩ := List.mem_map.1 hk
            simp only [decide_eq_true_eq]
            omega
          rw [List.flatMap_cons, List.filter_cons_of_neg (by simpa using hi), ih, hnone, List.nil_append]
    rw [hseq, hseq, ih₁ (b := b) (c := c)]
    refine List.flatMap_congr fun i _ => ?_
    rw [ih₂ (b := b) (c := c)]
  | alt a₁ a₂ ih₁ ih₂ =>
    rw [lengths, lengths, List.filter_append, List.filter_append, ih₁ (c := c), ih₂ (c := c)]
  | opt a ih => rw [lengths, lengths, List.filter_append, List.filter_append, ih (c := c)]
  | boundary =>
    cases x with
    | nil => simp
    | cons d x => rfl

theorem find_length (r : Re) (prev : Option Nat) (s : Str) :
    (find r prev s).map (·.text.length) = (lengths r prev s).head? := by
  rw [find, Option.map_map]
  cases hfirst : (lengths r prev s).head? with
  | none => rfl
  | some n =>
    have hle := le_of_mem_lengths (List.mem_of_mem_head? hfirst)
    simp [hle]

omit [ReTables] in
/-- Two lists with the same small elements begin with the same one, or one of them with a
    large one. -/
theorem head?_of_filter {p : Nat → Bool} {ks ls : List Nat} (h : ks.filter p = ls.filter p) :
    ks.head? = ls.head? ∨ (∃ k ∈ ks.head?, p k = false) ∨ ∃ l ∈ ls.head?, p l = false := by
  match ks, ls with
  | [], [] => exact .inl rfl
  | k :: ks, [] =>
    have hk := List.filter_eq_nil_iff.1 h k (List.mem_cons_self ..)
    exact .inr (.inl ⟨k, rfl, by simpa using hk⟩)
  | [], l :: ls =>
    have hl := List.filter_eq_nil_iff.1 h.symm l (List.mem_cons_self ..)
    exact .inr (.inr ⟨l, rfl, by simpa using hl⟩)
  | k :: ks, l :: ls =>
    cases hk : p k with
    | false => exact .inr (.inl ⟨k, rfl, hk⟩)
    | true =>
      cases hl : p l with
      | false => exact .inr (.inr ⟨l, rfl, hl⟩)
      | true =>
        rw [List.filter_cons_of_pos hk, List.filter_cons_of_pos hl] at h
        exact .inl (congrArg some (List.cons.inj h).1)

/-- Behind the same front the same is found, or one of the two matches covers the front. -/
theorem find_forked (r : Re) (prev : Option Nat) (x b c : Str) :
    (find r prev (x ++ b)).map (·.text.length) = (find r prev (x ++ c)).map (·.text.length) ∨
      (∃ m, find r prev (x ++ b) = some m ∧ x.length ≤ m.text.length) ∨
      ∃ m, find r prev (x ++ c) = some m ∧ x.length ≤ m.text.length := by
  have hcovers : ∀ y : Str, (∃ n ∈ (lengths r prev (x ++ y)).head?, decide (n < x.length) = false) →
      ∃ m, find r prev (x ++ y) = some m ∧ x.length ≤ m.text.length := by
    rintro y ⟨n, hn, hle⟩
    have hfound := (find_length r prev (x ++ y)).trans hn
    obtain ⟨m, hm, rfl⟩ := Option.map_eq_some_iff.1 hfound
    exact ⟨m, hm, Nat.le_of_not_lt (of_decide_eq_false hle)⟩
  rw [find_length, find_length]
  exact (head?_of_filter (lengths_below (b := b) (c := c))).imp_right (Or.imp (hcovers b) (hcovers c))

end

-- ---------------------------------------------------------------------------
-- The fork
-- ---------------------------------------------------------------------------

/-- A front of two texts, and what follows it in each. -/
structure Fork where
  front : Traced
  short : Traced
  long : Traced

namespace Fork

open Traced

/-- A text before the front. -/
def push (before : Traced) (k : Fork) : Fork := { k with front := before ++ k.front }

/-- A substitution in both texts. What is found with another length in one of them, or not at
    all, ends the front. -/
def step (f : Finder) (new : Str) (short long : Traced) : Nat → Option Nat → Traced → Fork
  | skip, prev, [] => ⟨[], Traced.sub f new skip prev short, Traced.sub f new skip prev long⟩
  | skip + 1, _, c :: front => step f new short long skip (some c.1) front
  | 0, prev, c :: front =>
    let inShort := f prev (chars (c :: front ++ short))
    let inLong := f prev (chars (c :: front ++ long))
    if inShort.map (·.text.length) = inLong.map (·.text.length) then
      match inShort with
      | some m => push (putIn new) (step f new short long (m.text.length - 1) (some c.1) front)
      | none => push [c] (step f new short long 0 (some c.1) front)
    else
      ⟨[], Traced.sub f new 0 prev (c :: front ++ short), Traced.sub f new 0 prev (c :: front ++ long)⟩

/-- One pattern after the other. -/
def stepAll [ReTables] (patterns : List (Re × Str)) (k : Fork) : Fork :=
  patterns.foldl (fun k p => step (find p.1) p.2 k.short k.long 0 none k.front) k

/-- All the places of the two texts. -/
def places (k : Fork) : List Nat := Traced.places k.front ++ (Traced.places k.short ++ Traced.places k.long)

section
variable {f : Finder} {new : Str} {short long front : Traced} {skip : Nat} {prev : Option Nat} {k : Fork}

/-- It is the substitution in each of the texts. -/
theorem texts_step (f : Finder) (new : Str) (short long front : Traced) (skip : Nat)
    (prev : Option Nat) :
    (step f new short long skip prev front).front ++ (step f new short long skip prev front).short =
        Traced.sub f new skip prev (front ++ short) ∧
      (step f new short long skip prev front).front ++ (step f new short long skip prev front).long =
        Traced.sub f new skip prev (front ++ long) := by
  induction front generalizing skip prev with
  | nil => cases skip <;> exact ⟨rfl, rfl⟩
  | cons c front ih =>
    cases skip with
    | succ skip => exact ih skip (some c.1)
    | zero =>
      rw [step]
      split
      · rename_i hsame
        rw [List.cons_append, List.cons_append, Traced.sub, Traced.sub]
        rw [List.cons_append, List.cons_append] at hsame
        cases hshort : f prev (chars (c :: (front ++ short))) with
        | none =>
          rw [hshort, Option.map_none, eq_comm, Option.map_eq_none_iff] at hsame
          rw [hsame]
          obtain ⟨ihshort, ihlong⟩ := ih 0 (some c.1)
          exact ⟨congrArg (c :: ·) ihshort, congrArg (c :: ·) ihlong⟩
        | some m =>
          rw [hshort, Option.map_some, eq_comm, Option.map_eq_some_iff] at hsame
          obtain ⟨m', hlong, hlength⟩ := hsame
          rw [hlong]
          dsimp only
          rw [hlength]
          obtain ⟨ihshort, ihlong⟩ := ih (m.text.length - 1) (some c.1)
          rw [← ihshort, ← ihlong]
          simp [push]
      · exact ⟨rfl, rfl⟩

variable [ReTables] {r : Re} {patterns : List (Re × Str)}

/-- No place comes twice that did not before. -/
theorem places_step : ((step (find r) new short long skip prev front).places).Subperm
    (places ⟨front, short, long⟩) := by
  induction front generalizing skip prev with
  | nil => exact (places_sub.append places_sub).subperm
  | cons c front ih =>
    have hcons : places ⟨c :: front, short, long⟩ =
        Traced.places [c] ++ places ⟨front, short, long⟩ := by
      show Traced.places ([c] ++ front) ++ _ = _
      rw [Traced.places_append, List.append_assoc]
      rfl
    have htail : (places ⟨front, short, long⟩).Subperm (places ⟨c :: front, short, long⟩) := by
      rw [hcons]
      exact (List.sublist_append_right ..).subperm
    cases skip with
    | succ skip => exact ih.trans htail
    | zero =>
      rw [step]
      split
      · cases find r prev (chars (c :: front ++ short)) with
        | none =>
          rw [hcons]
          have hpush : (push [c] (step (find r) new short long 0 (some c.1) front)).places =
              Traced.places [c] ++ (step (find r) new short long 0 (some c.1) front).places := by
            rw [push, places, places, Traced.places_append, List.append_assoc]
          dsimp only
          rw [hpush]
          exact (List.subperm_append_left _).2 ih
        | some m =>
          dsimp only
          rw [push, places, Traced.places_append, places_putIn, List.nil_append]
          exact ih.trans htail
      · rename_i hne
        have hforked := find_forked r prev (chars (c :: front)) (chars short) (chars long)
        rw [← Traced.chars_append, ← Traced.chars_append, Traced.length_chars] at hforked
        rcases hforked with hsame | ⟨m, hfound, hcovers⟩ | ⟨m, hfound, hcovers⟩
        · exact absurd hsame hne
        · -- The short text keeps nothing of the front.
          have hshort := places_sub_covered new hfound hcovers
          have hlong : (Traced.places (Traced.sub (find r) new 0 prev (c :: front ++ long))).Sublist
              (Traced.places (c :: front) ++ Traced.places long) :=
            Traced.places_append (s := c :: front) ▸ places_sub
          refine (hshort.append hlong).subperm.trans ?_
          rw [places, ← List.append_assoc, ← List.append_assoc]
          exact (List.perm_append_comm.append_right _).subperm
        · -- Nor does the long one here.
          have hlong := places_sub_covered new hfound hcovers
          have hshort : (Traced.places (Traced.sub (find r) new 0 prev (c :: front ++ short))).Sublist
              (Traced.places (c :: front) ++ Traced.places short) :=
            Traced.places_append (s := c :: front) ▸ places_sub
          have hboth := (hshort.append hlong).subperm
          rw [List.append_assoc] at hboth
          exact hboth

theorem stepAll_cons {p : Re × Str} : stepAll (p :: patterns) k =
    stepAll patterns (step (find p.1) p.2 k.short k.long 0 none k.front) := rfl

theorem texts_stepAll (patterns : List (Re × Str)) (k : Fork) : (stepAll patterns k).front ++ (stepAll patterns k).short =
      subAll patterns (k.front ++ k.short) ∧
    (stepAll patterns k).front ++ (stepAll patterns k).long = subAll patterns (k.front ++ k.long) := by
  induction patterns generalizing k with
  | nil => exact ⟨rfl, rfl⟩
  | cons p patterns ih =>
    obtain ⟨hshort, hlong⟩ := texts_step (find p.1) p.2 k.short k.long k.front 0 none
    rw [stepAll_cons, subAll_cons, subAll_cons, ← hshort, ← hlong]
    exact ih _

theorem places_stepAll (patterns : List (Re × Str)) (k : Fork) : ((stepAll patterns k).places).Subperm k.places := by
  induction patterns generalizing k with
  | nil => exact List.Subperm.refl _
  | cons p patterns ih =>
    rw [stepAll_cons]
    exact (ih _).trans places_step

/-- The short text keeps only what the long one keeps exactly when nothing is left of it behind
    the front. -/
theorem kept_iff (hnodup : k.places.Nodup) :
    (∀ i ∈ Traced.places (subAll patterns (k.front ++ k.short)),
        i ∈ Traced.places (subAll patterns (k.front ++ k.long))) ↔
      Traced.places (stepAll patterns k).short = [] := by
  obtain ⟨hshort, hlong⟩ := texts_stepAll patterns k
  have hdistinct : (stepAll patterns k).places.Nodup := by
    obtain ⟨l, hperm, hsub⟩ := places_stepAll patterns k
    exact hperm.nodup_iff.1 (hnodup.sublist hsub)
  rw [← hshort, ← hlong, Traced.places_append, Traced.places_append]
  constructor
  · intro hkept
    refine List.eq_nil_iff_forall_not_mem.2 fun i hi => ?_
    obtain ⟨-, hrest, hfront⟩ := List.nodup_append.1 hdistinct
    obtain ⟨-, -, hlong⟩ := List.nodup_append.1 hrest
    rcases List.mem_append.1 (hkept i (List.mem_append_right _ hi)) with hmem | hmem
    · exact hfront i hmem i (List.mem_append_left _ hi) rfl
    · exact hlong i hi i hmem rfl
  · intro hnone i hi
    rw [hnone, List.append_nil] at hi
    exact List.mem_append_left _ hi

end

end Fork

end Python.Re
