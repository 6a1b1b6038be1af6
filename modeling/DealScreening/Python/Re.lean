-- SUMMARY: Regular expressions of the module `re`: the backtracking matcher, the language it searches for, and the characters a match can hold.
import DealScreening.Python.Json

/-!
# Regular expressions

The part of `re` without back references: greedy repetitions of a character class, sequences,
alternatives, options and `\b`. The matcher tries the lengths of a match in the order of the
backtracking engine. What it can match is a language of texts in a context: the character
before the text and the one after it decide about `\b`.
-/

namespace Python

/-- The tables that `\w` and `\b` read beyond ASCII. -/
class ReTables extends Runtime where
  wordChar : Nat → Bool
  /-- No white space is alphanumeric. -/
  wordChar_space : ∀ c, isSpace c = true → wordChar c = false

/-- The tables of ASCII. -/
@[reducible] def asciiTables : ReTables :=
  { asciiRuntime with
    wordChar := fun _ => false
    wordChar_space := fun _ _ => rfl }

/-! ## Character classes -/

def isAsciiLetter (c : Nat) : Bool := (0x41 ≤ c && c ≤ 0x5A) || (0x61 ≤ c && c ≤ 0x7A)

/-- `\w`. -/
def isWord [ReTables] (c : Nat) : Bool :=
  if c < 0x80 then isAsciiLetter c || isDigit c || c == 0x5F else ReTables.wordChar c

theorem isWord_space [ReTables] {c : Nat} (h : isSpace c = true) : isWord c = false := by
  rw [isWord]
  split
  · simp only [isSpace, Bool.or_eq_true, Bool.and_eq_true, decide_eq_true_eq, beq_iff_eq] at h
    simp [isAsciiLetter, isDigit]
    omega
  · exact ReTables.wordChar_space c h

/-- `\d`. -/
def isDecimal [Runtime] (c : Nat) : Bool :=
  if c < 0x80 then isDigit c else (Runtime.decimal c).isSome

/-- `[A-Za-z]` under `IGNORECASE`: some letters beyond ASCII have an ASCII letter as other case. -/
def isLetterFold (c : Nat) : Bool :=
  isAsciiLetter c || c == 0x130 || c == 0x131 || c == 0x17F || c == 0x212A

/-- A lower-case letter, or a character without case, under `IGNORECASE`. -/
def isFold (lower c : Nat) : Bool :=
  c == lower || (0x61 ≤ lower && lower ≤ 0x7A && c + 0x20 == lower) ||
  (lower == 0x69 && (c == 0x130 || c == 0x131)) || (lower == 0x73 && c == 0x17F) ||
  (lower == 0x6B && c == 0x212A)

/-! ## Expressions -/

inductive Re where
  /-- `[...]{lo,hi}`, greedy. -/
  | run (p : Nat → Bool) (lo : Nat) (hi : Option Nat)
  | seq (a b : Re)
  | alt (a b : Re)
  /-- `(?:...)?`, greedy. -/
  | opt (a : Re)
  /-- `\b`. -/
  | boundary

namespace Re

def empty : Re := run (fun _ => false) 0 none

/-- One character of a class. -/
def one (p : Nat → Bool) : Re := run p 1 (some 1)

/-- The character itself. -/
def char (c : Char) : Re := one (· == c.toNat)

def times (p : Nat → Bool) (n : Nat) : Re := run p n (some n)

def all (parts : List Re) : Re := parts.foldr seq empty

/-- A lower-case text under `IGNORECASE`. -/
def fold (s : Str) : Re := all (s.map fun c => one (isFold c))

/-! ## The context of a text -/

/-- The character before the rest, once a text has been read. -/
def last (prev : Option Nat) (w : Str) : Option Nat := w.getLast?.or prev

/-- The character after a text that more follows. -/
def next (w : Str) (after : Option Nat) : Option Nat := w.head?.or after

/-- The lengths from `most` down to `least`. -/
def down (least most : Nat) : List Nat := (List.range (most + 1 - least)).map (most - ·)

theorem mem_down {least most k : Nat} : k ∈ down least most ↔ least ≤ k ∧ k ≤ most := by
  simp only [down, List.mem_map, List.mem_range]
  constructor
  · rintro ⟨i, hi, rfl⟩
    omega
  · rintro ⟨hleast, hmost⟩
    exact ⟨most - k, by omega, by omega⟩

theorem down_cons {least most : Nat} (h : least ≤ most) :
    ∃ rest, down least most = most :: rest ∧ ∀ i ∈ rest, i < most := by
  refine ⟨(List.range (most - least)).map fun i => most - (i + 1), ?_, ?_⟩
  · rw [down, Nat.sub_add_comm h, List.range_succ_eq_map, List.map_cons, List.map_map]
    rfl
  · intro i hi
    obtain ⟨j, hj, rfl⟩ := List.mem_map.1 hi
    have hlt := List.mem_range.1 hj
    omega

@[simp] theorem last_nil {prev : Option Nat} : last prev [] = prev := rfl

@[simp] theorem next_nil {after : Option Nat} : next [] after = after := rfl

@[simp] theorem next_cons {c : Nat} {w : Str} {after : Option Nat} : next (c :: w) after = some c := rfl

theorem last_none {w : Str} : last none w = w.getLast? := Option.or_none ..

theorem next_none {w : Str} : next w none = w.head? := Option.or_none ..

theorem last_append {prev : Option Nat} {u v : Str} : last prev (u ++ v) = last (last prev u) v := by
  simp [last, List.getLast?_append, Option.or_assoc]

theorem next_append {u v : Str} {after : Option Nat} : next (u ++ v) after = next u (next v after) := by
  simp [next, List.head?_append, Option.or_assoc]

theorem last_cons {prev : Option Nat} {w : Str} {c : Nat} : last prev (c :: w) = last (some c) w :=
  last_append (u := [c])

theorem last_concat {prev : Option Nat} {w : Str} {c : Nat} : last prev (w ++ [c]) = some c := by
  simp [last]

theorem next_head? {w t : Str} : next w t.head? = (w ++ t).head? := by
  rw [next, List.head?_append]

theorem length_takeWhile_append {p : Nat → Bool} {w t : Str} (h : ∀ c ∈ w, p c = true) :
    w.length ≤ ((w ++ t).takeWhile p).length := by
  rw [List.takeWhile_append_of_pos h, List.length_append]
  exact Nat.le_add_right _ _

/-! ## The matcher -/

section
variable [ReTables]

/-- Whether there is a character and it is one of a word. -/
def atWord (c : Option Nat) : Bool := c.any isWord

/-- The lengths of the matches at the front, in the order in which they are tried. -/
def lengths : Re → Option Nat → Str → List Nat
  | run p lo hi, _, s =>
    let most := (s.takeWhile p).length
    down lo (hi.elim most (min most))
  | seq a b, prev, s =>
    (lengths a prev s).flatMap fun i =>
      (lengths b (last prev (s.take i)) (s.drop i)).map (i + ·)
  | alt a b, prev, s => lengths a prev s ++ lengths b prev s
  | opt a, prev, s => lengths a prev s ++ [0]
  | boundary, prev, s => if atWord prev ≠ atWord s.head? then [0] else []

/-- The texts that an expression matches between two characters. -/
def Accepts : Re → Option Nat → Str → Option Nat → Prop
  | run p lo hi, _, w, _ => (∀ c ∈ w, p c = true) ∧ lo ≤ w.length ∧ ∀ h ∈ hi, w.length ≤ h
  | seq a b, prev, w, after =>
    ∃ u v, w = u ++ v ∧ Accepts a prev u (next v after) ∧ Accepts b (last prev u) v after
  | alt a b, prev, w, after => Accepts a prev w after ∨ Accepts b prev w after
  | opt a, prev, w, after => Accepts a prev w after ∨ w = []
  | boundary, prev, w, after => w = [] ∧ atWord prev ≠ atWord after

/-- A match is no longer than the text. -/
theorem le_of_mem_lengths {r : Re} {prev : Option Nat} {s : Str} {k : Nat}
    (h : k ∈ lengths r prev s) : k ≤ s.length := by
  induction r generalizing prev s k with
  | run p lo hi =>
    have hk := (mem_down.1 h).2
    have hrun : (s.takeWhile p).length ≤ s.length := (List.takeWhile_sublist p).length_le
    cases hi with
    | none => exact hk.trans hrun
    | some hi => exact (hk.trans (Nat.min_le_left ..)).trans hrun
  | seq a b iha ihb =>
    obtain ⟨i, hi, hk⟩ := List.mem_flatMap.1 h
    obtain ⟨j, hj, rfl⟩ := List.mem_map.1 hk
    have hleft := iha hi
    have hright := ihb hj
    rw [List.length_drop] at hright
    omega
  | alt a b iha ihb =>
    rcases List.mem_append.1 h with h | h
    · exact iha h
    · exact ihb h
  | opt a iha =>
    rcases List.mem_append.1 h with h | h
    · exact iha h
    · rw [List.mem_singleton.1 h]
      exact Nat.zero_le _
  | boundary =>
    simp only [lengths] at h
    split at h
    · rw [List.mem_singleton.1 h]
      exact Nat.zero_le _
    · cases h

/-- The matcher finds the texts of the language. -/
theorem mem_lengths {r : Re} {prev : Option Nat} {w t : Str} :
    w.length ∈ lengths r prev (w ++ t) ↔ Accepts r prev w t.head? := by
  induction r generalizing prev w t with
  | run p lo hi =>
    have hall : (∀ c ∈ w, p c = true) ↔ w.length ≤ ((w ++ t).takeWhile p).length := by
      refine ⟨length_takeWhile_append, fun h c hc => ?_⟩
      have hfront : w <+: (w ++ t).takeWhile p :=
        List.prefix_of_prefix_length_le (List.prefix_append ..) (List.takeWhile_prefix p) h
      exact List.mem_takeWhile_imp (hfront.subset hc)
    simp only [lengths, mem_down, Accepts, hall]
    cases hi with
    | none => simp [and_comm]
    | some hi =>
      simp only [Option.elim_some, Nat.le_min, Option.mem_some_iff, forall_eq']
      tauto
  | seq a b iha ihb =>
    simp only [lengths, Accepts, List.mem_flatMap, List.mem_map]
    constructor
    · rintro ⟨i, hi, j, hj, hlength⟩
      have hle : i ≤ w.length := by omega
      have hsplit : w ++ t = w.take i ++ (w.drop i ++ t) := by
        rw [← List.append_assoc, List.take_append_drop]
      have hlen : (w.take i).length = i := by simp [hle]
      rw [hsplit, List.drop_left' hlen, List.take_left' hlen] at hj
      rw [hsplit] at hi
      replace hi : (w.take i).length ∈ lengths a prev (w.take i ++ (w.drop i ++ t)) := by rwa [hlen]
      have hj' : (w.drop i).length ∈ lengths b (last prev (w.take i)) (w.drop i ++ t) := by
        rwa [List.length_drop, ← hlength, Nat.add_sub_cancel_left]
      refine ⟨w.take i, w.drop i, (List.take_append_drop i w).symm, ?_, ihb.1 hj'⟩
      rw [next_head?]
      exact iha.1 hi
    · rintro ⟨u, v, rfl, hu, hv⟩
      rw [next_head?] at hu
      refine ⟨u.length, ?_, v.length, ?_, by rw [List.length_append]⟩
      · rw [List.append_assoc]
        exact iha.2 hu
      · rw [List.append_assoc, List.take_left' rfl, List.drop_left' rfl]
        exact ihb.2 hv
  | alt a b iha ihb => simp only [lengths, Accepts, List.mem_append, iha, ihb]
  | opt a iha =>
    simp only [lengths, Accepts, List.mem_append, iha, List.mem_singleton, List.length_eq_zero_iff]
  | boundary =>
    simp only [lengths, Accepts]
    by_cases hw : w = []
    · subst hw
      by_cases hword : atWord prev = atWord t.head? <;> simp [hword]
    · have hlength : w.length ≠ 0 := by simpa using hw
      split <;> simp [hw]

/-! ## What a match can hold -/

/-- Some class of the expression has the character. -/
def takes : Re → Nat → Bool
  | run p _ _, c => p c
  | seq a b, c => a.takes c || b.takes c
  | alt a b, c => a.takes c || b.takes c
  | opt a, c => a.takes c
  | boundary, _ => false

/-- A match is at least so long. -/
def minLength : Re → Nat
  | run _ lo _ => lo
  | seq a b => a.minLength + b.minLength
  | alt a b => min a.minLength b.minLength
  | opt _ => 0
  | boundary => 0

/-- A match can begin with the character. -/
def first : Re → Nat → Bool
  | run p _ _, c => p c
  | seq a b, c => a.first c || a.minLength == 0 && b.first c
  | alt a b, c => a.first c || b.first c
  | opt a, c => a.first c
  | boundary, _ => false

/-- A match can end with the character. -/
def final : Re → Nat → Bool
  | run p _ _, c => p c
  | seq a b, c => b.final c || b.minLength == 0 && a.final c
  | alt a b, c => a.final c || b.final c
  | opt a, c => a.final c
  | boundary, _ => false

def boundaryFree : Re → Bool
  | run _ _ _ => true
  | seq a b => a.boundaryFree && b.boundaryFree
  | alt a b => a.boundaryFree && b.boundaryFree
  | opt a => a.boundaryFree
  | boundary => false

section
variable {r : Re} {prev prev' after after' : Option Nat} {w x y : Str} {c : Nat}

theorem Accepts.takes (h : Accepts r prev w after) : ∀ c ∈ w, r.takes c = true := by
  induction r generalizing prev w after with
  | run p lo hi => exact h.1
  | seq a b iha ihb =>
    obtain ⟨u, v, rfl, hu, hv⟩ := h
    intro c hc
    simp only [Re.takes, Bool.or_eq_true]
    rcases List.mem_append.1 hc with hc | hc
    · exact .inl (iha hu c hc)
    · exact .inr (ihb hv c hc)
  | alt a b iha ihb =>
    intro c hc
    simp only [Re.takes, Bool.or_eq_true]
    exact h.imp (iha · c hc) (ihb · c hc)
  | opt a iha =>
    rcases h with h | rfl
    · exact iha h
    · simp
  | boundary =>
    rw [h.1]
    simp

theorem Accepts.minLength_le (h : Accepts r prev w after) : r.minLength ≤ w.length := by
  induction r generalizing prev w after with
  | run p lo hi => exact h.2.1
  | seq a b iha ihb =>
    obtain ⟨u, v, rfl, hu, hv⟩ := h
    rw [List.length_append]
    exact Nat.add_le_add (iha hu) (ihb hv)
  | alt a b iha ihb =>
    rcases h with h | h
    · exact (Nat.min_le_left ..).trans (iha h)
    · exact (Nat.min_le_right ..).trans (ihb h)
  | opt a iha => exact Nat.zero_le _
  | boundary => exact Nat.zero_le _

theorem Accepts.first (h : Accepts r prev w after) : ∀ c ∈ w.head?, r.first c = true := by
  induction r generalizing prev w after with
  | run p lo hi => exact fun c hc => h.1 c (List.mem_of_mem_head? hc)
  | seq a b iha ihb =>
    obtain ⟨u, v, rfl, hu, hv⟩ := h
    intro c hc
    simp only [Re.first, Bool.or_eq_true, Bool.and_eq_true, beq_iff_eq]
    cases u with
    | cons d u => exact .inl (iha hu c hc)
    | nil => exact .inr ⟨Nat.le_zero.1 hu.minLength_le, ihb hv c hc⟩
  | alt a b iha ihb =>
    intro c hc
    simp only [Re.first, Bool.or_eq_true]
    exact h.imp (iha · c hc) (ihb · c hc)
  | opt a iha =>
    rcases h with h | rfl
    · exact iha h
    · exact fun _ hc => by cases hc
  | boundary =>
    rw [h.1]
    exact fun _ hc => by cases hc

theorem Accepts.final (h : Accepts r prev w after) : ∀ c ∈ w.getLast?, r.final c = true := by
  induction r generalizing prev w after with
  | run p lo hi => exact fun c hc => h.1 c (List.mem_of_getLast? hc)
  | seq a b iha ihb =>
    obtain ⟨u, v, rfl, hu, hv⟩ := h
    intro c hc
    simp only [Re.final, Bool.or_eq_true, Bool.and_eq_true, beq_iff_eq]
    rcases v.eq_nil_or_concat with rfl | ⟨v, d, rfl⟩
    · rw [List.append_nil] at hc
      exact .inr ⟨Nat.le_zero.1 hv.minLength_le, iha hu c hc⟩
    · rw [List.concat_eq_append, ← List.append_assoc, List.getLast?_concat] at hc
      refine .inl (ihb hv c ?_)
      rwa [List.concat_eq_append, List.getLast?_concat]
  | alt a b iha ihb =>
    intro c hc
    simp only [Re.final, Bool.or_eq_true]
    exact h.imp (iha · c hc) (ihb · c hc)
  | opt a iha =>
    rcases h with h | rfl
    · exact iha h
    · exact fun _ hc => by cases hc
  | boundary =>
    rw [h.1]
    exact fun _ hc => by cases hc

theorem atWord_last (h : atWord prev = atWord prev') : atWord (last prev w) = atWord (last prev' w) := by
  rcases w.eq_nil_or_concat with rfl | ⟨w, c, rfl⟩
  · exact h
  · rw [List.concat_eq_append, last_concat, last_concat]

theorem atWord_next (h : atWord after = atWord after') :
    atWord (next w after) = atWord (next w after') := by
  cases w with
  | nil => exact h
  | cons c w => rfl

/-- Of the context only counts whether it goes on with a word. -/
theorem accepts_congr (hprev : atWord prev = atWord prev') (hafter : atWord after = atWord after') :
    Accepts r prev w after ↔ Accepts r prev' w after' := by
  induction r generalizing prev prev' w after after' with
  | run p lo hi => rfl
  | seq a b iha ihb =>
    simp only [Accepts]
    refine exists_congr fun u => exists_congr fun v => and_congr_right fun _ => ?_
    exact and_congr (iha hprev (atWord_next hafter)) (ihb (atWord_last hprev) hafter)
  | alt a b iha ihb => exact or_congr (iha hprev hafter) (ihb hprev hafter)
  | opt a iha => exact or_congr_left (iha hprev hafter)
  | boundary => simp only [Accepts, hprev, hafter]

/-- Without `\b` the context does not count. -/
theorem accepts_free (h : r.boundaryFree = true) :
    Accepts r prev w after ↔ Accepts r prev' w after' := by
  induction r generalizing prev prev' w after after' with
  | run p lo hi => rfl
  | seq a b iha ihb =>
    simp only [boundaryFree, Bool.and_eq_true] at h
    simp only [Accepts]
    refine exists_congr fun u => exists_congr fun v => and_congr_right fun _ => ?_
    exact and_congr (iha h.1) (ihb h.2)
  | alt a b iha ihb =>
    simp only [boundaryFree, Bool.and_eq_true] at h
    exact or_congr (iha h.1) (ihb h.2)
  | opt a iha => exact or_congr_left (iha h)
  | boundary => cases h

/-- Neither does more count for the matcher. -/
theorem lengths_congr {s : Str} (h : atWord prev = atWord prev') : lengths r prev s = lengths r prev' s := by
  induction r generalizing prev prev' s with
  | run p lo hi => rfl
  | seq a b iha ihb =>
    simp only [lengths, iha h]
    exact List.flatMap_congr fun i _ => by rw [ihb (atWord_last h)]
  | alt a b iha ihb => simp only [lengths, iha h, ihb h]
  | opt a iha => simp only [lengths, iha h]
  | boundary => simp only [lengths, h]

/-- Every class of the expression treats a character as its image. -/
def Invariant (f : Nat → Nat) : Re → Prop
  | run p _ _ => ∀ c, p (f c) = p c
  | seq a b => Invariant f a ∧ Invariant f b
  | alt a b => Invariant f a ∧ Invariant f b
  | opt a => Invariant f a
  | boundary => ∀ c, isWord (f c) = isWord c

theorem accepts_map {f : Nat → Nat} (hr : Invariant f r) :
    Accepts r (prev.map f) (w.map f) (after.map f) ↔ Accepts r prev w after := by
  have hlast : ∀ {u : Str} {prev : Option Nat}, last (prev.map f) (u.map f) = (last prev u).map f := by
    intro u prev
    rw [last, last, List.getLast?_map, Option.map_or]
  have hnext : ∀ {v : Str} {after : Option Nat}, next (v.map f) (after.map f) = (next v after).map f := by
    intro v after
    rw [next, next, List.head?_map, Option.map_or]
  induction r generalizing prev w after with
  | run p lo hi => simp [Accepts, hr _]
  | seq a b iha ihb =>
    simp only [Accepts]
    constructor
    · rintro ⟨u', v', hw, hu, hv⟩
      obtain ⟨u, v, rfl, rfl, rfl⟩ := List.map_eq_append_iff.1 hw
      rw [hnext] at hu
      rw [hlast] at hv
      exact ⟨u, v, rfl, (iha hr.1).1 hu, (ihb hr.2).1 hv⟩
    · rintro ⟨u, v, rfl, hu, hv⟩
      refine ⟨u.map f, v.map f, List.map_append, ?_, ?_⟩
      · rw [hnext]
        exact (iha hr.1).2 hu
      · rw [hlast]
        exact (ihb hr.2).2 hv
  | alt a b iha ihb => exact or_congr (iha hr.1) (ihb hr.2)
  | opt a iha =>
    refine or_congr (iha hr) ?_
    rw [List.map_eq_nil_iff]
  | boundary =>
    have hword : ∀ {c : Option Nat}, atWord (c.map f) = atWord c := by
      intro c
      cases c with
      | none => rfl
      | some c => exact hr c
    simp only [Accepts, List.map_eq_nil_iff, hword]

/-- A character outside the words that no class has ends the text for the matcher. -/
theorem lengths_append (htakes : r.takes c = false) (hword : isWord c = false) :
    lengths r prev (x ++ c :: y) = lengths r prev x := by
  induction r generalizing prev x with
  | run p lo hi =>
    have hstop : ¬ p c = true := Bool.eq_false_iff.1 htakes
    have hrun : (x ++ c :: y).takeWhile p = x.takeWhile p := by
      rw [List.takeWhile_append, List.takeWhile_cons_of_neg hstop, List.append_nil]
      split
      · next hall => exact ((List.takeWhile_prefix p).eq_of_length hall).symm
      · rfl
    simp only [lengths, hrun]
  | seq a b iha ihb =>
    simp only [Re.takes, Bool.or_eq_false_iff] at htakes
    simp only [lengths, iha htakes.1]
    refine List.flatMap_congr fun i hi => ?_
    have hle := le_of_mem_lengths hi
    rw [List.take_append_of_le_length hle, List.drop_append_of_le_length hle, ihb htakes.2]
  | alt a b iha ihb =>
    simp only [Re.takes, Bool.or_eq_false_iff] at htakes
    simp only [lengths, iha htakes.1, ihb htakes.2]
  | opt a iha => simp only [lengths, iha htakes]
  | boundary =>
    cases x with
    | nil => simp [lengths, atWord, hword]
    | cons d x => rfl

end

/-! ## Expressions between word boundaries -/

/-- `\b...\b`. -/
def bounded (r : Re) : Re := seq boundary (seq r boundary)

/-- A match stands between word boundaries. -/
def Bounded (r : Re) : Prop := ∀ prev w after, Accepts r prev w after →
  atWord prev ≠ atWord (next w after) ∧ atWord (last prev w) ≠ atWord after

theorem accepts_bounded {r : Re} {prev after : Option Nat} {w : Str} :
    Accepts (bounded r) prev w after ↔ atWord prev ≠ atWord (next w after) ∧
      atWord (last prev w) ≠ atWord after ∧ Accepts r prev w after := by
  simp only [bounded, Accepts]
  constructor
  · rintro ⟨_, _, rfl, ⟨rfl, hstart⟩, w, _, rfl, hw, rfl, hend⟩
    simp only [List.append_nil, List.nil_append, last_nil, next_nil] at *
    exact ⟨hstart, hend, hw⟩
  · rintro ⟨hstart, hend, hw⟩
    exact ⟨[], w, rfl, ⟨rfl, hstart⟩, w, [], (List.append_nil w).symm, hw, rfl, hend⟩

omit [ReTables] in
theorem final_bounded {r : Re} {c : Nat} : (bounded r).final c = r.final c := by
  simp [bounded, Re.final, Re.minLength]

theorem bounded_bounded (r : Re) : Bounded (bounded r) := fun _ _ _ h =>
  ⟨(accepts_bounded.1 h).1, (accepts_bounded.1 h).2.1⟩

/-! ## Sequences over the texts of one class -/

section
variable {rs : List Re} {r : Re} {p : Nat → Bool} {n lo : Nat} {hi : Option Nat} {w : Str}
  {prev after : Option Nat}

theorem accepts_all_nil : Accepts (all []) prev w after ↔ w = [] := by
  simp only [all, List.foldr_nil, empty, Accepts]
  constructor
  · rintro ⟨hnone, -⟩
    exact List.eq_nil_iff_forall_not_mem.2 fun c hc => by cases hnone c hc
  · rintro rfl
    simp

theorem accepts_all_cons : Accepts (all (r :: rs)) prev w after ↔
    ∃ u v, w = u ++ v ∧ Accepts r prev u (next v after) ∧ Accepts (all rs) (last prev u) v after :=
  Iff.rfl

theorem accepts_one : Accepts (one p) prev w after ↔ ∃ c, w = [c] ∧ p c = true := by
  simp only [one, Accepts]
  constructor
  · rintro ⟨hw, hleast, hmost⟩
    obtain ⟨c, rfl⟩ := List.length_eq_one_iff.1 (Nat.le_antisymm (hmost 1 rfl) hleast)
    exact ⟨c, rfl, hw c (List.mem_singleton_self c)⟩
  · rintro ⟨c, rfl, hc⟩
    simp [hc]

/-- A text without regard to case matches what a fold of characters takes to it. -/
theorem accepts_fold {f : Nat → Nat} {s : Str} (h : ∀ d ∈ s, ∀ c ∈ w, isFold d c = true ↔ f c = d) :
    Accepts (fold s) prev w after ↔ w.map f = s := by
  induction s generalizing prev w with
  | nil => exact accepts_all_nil.trans List.map_eq_nil_iff.symm
  | cons d s ih =>
    have hrest : ∀ {c : Nat} {v : Str}, w = c :: v → ∀ e ∈ s, ∀ a ∈ v, isFold e a = true ↔ f a = e := by
      rintro c v rfl e he a ha
      exact h e (List.mem_cons_of_mem d he) a (List.mem_cons_of_mem c ha)
    constructor
    · intro haccepts
      obtain ⟨u, v, rfl, hu, hv⟩ := accepts_all_cons.1 haccepts
      obtain ⟨c, rfl, hc⟩ := accepts_one.1 hu
      have hv : v.map f = s := (ih (hrest rfl)).1 hv
      rw [List.singleton_append, List.map_cons, (h d (by simp) c (by simp)).1 hc, hv]
    · intro hmap
      obtain ⟨c, v, rfl, hc, hv⟩ := List.map_eq_cons_iff.1 hmap
      refine accepts_all_cons.2 ⟨[c], v, rfl, accepts_one.2 ⟨c, rfl, ?_⟩, (ih (hrest rfl)).2 hv⟩
      exact (h d (by simp) c (by simp)).2 hc

omit [ReTables] in
theorem isFold_iff {d c : Nat} (hd : asciiLower d = d)
    (hc : c < 0x80 ∨ d ≠ 0x69 ∧ d ≠ 0x73 ∧ d ≠ 0x6B) : isFold d c = true ↔ asciiLower c = d := by
  simp only [isFold, asciiLower, Bool.or_eq_true, Bool.and_eq_true, beq_iff_eq, decide_eq_true_eq] at hd ⊢
  split at hd <;> split <;> omega

/-- A literal of a sequence is in every match. -/
theorem Accepts.mem_char {c : Char} (hc : char c ∈ rs) (h : Accepts (all rs) prev w after) :
    c.toNat ∈ w := by
  induction rs generalizing prev w with
  | nil => cases hc
  | cons r rs ih =>
    obtain ⟨u, v, rfl, hu, hv⟩ := accepts_all_cons.1 h
    rcases List.mem_cons.1 hc with rfl | hc
    · obtain ⟨d, rfl, hd⟩ := accepts_one.1 hu
      obtain rfl := beq_iff_eq.1 hd
      simp
    · exact List.mem_append_right u (ih hc hv)

/-- A counted class takes its count off a text of that class. -/
theorem accepts_times (hw : ∀ c ∈ w, p c = true) (hfree : (all rs).boundaryFree = true) :
    Accepts (all (times p n :: rs)) prev w after ↔
      n ≤ w.length ∧ Accepts (all rs) none (w.drop n) none := by
  rw [accepts_all_cons]
  constructor
  · rintro ⟨u, v, rfl, ⟨-, hleast, hmost⟩, hv⟩
    have hlength : u.length = n := Nat.le_antisymm (hmost n rfl) hleast
    refine ⟨by simp [← hlength], ?_⟩
    rw [← hlength, List.drop_left]
    exact (accepts_free hfree).1 hv
  · rintro ⟨hle, hrest⟩
    refine ⟨w.take n, w.drop n, (List.take_append_drop n w).symm, ⟨?_, ?_, ?_⟩, (accepts_free hfree).1 hrest⟩
    · exact fun c hc => hw c (List.mem_of_mem_take hc)
    · simp [hle]
    · simp

/-- An option with other characters is left out. -/
theorem accepts_opt (hw : ∀ c ∈ w, r.takes c = false) (hpos : 0 < r.minLength)
    (hfree : (all rs).boundaryFree = true) :
    Accepts (all (opt r :: rs)) prev w after ↔ Accepts (all rs) none w none := by
  rw [accepts_all_cons]
  constructor
  · rintro ⟨u, v, rfl, hu | rfl, hv⟩
    · have hne : u ≠ [] := List.ne_nil_of_length_pos (Nat.lt_of_lt_of_le hpos hu.minLength_le)
      obtain ⟨c, u, rfl⟩ := List.exists_cons_of_ne_nil hne
      have hfalse := hw c (by simp)
      rw [hu.takes c (by simp)] at hfalse
      cases hfalse
    · exact (accepts_free hfree).1 hv
  · exact fun h => ⟨[], w, rfl, .inr rfl, (accepts_free hfree).1 h⟩

theorem accepts_run (hw : ∀ c ∈ w, p c = true) :
    Accepts (all [run p lo hi]) prev w after ↔ lo ≤ w.length ∧ ∀ h ∈ hi, w.length ≤ h := by
  rw [accepts_all_cons]
  constructor
  · rintro ⟨u, v, rfl, ⟨-, hu⟩, hv⟩
    rw [accepts_all_nil.1 hv, List.append_nil]
    exact hu
  · exact fun h => ⟨w, [], (List.append_nil w).symm, ⟨hw, h⟩, accepts_all_nil.2 rfl⟩

end

end

end Re

end Python
