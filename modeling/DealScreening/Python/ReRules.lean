-- SUMMARY: Substitutions with replacements in brackets: where matches can stand after one substitution, and after several in a row.
import DealScreening.Python.ReSub

/-!
# Rules with replacements in brackets

No class of the expressions here has a bracket. A replacement in brackets is then a wall:
after a substitution a match lies in one of the texts that were left between.
-/

namespace Python.Re

/-! ## Replacements in brackets -/

def bracketed (inner : Str) : Str := 0x5B :: (inner ++ [0x5D])

/-- A text with `none` at the places of the replacement. -/
abbrev Marked := List (Option Nat)

def fill (marker : Str) (s : Marked) : Str := s.flatMap fun c => c.elim marker fun c => [c]

/-- The texts between the marks, the first one with a text before it. -/
def segments (before : Str) : Marked → List Str
  | [] => [before]
  | none :: s => before :: segments [] s
  | some c :: s => segments (before ++ [c]) s

/-- The cut text with a mark for each match. -/
def marks (new : Match → Marked) (cut : Str × List (Match × Str)) : Marked :=
  cut.1.map some ++ cut.2.flatMap fun p => new p.1 ++ p.2.map some

/-- No match reaches into the replacement, and none is inside. -/
structure Wall [ReTables] (q : Re) (inner : Str) : Prop where
  opening : q.takes 0x5B = false
  closing : q.takes 0x5D = false
  inside : Absent q inner
  nonempty : 0 < q.minLength

section
variable {marker x : Str} {s t : Marked}

theorem fill_append : fill marker (s ++ t) = fill marker s ++ fill marker t :=
  List.flatMap_append

theorem fill_some : fill marker (x.map some) = x := by
  simp [fill, List.flatMap_map]

theorem segments_some : segments x ((y : Str).map some ++ s) = segments (x ++ y) s := by
  induction y generalizing x with
  | nil => rw [List.map_nil, List.nil_append, List.append_nil]
  | cons c y ih => rw [List.map_cons, List.cons_append, segments, ih, List.append_assoc, List.singleton_append]

theorem fill_marks {new : Match → Marked} {cut : Str × List (Match × Str)} :
    fill marker (marks new cut) = glue (fun m => fill marker (new m)) cut := by
  simp only [marks, glue, fill_append, fill_some]
  simp only [fill, List.flatMap_assoc, List.flatMap_append, List.flatMap_map, Option.elim_some,
    List.flatMap_singleton']

/-- Between marks for the matches stands what is outside them. -/
theorem segments_marks {cut : Str × List (Match × Str)} :
    segments [] (marks (fun _ => [none]) cut) = cut.1 :: cut.2.map Prod.snd := by
  obtain ⟨start, found⟩ := cut
  have hall : ∀ (found : List (Match × Str)) (start : Str),
      segments [] (start.map some ++ found.flatMap fun p => [none] ++ p.2.map some) =
        start :: found.map Prod.snd := by
    intro found
    induction found with
    | nil =>
      intro start
      rw [List.flatMap_nil, segments_some]
      rfl
    | cons p found ih =>
      intro start
      rw [segments_some, List.flatMap_cons, List.append_assoc, List.singleton_append, segments, ih]
      rfl
  exact hall found start

end

section
variable [ReTables] {q : Re} {inner x y : Str} {c : Nat}

theorem absent_append_bracketed (hwall : Wall q inner) :
    Absent q (x ++ (bracketed inner ++ y)) ↔ Absent q x ∧ Absent q y := by
  rw [bracketed, List.cons_append, absent_append_cons hwall.nonempty hwall.opening (.inl rfl),
    List.append_assoc, List.singleton_append, absent_append_cons hwall.nonempty hwall.closing (.inl rfl)]
  exact and_congr_right fun _ => and_iff_right hwall.inside

/-- Nothing matches in the filled text when nothing matches between the marks. -/
theorem absent_fill (hwall : Wall q inner) {s : Marked} :
    Absent q (x ++ fill (bracketed inner) s) ↔ ∀ y ∈ segments x s, Absent q y := by
  induction s generalizing x with
  | nil => simp [fill, segments]
  | cons d s ih =>
    cases d with
    | none =>
      rw [show fill (bracketed inner) (none :: s) = bracketed inner ++ fill (bracketed inner) s from rfl,
        absent_append_bracketed hwall, ← List.nil_append (fill (bracketed inner) s), ih]
      simp [segments]
    | some c =>
      rw [show fill (bracketed inner) (some c :: s) = c :: fill (bracketed inner) s from rfl,
        List.append_cons, ih, segments]

/-- After the matches of some expression were replaced, another has matches where it has them
    outside. -/
theorem absent_sub {f : Finder} (hwall : Wall q inner) {s : Str} :
    Absent q (sub f (fun _ => bracketed inner) s) ↔ ∀ y ∈ outside f s, Absent q y := by
  rw [outside, ← segments_marks, ← absent_fill hwall, List.nil_append, fill_marks, sub]
  simp [fill]

end

/-! ## Substitution beside a wall -/

section
variable [ReTables] {r q : Re} {inner x y : Str} {c : Nat} {prev prev' : Option Nat} {new : Match → Str}

theorem find_congr (h : atWord prev = atWord prev') {s : Str} : find r prev s = find r prev' s := by
  rw [find, find, lengths_congr h]

theorem cuts_congr (h : atWord prev = atWord prev') {s : Str} :
    cuts (find r) 0 prev s = cuts (find r) 0 prev' s := by
  cases s with
  | nil => rfl
  | cons c s => rw [cuts, cuts, find_congr h]

/-- A text is matched as if it ended at such a character. -/
theorem find_append (htakes : r.takes c = false) (hword : isWord c = false) :
    find r prev (x ++ c :: y) = find r prev x := by
  rw [find, find, lengths_append htakes hword]
  cases hfirst : (lengths r prev x).head? with
  | none => rfl
  | some n =>
    have hle := le_of_mem_lengths (List.mem_of_mem_head? hfirst)
    rw [Option.map_some, Option.map_some, List.take_append_of_le_length hle]

omit [ReTables] in
theorem glue_found {m : Match} {cut : Str × List (Match × Str)} :
    glue new ([], (m, cut.1) :: cut.2) = new m ++ glue new cut := by
  simp [glue]

/-- The scan does the two sides of such a character on their own. -/
theorem glue_cuts_append (hpos : 0 < r.minLength) (htakes : r.takes c = false)
    (hword : isWord c = false) {skip : Nat} (hskip : skip ≤ x.length) :
    glue new (cuts (find r) skip prev (x ++ c :: y)) =
      glue new (cuts (find r) skip prev x) ++ c :: glue new (cuts (find r) 0 none y) := by
  have hnone : ∀ {prev : Option Nat}, find r prev [] = none := by
    intro prev
    rw [(finds_find r).none_iff, List.eq_nil_iff_forall_not_mem]
    intro k hk
    obtain rfl : k = 0 := Nat.le_zero.1 (le_of_mem_lengths hk)
    exact absurd ((mem_lengths (w := []) (t := [])).1 hk).minLength_le (Nat.not_le.2 hpos)
  induction x generalizing skip prev with
  | nil =>
    obtain rfl := Nat.le_zero.1 hskip
    have hfound : find r prev (c :: y) = none := (find_append (x := []) htakes hword).trans hnone
    have hcuts : cuts (find r) 0 prev (c :: y) =
        (c :: (cuts (find r) 0 none y).1, (cuts (find r) 0 none y).2) := by
      rw [cuts, hfound, cuts_congr (show atWord (some c) = atWord none from hword)]
    rw [List.nil_append, hcuts]
    rfl
  | cons d x ih =>
    cases skip with
    | succ skip => exact ih (Nat.le_of_succ_le_succ hskip)
    | zero =>
      have hfound : find r prev (d :: (x ++ c :: y)) = find r prev (d :: x) :=
        find_append (x := d :: x) htakes hword
      rw [List.cons_append, cuts, cuts, hfound]
      cases hm : find r prev (d :: x) with
      | none =>
        have hrest : glue new (cuts (find r) 0 (some d) (x ++ c :: y)) = _ := ih (Nat.zero_le _)
        exact congrArg (d :: ·) hrest
      | some m =>
        obtain ⟨t, ht, -⟩ := (finds_find r).accepts hm
        have hlength : m.text.length - 1 ≤ x.length := by
          have hle := congrArg List.length ht
          rw [List.length_cons, List.length_append] at hle
          omega
        dsimp only
        rw [glue_found, glue_found, ih hlength, List.append_assoc]

theorem sub_append_cons (hpos : 0 < r.minLength) (htakes : r.takes c = false) (hword : isWord c = false) :
    sub (find r) new (x ++ c :: y) = sub (find r) new x ++ c :: sub (find r) new y :=
  glue_cuts_append hpos htakes hword (Nat.zero_le _)

/-- A substitution does not touch a wall. -/
theorem sub_append_bracketed (hwall : Wall r inner) :
    sub (find r) new (x ++ (bracketed inner ++ y)) =
      sub (find r) new x ++ (bracketed inner ++ sub (find r) new y) := by
  rw [bracketed, List.cons_append, sub_append_cons hwall.nonempty hwall.opening rfl, List.append_assoc,
    List.singleton_append, sub_append_cons hwall.nonempty hwall.closing rfl,
    sub_of_absent (finds_find r) hwall.nonempty hwall.inside]
  simp

/-- After a second substitution matches stand where they do in the texts between the walls
    after this substitution. -/
theorem absent_sub_fill (hwall : Wall q inner) (hr : Wall r inner) {s : Marked} :
    Absent q (sub (find r) new (x ++ fill (bracketed inner) s)) ↔
      ∀ y ∈ segments x s, Absent q (sub (find r) new y) := by
  induction s generalizing x with
  | nil => simp [fill, segments]
  | cons d s ih =>
    cases d with
    | none =>
      rw [show fill (bracketed inner) (none :: s) = bracketed inner ++ fill (bracketed inner) s from rfl,
        sub_append_bracketed hr, absent_append_bracketed hwall,
        ← List.nil_append (fill (bracketed inner) s), ih]
      simp [segments]
    | some c =>
      rw [show fill (bracketed inner) (some c :: s) = c :: fill (bracketed inner) s from rfl,
        List.append_cons, ih, segments]

end

/-! ## The text under the marks -/

/-- The marked text is the text with some parts replaced by marks. -/
inductive Under : Marked → Str → Prop
  | nil : Under [] []
  | char (c : Nat) {s : Marked} {t : Str} : Under s t → Under (some c :: s) (c :: t)
  | mark (u : Str) {s : Marked} {t : Str} : Under s t → Under (none :: s) (u ++ t)

section
variable {s s' : Marked} {t t' x y : Str}

theorem Under.append (h : Under s t) (h' : Under s' t') : Under (s ++ s') (t ++ t') := by
  induction h with
  | nil => exact h'
  | char c _ ih => exact .char c ih
  | mark u _ ih =>
    rw [List.append_assoc]
    exact .mark u ih

theorem under_some : (x : Str) → Under (x.map some) x
  | [] => .nil
  | c :: x => .char c (under_some x)

/-- A text between marks is a part of the text. -/
theorem Under.part_of_text (h : Under s t) (hy : y ∈ segments x s) : y <:+: x ++ t := by
  induction h generalizing x with
  | nil =>
    obtain rfl := List.mem_singleton.1 hy
    rw [List.append_nil]
  | char c _ ih =>
    rw [List.append_cons]
    exact ih hy
  | @mark u s t _ ih =>
    rcases List.mem_cons.1 hy with rfl | hy
    · exact (List.prefix_append y _).isInfix
    · have hpart : y <:+: t := ih hy
      rw [← List.append_assoc]
      exact hpart.trans (List.suffix_append _ t).isInfix

theorem under_marks {new : Match → Marked} {cut : Str × List (Match × Str)}
    (hnew : ∀ p ∈ cut.2, Under (new p.1) p.1.text) : Under (marks new cut) (glue Match.text cut) := by
  obtain ⟨start, found⟩ := cut
  refine (under_some start).append ?_
  change ∀ p ∈ found, Under (new p.1) p.1.text at hnew
  change Under (found.flatMap _) (found.flatMap _)
  induction found with
  | nil => exact .nil
  | cons p found ih =>
    rw [List.flatMap_cons, List.flatMap_cons]
    have hfirst := (hnew p (List.mem_cons_self ..)).append (under_some p.2)
    exact hfirst.append (ih fun q hq => hnew q (List.mem_cons_of_mem p hq))

end

/-! ## Rules in a row -/

/-- A pattern with its replacement. A match is not empty and has no opening bracket, and the
    replacement has one. -/
structure Rule [ReTables] where
  re : Re
  finder : Finder
  new : Match → Str
  finds : Finds finder re
  nonempty : 0 < re.minLength
  opening : re.takes 0x5B = false
  brackets : ∀ prev s m, finder prev s = some m → 0x5B ∈ new m

section
variable [ReTables] {s : Str}

def Rule.apply (rule : Rule) (s : Str) : Str := sub rule.finder rule.new s

/-- The rules, one after the other. -/
def applyAll (rules : List Rule) (s : Str) : Str := rules.foldl (fun s rule => rule.apply s) s

theorem Rule.count_le (rule : Rule) : s.count 0x5B ≤ (rule.apply s).count 0x5B :=
  (cut_cuts rule.finds rule.nonempty).count_le rule.finds rule.opening

theorem Rule.count_lt (rule : Rule) (h : Occurs rule.re none s none) :
    s.count 0x5B < (rule.apply s).count 0x5B := by
  have hcut : Cut rule.finder none s _ := cut_cuts rule.finds rule.nonempty
  exact hcut.count_lt rule.finds rule.opening rule.brackets
    ((hcut.occurs_iff rule.finds rule.nonempty).1 h)

/-- A rule leaves alone the texts without a match, and no others. -/
theorem Rule.apply_eq_iff (rule : Rule) : rule.apply s = s ↔ Absent rule.re s := by
  refine ⟨fun heq hoccurs => ?_, sub_of_absent rule.finds rule.nonempty⟩
  have hlt := rule.count_lt hoccurs
  rw [heq] at hlt
  exact absurd hlt (Nat.lt_irrefl _)

theorem applyAll_count_le (rules : List Rule) : s.count 0x5B ≤ (applyAll rules s).count 0x5B := by
  induction rules generalizing s with
  | nil => exact Nat.le_refl _
  | cons rule rules ih => exact rule.count_le.trans ih

/-- So do the rules together. -/
theorem applyAll_eq_iff {rules : List Rule} :
    applyAll rules s = s ↔ ∀ rule ∈ rules, Absent rule.re s := by
  induction rules with
  | nil => simp [applyAll]
  | cons rule rules ih =>
    rw [List.forall_mem_cons, ← rule.apply_eq_iff]
    constructor
    · intro heq
      have hrule : rule.apply s = s := by
        refine rule.apply_eq_iff.2 fun hoccurs => ?_
        have hle : (rule.apply s).count 0x5B ≤ s.count 0x5B := by
          conv_rhs => rw [← heq]
          exact applyAll_count_le rules
        exact absurd (rule.count_lt hoccurs) (Nat.not_lt.2 hle)
      refine ⟨hrule, ih.1 ?_⟩
      rw [applyAll, List.foldl_cons, hrule] at heq
      exact heq
    · rintro ⟨hrule, habsent⟩
      rw [applyAll, List.foldl_cons, hrule]
      exact ih.2 habsent

/-- A rule with word boundaries and a replacement that is a wall brings no match of another
    such expression, and leaves none of its own. -/
theorem Rule.absent_apply {rule : Rule} {q : Re} {inner : Str}
    (hnew : rule.new = fun _ => bracketed inner) (hr : Bounded rule.re) (hq : Bounded q)
    (hwall : Wall q inner) (h : Absent q s ∨ q = rule.re) : Absent q (rule.apply s) := by
  rw [Rule.apply, hnew, absent_sub hwall]
  intro y hy
  rcases h with h | rfl
  · exact h.outside_bounded rule.finds rule.nonempty hr hq hy
  · exact absent_outside_bounded rule.finds rule.nonempty hr hy

/-- Such rules in a row leave no match of any of them. -/
theorem absent_applyAll {rules : List Rule} {q : Re} (hq : Bounded q)
    (hrules : ∀ rule ∈ rules, Bounded rule.re ∧
      ∃ inner, rule.new = (fun _ => bracketed inner) ∧ Wall q inner)
    (h : Absent q s ∨ ∃ rule ∈ rules, q = rule.re) : Absent q (applyAll rules s) := by
  induction rules generalizing s with
  | nil => exact h.resolve_right (by simp)
  | cons rule rules ih =>
    obtain ⟨hr, inner, hnew, hwall⟩ := hrules rule (List.mem_cons_self ..)
    refine ih (fun r hr => hrules r (List.mem_cons_of_mem rule hr)) ?_
    simp only [List.mem_cons, exists_eq_or_imp] at h
    rcases h with h | h | h
    · exact .inl (Rule.absent_apply hnew hr hq hwall (.inl h))
    · exact .inl (Rule.absent_apply hnew hr hq hwall (.inr h))
    · exact .inr h

end

end Python.Re
