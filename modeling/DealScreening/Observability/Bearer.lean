-- SUMMARY: Bearer tokens in a log text: where the pattern finds one, and that after the substitution only the replacement is found.
import DealScreening.Observability.Scrubber

/-!
# Bearer tokens

The word, white space and everything up to the next white space are replaced. Later
substitutions can take away characters behind such a replacement or in front of it, but they
make no new token.
-/

namespace LogScrubber

open Python Python.Re PiiScrubber

/-! ## Where a token begins -/

def bearerWord : Str := text "bearer"

/-- The word, white space and one more character stand at the front. -/
def Begins (t : Str) : Prop :=
  ∃ b ws c rest, t = b ++ (ws ++ c :: rest) ∧ b.map asciiLower = bearerWord ∧ ws ≠ [] ∧
    (∀ d ∈ ws, isSpace d = true) ∧ isSpace c = false

/-- White space or the end of the text comes next. -/
def AtGap (t : Str) : Prop := ∀ c ∈ t.head?, isSpace c = true

/-- Wherever a token begins stands the replacement, up to white space. -/
def Settled (s : Str) : Prop :=
  ∀ a t, s = a ++ t → Begins t → ∃ rest, t = bearerMarker ++ rest ∧ AtGap rest

section
variable [ReTables] {prev : Option Nat} {s t : Str} {m : Match}

theorem accepts_bearerWord {w : Str} {after : Option Nat} :
    Accepts (fold bearerWord) prev w after ↔ w.map asciiLower = bearerWord := by
  refine accepts_fold fun d hd c _ => isFold_iff ?_ (.inr ?_)
  · revert d
    decide
  · revert d
    decide

/-- The word has one length. -/
theorem lengths_fold (w : Str) : lengths (fold w) prev s = [] ∨ lengths (fold w) prev s = [w.length] := by
  induction w generalizing prev s with
  | nil =>
    right
    have hempty : s.takeWhile (fun _ => false) = [] := by cases s <;> rfl
    simp only [fold, List.map_nil, all, List.foldr_nil, Re.empty, lengths, hempty]
    rfl
  | cons c w ih =>
    have hone : lengths (one (isFold c)) prev s = [] ∨ lengths (one (isFold c)) prev s = [1] := by
      simp only [one, lengths, Option.elim_some]
      rcases Nat.eq_zero_or_pos (s.takeWhile (isFold c)).length with hzero | hpos
      · left
        rw [hzero]
        rfl
      · right
        rw [Nat.min_eq_right (show 1 ≤ _ from hpos)]
        rfl
    have hseq : lengths (fold (c :: w)) prev s = (lengths (one (isFold c)) prev s).flatMap fun i =>
        (lengths (fold w) (last prev (s.take i)) (s.drop i)).map (i + ·) := rfl
    rw [hseq]
    rcases hone with hone | hone
    · left
      rw [hone]
      rfl
    · rw [hone, List.flatMap_singleton]
      rcases @ih (last prev (s.take 1)) (s.drop 1) with hrest | hrest
      · left
        rw [hrest]
        rfl
      · right
        rw [hrest, List.map_singleton, List.length_cons, Nat.add_comm]

omit [ReTables] in
/-- A text is split behind the characters at its front that have a property. -/
theorem split_while (p : Nat → Bool) (t : Str) :
    ∃ w z, t = w ++ z ∧ (∀ c ∈ w, p c = true) ∧ ∀ c ∈ z.head?, p c = false := by
  refine ⟨t.takeWhile p, t.dropWhile p, List.takeWhile_append_dropWhile.symm,
    fun c => List.mem_takeWhile_imp, fun c hc => ?_⟩
  have hfirst := List.head?_dropWhile_not p t
  rwa [hc] at hfirst

omit [ReTables] in
theorem takeWhile_split {p : Nat → Bool} {w z : Str} (hw : ∀ c ∈ w, p c = true)
    (hz : ∀ c ∈ z.head?, p c = false) : (w ++ z).takeWhile p = w := by
  rw [List.takeWhile_append_of_pos hw]
  cases z with
  | nil => exact List.append_nil w
  | cons c z => rw [List.takeWhile_cons_of_neg (by simp [hz c rfl]), List.append_nil]

/-- After the word all white space is taken, and everything up to the next. -/
theorem lengths_token {ws ns rest : Str} (hne : ws ≠ []) (hws : ∀ c ∈ ws, isSpace c = true)
    (hns : ∀ c ∈ ns, isSpace c = false) (hstop : ∀ c ∈ (ns ++ rest).head?, isSpace c = false)
    (hrest : AtGap rest) :
    (lengths (seq (run isSpace 1 none) (run (!isSpace ·) 1 none)) prev (ws ++ (ns ++ rest))).head? =
      (down 1 ns.length).head?.map (ws.length + ·) := by
  have hspaces : (ws ++ (ns ++ rest)).takeWhile isSpace = ws := takeWhile_split hws hstop
  have hothers : (ns ++ rest).takeWhile (!isSpace ·) = ns :=
    takeWhile_split (fun c hc => by rw [hns c hc]; rfl) fun c hc => by rw [hrest c hc]; rfl
  obtain ⟨shorter, hdown, hlt⟩ := down_cons (show 1 ≤ ws.length from List.length_pos_of_ne_nil hne)
  -- With less white space the next character is white space.
  have hnone : ∀ i ∈ shorter, ((ws ++ (ns ++ rest)).drop i).takeWhile (!isSpace ·) = [] := by
    intro i hi
    rw [List.drop_append_of_le_length (Nat.le_of_lt (hlt i hi))]
    obtain ⟨c, ws', hc⟩ := List.exists_cons_of_ne_nil
      (List.ne_nil_of_length_pos (show 0 < (ws.drop i).length by simpa using hlt i hi))
    have hspace : isSpace c = true := hws c (List.mem_of_mem_drop (hc ▸ List.mem_cons_self ..))
    rw [hc, List.cons_append, List.takeWhile_cons_of_neg (by simp [hspace])]
  have hshorter : shorter.flatMap (fun i =>
      (down 1 (((ws ++ (ns ++ rest)).drop i).takeWhile (!isSpace ·)).length).map (i + ·)) = [] := by
    refine List.flatMap_eq_nil_iff.2 fun i hi => ?_
    rw [hnone i hi]
    rfl
  simp only [lengths, Option.elim_none]
  rw [hspaces, hdown, List.flatMap_cons, hshorter, List.append_nil, List.drop_left, hothers, List.head?_map]

/-- What is found: the word, all white space behind it and everything up to the next. -/
theorem find_bearer (h : find bearer prev t = some m) : ∃ b ws ns rest,
    t = b ++ (ws ++ (ns ++ rest)) ∧ m.text = b ++ (ws ++ ns) ∧ b.map asciiLower = bearerWord ∧
      ws ≠ [] ∧ (∀ c ∈ ws, isSpace c = true) ∧ ns ≠ [] ∧ (∀ c ∈ ns, isSpace c = false) ∧ AtGap rest := by
  simp only [find, Option.map_eq_some_iff] at h
  obtain ⟨n, hfirst, rfl⟩ := h
  have hseq : lengths bearer prev t = (lengths (fold bearerWord) prev t).flatMap fun i =>
      (lengths (seq (run isSpace 1 none) (run (!isSpace ·) 1 none)) (last prev (t.take i)) (t.drop i)).map
        (i + ·) := rfl
  rcases @lengths_fold _ prev t bearerWord with hnone | hsix
  · rw [hseq, hnone] at hfirst
    cases hfirst
  have hmem : bearerWord.length ∈ lengths (fold bearerWord) prev t := by
    rw [hsix]
    exact List.mem_singleton_self _
  have hle : bearerWord.length ≤ t.length := le_of_mem_lengths hmem
  obtain ⟨b, z, rfl, hb⟩ : ∃ b z, t = b ++ z ∧ b.length = bearerWord.length :=
    ⟨_, _, (List.take_append_drop _ t).symm, List.length_take_of_le hle⟩
  rw [← hb] at hmem hsix
  have hword : b.map asciiLower = bearerWord := accepts_bearerWord.1 (mem_lengths.1 hmem)
  rw [hseq, hsix, List.flatMap_singleton, List.head?_map, List.drop_left] at hfirst
  obtain ⟨ws, z, rfl, hws, hz⟩ := split_while isSpace z
  obtain ⟨ns, rest, rfl, hns, hrest⟩ := split_while (!isSpace ·) z
  simp only [Bool.not_eq_true', Bool.not_eq_false'] at hns hrest
  by_cases hgap : ws = []
  · subst hgap
    have hnone : (ns ++ rest).takeWhile isSpace = [] := takeWhile_split (w := []) (by simp) hz
    simp only [lengths, Option.elim_none, List.nil_append, hnone] at hfirst
    cases hfirst
  · rw [lengths_token hgap hws hns hz hrest, Option.map_map] at hfirst
    by_cases hempty : ns = []
    · subst hempty
      cases hfirst
    · obtain ⟨shorter, hdown, -⟩ := down_cons (show 1 ≤ ns.length from List.length_pos_of_ne_nil hempty)
      rw [hdown, List.head?_cons, Option.map_some, Option.some_inj] at hfirst
      refine ⟨b, ws, ns, rest, rfl, ?_, hword, hgap, hws, hempty, hns, hrest⟩
      have hparts : b ++ (ws ++ (ns ++ rest)) = (b ++ (ws ++ ns)) ++ rest := by simp
      rw [hparts, ← hfirst]
      exact List.take_left' (by simp)

/-- Nothing is found where no token begins. -/
theorem not_begins (h : find bearer prev t = none) : ¬ Begins t := by
  rintro ⟨b, ws, c, rest, rfl, hb, hne, hws, hc⟩
  refine (finds_find bearer).not_accepts h (w := b ++ (ws ++ [c])) (t := rest) (by simp) ?_
  refine ⟨b, ws ++ [c], rfl, accepts_bearerWord.2 hb, ws, [c], rfl, ?_, ?_⟩
  · exact ⟨hws, List.length_pos_of_ne_nil hne, by simp⟩
  · exact ⟨by simp [hc], by simp, by simp⟩

end

-- ---------------------------------------------------------------------------
-- Changing what follows
-- ---------------------------------------------------------------------------

section
variable {x y s t u : Str} {d d' : Nat}

theorem Begins.head (h : Begins t) : ∀ c ∈ t.head?, asciiLower c = 0x62 := by
  obtain ⟨b, ws, c, rest, rfl, hb, -⟩ := h
  cases b with
  | nil => cases hb
  | cons e b =>
    intro c hc
    obtain rfl := Option.some.inj hc
    exact (List.cons.injEq .. |>.mp hb).1

/-- Where a token begins does not depend on a character that is no part of the word, nor on
    anything behind it. -/
theorem Begins.change (h : Begins (x ++ d :: u)) (hne : x ≠ []) (hword : asciiLower d ∉ bearerWord.tail)
    (hd : isSpace d = false) (hd' : isSpace d' = false) : Begins (x ++ d' :: y) := by
  obtain ⟨b, ws, c, rest, hsplit, hb, hws, hspace, hc⟩ := h
  have hnot : ∀ {k : Str}, d :: k <:+ ws → False := fun hk =>
    Bool.false_ne_true (hd.symm.trans (hspace d (hk.subset (List.mem_cons_self ..))))
  rcases List.append_eq_append_iff.1 hsplit with ⟨e, rfl, hu⟩ | ⟨e, rfl, hu⟩
  · cases e with
    | nil =>
      obtain ⟨k, ws, rfl⟩ := List.exists_cons_of_ne_nil hws
      obtain ⟨rfl, -⟩ := List.cons.injEq .. |>.mp hu
      exact (hnot (List.suffix_refl _)).elim
    | cons k e =>
      obtain ⟨rfl, -⟩ := List.cons.injEq .. |>.mp hu
      obtain ⟨f, x, rfl⟩ := List.exists_cons_of_ne_nil hne
      refine absurd ?_ hword
      rw [← hb]
      simp
  · rcases List.append_eq_append_iff.1 hu.symm with ⟨k, rfl, hk⟩ | ⟨k, rfl, hk⟩
    · cases k with
      | nil => exact ⟨b, e, d', y, by simp, hb, by simpa using hws, by simpa using hspace, hd'⟩
      | cons j k =>
        obtain ⟨rfl, -⟩ := List.cons.injEq .. |>.mp hk
        exact (hnot (List.suffix_append e _)).elim
    · cases k with
      | nil => exact ⟨b, ws, d', y, by simp, hb, hws, hspace, hd'⟩
      | cons j k =>
        obtain ⟨rfl, -⟩ := List.cons.injEq .. |>.mp hk
        exact ⟨b, ws, c, k ++ d' :: y, by simp, hb, hws, hspace, hc⟩

theorem Settled.of_suffix (h : Settled (x ++ s)) : Settled s := fun a t hs hbegins =>
  h (x ++ a) t (by rw [hs, List.append_assoc]) hbegins

/-- A text in front of a piece is settled with it when a token that begins in the text, or with
    the piece, is the replacement, and none begins inside the piece. -/
theorem settled_append {piece : Str} (hinside : ∀ c ∈ piece.tail, asciiLower c ≠ 0x62)
    (hu : Settled u)
    (hx : ∀ a z, x ++ piece = a ++ z → piece <:+ z → Begins (z ++ u) →
      ∃ rest, z ++ u = bearerMarker ++ rest ∧ AtGap rest) : Settled (x ++ (piece ++ u)) := by
  intro a t hsplit hbegins
  rw [← List.append_assoc] at hsplit
  rcases List.append_eq_append_iff.1 hsplit with ⟨e, rfl, hu'⟩ | ⟨z, hz, rfl⟩
  · exact hu e t hu' hbegins
  · by_cases hpart : piece <:+ z
    · exact hx a z hz hpart hbegins
    · have hsuffix : z <:+ piece := by
        rcases List.suffix_or_suffix_of_suffix ⟨a, hz.symm⟩ ⟨x, rfl⟩ with h | h
        · exact h
        · exact absurd h hpart
      cases z with
      | nil => exact hu [] u rfl hbegins
      | cons c z =>
        obtain ⟨front, rfl⟩ := hsuffix
        cases front with
        | nil => exact absurd (List.suffix_refl _) hpart
        | cons d front => exact absurd (hbegins.head c rfl) (hinside c (by simp))

end

-- ---------------------------------------------------------------------------
-- The substitutions
-- ---------------------------------------------------------------------------

section
variable [ReTables] {prev : Option Nat} {s x : Str} {cut : Str × List (Match × Str)}

/-- The token that is found begins with a letter and ends before white space. -/
theorem found_token {m : Match} (h : find bearer prev (m.text ++ s) = some m) :
    AtGap s ∧ Begins (m.text ++ s) ∧ ∃ c w, m.text = c :: w ∧ isSpace c = false := by
  obtain ⟨b, ws, ns, rest, hsplit, htext, hb, hws, hspace, hns, hother, hrest⟩ := find_bearer h
  have hs : s = rest := by
    rw [htext, List.append_assoc, List.append_assoc] at hsplit
    exact List.append_cancel_left (List.append_cancel_left (List.append_cancel_left hsplit))
  obtain ⟨c, ns, rfl⟩ := List.exists_cons_of_ne_nil hns
  have hbegins : Begins (m.text ++ s) := by
    rw [hsplit]
    exact ⟨b, ws, c, ns ++ rest, by simp, hb, hws, hspace, hother c (by simp)⟩
  subst hs
  refine ⟨hrest, hbegins, ?_⟩
  cases b with
  | nil => cases hb
  | cons d b =>
    refine ⟨d, b ++ (ws ++ c :: ns), htext, ?_⟩
    have hd : asciiLower d = 0x62 := hbegins.head d (by simp [htext])
    simp only [asciiLower, isSpace] at hd ⊢
    split at hd <;> simp <;> omega

/-- The text after a token still begins with white space, or is empty. -/
theorem atGap_glue (h : Cut (find bearer) prev s cut) (hs : AtGap s) {new : Match → Str} :
    AtGap (glue new cut) := by
  cases h with
  | done _ => simpa [glue] using hs
  | @found _ x s m cut _ hm _ =>
    cases x with
    | cons c x =>
      intro d hd
      exact hs d hd
    | nil =>
      obtain ⟨-, -, c, w, htext, hc⟩ := found_token hm
      have hspace := hs c (by simp [htext])
      exact (Bool.false_ne_true (hc.symm.trans hspace)).elim

/-- After the substitution of tokens only the replacement is a token. -/
theorem settled_glue (h : Cut (find bearer) prev s cut) : Settled (glue (fun _ => bearerMarker) cut) := by
  induction h with
  | @done prev x hnone =>
    intro a t hsplit hbegins
    have hne : t ≠ [] := by
      rintro rfl
      obtain ⟨b, ws, c, rest, hnil, -⟩ := hbegins
      simp at hnil
    simp only [glue, List.flatMap_nil, List.append_nil] at hsplit
    have hfound := hnone a t hsplit hne
    rw [List.append_nil] at hfound
    exact absurd hbegins (not_begins hfound)
  | @found prev x s m cut hnone hm hrest ih =>
    obtain ⟨hgap, -, d, w, htext, hd⟩ := found_token hm
    have hglue : glue (fun _ => bearerMarker) (x, (m, cut.1) :: cut.2) =
        x ++ (bearerMarker ++ glue (fun _ => bearerMarker) cut) := by simp [glue]
    rw [hglue]
    refine settled_append (by decide) ih fun a z hz hpart hbegins => ?_
    obtain ⟨y, rfl⟩ := hpart
    rw [← List.append_assoc] at hz
    obtain rfl := List.append_cancel_right hz
    by_cases hy : y = []
    · subst hy
      exact ⟨_, rfl, atGap_glue hrest hgap⟩
    · have hfound := hnone a y rfl hy
      refine absurd ?_ (not_begins hfound)
      rw [htext, List.cons_append]
      rw [List.append_assoc] at hbegins
      exact hbegins.change hy (by decide) rfl hd

/-- What the replacement of a token holds but no key, a later match can not. -/
theorem settled_sub_key {r : Re} (hclosing : r.takes 0x5D = false)
    (hspace : ∀ c, isSpace c = true → r.takes c = false) (hlong : 17 ≤ r.minLength)
    (h : Cut (find r) prev s cut) (hs : Settled s) : Settled (glue (fun _ => marker) cut) := by
  induction h with
  | done _ => simpa [glue] using hs
  | @found prev x s m cut _ hm hrest ih =>
    obtain ⟨t, ht, haccepts⟩ := (finds_find r).accepts hm
    have hlength : 17 ≤ m.text.length := hlong.trans haccepts.minLength_le
    have hne : m.text ≠ [] := List.ne_nil_of_length_pos (Nat.lt_of_lt_of_le (by decide) hlength)
    obtain ⟨d, w, htext⟩ := List.exists_cons_of_ne_nil hne
    have hd : isSpace d = false := by
      refine Bool.eq_false_iff.2 fun hd => ?_
      have htakes := haccepts.takes d (by simp [htext])
      rw [hspace d hd] at htakes
      cases htakes
    have hglue : glue (fun _ => marker) (x, (m, cut.1) :: cut.2) =
        x ++ (marker ++ glue (fun _ => marker) cut) := by simp [glue]
    rw [hglue]
    refine settled_append (by decide) (ih ?_) fun a z hz hpart hbegins => ?_
    · rw [← List.append_assoc] at hs
      exact hs.of_suffix
    obtain ⟨y, rfl⟩ := hpart
    rw [← List.append_assoc] at hz
    obtain rfl := List.append_cancel_right hz
    by_cases hy : y = []
    · subst hy
      exact absurd (hbegins.head 0x5B rfl) (by decide)
    have hbefore : Begins (y ++ (m.text ++ s)) := by
      rw [htext, List.cons_append]
      rw [List.append_assoc] at hbegins
      exact hbegins.change hy (by decide) rfl hd
    have hnot : ∀ c ∈ m.text, c ≠ 0x5D := by
      rintro c hc rfl
      rw [haccepts.takes _ hc] at hclosing
      cases hclosing
    obtain ⟨rest, hrest', hgap⟩ := hs a _ (by simp) hbefore
    have hgap' : ¬ AtGap (m.text ++ s) := fun hgap => by
      have hspace := hgap d (by simp [htext])
      exact Bool.false_ne_true (hd.symm.trans hspace)
    rcases List.append_eq_append_iff.1 hrest' with ⟨e, he, hmatch⟩ | ⟨e, rfl, rfl⟩
    · -- The end of the replacement would be a part of the match.
      have hpart : e <+: m.text := by
        refine List.prefix_of_prefix_length_le ⟨_, hmatch.symm⟩ (List.prefix_append _ s) ?_
        have hle := congrArg List.length he
        rw [List.length_append, show bearerMarker.length = 17 from rfl] at hle
        omega
      rcases e.eq_nil_or_concat with rfl | ⟨e, c, rfl⟩
      · rw [hmatch] at hgap'
        exact absurd hgap hgap'
      · have hlast := congrArg List.getLast? he
        rw [List.concat_eq_append, ← List.append_assoc, List.getLast?_concat] at hlast
        have hc : c = 0x5D := (Option.some.inj hlast).symm
        exact absurd hc (hnot c (hpart.subset (by simp)))
    · cases e with
      | nil => exact absurd hgap hgap'
      | cons c e =>
        refine ⟨(c :: e) ++ marker ++ glue (fun _ => marker) cut, by simp, fun b hb => ?_⟩
        exact hgap b hb

/-- In a settled text only the replacement is found. -/
theorem finditer_settled (hs : Settled s) {m : Match} (hm : m ∈ finditer (find bearer) s) :
    m.text = bearerMarker := by
  obtain ⟨p, hp, rfl⟩ := List.mem_map.1 hm
  have hcut : Cut (find bearer) none s (cuts (find bearer) 0 none s) :=
    cut_cuts (finds_find bearer) (Nat.succ_pos 7)
  obtain ⟨a, t, rfl, hfound⟩ := hcut.mem_found hp
  obtain ⟨hgap, hbegins, -⟩ := found_token hfound
  obtain ⟨rest, hmarker, hrest⟩ := hs a _ rfl hbegins
  obtain ⟨b, ws, ns, -, -, htext, hb, -, hws, hne, hns, -⟩ := find_bearer hfound
  have hblank : bearerMarker ++ rest = text "Bearer" ++ ([0x20] ++ (marker ++ rest)) := rfl
  rw [htext, List.append_assoc, List.append_assoc, hblank] at hmarker
  have hlength : b.length = (text "Bearer").length := by
    have hlength := congrArg List.length hb
    rwa [List.length_map] at hlength
  obtain ⟨rfl, hspaces⟩ := List.append_inj hmarker hlength
  -- The white space ends where the other characters begin, and these end at the next gap.
  have hfirst : ∀ c ∈ (ns ++ t).head?, isSpace c = false := by
    obtain ⟨c, ns, rfl⟩ := List.exists_cons_of_ne_nil hne
    exact fun d hd => hns d (by rw [← Option.some.inj hd]; exact List.mem_cons_self ..)
  have hone : ws = [0x20] := by
    have htake := congrArg (List.takeWhile isSpace) hspaces
    rwa [takeWhile_split hws hfirst, takeWhile_split (by decide) (by intro c hc; cases hc; rfl)] at htake
  subst hone
  have hothers : ns = marker := by
    have htake := congrArg (List.takeWhile (!isSpace ·)) (List.append_cancel_left hspaces)
    rwa [takeWhile_split (fun c hc => by rw [hns c hc]; rfl) (fun c hc => by rw [hgap c hc]; rfl),
      takeWhile_split (by decide) (fun c hc => by rw [hrest c hc]; rfl)] at htake
  rw [htext, hothers]
  rfl

/-! ## Addresses and numbers beside tokens -/

/-- What is absent from a text stays absent when tokens are replaced. -/
theorem absent_glue {q : Re} (hq : Bounded q) (hcase : Invariant asciiLower q)
    (hblank : q.final 0x20 = false) (hwall : Wall q redacted)
    (h : Cut (find bearer) prev s cut) (hedge : atWord prev = false ∨ AtGap s)
    (hs : ¬ Occurs q prev s none) : Absent q (glue (fun _ => bearerMarker) cut) := by
  have hleft : ∀ {x y : Str} {prev : Option Nat}, (atWord prev = false ∨ AtGap (x ++ y)) →
      ¬ (atWord prev = true ∧ atWord x.head? = true) := by
    rintro x y prev (hprev | hgap) ⟨hword, hhead⟩
    · rw [hprev] at hword
      cases hword
    · cases x with
      | nil => cases hhead
      | cons c x =>
        have hnone := isWord_space (hgap c rfl)
        rw [show isWord c = true from hhead] at hnone
        cases hnone
  induction h with
  | @done prev x hnone =>
    intro hoccurs
    simp only [glue, List.flatMap_nil, List.append_nil] at hoccurs
    refine hs (occurs_in_context hq (hleft (y := []) ?_) (by simp [atWord]) hoccurs)
    rwa [List.append_nil]
  | @found prev x s m cut _ hm _ ih =>
    obtain ⟨b, ws, ns, -, -, htext, hb, hws, hspace, -⟩ := find_bearer hm
    have hglue : glue (fun _ => bearerMarker) (x, (m, cut.1) :: cut.2) =
        ((x ++ text "Bearer") ++ [0x20]) ++ (bracketed redacted ++ glue (fun _ => bearerMarker) cut) := by
      simp [glue, bearerMarker, marker, text]
    rw [hglue, absent_append_bracketed hwall, absent_concat hwall.nonempty hblank (.inl rfl)]
    refine ⟨?_, ih (.inr (found_token hm).1) fun hoccurs => hs ?_⟩
    · have hlower : (x ++ text "Bearer").map asciiLower = (x ++ b).map asciiLower := by
        rw [List.map_append, List.map_append, hb]
        rfl
      rw [← absent_map hcase, hlower, absent_map hcase]
      -- The word is followed by white space in the text too.
      obtain ⟨c, ws, rfl⟩ := List.exists_cons_of_ne_nil hws
      have hword : isWord c = false := isWord_space (hspace c (List.mem_cons_self ..))
      have hsplit : x ++ (m.text ++ s) = [] ++ (x ++ b) ++ (c :: (ws ++ (ns ++ s))) := by simp [htext]
      intro hoccurs
      refine hs ?_
      rw [hsplit] at hedge ⊢
      refine Occurs.append (occurs_in_context hq (hleft hedge) ?_ hoccurs)
      rintro ⟨-, hafter⟩
      exact Bool.false_ne_true (hword.symm.trans hafter)
    · have hsplit : x ++ (m.text ++ s) = (x ++ m.text) ++ s ++ [] := by simp
      rw [hsplit]
      refine Occurs.append ?_
      rwa [last_append]

end

end LogScrubber
