-- SUMMARY: Which plain figures the scrubber takes for a telephone or card number.
import DealScreening.Services.PiiScrubber
import Mathlib.Tactic.IntervalCases

/-!
# Figures in a document text

The extraction prompt asks for figures without separators. Between words such a figure is one
run of digits, and the patterns for telephone and card numbers take whole runs of some lengths.
-/

namespace PiiScrubber

open Python Python.Re

/-- ASCII letters, blanks and full stops. -/
def IsProse (s : Str) : Prop :=
  ∀ c ∈ s, isAsciiLetter c = true ∨ c = 0x2E ∨ c < 0x80 ∧ isSpace c = true

instance (s : Str) : Decidable (IsProse s) := inferInstanceAs (Decidable (∀ c ∈ s, _))

/-- A number whose digits are those of a telephone number, with or without the country code,
    or of a card number. -/
def LooksPersonal (n : Nat) : Prop :=
  10 ^ 9 ≤ n ∧ n < 2 * 10 ^ 10 ∨ 10 ^ 12 ≤ n ∧ n < 10 ^ 19

instance (n : Nat) : Decidable (LooksPersonal n) := inferInstanceAs (Decidable (_ ∨ _))

/-! ## The digits of a number -/

/-- The runs of digits that the two patterns take are those of these numbers. -/
theorem looksPersonal_iff (n : Nat) : LooksPersonal n ↔
    ((Str.ofNat n).length = 10 ∨
      (Str.ofNat n).length = 11 ∧ (Str.ofNat n).head? = some 0x31) ∨
    13 ≤ (Str.ofNat n).length ∧ (Str.ofNat n).length ≤ 19 := by
  have hten : (Str.ofNat n).length = 10 ↔ 10 ^ 9 ≤ n ∧ n < 10 ^ 10 := by
    rw [length_ofNat, Nat.add_right_cancel_iff (m := Nat.log 10 n) (k := 9)]
    exact Nat.log_eq_iff (.inl (by decide))
  have heleven : (Str.ofNat n).length = 11 ↔ 10 ^ 10 ≤ n ∧ n < 10 ^ 11 := by
    rw [length_ofNat, Nat.add_right_cancel_iff (m := Nat.log 10 n) (k := 10)]
    exact Nat.log_eq_iff (.inl (by decide))
  have hcountry : 10 ^ 10 ≤ n ∧ n < 10 ^ 11 →
      ((Str.ofNat n).head? = some 0x31 ↔ n < 2 * 10 ^ 10) := by
    rintro ⟨hlow, hhigh⟩
    rw [(ofNat_digits hlow hhigh).2, Option.some.injEq]
    omega
  have hcard : 13 ≤ (Str.ofNat n).length ∧ (Str.ofNat n).length ≤ 19 ↔ 10 ^ 12 ≤ n ∧ n < 10 ^ 19 := by
    rw [length_ofNat]
    rcases Nat.eq_zero_or_pos n with rfl | hpos
    · simp
    · rw [← Nat.le_log_iff_pow_le (by decide) (by omega), ← Nat.log_lt_iff_lt_pow (by decide) (by omega)]
      omega
  rw [LooksPersonal, hten, heleven, hcard]
  refine or_congr_left ⟨fun ⟨hlow, hhigh⟩ => ?_, ?_⟩
  · rcases Nat.lt_or_ge n (10 ^ 10) with hlt | hge
    · exact .inl ⟨hlow, hlt⟩
    · have hrange : 10 ^ 10 ≤ n ∧ n < 10 ^ 11 := ⟨hge, by omega⟩
      exact .inr ⟨hrange, (hcountry hrange).2 hhigh⟩
  · rintro (⟨hlow, hhigh⟩ | ⟨hrange, hhead⟩)
    · exact ⟨hlow, by omega⟩
    · have hhigh := (hcountry hrange).1 hhead
      exact ⟨by omega, hhigh⟩

/-! ## What the patterns take of a run of digits -/

def Digits (run : Str) : Prop := ∀ c ∈ run, isDigit c = true

section
variable {run : Str} {c : Nat}

theorem Digits.drop {k : Nat} (h : Digits run) : Digits (run.drop k) :=
  fun c hc => h c (List.mem_of_mem_drop hc)

theorem digit_not_separator (h : isDigit c = true) :
    isPhoneSeparator c = false ∧ isCardSeparator c = false := by
  have hrange := digit_range h
  simp only [isPhoneSeparator, isCardSeparator, isSpace]
  simp
  omega

variable [ReTables]

theorem isDecimal_digit (h : isDigit c = true) : isDecimal c = true := by
  have hrange := digit_range h
  rw [isDecimal, if_pos (by omega)]
  exact h

theorem isWord_digit (h : isDigit c = true) : isWord c = true := by
  have hrange := digit_range h
  rw [isWord, if_pos (by omega), h]
  simp

theorem Digits.times {n : Nat} {rs : List Re} (h : Digits run) (hfree : (all rs).boundaryFree = true) :
    Accepts (all (times isDecimal n :: rs)) none run none ↔
      n ≤ run.length ∧ Accepts (all rs) none (run.drop n) none :=
  accepts_times (fun c hc => isDecimal_digit (h c hc)) hfree

theorem Digits.cardSeparator {rs : List Re} (h : Digits run) (hfree : (all rs).boundaryFree = true) :
    Accepts (all (opt (one isCardSeparator) :: rs)) none run none ↔ Accepts (all rs) none run none :=
  accepts_opt (fun c hc => (digit_not_separator (h c hc)).2) Nat.one_pos hfree

theorem Digits.phoneSeparator {rs : List Re} (h : Digits run) (hfree : (all rs).boundaryFree = true) :
    Accepts (all (opt (one isPhoneSeparator) :: rs)) none run none ↔ Accepts (all rs) none run none :=
  accepts_opt (fun c hc => (digit_not_separator (h c hc)).1) Nat.one_pos hfree

theorem Digits.char {rs : List Re} {d : Char} (h : Digits run) (hd : isDigit d.toNat = false)
    (hfree : (all rs).boundaryFree = true) :
    Accepts (all (opt (Re.char d) :: rs)) none run none ↔ Accepts (all rs) none run none := by
  refine accepts_opt (fun c hc => ?_) Nat.one_pos hfree
  refine beq_eq_false_iff_ne.2 fun heq => ?_
  rw [← heq, h c hc] at hd
  cases hd

/-- A run of digits is a card number when it is long enough. -/
theorem cardBody_accepts (h : Digits run) :
    Accepts cardBody none run none ↔ 13 ≤ run.length ∧ run.length ≤ 19 := by
  rw [cardBody, h.times rfl, h.drop.cardSeparator rfl, h.drop.times rfl, h.drop.drop.cardSeparator rfl,
    h.drop.drop.times rfl, h.drop.drop.drop.cardSeparator rfl,
    accepts_run fun c hc => isDecimal_digit (h.drop.drop.drop c hc)]
  simp only [List.length_drop, Option.mem_some_iff, forall_eq']
  omega

/-- The local part of a telephone number has ten digits. -/
theorem local_accepts (h : Digits run) :
    Accepts (all [opt (Re.char '('), times isDecimal 3, opt (Re.char ')'), opt (one isPhoneSeparator),
      times isDecimal 3, opt (one isPhoneSeparator), times isDecimal 4]) none run none ↔
    run.length = 10 := by
  rw [h.char rfl rfl, h.times rfl, h.drop.char rfl rfl, h.drop.phoneSeparator rfl, h.drop.times rfl,
    h.drop.drop.phoneSeparator rfl, h.drop.drop.times rfl, accepts_all_nil, ← List.length_eq_zero_iff]
  simp only [List.length_drop]
  omega

/-- The country code is the digit one. -/
theorem country_accepts (h : Digits run) :
    Accepts (all [opt (Re.char '+'), Re.char '1', opt (one isPhoneSeparator)]) none run none ↔
      run = [0x31] := by
  rw [h.char rfl rfl, accepts_all_cons]
  constructor
  · rintro ⟨u, v, rfl, hu, hv⟩
    have hdigits : Digits v := fun c hc => h c (List.mem_append_right u hc)
    obtain ⟨c, rfl, hc⟩ := accepts_one.1 hu
    obtain rfl := accepts_all_nil.1 ((hdigits.phoneSeparator rfl).1 ((accepts_free rfl).1 hv))
    obtain rfl := beq_iff_eq.1 hc
    rfl
  · rintro rfl
    have hnone : Digits [] := fun c hc => by cases hc
    have hrest : Accepts (all [opt (one isPhoneSeparator)]) none [] none :=
      (hnone.phoneSeparator rfl).2 (accepts_all_nil.2 rfl)
    exact ⟨[0x31], [], rfl, accepts_one.2 ⟨0x31, rfl, rfl⟩, (accepts_free rfl).1 hrest⟩

/-- In front of it the country code may stand. -/
theorem phoneBody_accepts (h : Digits run) : Accepts phoneBody none run none ↔
    run.length = 10 ∨ run.length = 11 ∧ run.head? = some 0x31 := by
  rw [phoneBody, accepts_all_cons]
  constructor
  · rintro ⟨u, v, rfl, hu, hv⟩
    have hdigits : Digits u := fun c hc => h c (List.mem_append_left v hc)
    have hlocal := (local_accepts fun c hc => h c (List.mem_append_right u hc)).1
      ((accepts_free rfl).1 hv)
    rcases hu with hu | rfl
    · obtain rfl := (country_accepts hdigits).1 ((accepts_free rfl).1 hu)
      exact .inr ⟨by simp [hlocal], rfl⟩
    · exact .inl hlocal
  · rintro (hlength | ⟨hlength, hhead⟩)
    · exact ⟨[], run, rfl, .inr rfl, (accepts_free rfl).1 ((local_accepts h).2 hlength)⟩
    · cases run with
      | nil => cases hhead
      | cons c run =>
        obtain rfl := Option.some.inj hhead
        have hdigits : Digits run := fun c hc => h c (List.mem_cons_of_mem _ hc)
        have hlocal := (local_accepts hdigits).2 (by simpa using hlength)
        have hone : Digits [0x31] := by simp [Digits, isDigit]
        have hcountry := (country_accepts hone).2 rfl
        exact ⟨[0x31], run, rfl, .inl ((accepts_free rfl).1 hcountry), (accepts_free rfl).1 hlocal⟩

end

/-! ## A figure between words -/

section
variable {u v : Str} {c n : Nat}

theorem IsProse.range (hu : IsProse u) (hc : c ∈ u) :
    0x41 ≤ c ∧ c ≤ 0x5A ∨ 0x61 ≤ c ∧ c ≤ 0x7A ∨ c = 0x2E ∨ 0x09 ≤ c ∧ c ≤ 0x0D ∨
      0x1C ≤ c ∧ c ≤ 0x20 := by
  rcases hu c hc with hletter | hstop | ⟨hascii, hspace⟩
  · simp only [isAsciiLetter, Bool.or_eq_true, Bool.and_eq_true, decide_eq_true_eq] at hletter
    omega
  · omega
  · simp only [isSpace, Bool.or_eq_true, Bool.and_eq_true, decide_eq_true_eq, beq_iff_eq] at hspace
    omega

theorem IsProse.blank (hu : IsProse u) : IsProse (u ++ [0x20]) ∧ IsProse (0x20 :: u) := by
  have hblank : 0x20 < 0x80 ∧ isSpace 0x20 = true := by decide
  constructor
  · intro c hc
    rcases List.mem_append.1 hc with hc | hc
    · exact hu c hc
    · obtain rfl := List.mem_singleton.1 hc
      exact .inr (.inr hblank)
  · intro c hc
    rcases List.mem_cons.1 hc with rfl | hc
    · exact .inr (.inr hblank)
    · exact hu c hc

variable [ReTables]

theorem IsProse.not_decimal (hu : IsProse u) (hc : c ∈ u) : isDecimal c = false := by
  have hrange := hu.range hc
  rw [isDecimal, if_pos (by omega), isDigit]
  simp
  omega

/-- Between words a pattern of digits takes the whole figure or nothing. -/
theorem occurs_figure {r : Re} (hfree : r.boundaryFree = true) (hpos : 0 < r.minLength)
    (hu : ∀ c ∈ u ++ [0x20], r.first c = false) (hv : ∀ c ∈ 0x20 :: v, r.final c = false) :
    Occurs (bounded r) none ((u ++ [0x20]) ++ Str.ofNat n ++ (0x20 :: v)) none ↔
      Accepts r none (Str.ofNat n) none := by
  refine occurs_run hfree hpos hu hv (fun c hc => isWord_digit (isDigit_ofNat hc)) ?_ rfl
  rw [List.getLast?_concat]
  rfl

theorem occurs_phone_figure (hu : IsProse u) (hv : IsProse v) :
    Occurs phone none ((u ++ [0x20]) ++ Str.ofNat n ++ (0x20 :: v)) none ↔
      (Str.ofNat n).length = 10 ∨ (Str.ofNat n).length = 11 ∧ (Str.ofNat n).head? = some 0x31 := by
  have hfirst : ∀ c ∈ u ++ [0x20], phoneBody.first c = false := by
    intro c hc
    have hrange := hu.blank.1.range hc
    exact phoneBody_first (hu.blank.1.not_decimal hc) (by omega) (by omega) (by omega)
  rw [← phoneBody_accepts fun c hc => isDigit_ofNat hc]
  exact occurs_figure rfl (Nat.succ_pos 9) hfirst
    (fun c hc => phoneBody_final (hv.blank.2.not_decimal hc))

theorem occurs_card_figure (hu : IsProse u) (hv : IsProse v) :
    Occurs card none ((u ++ [0x20]) ++ Str.ofNat n ++ (0x20 :: v)) none ↔
      13 ≤ (Str.ofNat n).length ∧ (Str.ofNat n).length ≤ 19 := by
  have hedges : ∀ {w : Str}, IsProse w → ∀ c ∈ w, cardBody.first c = false ∧ cardBody.final c = false :=
    fun hw c hc => cardBody_edges (hw.not_decimal hc)
  rw [← cardBody_accepts fun c hc => isDigit_ofNat hc]
  exact occurs_figure rfl (Nat.succ_pos 12) (fun c hc => (hedges hu.blank.1 c hc).1)
    (fun c hc => (hedges hv.blank.2 c hc).2)

omit [ReTables] in
/-- A character of neither the words nor the figure is not in the text. -/
theorem notMem_figure (hu : IsProse u) (hv : IsProse v) {d : Nat} (hd : isDigit d = false)
    (hprose : ∀ w, IsProse w → d ∉ w) : d ∉ (u ++ [0x20]) ++ Str.ofNat n ++ (0x20 :: v) := by
  intro hmem
  rcases List.mem_append.1 hmem with hmem | hmem
  · rcases List.mem_append.1 hmem with hmem | hmem
    · exact hprose _ hu.blank.1 hmem
    · rw [isDigit_ofNat hmem] at hd
      cases hd
  · exact hprose _ hv.blank.2 hmem

/-- A labelled name does not go on over a figure. -/
theorem absent_names_figure : Absent names.re ((u ++ [0x20]) ++ Str.ofNat n ++ (0x20 :: v)) ↔
    Absent names.re u ∧ Absent names.re v := by
  have htakes : ∀ c ∈ Str.ofNat n, names.re.takes c = false := by
    intro c hc
    obtain ⟨hlow, hhigh⟩ := digit_range (isDigit_ofNat hc)
    interval_cases c <;> rfl
  rw [absent_append_run names.nonempty rfl (ofNat_ne_nil n) htakes,
    absent_concat names.nonempty rfl (.inr rfl), absent_cons names.nonempty rfl (.inr rfl)]

/-! ## Words without a label -/

/-- The words that the labels of names begin with. -/
def labelWords : List Str :=
  [text "contact", text "prepared", text "authored", text "from", text "attention", text "attn"]

/-- One of them stands in the text, in any case and also inside a longer word. -/
def HasLabel (s : Str) : Prop := ∃ w ∈ labelWords, w <:+: s.map asciiLower

instance (s : Str) : Decidable (HasLabel s) := inferInstanceAs (Decidable (∃ w ∈ labelWords, _))

/-- Prose without such a word holds no labelled name. -/
theorem absent_names_of_plain (hu : IsProse u) (hlabel : ¬ HasLabel u) : Absent names.re u := by
  rintro ⟨a, w, b, rfl, x, y, rfl, ⟨l, sep, rfl, hl, -⟩, -⟩
  refine hlabel ?_
  have hascii : ∀ c ∈ l, c < 0x80 := fun c hc => by
    have hrange := hu.range (c := c) (by simp [hc])
    omega
  have hpart : ∀ {word : Str} {prev after : Option Nat}, (∀ c ∈ word, asciiLower c = c) →
      Accepts (fold word) prev l after →
      word <:+: (a ++ (l ++ sep ++ y) ++ b).map asciiLower := by
    intro word prev after hword haccepts
    rw [← (accepts_fold fun d hd c hc => isFold_iff (hword d hd) (.inl (hascii c hc))).1 haccepts]
    exact List.IsInfix.map _ ⟨a, sep ++ y ++ b, by simp⟩
  rcases hl with hl | hl | hl | hl | hl | hl
  · exact ⟨text "contact", by simp [labelWords], hpart (by decide) hl⟩
  · refine ⟨text "prepared", by simp [labelWords], List.IsInfix.trans ?_ (hpart (by decide) hl)⟩
    decide
  · refine ⟨text "authored", by simp [labelWords], List.IsInfix.trans ?_ (hpart (by decide) hl)⟩
    decide
  · exact ⟨text "from", by simp [labelWords], hpart (by decide) hl⟩
  · exact ⟨text "attention", by simp [labelWords], hpart (by decide) hl⟩
  · exact ⟨text "attn", by simp [labelWords], hpart (by decide) hl⟩

/-- A figure between words survives when it does not look like a telephone or card number, and
    the words hold no labelled name. -/
theorem scrubPii_figure_iff (hu : IsProse u) (hv : IsProse v) :
    scrubPii (u ++ text " " ++ Str.ofNat n ++ text " " ++ v) =
        u ++ text " " ++ Str.ofNat n ++ text " " ++ v ↔
      ¬ LooksPersonal n ∧ Absent names.re u ∧ Absent names.re v := by
  have htext : u ++ text " " ++ Str.ofNat n ++ text " " ++ v =
      (u ++ [0x20]) ++ Str.ofNat n ++ (0x20 :: v) := by
    simp [text]
  have hssn : Absent ssn ((u ++ [0x20]) ++ Str.ofNat n ++ (0x20 :: v)) :=
    absent_of_notMem (d := '-') (by simp) <| notMem_figure hu hv rfl fun w hw hmem => by
      have hrange := hw.range hmem
      simp at hrange
  have hemail : Absent email ((u ++ [0x20]) ++ Str.ofNat n ++ (0x20 :: v)) :=
    absent_of_notMem (d := '@') (by simp) <| notMem_figure hu hv rfl fun w hw hmem => by
      have hrange := hw.range hmem
      simp at hrange
  have hphone := occurs_phone_figure (n := n) hu hv
  have hcard := occurs_card_figure (n := n) hu hv
  rw [htext, scrubPii, applyAll_eq_iff, looksPersonal_iff, not_or, ← hphone, ← hcard,
    ← absent_names_figure (n := n)]
  simp only [piiPatterns, constantPatterns, List.cons_append, List.nil_append, List.forall_mem_cons, constant]
  constructor
  · rintro ⟨-, -, hphone, hcard, hnames, -⟩
    exact ⟨⟨hphone, hcard⟩, hnames⟩
  · rintro ⟨⟨hphone, hcard⟩, hnames⟩
    exact ⟨hssn, hemail, hphone, hcard, hnames, by simp⟩

end

/-- Seven digits, as in the texts that the prompt is made for. -/
theorem scrubPii_keeps_revenue :
    @scrubPii asciiTables (text "Revenue of" ++ text " " ++ Str.ofNat 5000000 ++ text " " ++ text "in total.") =
      text "Revenue of" ++ text " " ++ Str.ofNat 5000000 ++ text " " ++ text "in total." := by
  let := asciiTables
  exact (scrubPii_figure_iff (u := text "Revenue of") (v := text "in total.") (n := 5000000)
    (by decide) (by decide)).2 ⟨by decide, absent_names_of_plain (by decide) (by decide),
      absent_names_of_plain (by decide) (by decide)⟩

/-- A revenue of ten digits is taken for a telephone number. -/
theorem scrubPii_takes_revenue : ¬ ∀ (tables : ReTables) (u v : Str) (n : Nat),
    IsProse u → IsProse v → ¬ HasLabel u → ¬ HasLabel v →
      @scrubPii tables (u ++ text " " ++ Str.ofNat n ++ text " " ++ v) =
        u ++ text " " ++ Str.ofNat n ++ text " " ++ v := by
  intro keeps
  have kept := keeps asciiTables (text "Revenue of") (text "in total.") 1234567890
    (by decide) (by decide) (by decide) (by decide)
  revert kept
  decide

end PiiScrubber
