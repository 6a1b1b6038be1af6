-- SUMMARY: What the scrubber of log records leaves in a string: no token and no key, and an address or a number only beside a key that was taken out.
import DealScreening.Observability.Bearer

/-!
# What is left in a scrubbed string

The three address patterns ask for word boundaries, and neither their replacements nor that of
a bearer token bring a match. The two key patterns ask for none: a number that a key was glued
to comes to light when the key is taken out.
-/

namespace LogScrubber

open Python Python.Re PiiScrubber

section
variable [ReTables] {s x : Str}

/-- The text after the substitution of addresses and bearer tokens. -/
def beforeKeys (s : Str) : Str := sub (find bearer) (fun _ => bearerMarker) (applyAll addresses s)

/-- The texts that the substitution of keys leaves between the keys. -/
def betweenKeys (s : Str) : List Str := (outside (find skToken) s).flatMap (outside (find awsKey))

theorem scrubValue_eq (s : Str) : scrubValue s =
    sub (find awsKey) (fun _ => marker) (sub (find skToken) (fun _ => marker) (beforeKeys s)) := rfl

-- ---------------------------------------------------------------------------
-- The patterns
-- ---------------------------------------------------------------------------

omit [ReTables] in
theorem asciiLower_cases (c : Nat) :
    asciiLower c = c ∨ (0x41 ≤ c ∧ c ≤ 0x5A ∧ asciiLower c = c + 0x20) := by
  unfold asciiLower
  split
  · next h => exact .inr ⟨h.1, h.2, rfl⟩
  · exact .inl rfl

omit [ReTables] in
/-- A class that takes the upper-case letters with their lower-case forms does not look at case. -/
theorem class_lower {p : Nat → Bool} (h : ∀ c, 0x41 ≤ c → c ≤ 0x5A → p (c + 0x20) = p c) (c : Nat) :
    p (asciiLower c) = p c := by
  rcases asciiLower_cases c with hc | ⟨hlow, hhigh, hc⟩
  · rw [hc]
  · rw [hc, h c hlow hhigh]

theorem wall_redacted : ∀ rule ∈ addresses, Wall rule.re redacted := by
  intro rule hrule
  have hwalls : ∀ rule ∈ constantPatterns, Wall rule.re redacted := wall_of_marker (by decide)
  simp only [constantPatterns, addresses, List.mem_cons, List.not_mem_nil, or_false, constant] at hwalls hrule
  rcases hrule with rfl | rfl | rfl
  · exact hwalls (constant email "EMAIL_REDACTED" (Nat.succ_pos 5) rfl) (.inr (.inl rfl))
  · exact hwalls (constant ssn "SSN_REDACTED" (Nat.succ_pos 10) rfl) (.inl rfl)
  · exact hwalls (constant phone "PHONE_REDACTED" (Nat.succ_pos 9) rfl) (.inr (.inr (.inl rfl)))

theorem bounded_addresses : ∀ rule ∈ addresses, Bounded rule.re := by
  simp only [addresses, List.forall_mem_cons, constant]
  exact ⟨bounded_bounded _, bounded_bounded _, bounded_bounded _, by simp⟩

/-- None of them looks at case. -/
theorem invariant_addresses : ∀ rule ∈ addresses, Invariant asciiLower rule.re := by
  have hletter : ∀ c, 0x41 ≤ c → c ≤ 0x5A → isAsciiLetter (c + 0x20) = true ∧ isAsciiLetter c = true := by
    intro c hlow hhigh
    simp only [isAsciiLetter, Bool.or_eq_true, Bool.and_eq_true, decide_eq_true_eq]
    omega
  have hdecimal : ∀ c, isDecimal (asciiLower c) = isDecimal c := class_lower fun c hlow hhigh => by
    rw [isDecimal, isDecimal, if_pos (by omega), if_pos (by omega), isDigit, isDigit, Bool.eq_iff_iff]
    simp only [Bool.and_eq_true, decide_eq_true_eq]
    omega
  have hword : ∀ c, isWord (asciiLower c) = isWord c := class_lower fun c hlow hhigh => by
    rw [isWord, isWord, if_pos (by omega), if_pos (by omega), (hletter c hlow hhigh).1,
      (hletter c hlow hhigh).2]
    rfl
  have hlocal : ∀ c, isLocalChar (asciiLower c) = isLocalChar c := class_lower fun c hlow hhigh => by
    simp [isLocalChar, isDomainChar, hletter c hlow hhigh]
  have hdomain : ∀ c, isDomainChar (asciiLower c) = isDomainChar c := class_lower fun c hlow hhigh => by
    simp [isDomainChar, hletter c hlow hhigh]
  have htop : ∀ c, isTopLevelChar (asciiLower c) = isTopLevelChar c := class_lower fun c hlow hhigh => by
    simp [isTopLevelChar, hletter c hlow hhigh]
  have hphone : ∀ c, isPhoneSeparator (asciiLower c) = isPhoneSeparator c :=
    class_lower fun c hlow hhigh => by
      rw [Bool.eq_iff_iff]
      simp only [isPhoneSeparator, isSpace, Bool.or_eq_true, Bool.and_eq_true, beq_iff_eq, decide_eq_true_eq]
      omega
  have hchar : ∀ d : Char, d.toNat < 0x41 → ∀ c, (asciiLower c == d.toNat) = (c == d.toNat) := by
    intro d hd
    refine @class_lower (· == d.toNat) fun c hlow hhigh => ?_
    rw [Bool.eq_iff_iff]
    simp only [beq_iff_eq]
    omega
  have hnone : ∀ c : Nat, True := fun _ => trivial
  simp only [addresses, List.forall_mem_cons, constant, email, ssn, phone, phoneBody, bounded, all,
    List.foldr_cons, List.foldr_nil, Re.char, Re.one, Re.times, Re.empty, Invariant]
  refine ⟨⟨hword, ⟨hlocal, hchar '@' (by decide), hdomain, hchar '.' (by decide), htop, hnone⟩, hword⟩,
    ⟨hword, ⟨hdecimal, hchar '-' (by decide), hdecimal, hchar '-' (by decide), hdecimal, hnone⟩, hword⟩,
    ⟨hword, ⟨⟨hchar '+' (by decide), hchar '1' (by decide), hphone, hnone⟩, hchar '(' (by decide), hdecimal,
      hchar ')' (by decide), hphone, hdecimal, hphone, hdecimal, hnone⟩, hword⟩, by simp⟩

theorem blank_addresses : ∀ rule ∈ addresses, rule.re.final 0x20 = false := by
  simp only [addresses, List.forall_mem_cons, constant]
  refine ⟨rfl, rfl, ?_, by simp⟩
  rw [phone, final_bounded]
  exact phoneBody_final rfl

/-- A key is longer than what stands between the brackets. -/
theorem wall_of_long {r : Re} (hopening : r.takes 0x5B = false) (hclosing : r.takes 0x5D = false)
    (hlong : redacted.length < r.minLength) : Wall r redacted := by
  refine ⟨hopening, hclosing, ?_, Nat.lt_of_le_of_lt (Nat.zero_le _) hlong⟩
  rintro ⟨a, w, b, hsplit, haccepts⟩
  have hle := haccepts.minLength_le
  rw [hsplit, List.length_append, List.length_append] at hlong
  omega

theorem wall_skToken : Wall skToken redacted := wall_of_long rfl rfl (by decide)

theorem wall_awsKey : Wall awsKey redacted := wall_of_long rfl rfl (by decide)

/-! ## After the addresses and the bearer tokens -/

/-- No address matches any more. -/
theorem absent_beforeKeys (s : Str) : ∀ rule ∈ addresses, Absent rule.re (beforeKeys s) := by
  intro rule hrule
  have hnone : Absent rule.re (applyAll addresses s) := by
    refine absent_applyAll (bounded_addresses rule hrule) (fun other hother => ?_) (.inr ⟨rule, hrule, rfl⟩)
    refine ⟨bounded_addresses other hother, redacted, ?_, wall_redacted rule hrule⟩
    simp only [addresses, List.mem_cons, List.not_mem_nil, or_false, constant] at hother
    rcases hother with rfl | rfl | rfl <;> rfl
  exact absent_glue (bounded_addresses rule hrule) (invariant_addresses rule hrule)
    (blank_addresses rule hrule) (wall_redacted rule hrule)
    (cut_cuts (finds_find bearer) (Nat.succ_pos 7)) (.inl rfl) hnone

theorem settled_beforeKeys (s : Str) : Settled (beforeKeys s) :=
  settled_glue (cut_cuts (finds_find bearer) (Nat.succ_pos 7))

/-! ## After the keys -/

/-- A pattern matches after the last two substitutions when it matches in a text between the
    keys. -/
theorem absent_scrubValue {q : Re} (hwall : Wall q redacted) :
    Absent q (scrubValue s) ↔ ∀ x ∈ betweenKeys (beforeKeys s), Absent q x := by
  have hsub : sub (find skToken) (fun _ => marker) (beforeKeys s) =
      [] ++ fill marker (marks (fun _ => [none]) (cuts (find skToken) 0 none (beforeKeys s))) := by
    rw [List.nil_append, fill_marks, sub]
    simp [fill]
  rw [scrubValue_eq, hsub, marker, absent_sub_fill hwall wall_awsKey, segments_marks]
  simp only [absent_sub hwall, betweenKeys, List.forall_mem_flatMap]
  rfl

/-- The texts between the keys are parts of the text. -/
theorem infix_of_between (hx : x ∈ betweenKeys s) : x <:+: s := by
  obtain ⟨y, hy, hbetween⟩ := List.mem_flatMap.1 hx
  clear hx
  obtain ⟨a, b, rfl, -⟩ := mem_outside (finds_find skToken) wall_skToken.nonempty hy
  obtain ⟨c, d, rfl, -⟩ := mem_outside (finds_find awsKey) wall_awsKey.nonempty hbetween
  exact ⟨a ++ c, d ++ b, by simp⟩

theorem absent_keys (s : Str) : Absent skToken (scrubValue s) ∧ Absent awsKey (scrubValue s) := by
  rw [absent_scrubValue wall_skToken, absent_scrubValue wall_awsKey]
  constructor
  · intro x hx
    obtain ⟨y, hy, hx⟩ := List.mem_flatMap.1 hx
    obtain ⟨a, b, hsplit, -⟩ := mem_outside (finds_find awsKey) wall_awsKey.nonempty hx
    refine (absent_outside_free (finds_find skToken) wall_skToken.nonempty rfl hy).of_part rfl ?_
    exact ⟨a, b, hsplit.symm⟩
  · intro x hx
    obtain ⟨y, -, hx⟩ := List.mem_flatMap.1 hx
    exact absent_outside_free (finds_find awsKey) wall_awsKey.nonempty rfl hx

theorem settled_scrubValue (s : Str) : Settled (scrubValue s) := by
  have hspace : ∀ c, isSpace c = true → skToken.takes c = false ∧ awsKey.takes c = false := by
    intro c hc
    simp only [isSpace, Bool.or_eq_true, Bool.and_eq_true, beq_iff_eq, decide_eq_true_eq] at hc
    rw [Bool.eq_false_iff, Bool.eq_false_iff]
    simp only [skToken, awsKey, all, List.foldr_cons, List.foldr_nil, Re.char, Re.one, Re.times, Re.empty,
      Re.takes, isAlnum, isKeyChar, isAsciiLetter, isDigit, ne_eq, Bool.or_eq_true, Bool.and_eq_true,
      beq_iff_eq, decide_eq_true_eq, Bool.false_eq_true, or_false]
    have hchars : 's'.toNat = 0x73 ∧ 'k'.toNat = 0x6B ∧ '-'.toNat = 0x2D ∧ 'A'.toNat = 0x41 ∧
        'K'.toNat = 0x4B ∧ 'I'.toNat = 0x49 := by decide
    omega
  refine settled_sub_key rfl (fun c hc => (hspace c hc).2) (by decide)
    (cut_cuts (finds_find awsKey) wall_awsKey.nonempty) ?_
  exact settled_sub_key rfl (fun c hc => (hspace c hc).1) (by decide)
    (cut_cuts (finds_find skToken) wall_skToken.nonempty) (settled_beforeKeys s)

/-! ## Where something is left -/

/-- A pattern without a bracket matches no replacement. -/
theorem matches_iff {r : Re} (hopening : r.takes 0x5B = false) (hpos : 0 < r.minLength) :
    (∀ m ∈ finditer (find r) s, m.text ∈ patterns.map Prod.snd) ↔ Absent r s := by
  have hbracket : ∀ t ∈ patterns.map Prod.snd, 0x5B ∈ t := by
    simp [patterns, addresses, tokens, bearerMarker, marker, bracketed]
  rw [absent_iff (finds_find r) hpos]
  constructor
  · intro hall
    refine List.eq_nil_iff_forall_not_mem.2 fun p hp => ?_
    have hmem := hbracket _ (hall p.1 (List.mem_map_of_mem hp))
    have hcut : Cut (find r) none s (cuts (find r) 0 none s) := cut_cuts (finds_find r) hpos
    obtain ⟨a, t, -, hfound⟩ := hcut.mem_found hp
    obtain ⟨t, -, haccepts⟩ := (finds_find r).accepts hfound
    rw [haccepts.takes _ hmem] at hopening
    cases hopening
  · intro hnone m hm
    rw [finditer, hnone] at hm
    cases hm

/-- A scrubbed string holds no match but the replacements unless an address or a number stands at
    an end of a text between the keys. -/
theorem scrubbed_scrubValue_iff (s : Str) : Scrubbed (scrubValue s) ↔
    ∀ x ∈ betweenKeys (beforeKeys s), ∀ rule ∈ addresses, ¬ TouchesEnd rule.re x := by
  have hends : ∀ rule ∈ addresses, (Absent rule.re (scrubValue s) ↔
      ∀ x ∈ betweenKeys (beforeKeys s), ¬ TouchesEnd rule.re x) := by
    intro rule hrule
    rw [absent_scrubValue (wall_redacted rule hrule)]
    exact forall₂_congr fun x hx =>
      absent_part_iff (absent_beforeKeys s rule hrule) (infix_of_between hx)
  have hfound : ∀ rule ∈ addresses, ((∀ m ∈ finditer (find rule.re) (scrubValue s),
      m.text ∈ patterns.map Prod.snd) ↔ Absent rule.re (scrubValue s)) := fun rule hrule =>
    matches_iff (wall_redacted rule hrule).opening (wall_redacted rule hrule).nonempty
  constructor
  · intro hscrubbed x hx rule hrule
    refine (hends rule hrule).1 ((hfound rule hrule).1 ?_) x hx
    exact hscrubbed (rule.re, marker) (List.mem_append_left _ (List.mem_map_of_mem hrule))
  · intro hnone p hp
    rcases List.mem_append.1 hp with haddress | htoken
    · obtain ⟨rule, hrule, rfl⟩ := List.mem_map.1 haddress
      exact (hfound rule hrule).2 ((hends rule hrule).2 fun x hx => hnone x hx rule hrule)
    · simp only [tokens, List.mem_cons, List.not_mem_nil, or_false] at htoken
      rcases htoken with rfl | rfl | rfl
      · intro m hm
        rw [finditer_settled (settled_scrubValue s) hm]
        simp [patterns, tokens]
      · exact (matches_iff wall_skToken.opening wall_skToken.nonempty).2 (absent_keys s).1
      · exact (matches_iff wall_awsKey.opening wall_awsKey.nonempty).2 (absent_keys s).2

end

end LogScrubber
