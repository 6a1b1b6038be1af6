-- SUMMARY: `json.loads` reads back what `json.dumps` writes.
import DealScreening.Python.JsonDump

/-!
# Reading JSON back

What is read is the value that was written, except that two adjacent surrogates that make
up a pair are read as one character, and that keys which become equal by that are one key.
-/

namespace Python.Json

/-! ## What is read back -/

/-- A high surrogate takes the low surrogate that follows it. -/
def consPoint (c : Nat) : Str → Str
  | [] => [c]
  | low :: s => if isHigh c && isLow low then joinSurrogates c low :: s else c :: low :: s

def joinPairs (s : Str) : Str := s.foldr consPoint []

/-- There is one `NaN`. -/
def rereadFloat (x : Float) : Float :=
  if x.isNaN then nan
  else if x.isInf then (if x < 0 then -inf else inf)
  else x

mutual

/-- The value that is read where this one was written. -/
def reread : Json → Json
  | .float x => .float (rereadFloat x)
  | .str s => .str (joinPairs s)
  | .list items => .list (rereadItems items)
  | .dict entries => .dict (rereadEntries [] entries)
  | v => v

def rereadItems : List Json → List Json
  | [] => []
  | v :: items => reread v :: rereadItems items

/-- Entries that are read after `seen`. -/
def rereadEntries (seen : List (Str × Json)) : List (Str × Json) → List (Str × Json)
  | [] => seen
  | (key, v) :: entries => rereadEntries (setItem seen (joinPairs key) (reread v)) entries

end

/-- The characters of a `str`. -/
def CodePoints (s : Str) : Prop := ∀ c ∈ s, c < 0x110000

instance (s : Str) : Decidable (CodePoints s) := inferInstanceAs (Decidable (∀ c ∈ s, _))

/-- The `repr` of a finite float is a numeral of it, as the language promises. -/
def FloatReads (x : Float) : Prop :=
  x.isNaN = true ∨ x.isInf = true ∨ scanNumber (floatRepr x) = .ok (.float x, [])

mutual

/-- A value as Python can hold it. -/
def Held : Json → Prop
  | .float x => FloatReads x
  | .str s => CodePoints s
  | .list items => HeldItems items
  | .dict entries => HeldEntries entries
  | _ => True

def HeldItems : List Json → Prop
  | [] => True
  | v :: items => Held v ∧ HeldItems items

def HeldEntries : List (Str × Json) → Prop
  | [] => True
  | (key, v) :: entries => CodePoints key ∧ Held v ∧ HeldEntries entries

end

/-! ## Strings -/

theorem joinPairs_cons (c : Nat) (s : Str) : joinPairs (c :: s) = consPoint c (joinPairs s) := rfl

/-- A string without surrogates is read as it is. -/
theorem joinPairs_clean {s : Str} (h : ∀ c ∈ s, isSurrogate c = false) : joinPairs s = s := by
  induction s with
  | nil => rfl
  | cons c s ih =>
    have hhigh : isHigh c = false := by
      have hc := h c (List.mem_cons_self ..)
      simp only [isSurrogate, isHigh, Bool.and_eq_false_iff, decide_eq_false_iff_not] at hc ⊢
      omega
    rw [joinPairs_cons, ih fun d hd => h d (List.mem_cons_of_mem c hd)]
    cases s with
    | nil => rfl
    | cons d s => simp [consPoint, hhigh]

theorem scanUnits_escape {c : Nat} (h : c < 0x10000) (s : Str) :
    scanUnits (text "\\u" ++ Str.hex 4 c ++ s) = consScan (true, c) (scanUnits s) := by
  obtain ⟨p, q, r, t, hhex, hvalue⟩ := hex4_hex h
  rw [hhex]
  change scanUnits (0x5C :: 0x75 :: p :: q :: r :: t :: s) = _
  rw [scanUnits]
  simp only [hvalue]

theorem scanUnits_letter {letter c : Nat} (hu : letter ≠ 0x75) (h : simpleEscape letter = some c)
    (s : Str) : scanUnits (0x5C :: letter :: s) = consScan (false, c) (scanUnits s) := by
  rw [scanUnits]
  · simp only [h]
  · intros
    simp_all

theorem scanUnits_plain {c : Nat} (h : 0x20 ≤ c ∧ c ≠ 0x22 ∧ c ≠ 0x5C) (s : Str) :
    scanUnits (c :: s) = consScan (false, c) (scanUnits s) := by
  rw [scanUnits, if_neg (by omega)]
  · exact h.2.1
  · rintro _ _ _ _ _ rfl
    exact absurd rfl h.2.2
  · intro _ _ hbackslash _
    exact h.2.2 hbackslash

/-- The two halves of a pair are joined to the character they stand for. -/
theorem consScan_halves {c : Nat} (hlow : 0x10000 ≤ c) (hhigh : c < 0x110000)
    (r : Scan (List Unit16)) :
    consScan (true, 0xD800 + (c - 0x10000) / 0x400)
      (consScan (true, 0xDC00 + (c - 0x10000) % 0x400) r) = consScan (false, c) r := by
  have hfirst : isHigh (0xD800 + (c - 0x10000) / 0x400) = true := by
    simp only [isHigh, Bool.and_eq_true, decide_eq_true_eq]
    omega
  have hsecond : isLow (0xDC00 + (c - 0x10000) % 0x400) = true := by
    simp only [isLow, Bool.and_eq_true, decide_eq_true_eq]
    omega
  have hnot : isHigh (0xDC00 + (c - 0x10000) % 0x400) = false := by
    simp only [isHigh, Bool.and_eq_false_iff, decide_eq_false_iff_not]
    omega
  have hjoin : joinSurrogates (0xD800 + (c - 0x10000) / 0x400) (0xDC00 + (c - 0x10000) % 0x400) = c := by
    unfold joinSurrogates
    omega
  cases r with
  | error e => rfl
  | ok r =>
    obtain ⟨units, rest⟩ := r
    simp only [consScan, Except.map, consUnit_of_not_high hnot]
    simp [consUnit, hfirst, hsecond, hjoin]

/-- What is written for a character is read as one, and a surrogate as an escape. -/
theorem scanUnits_asciiEscape {c : Nat} (h : c < 0x110000) :
    ∃ b, (isSurrogate c = true → b = true) ∧
      ∀ s, scanUnits (asciiEscape c ++ s) = consScan (b, c) (scanUnits s) := by
  have hplain : c < 0x80 → isSurrogate c = true → false = true := by
    intro hlt hsur
    rw [isSurrogate_ascii hlt] at hsur
    exact hsur
  unfold asciiEscape
  split_ifs with h0 h1 h2 h3 h4 h5 h6 h7
  · exact ⟨false, hplain (by omega), scanUnits_plain (by omega)⟩
  · refine ⟨false, hplain (by omega), ?_⟩
    rcases h1 with rfl | rfl
    · exact scanUnits_letter (by decide) rfl
    · exact scanUnits_letter (by decide) rfl
  · subst h2
    exact ⟨false, hplain (by omega), scanUnits_letter (by decide) rfl⟩
  · subst h3
    exact ⟨false, hplain (by omega), scanUnits_letter (by decide) rfl⟩
  · subst h4
    exact ⟨false, hplain (by omega), scanUnits_letter (by decide) rfl⟩
  · subst h5
    exact ⟨false, hplain (by omega), scanUnits_letter (by decide) rfl⟩
  · subst h6
    exact ⟨false, hplain (by omega), scanUnits_letter (by decide) rfl⟩
  · exact ⟨true, fun _ => rfl, scanUnits_escape h7⟩
  · refine ⟨false, ?_, fun s => ?_⟩
    · intro hsur
      have := isSurrogate_iff.mp hsur
      omega
    · rw [List.append_assoc, scanUnits_escape (by omega), scanUnits_escape (by omega)]
      exact consScan_halves (by omega) h _

theorem le_joinSurrogates (high low : Nat) : 0x10000 ≤ joinSurrogates high low := by
  unfold joinSurrogates
  rw [Nat.add_assoc]
  exact Nat.le_add_right ..

theorem joinSurrogates_not_surrogate (high low : Nat) :
    isSurrogate (joinSurrogates high low) = false := by
  have hle := le_joinSurrogates high low
  generalize joinSurrogates high low = c at hle
  rw [← Bool.not_eq_true, isSurrogate_iff]
  omega

/-- The units of a string in which every surrogate was escaped. -/
def Escaped (units : List Unit16) : Prop := ∀ u ∈ units, isSurrogate u.2 = true → u.1 = true

theorem consUnit_escaped {b : Bool} {c : Nat} {units : List Unit16}
    (hc : isSurrogate c = true → b = true) (hunits : Escaped units) :
    Escaped (consUnit (b, c) units) ∧
      (consUnit (b, c) units).map Prod.snd = consPoint c (units.map Prod.snd) := by
  have hcons : Escaped ((b, c) :: units) := by
    intro u hu
    rcases List.mem_cons.mp hu with rfl | hu
    · exact hc
    · exact hunits u hu
  by_cases hhigh : isHigh c = true
  case neg =>
    rw [Bool.not_eq_true] at hhigh
    rw [consUnit_of_not_high hhigh]
    refine ⟨hcons, ?_⟩
    cases units with
    | nil => rfl
    | cons u units => simp [consPoint, hhigh]
  have hsur : ∀ d, isHigh d = true ∨ isLow d = true → isSurrogate d = true := by
    intro d hd
    simp only [isHigh, isLow, isSurrogate, Bool.and_eq_true, decide_eq_true_eq] at hd ⊢
    omega
  obtain rfl := hc (hsur c (.inl hhigh))
  cases units with
  | nil => exact ⟨hcons, rfl⟩
  | cons u units =>
    obtain ⟨b', low⟩ := u
    by_cases hlow : isLow low = true
    · have hb' : b' = true := hunits (b', low) (List.mem_cons_self ..) (hsur low (.inr hlow))
      subst hb'
      refine ⟨?_, by simp [consUnit, consPoint, hhigh, hlow]⟩
      intro u hu hu'
      simp only [consUnit, hhigh, hlow, Bool.and_self, if_true] at hu
      rcases List.mem_cons.mp hu with rfl | hu
      · exact absurd hu' (by simp [joinSurrogates_not_surrogate])
      · exact hunits u (List.mem_cons_of_mem _ hu) hu'
    · rw [Bool.not_eq_true] at hlow
      have hplain : consUnit (true, c) ((b', low) :: units) = (true, c) :: (b', low) :: units := by
        cases b' <;> simp [consUnit, hlow]
      rw [hplain]
      exact ⟨hcons, by simp [consPoint, hlow]⟩

theorem scanString_quote {s : Str} (h : CodePoints s) (rest : Str) :
    scanString (s.flatMap asciiEscape ++ 0x22 :: rest) = .ok (joinPairs s, rest) := by
  have hunits : ∃ units, Escaped units ∧ units.map Prod.snd = joinPairs s ∧
      scanUnits (s.flatMap asciiEscape ++ 0x22 :: rest) = .ok (units, rest) := by
    induction s with
    | nil => exact ⟨[], nofun, rfl, rfl⟩
    | cons c s ih =>
      obtain ⟨units, hescaped, hpoints, hscan⟩ := ih fun d hd => h d (List.mem_cons_of_mem c hd)
      obtain ⟨b, hb, hread⟩ := scanUnits_asciiEscape (h c (List.mem_cons_self ..))
      obtain ⟨hescaped', hpoints'⟩ := consUnit_escaped hb hescaped
      refine ⟨consUnit (b, c) units, hescaped', ?_, ?_⟩
      · rw [hpoints', hpoints, joinPairs_cons]
      · rw [List.flatMap_cons, List.append_assoc, hread, hscan]
        rfl
  obtain ⟨units, -, hpoints, hscan⟩ := hunits
  rw [scanString, hscan, ← hpoints]
  rfl

/-! ## Numbers

A numeral is read the same when a comma or a closing bracket follows it. -/

/-- Nothing follows, or a comma or a closing bracket. -/
def Delimited (rest : Str) : Prop := ∀ c ∈ rest.head?, c = 0x2C ∨ c = 0x5D ∨ c = 0x7D

theorem delimited_nil : Delimited [] := nofun

theorem delimited_cons {c : Nat} {rest : Str} (h : c = 0x2C ∨ c = 0x5D ∨ c = 0x7D) :
    Delimited (c :: rest) := by
  intro d hd
  obtain rfl := Option.mem_some_iff.mp hd
  exact h

/-- The digits after a decimal point at the front. -/
def fractionDigits : Str → Str
  | 0x2E :: s => s.takeWhile isDigit
  | _ => []

theorem fractionDigits_cons {c : Nat} {s : Str} (h : c ≠ 0x2E) : fractionDigits (c :: s) = [] := by
  unfold fractionDigits
  split
  · simp_all
  · rfl

theorem fractionDigits_length {s : Str} (h : fractionDigits s ≠ []) :
    (fractionDigits s).length + 1 ≤ s.length := by
  cases s with
  | nil => exact absurd rfl h
  | cons c s =>
    by_cases hpoint : c = 0x2E
    · subst hpoint
      exact Nat.succ_le_succ (List.takeWhile_prefix isDigit).length_le
    · exact absurd (fractionDigits_cons hpoint) h

/-- `scanDigits`, with the digits of the fraction under a name. -/
theorem scanDigits_eq (neg : Bool) (s : Str) :
    scanDigits neg s =
      (let whole := if s.head? = some 0x30 then [0x30] else s.takeWhile isDigit
      let rest := s.drop whole.length
      let fraction := fractionDigits rest
      let afterFraction := if fraction = [] then rest else rest.drop (fraction.length + 1)
      if whole = [] then fail
      else match splitExponent afterFraction with
        | some (exp, r) => .ok (.float (decimalFloat neg whole fraction exp), r)
        | none =>
          if fraction ≠ [] then .ok (.float (decimalFloat neg whole fraction 0), afterFraction)
          else if maxStrDigits < whole.length then .error .valueError
          else .ok (.int (if neg then -(digitsValue whole : Int) else digitsValue whole), rest)) := rfl

section
variable {rest : Str} (hrest : Delimited rest)
include hrest

theorem takeWhile_delimited (s : Str) : (s ++ rest).takeWhile isDigit = s.takeWhile isDigit := by
  induction s with
  | nil =>
    cases rest with
    | nil => rfl
    | cons c rest =>
      obtain rfl | rfl | rfl := hrest c rfl <;> rfl
  | cons c s ih =>
    rw [List.cons_append, List.takeWhile_cons, List.takeWhile_cons, ih]

theorem dropWhile_delimited (s : Str) : (s ++ rest).dropWhile isDigit = s.dropWhile isDigit ++ rest := by
  induction s with
  | nil =>
    cases rest with
    | nil => rfl
    | cons c rest =>
      obtain rfl | rfl | rfl := hrest c rfl <;> rfl
  | cons c s ih =>
    rw [List.cons_append, List.dropWhile_cons, List.dropWhile_cons, ih]
    split <;> rfl

theorem splitSign_delimited (s : Str) :
    splitSign (s ++ rest) = ((splitSign s).1, (splitSign s).2 ++ rest) := by
  cases s with
  | nil =>
    cases rest with
    | nil => rfl
    | cons c rest =>
      obtain rfl | rfl | rfl := hrest c rfl <;> rfl
  | cons c s =>
    by_cases hminus : c = 0x2D
    · subst hminus
      rfl
    · by_cases hplus : c = 0x2B
      · subst hplus
        rfl
      · have hplain : ∀ t : Str, splitSign (c :: t) = (false, c :: t) := by
          intro t
          unfold splitSign
          split
          · simp_all
          · simp_all
          · rfl
        rw [List.cons_append, hplain, hplain]
        rfl

theorem splitExponent_delimited (s : Str) :
    splitExponent (s ++ rest) = (splitExponent s).map fun (exp, r) => (exp, r ++ rest) := by
  cases s with
  | nil =>
    cases rest with
    | nil => rfl
    | cons c rest =>
      obtain rfl | rfl | rfl := hrest c rfl <;> simp [splitExponent]
  | cons e s =>
    simp only [List.cons_append, splitExponent, splitSign_delimited hrest,
      takeWhile_delimited hrest, dropWhile_delimited hrest]
    split <;> rfl

theorem fractionDigits_delimited (s : Str) : fractionDigits (s ++ rest) = fractionDigits s := by
  cases s with
  | nil =>
    cases rest with
    | nil => rfl
    | cons c rest =>
      obtain rfl | rfl | rfl := hrest c rfl <;> rfl
  | cons c s =>
    by_cases hpoint : c = 0x2E
    · subst hpoint
      exact takeWhile_delimited hrest s
    · rw [List.cons_append, fractionDigits_cons hpoint, fractionDigits_cons hpoint]

theorem scanDigits_delimited {neg : Bool} {s r : Str} {v : Json}
    (h : scanDigits neg s = .ok (v, r)) : scanDigits neg (s ++ rest) = .ok (v, r ++ rest) := by
  have hne : s ≠ [] := by
    rintro rfl
    cases h
  have hhead : (s ++ rest).head? = s.head? := by
    cases s with
    | nil => exact absurd rfl hne
    | cons c s => rfl
  rw [scanDigits_eq] at h ⊢
  dsimp only at h ⊢
  rw [hhead, takeWhile_delimited hrest]
  generalize hwhole : (if s.head? = some 0x30 then [0x30] else s.takeWhile isDigit) = whole at h ⊢
  have hle : whole.length ≤ s.length := by
    rw [← hwhole]
    split
    · exact List.length_pos_iff.mpr hne
    · exact (List.takeWhile_prefix isDigit).length_le
  rw [List.drop_append_of_le_length hle]
  generalize s.drop whole.length = t at h ⊢
  rw [fractionDigits_delimited hrest]
  have hafter : (if fractionDigits t = [] then t ++ rest
      else (t ++ rest).drop ((fractionDigits t).length + 1)) =
      (if fractionDigits t = [] then t else t.drop ((fractionDigits t).length + 1)) ++ rest := by
    split
    · rfl
    · rename_i hsome
      exact List.drop_append_of_le_length (fractionDigits_length hsome)
  rw [hafter, splitExponent_delimited hrest]
  by_cases hempty : whole = []
  · rw [if_pos hempty] at h
    cases h
  rw [if_neg hempty] at h ⊢
  split at h
  · rename_i exp r' hexp
    cases h
    rw [hexp]
    rfl
  · rename_i hexp
    rw [hexp]
    simp only [Option.map_none]
    split at h
    · rename_i hfr
      cases h
      rw [if_pos hfr, if_neg hfr]
    · rename_i hfr
      rw [if_neg hfr]
      split at h
      · cases h
      · rename_i hlimit
        cases h
        rw [if_neg hlimit]

theorem scanNumber_delimited {s r : Str} {v : Json} (h : scanNumber s = .ok (v, r)) :
    scanNumber (s ++ rest) = .ok (v, r ++ rest) := by
  cases s with
  | nil => cases h
  | cons c s =>
    by_cases hminus : c = 0x2D
    · subst hminus
      exact scanDigits_delimited hrest h
    · have hplain : ∀ t : Str, scanNumber (c :: t) = scanDigits false (c :: t) := by
        intro t
        unfold scanNumber
        split
        · simp_all
        · rfl
      rw [hplain] at h
      rw [List.cons_append, hplain]
      exact scanDigits_delimited hrest h

end

/-- A text that begins like a numeral. -/
def NumeralStart (s : Str) : Prop :=
  ∃ c t, s = c :: t ∧ (isDigit c = true ∨ c = 0x2D ∧ ∃ d u, t = d :: u ∧ isDigit d = true)

theorem scanDigits_start {neg : Bool} {s : Str} {r : Json × Str} (h : scanDigits neg s = .ok r) :
    ∃ c t, s = c :: t ∧ isDigit c = true := by
  cases s with
  | nil => cases h
  | cons c s =>
    refine ⟨c, s, rfl, ?_⟩
    by_contra hc
    have hzero : (c :: s).head? ≠ some 0x30 := by
      intro heq
      obtain rfl := Option.some.inj heq
      exact hc rfl
    rw [scanDigits_eq, if_neg hzero, List.takeWhile_cons_of_neg hc] at h
    cases h

theorem scanNumber_start {s : Str} {r : Json × Str} (h : scanNumber s = .ok r) : NumeralStart s := by
  unfold scanNumber at h
  split at h
  · rename_i s
    obtain ⟨d, u, rfl, hd⟩ := scanDigits_start h
    exact ⟨0x2D, d :: u, rfl, .inr ⟨rfl, d, u, rfl, hd⟩⟩
  · obtain ⟨c, t, rfl, hc⟩ := scanDigits_start h
    exact ⟨c, t, rfl, .inl hc⟩

/-- No name begins like a numeral. -/
theorem find_constants_numeral {s : Str} (h : NumeralStart s) :
    (constants.find? fun (name, _) => name.isPrefixOf s) = none := by
  have hnames : ∀ entry ∈ constants, ∃ c d name, entry.1 = c :: d :: name ∧ isDigit c = false ∧
      (c = 0x2D → isDigit d = false) := by
    simp [constants, text, isDigit]
  obtain ⟨c, t, rfl, hc⟩ := h
  rw [List.find?_eq_none]
  rintro ⟨name, v⟩ hentry hprefix
  obtain ⟨c', d', name', rfl, hc', hd'⟩ := hnames _ hentry
  obtain ⟨u, hu⟩ := List.isPrefixOf_iff_prefix.mp hprefix
  simp only [List.cons_append, List.cons.injEq] at hu
  obtain ⟨rfl, htail⟩ := hu
  rcases hc with hc | ⟨rfl, d, u', rfl, hd⟩
  · rw [hc] at hc'
    cases hc'
  · obtain ⟨rfl, -⟩ := List.cons.inj htail
    rw [hd' rfl] at hd
    cases hd

theorem scanLeaf_numeral {s : Str} (h : NumeralStart s) : scanLeaf s = scanNumber s := by
  have hfind := find_constants_numeral h
  obtain ⟨c, t, rfl, hc⟩ := h
  unfold scanLeaf
  split
  · rename_i hquote
    obtain ⟨rfl, -⟩ := List.cons.inj hquote
    rcases hc with hc | ⟨hc, -⟩ <;> cases hc
  · rw [hfind]

theorem digitsValue_ofNat (n : Nat) : digitsValue (Str.ofNat n) = n := by
  induction n using Nat.strongRecOn with
  | ind n ih =>
    rcases Nat.lt_or_ge n 10 with hlt | hge
    · have hall : ∀ n < 10, digitsValue (Str.ofNat n) = n := by decide
      exact hall n hlt
    · have hrest := ih (n / 10) (by omega)
      rw [digitsValue] at hrest
      rw [ofNat_append hge, digitsValue, List.foldl_append, hrest]
      simp only [List.foldl_cons, List.foldl_nil]
      omega

theorem scanDigits_ofNat (neg : Bool) (n : Nat) :
    scanDigits neg (Str.ofNat n) =
      if maxStrDigits < (Str.ofNat n).length then .error .valueError
      else .ok (.int (if neg then -(n : Int) else n), []) := by
  have hwhole : (if (Str.ofNat n).head? = some 0x30 then [0x30]
      else (Str.ofNat n).takeWhile isDigit) = Str.ofNat n := by
    rcases Nat.eq_zero_or_pos n with rfl | hpos
    · rfl
    · have hhead : (Str.ofNat n).head? ≠ some 0x30 := by
        have hlow := Nat.pow_log_le_self 10 (by omega : n ≠ 0)
        have hdiv : 0 < n / 10 ^ Nat.log 10 n := Nat.div_pos hlow (Nat.pow_pos (by decide))
        rw [(ofNat_digits hlow (Nat.lt_pow_succ_log_self (by decide) n)).2]
        intro heq
        have := Option.some.inj heq
        omega
      rw [if_neg hhead, List.takeWhile_eq_self_iff]
      exact fun c hc => isDigit_ofNat hc
  rw [scanDigits_eq]
  dsimp only
  rw [hwhole, List.drop_length, if_neg (ofNat_ne_nil n), digitsValue_ofNat]
  rfl

/-! ## Leaves -/

/-- A text that begins with no blank and closes no array. -/
def Opens (s : Str) : Prop := ∃ c t, s = c :: t ∧ isJsonSpace c = false ∧ c ≠ 0x5D

theorem Opens.append {s : Str} (h : Opens s) (t : Str) : Opens (s ++ t) := by
  obtain ⟨c, u, rfl, hspace, hclose⟩ := h
  exact ⟨c, u ++ t, rfl, hspace, hclose⟩

theorem Opens.skipSpace {s : Str} (h : Opens s) : skipSpace s = s := by
  obtain ⟨c, u, rfl, hspace, -⟩ := h
  exact List.dropWhile_cons_of_neg (by simp [hspace])

theorem NumeralStart.opens {s : Str} (h : NumeralStart s) : Opens s := by
  obtain ⟨c, t, rfl, hc⟩ := h
  refine ⟨c, t, rfl, ?_⟩
  rcases hc with hc | ⟨rfl, -⟩
  · have hrange := digit_range hc
    constructor
    · simp only [isJsonSpace, Bool.or_eq_false_iff, beq_eq_false_iff_ne]
      omega
    · omega
  · decide

theorem NumeralStart.append {s : Str} (h : NumeralStart s) (t : Str) : NumeralStart (s ++ t) := by
  obtain ⟨c, u, rfl, hc⟩ := h
  refine ⟨c, u ++ t, rfl, hc.imp_right ?_⟩
  rintro ⟨rfl, d, w, rfl, hd⟩
  exact ⟨rfl, d, w ++ t, rfl, hd⟩

theorem scanNumber_dumpInt {n : Int} {s : Str} (h : dumpInt n = .ok s) :
    scanNumber s = .ok (.int n, []) := by
  unfold dumpInt at h
  split at h
  · cases h
  rename_i hlimit
  obtain rfl := Except.ok.inj h
  cases n with
  | ofNat n =>
    have hscan : scanNumber (Str.ofNat n) = scanDigits false (Str.ofNat n) := by
      cases hdigits : Str.ofNat n with
      | nil => rfl
      | cons c t =>
        have hc : isDigit c = true := isDigit_ofNat (hdigits ▸ List.mem_cons_self ..)
        unfold scanNumber
        split
        · rename_i hminus
          obtain ⟨rfl, -⟩ := List.cons.inj hminus
          cases hc
        · rfl
    change scanNumber (Str.ofNat n) = _
    rw [hscan, scanDigits_ofNat]
    exact if_neg hlimit
  | negSucc n =>
    change scanDigits true (Str.ofNat (n + 1)) = _
    rw [scanDigits_ofNat]
    exact if_neg hlimit

/-- A name of a float is read, whatever follows. -/
theorem scanLeaf_name {s : Str} {x : Float}
    (h : (s, x) ∈ [(text "NaN", nan), (text "Infinity", inf), (text "-Infinity", -inf)]) (rest : Str) :
    scanLeaf (s ++ rest) = .ok (.float x, rest) := by
  simp only [List.mem_cons, Prod.mk.injEq, List.not_mem_nil, or_false] at h
  rcases h with ⟨rfl, rfl⟩ | ⟨rfl, rfl⟩ | ⟨rfl, rfl⟩ <;> rfl

theorem scanLeaf_dumpFloat {x : Float} (h : FloatReads x) {rest : Str} (hrest : Delimited rest) :
    scanLeaf (dumpFloat x ++ rest) = .ok (.float (rereadFloat x), rest) := by
  unfold dumpFloat rereadFloat
  by_cases hnan : x.isNaN = true
  · rw [if_pos hnan, if_pos hnan]
    exact scanLeaf_name (by simp) rest
  rw [if_neg hnan, if_neg hnan]
  by_cases hinf : x.isInf = true
  · rw [if_pos hinf, if_pos hinf]
    split
    · exact scanLeaf_name (by simp) rest
    · exact scanLeaf_name (by simp) rest
  rw [if_neg hinf, if_neg hinf]
  have hreads : scanNumber (floatRepr x) = .ok (.float x, []) :=
    (h.resolve_left hnan).resolve_left hinf
  rw [scanLeaf_numeral ((scanNumber_start hreads).append rest), scanNumber_delimited hrest hreads]
  rfl

theorem scanOnce_leaf {s : Str} (h : ∃ c t, s = c :: t ∧ c ≠ 0x7B ∧ c ≠ 0x5B) (depth : Nat) :
    scanOnce depth s = scanLeaf s := by
  obtain ⟨c, t, rfl, hbrace, hbracket⟩ := h
  cases depth <;> unfold scanOnce <;> split <;> simp_all

/-! ## Arrays and objects -/

theorem NumeralStart.leaf {s : Str} (h : NumeralStart s) : ∃ c t, s = c :: t ∧ c ≠ 0x7B ∧ c ≠ 0x5B := by
  obtain ⟨c, t, rfl, hc⟩ := h
  refine ⟨c, t, rfl, ?_⟩
  rcases hc with hc | ⟨rfl, -⟩
  · have hrange := digit_range hc
    omega
  · decide

/-- What is written for a float begins with no blank and no bracket. -/
theorem dumpFloat_start {x : Float} (h : FloatReads x) :
    Opens (dumpFloat x) ∧ ∃ c t, dumpFloat x = c :: t ∧ c ≠ 0x7B ∧ c ≠ 0x5B := by
  unfold dumpFloat
  by_cases hnan : x.isNaN = true
  · rw [if_pos hnan]
    exact ⟨⟨_, _, rfl, by decide⟩, _, _, rfl, by decide⟩
  rw [if_neg hnan]
  by_cases hinf : x.isInf = true
  · rw [if_pos hinf]
    split
    · exact ⟨⟨_, _, rfl, by decide⟩, _, _, rfl, by decide⟩
    · exact ⟨⟨_, _, rfl, by decide⟩, _, _, rfl, by decide⟩
  rw [if_neg hinf]
  have hstart := scanNumber_start ((h.resolve_left hnan).resolve_left hinf)
  exact ⟨hstart.opens, hstart.leaf⟩

theorem quote_opens (s : Str) : Opens (quote s) := ⟨_, _, rfl, by decide⟩

theorem dumps_opens {depth : Nat} {v : Json} {s : Str} (h : dumps depth v = .ok s) (hv : Held v) :
    Opens s := by
  have hbracket : ∀ t : Str, Opens (text "[" ++ t) := fun t => ⟨_, t, rfl, by decide⟩
  have hbrace : ∀ t : Str, Opens (text "\x7b" ++ t) := fun t => ⟨_, t, rfl, by decide⟩
  cases v with
  | null =>
    cases h
    exact ⟨_, _, rfl, by decide⟩
  | bool b =>
    cases b <;>
    · cases h
      exact ⟨_, _, rfl, by decide⟩
  | int n => exact (scanNumber_start (scanNumber_dumpInt h)).opens
  | float x =>
    cases h
    exact (dumpFloat_start hv).1
  | str u =>
    cases h
    exact quote_opens u
  | list items =>
    cases depth with
    | zero => cases h
    | succ depth =>
      obtain ⟨parts, -, rfl⟩ := Except.map_eq_ok.mp h
      rw [List.append_assoc]
      exact hbracket _
  | dict entries =>
    cases depth with
    | zero => cases h
    | succ depth =>
      obtain ⟨parts, -, rfl⟩ := Except.map_eq_ok.mp h
      rw [List.append_assoc]
      exact hbrace _

/-- A separator of one character or more leaves a round for every part. -/
theorem length_le_join {sep : Str} (hsep : sep ≠ []) (parts : List Str) :
    parts.length ≤ (Str.join sep parts).length + 1 := by
  have hpos := List.length_pos_iff.mpr hsep
  unfold Str.join
  induction parts with
  | nil => simp
  | cons p parts ih =>
    cases parts with
    | nil => simp
    | cons q parts =>
      rw [List.intercalate_cons_cons]
      simp only [List.length_append, List.length_cons] at ih ⊢
      omega

theorem dumpItems_length {depth : Nat} {items : List Json} {parts : List Str}
    (h : dumpItems depth items = .ok parts) : parts.length = items.length := by
  induction items generalizing parts with
  | nil =>
    cases h
    rfl
  | cons v items ih =>
    obtain ⟨part, parts', -, hparts, rfl⟩ := dumpItems_cons.mp h
    rw [List.length_cons, List.length_cons, ih hparts]

theorem dumpEntries_length {depth : Nat} {entries : List (Str × Json)} {parts : List Str}
    (h : dumpEntries depth entries = .ok parts) : parts.length = entries.length := by
  induction entries generalizing parts with
  | nil =>
    cases h
    rfl
  | cons entry entries ih =>
    obtain ⟨part, parts', -, hparts, rfl⟩ := dumpEntries_cons.mp h
    rw [List.length_cons, List.length_cons, ih hparts]

/-- The text of a list that is not empty, up to its first separator. -/
theorem join_cons (part : Str) (parts : List Str) (close : Nat) (rest : Str) :
    Str.join (text ", ") (part :: parts) ++ close :: rest =
      part ++ (if parts = [] then close :: rest
        else 0x2C :: 0x20 :: (Str.join (text ", ") parts ++ close :: rest)) := by
  cases parts with
  | nil => simp [Str.join, List.intercalate]
  | cons q parts =>
    rw [if_neg (List.cons_ne_nil q parts), Str.join, Str.join, List.intercalate_cons_cons,
      List.append_assoc, List.append_assoc]
    rfl

/-- A name of JSON itself is read, whatever follows. -/
theorem scanOnce_name {s : Str} {v : Json}
    (h : (s, v) ∈ [(text "null", Json.null), (text "true", .bool true), (text "false", .bool false)])
    (depth : Nat) (rest : Str) : scanOnce depth (s ++ rest) = .ok (v, rest) := by
  simp only [List.mem_cons, Prod.mk.injEq, List.not_mem_nil, or_false] at h
  rcases h with ⟨rfl, rfl⟩ | ⟨rfl, rfl⟩ | ⟨rfl, rfl⟩ <;> cases depth <;> rfl

theorem skipSpace_opens {s : Str} (h : Opens s) : skipSpace (0x20 :: s) = s := h.skipSpace

theorem join_opens {part : Str} (h : Opens part) (parts : List Str) (close : Nat) (rest : Str) :
    Opens (Str.join (text ", ") (part :: parts) ++ close :: rest) := by
  rw [join_cons]
  exact h.append _

theorem scanMember_quote {scan : Str → Scan Json} {key : Str} (hkey : CodePoints key) {part : Str}
    (hpart : Opens part) (rest : Str) :
    scanMember scan (quote key ++ text ": " ++ part ++ rest) =
      (scan (part ++ rest)).map fun (v, rest) => ((joinPairs key, v), rest) := by
  have htext : quote key ++ text ": " ++ part ++ rest =
      0x22 :: (key.flatMap asciiEscape ++ 0x22 :: (0x3A :: 0x20 :: (part ++ rest))) := by
    simp [quote, text]
  rw [htext, scanMember, scanString_quote hkey]
  change (scan (skipSpace (0x20 :: (part ++ rest)))).map _ = _
  rw [skipSpace_opens (hpart.append rest)]

mutual

/-- What is written for a value is read as the value, before a comma or a closing bracket. -/
theorem scanOnce_dumps {depth : Nat} (v : Json) {s rest : Str} (h : dumps depth v = .ok s)
    (hv : Held v) (hrest : Delimited rest) : scanOnce depth (s ++ rest) = .ok (reread v, rest) := by
  match v with
  | .null =>
    cases h
    exact scanOnce_name (.head _) depth rest
  | .bool true =>
    cases h
    exact scanOnce_name (.tail _ (.head _)) depth rest
  | .bool false =>
    cases h
    exact scanOnce_name (.tail _ (.tail _ (.head _))) depth rest
  | .int n =>
    have hscan := scanNumber_dumpInt h
    have hstart := (scanNumber_start hscan).append rest
    rw [scanOnce_leaf hstart.leaf, scanLeaf_numeral hstart]
    exact scanNumber_delimited hrest hscan
  | .float x =>
    cases h
    obtain ⟨c, t, htext, hc⟩ := (dumpFloat_start hv).2
    rw [scanOnce_leaf ⟨c, t ++ rest, by rw [htext, List.cons_append], hc⟩]
    exact scanLeaf_dumpFloat hv hrest
  | .str u =>
    cases h
    have htext : quote u ++ rest = 0x22 :: (u.flatMap asciiEscape ++ 0x22 :: rest) := by simp [quote]
    rw [scanOnce_leaf ⟨_, _, htext, by decide⟩, htext, scanLeaf, scanString_quote hv]
    rfl
  | .list items =>
    cases depth with
    | zero => cases h
    | succ depth =>
      obtain ⟨parts, hparts, rfl⟩ := Except.map_eq_ok.mp h
      have htext : text "[" ++ Str.join (text ", ") parts ++ text "]" ++ rest =
          0x5B :: (Str.join (text ", ") parts ++ 0x5D :: rest) := by simp [text]
      rw [htext]
      change scanArray (scanOnce depth) _ = _
      cases items with
      | nil =>
        cases hparts
        rfl
      | cons v items =>
        obtain ⟨part, parts', hpart, -, rfl⟩ := dumpItems_cons.mp hparts
        have hopens := join_opens (dumps_opens hpart hv.1) parts' 0x5D rest
        have hlength := dumpItems_length hparts
        have hjoin := length_le_join (by decide : text ", " ≠ []) (part :: parts')
        have hread := scanElements_dumpItems (v :: items) (List.cons_ne_nil v items) hparts hv rest
          ((Str.join (text ", ") (part :: parts') ++ 0x5D :: rest).length + 1)
          (by rw [List.length_append]; omega)
        rw [scanArray, hopens.skipSpace]
        obtain ⟨c, t, hcons, -, hclose⟩ := hopens
        rw [hcons] at hread ⊢
        split
        · rename_i heq
          exact absurd (List.cons.inj heq).1 hclose
        · rw [hread]
          rfl
  | .dict entries =>
    cases depth with
    | zero => cases h
    | succ depth =>
      obtain ⟨parts, hparts, rfl⟩ := Except.map_eq_ok.mp h
      have htext : text "\x7b" ++ Str.join (text ", ") parts ++ text "\x7d" ++ rest =
          0x7B :: (Str.join (text ", ") parts ++ 0x7D :: rest) := by simp [text]
      rw [htext]
      change scanObject (scanOnce depth) _ = _
      cases entries with
      | nil =>
        cases hparts
        rfl
      | cons entry entries =>
        obtain ⟨key, v⟩ := entry
        obtain ⟨part, parts', -, -, rfl⟩ := dumpEntries_cons.mp hparts
        have hlength := dumpEntries_length hparts
        have hjoin := length_le_join (by decide : text ", " ≠ [])
          ((quote key ++ text ": " ++ part) :: parts')
        have hread := scanMembers_dumpEntries ((key, v) :: entries) (List.cons_ne_nil _ entries)
          hparts hv [] rest
          ((Str.join (text ", ") ((quote key ++ text ": " ++ part) :: parts') ++ 0x7D :: rest).length + 1)
          (by rw [List.length_append]; omega)
        have hquote : ∃ t, Str.join (text ", ") ((quote key ++ text ": " ++ part) :: parts') ++
            0x7D :: rest = 0x22 :: t := by
          rw [join_cons]
          exact ⟨_, rfl⟩
        obtain ⟨t, ht⟩ := hquote
        rw [ht] at hread ⊢
        change (scanMembers (scanOnce depth) _ [] (0x22 :: t)).map _ = _
        rw [hread]
        rfl

theorem scanElements_dumpItems {depth : Nat} (items : List Json) (hne : items ≠ [])
    {parts : List Str} (h : dumpItems depth items = .ok parts) (hitems : HeldItems items)
    (rest : Str) (rounds : Nat) (hrounds : items.length ≤ rounds) :
    scanElements (scanOnce depth) rounds (Str.join (text ", ") parts ++ 0x5D :: rest) =
      .ok (rereadItems items, rest) := by
  match items with
  | v :: items =>
    obtain ⟨part, parts', hpart, hparts, rfl⟩ := dumpItems_cons.mp h
    obtain ⟨rounds, rfl⟩ : ∃ n, rounds = n + 1 := ⟨rounds - 1, by rw [List.length_cons] at hrounds; omega⟩
    cases items with
    | nil =>
      cases hparts
      rw [join_cons, if_pos rfl, scanElements,
        scanOnce_dumps v hpart hitems.1 (delimited_cons (.inr (.inl rfl)))]
      rfl
    | cons w items =>
      obtain ⟨part', parts'', hpart', -, rfl⟩ := dumpItems_cons.mp hparts
      have hopens := join_opens (dumps_opens hpart' hitems.2.1) parts'' 0x5D rest
      have ih := scanElements_dumpItems (w :: items) (List.cons_ne_nil w items) hparts hitems.2 rest
        rounds (by rw [List.length_cons] at hrounds; omega)
      rw [join_cons, if_neg (List.cons_ne_nil part' parts''), scanElements,
        scanOnce_dumps v hpart hitems.1 (delimited_cons (.inl rfl))]
      change (scanElements (scanOnce depth) rounds (skipSpace (0x20 :: _))).map _ = _
      rw [skipSpace_opens hopens, ih]
      rfl

theorem scanMembers_dumpEntries {depth : Nat} (entries : List (Str × Json)) (hne : entries ≠ [])
    {parts : List Str} (h : dumpEntries depth entries = .ok parts) (hentries : HeldEntries entries)
    (seen : List (Str × Json)) (rest : Str) (rounds : Nat) (hrounds : entries.length ≤ rounds) :
    scanMembers (scanOnce depth) rounds seen (Str.join (text ", ") parts ++ 0x7D :: rest) =
      .ok (rereadEntries seen entries, rest) := by
  match entries with
  | (key, v) :: entries =>
    obtain ⟨part, parts', hpart, hparts, rfl⟩ := dumpEntries_cons.mp h
    obtain ⟨rounds, rfl⟩ : ∃ n, rounds = n + 1 := ⟨rounds - 1, by rw [List.length_cons] at hrounds; omega⟩
    obtain ⟨hkey, hv, hrestEntries⟩ := hentries
    cases entries with
    | nil =>
      cases hparts
      rw [join_cons, if_pos rfl, scanMembers, scanMember_quote hkey (dumps_opens hpart hv),
        scanOnce_dumps v hpart hv (delimited_cons (.inr (.inr rfl)))]
      rfl
    | cons entry entries =>
      obtain ⟨key', w⟩ := entry
      obtain ⟨part', parts'', -, -, rfl⟩ := dumpEntries_cons.mp hparts
      have hopens := join_opens (((quote_opens key').append (text ": ")).append part') parts'' 0x7D rest
      have ih := scanMembers_dumpEntries ((key', w) :: entries) (List.cons_ne_nil _ entries) hparts
        hrestEntries (setItem seen (joinPairs key) (reread v)) rest rounds
        (by rw [List.length_cons] at hrounds; omega)
      rw [join_cons, if_neg (List.cons_ne_nil _ parts''), scanMembers,
        scanMember_quote hkey (dumps_opens hpart hv),
        scanOnce_dumps v hpart hv (delimited_cons (.inl rfl))]
      change scanMembers (scanOnce depth) rounds _ (skipSpace (0x20 :: _)) = _
      rw [skipSpace_opens hopens, ih]
      rfl

end

/-- What `dumps` writes, `loads` reads. -/
theorem loads_dumps [Runtime] {v : Json} {s : Str} (h : dumps Runtime.scanDepth v = .ok s)
    (hv : Held v) : loads s = .ok (reread v) := by
  have hopens := dumps_opens h hv
  have hread := scanOnce_dumps v h hv delimited_nil
  rw [List.append_nil] at hread
  have hmark : s.head? ≠ some 0xFEFF := by
    intro hhead
    have hrange := printable_dumps v h 0xFEFF (List.mem_of_head? hhead)
    omega
  rw [loads, if_neg hmark, hopens.skipSpace, hread]
  rfl

/-! ## Values that are read as they are -/

mutual

/-- A value without surrogates, without floats that are no numbers, and without equal keys. -/
def Exact : Json → Prop
  | .float x => x.isNaN = false ∧ x.isInf = false
  | .str s => ∀ c ∈ s, isSurrogate c = false
  | .list items => ExactItems items
  | .dict entries => (entries.map Prod.fst).Nodup ∧ ExactEntries entries
  | _ => True

def ExactItems : List Json → Prop
  | [] => True
  | v :: items => Exact v ∧ ExactItems items

def ExactEntries : List (Str × Json) → Prop
  | [] => True
  | (key, v) :: entries => (∀ c ∈ key, isSurrogate c = false) ∧ Exact v ∧ ExactEntries entries

end

mutual

theorem reread_exact (v : Json) (h : Exact v) : reread v = v := by
  match v with
  | .null => rfl
  | .bool b => rfl
  | .int n => rfl
  | .float x =>
    rw [reread, rereadFloat, if_neg (Bool.eq_false_iff.mp h.1), if_neg (Bool.eq_false_iff.mp h.2)]
  | .str s => rw [reread, joinPairs_clean h]
  | .list items => rw [reread, rereadItems_exact items h]
  | .dict entries =>
    rw [reread, rereadEntries_exact entries h.2 [] h.1 (fun _ _ => List.not_mem_nil), List.nil_append]

theorem rereadItems_exact (items : List Json) (h : ExactItems items) : rereadItems items = items := by
  match items with
  | [] => rfl
  | v :: items => rw [rereadItems, reread_exact v h.1, rereadItems_exact items h.2]

theorem rereadEntries_exact (entries : List (Str × Json)) (h : ExactEntries entries)
    (seen : List (Str × Json)) (hnodup : (entries.map Prod.fst).Nodup)
    (hnew : ∀ entry ∈ entries, entry.1 ∉ seen.map Prod.fst) :
    rereadEntries seen entries = seen ++ entries := by
  match entries with
  | [] => rw [rereadEntries, List.append_nil]
  | (key, v) :: entries =>
    obtain ⟨hkey, hv, hentries⟩ := h
    obtain ⟨hfirst, hnodup⟩ := List.nodup_cons.mp hnodup
    rw [List.forall_mem_cons] at hnew
    rw [rereadEntries, joinPairs_clean hkey, reread_exact v hv, setItem_new hnew.1,
      rereadEntries_exact entries hentries _ hnodup, List.append_assoc]
    · rfl
    · intro entry hentry hmem
      rw [List.map_append, List.mem_append] at hmem
      rcases hmem with hmem | hmem
      · exact hnew.2 entry hentry hmem
      · have heq : entry.1 = key := List.mem_singleton.mp hmem
        have hkeyMem : entry.1 ∈ entries.map Prod.fst := List.mem_map_of_mem hentry
        exact hfirst (heq ▸ hkeyMem)

end

end Python.Json
