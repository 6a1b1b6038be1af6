-- SUMMARY: JSON as Python reads it: values, `json.loads`, and `str` of what it returns.
import DealScreening.Lib.Except
import DealScreening.Python.Number

/-!
# JSON

`loads` is the recursive descent of the `json` module. Like the original it
accepts the names `NaN` and `Infinity`, gives lone surrogates for their escapes,
lets the last of two equal keys win, and refuses an integer of too many digits.
-/

namespace Python

/-- What `json.loads` returns. The keys of an object are distinct. -/
inductive Json where
  | null
  | bool (b : Bool)
  | int (n : Int)
  | float (x : Float)
  | str (s : Str)
  | list (items : List Json)
  | dict (entries : List (Str × Json))

/-- `d[key] = value`: a key keeps the place it was first given. -/
def setItem {K V : Type} [DecidableEq K] (entries : List (K × V)) (key : K) (value : V) :
    List (K × V) :=
  match entries with
  | [] => [(key, value)]
  | (k, v) :: rest => if k = key then (k, value) :: rest else (k, v) :: setItem rest key value

/-- `d.get(key)`. -/
def getItem {K V : Type} [DecidableEq K] (entries : List (K × V)) (key : K) : Option V :=
  (entries.find? fun entry => entry.1 = key).map Prod.snd

theorem setItem_new {K V : Type} [DecidableEq K] {d : List (K × V)} {key : K} {value : V}
    (h : key ∉ d.map Prod.fst) : setItem d key value = d ++ [(key, value)] := by
  induction d with
  | nil => rfl
  | cons entry d ih =>
    rw [List.map_cons, List.mem_cons, not_or] at h
    unfold setItem
    rw [if_neg (Ne.symm h.1), ih h.2, List.cons_append]

/-- A runtime whose tables end with ASCII. -/
@[reducible] def asciiRuntime : Runtime where
  lower s := s.map asciiLower
  decimal _ := none
  printable c := 0x20 ≤ c && c < 0x7F
  printable_surrogate := by
    intro c h
    have hrange := isSurrogate_iff.mp h
    simp only [Bool.and_eq_false_iff, decide_eq_false_iff_not]
    omega
  errorText _ := []
  scanDepth := 9000
  reprDepth := 9000

/-- What `str.lower` does to ASCII. -/
class AsciiCase extends Runtime where
  lower_ascii : ∀ s, (∀ c ∈ s, c < 0x80) → lower s = s.map asciiLower

@[reducible] def asciiCase : AsciiCase := { asciiRuntime with lower_ascii := fun _ _ => rfl }

namespace Json

abbrev Scan (α : Type) := Except Error (α × Str)

def fail {α : Type} : Scan α := .error .jsonDecodeError

/-! ## Strings -/

def hexValue (c : Nat) : Option Nat :=
  if isDigit c then some (c - 0x30)
  else if 0x61 ≤ c ∧ c ≤ 0x66 then some (c - 0x61 + 10)
  else if 0x41 ≤ c ∧ c ≤ 0x46 then some (c - 0x41 + 10)
  else none

/-- The four digits of an escape `\uXXXX`. -/
def hex4 (a b c d : Nat) : Option Nat := do
  return (((← hexValue a) * 16 + (← hexValue b)) * 16 + (← hexValue c)) * 16 + (← hexValue d)

def isHigh (c : Nat) : Bool := 0xD800 ≤ c && c ≤ 0xDBFF

def isLow (c : Nat) : Bool := 0xDC00 ≤ c && c ≤ 0xDFFF

def joinSurrogates (high low : Nat) : Nat := 0x10000 + (high - 0xD800) * 0x400 + (low - 0xDC00)

/-- The escapes of one letter. -/
def simpleEscape (c : Nat) : Option Nat :=
  if c = 0x22 ∨ c = 0x5C ∨ c = 0x2F then some c
  else if c = 0x62 then some 0x08
  else if c = 0x66 then some 0x0C
  else if c = 0x6E then some 0x0A
  else if c = 0x72 then some 0x0D
  else if c = 0x74 then some 0x09
  else none

/-- A character of a string, and whether an escape `\uXXXX` gave it. -/
abbrev Unit16 := Bool × Nat

/-- An escaped high surrogate takes the escaped low surrogate that follows it. -/
def consUnit (unit : Unit16) (units : List Unit16) : List Unit16 :=
  match unit, units with
  | (true, high), (true, low) :: rest =>
    if isHigh high && isLow low then (false, joinSurrogates high low) :: rest else unit :: units
  | _, _ => unit :: units

theorem hexValue_hexDigit {k : Nat} (h : k < 16) : hexValue (Str.hexDigit k) = some k := by
  have hall : ∀ k < 16, hexValue (Str.hexDigit k) = some k := by decide
  exact hall k h

theorem hex4_hex {c : Nat} (h : c < 0x10000) :
    ∃ p q r t, Str.hex 4 c = [p, q, r, t] ∧ hex4 p q r t = some c := by
  refine ⟨_, _, _, _, rfl, ?_⟩
  simp only [hex4, hexValue_hexDigit (Nat.mod_lt _ (by decide : 0 < 16)), Option.pure_def,
    Option.bind_eq_bind, Option.bind_some, Option.some.injEq]
  omega

theorem consUnit_of_not_high {b : Bool} {c : Nat} (h : isHigh c = false) (units : List Unit16) :
    consUnit (b, c) units = (b, c) :: units := by
  cases units with
  | nil => cases b <;> rfl
  | cons u units =>
    obtain ⟨b', low⟩ := u
    cases b <;> cases b' <;> simp [consUnit, h]

def consScan (unit : Unit16) (r : Scan (List Unit16)) : Scan (List Unit16) :=
  r.map fun (units, rest) => (consUnit unit units, rest)

def scanUnits : Str → Scan (List Unit16)
  | [] => fail
  | 0x22 :: s => .ok ([], s)
  | 0x5C :: 0x75 :: a :: b :: c :: d :: s =>
    match hex4 a b c d with
    | some unit => consScan (true, unit) (scanUnits s)
    | none => fail
  | 0x5C :: c :: s =>
    match simpleEscape c with
    | some e => consScan (false, e) (scanUnits s)
    | none => fail
  | c :: s => if c = 0x5C ∨ c < 0x20 then fail else consScan (false, c) (scanUnits s)

/-- `scanstring`, after the opening quote. -/
def scanString (s : Str) : Scan Str :=
  (scanUnits s).map fun (units, rest) => (units.map Prod.snd, rest)

/-! ## Numbers and names -/

/-- `sys.get_int_max_str_digits()`. -/
def maxStrDigits : Nat := 4300

/-- `_match_number`, after the sign. -/
def scanDigits (neg : Bool) (s : Str) : Scan Json :=
  let whole := if s.head? = some 0x30 then [0x30] else s.takeWhile isDigit
  let rest := s.drop whole.length
  let fraction :=
    match rest with
    | 0x2E :: r => r.takeWhile isDigit
    | _ => []
  let afterFraction := if fraction = [] then rest else rest.drop (fraction.length + 1)
  if whole = [] then fail
  else match splitExponent afterFraction with
    | some (exp, r) => .ok (.float (decimalFloat neg whole fraction exp), r)
    | none =>
      if fraction ≠ [] then .ok (.float (decimalFloat neg whole fraction 0), afterFraction)
      else if maxStrDigits < whole.length then .error .valueError
      else .ok (.int (if neg then -(digitsValue whole : Int) else digitsValue whole), rest)

def scanNumber : Str → Scan Json
  | 0x2D :: s => scanDigits true s
  | s => scanDigits false s

def constants : List (Str × Json) :=
  [(text "null", .null), (text "true", .bool true), (text "false", .bool false),
    (text "NaN", .float nan), (text "Infinity", .float inf), (text "-Infinity", .float (-inf))]

/-- A value that is neither an object nor an array. -/
def scanLeaf (s : Str) : Scan Json :=
  match s with
  | 0x22 :: rest => (scanString rest).map fun (u, rest) => (.str u, rest)
  | _ =>
    match constants.find? fun (name, _) => name.isPrefixOf s with
    | some (name, v) => .ok (v, s.drop name.length)
    | none => scanNumber s

/-! ## Arrays and objects -/

def isJsonSpace (c : Nat) : Bool := c == 0x20 || c == 0x09 || c == 0x0A || c == 0x0D

def skipSpace (s : Str) : Str := s.dropWhile isJsonSpace

/-- The loop of `_parse_array`. Every round reads at least the comma, so more
    rounds than the text is long change nothing. -/
def scanElements (scan : Str → Scan Json) : Nat → Str → Scan (List Json)
  | 0, _ => fail
  | rounds + 1, s =>
    match scan s with
    | .error e => .error e
    | .ok (v, rest) =>
      match skipSpace rest with
      | 0x5D :: rest => .ok ([v], rest)
      | 0x2C :: rest =>
        (scanElements scan rounds (skipSpace rest)).map fun (vs, rest) => (v :: vs, rest)
      | _ => fail

/-- `_parse_array`, after the bracket. -/
def scanArray (scan : Str → Scan Json) (s : Str) : Scan Json :=
  match skipSpace s with
  | 0x5D :: rest => .ok (.list [], rest)
  | s => (scanElements scan (s.length + 1) s).map fun (vs, rest) => (.list vs, rest)

/-- A key, a colon and a value. -/
def scanMember (scan : Str → Scan Json) : Str → Scan (Str × Json)
  | 0x22 :: s =>
    match scanString s with
    | .error e => .error e
    | .ok (key, rest) =>
      match skipSpace rest with
      | 0x3A :: rest => (scan (skipSpace rest)).map fun (v, rest) => ((key, v), rest)
      | _ => fail
  | _ => fail

/-- The loop of `_parse_object`, with the entries read so far. -/
def scanMembers (scan : Str → Scan Json) :
    Nat → List (Str × Json) → Str → Scan (List (Str × Json))
  | 0, _, _ => fail
  | rounds + 1, entries, s =>
    match scanMember scan s with
    | .error e => .error e
    | .ok ((key, v), rest) =>
      match skipSpace rest with
      | 0x7D :: rest => .ok (setItem entries key v, rest)
      | 0x2C :: rest => scanMembers scan rounds (setItem entries key v) (skipSpace rest)
      | _ => fail

/-- `_parse_object`, after the brace. -/
def scanObject (scan : Str → Scan Json) (s : Str) : Scan Json :=
  match skipSpace s with
  | 0x7D :: rest => .ok (.dict [], rest)
  | s => (scanMembers scan (s.length + 1) [] s).map fun (entries, rest) => (.dict entries, rest)

/-- `scan_once`, which may enter `depth` arrays and objects within each other. -/
def scanOnce : Nat → Str → Scan Json
  | 0, s =>
    match s with
    | 0x7B :: _ => .error .recursionError
    | 0x5B :: _ => .error .recursionError
    | s => scanLeaf s
  | depth + 1, s =>
    match s with
    | 0x7B :: rest => scanObject (scanOnce depth) rest
    | 0x5B :: rest => scanArray (scanOnce depth) rest
    | s => scanLeaf s

/-- `json.loads(s)`. -/
def loads [Runtime] (s : Str) : Except Error Json :=
  if s.head? = some 0xFEFF then .error .jsonDecodeError
  else match scanOnce Runtime.scanDepth (skipSpace s) with
    | .error e => .error e
    | .ok (v, rest) => if skipSpace rest = [] then .ok v else .error .jsonDecodeError

/-! ## `str` -/

mutual

/-- `repr(v)`. -/
def repr [Runtime] : Json → Str
  | .null => text "None"
  | .bool true => text "True"
  | .bool false => text "False"
  | .int n => Str.ofInt n
  | .float x => floatRepr x
  | .str s => Str.repr s
  | .list items => text "[" ++ Str.join (text ", ") (reprItems items) ++ text "]"
  | .dict entries =>
    text "\x7b" ++ Str.join (text ", ") (reprEntries entries) ++ text "\x7d"

def reprItems [Runtime] : List Json → List Str
  | [] => []
  | v :: items => repr v :: reprItems items

def reprEntries [Runtime] : List (Str × Json) → List Str
  | [] => []
  | (key, v) :: entries => (Str.repr key ++ text ": " ++ repr v) :: reprEntries entries

end

mutual

/-- How many calls of `repr` within each other `repr(v)` makes. -/
def reprCalls : Json → Nat
  | .list items => itemCalls items
  | .dict entries => entryCalls entries
  | _ => 0

def itemCalls : List Json → Nat
  | [] => 0
  | v :: items => max (reprCalls v + 1) (itemCalls items)

def entryCalls : List (Str × Json) → Nat
  | [] => 0
  | (_, v) :: entries => max (reprCalls v + 1) (entryCalls entries)

end

/-- `str(v)`: a string itself, and `repr` of everything else. -/
def toStr [Runtime] (v : Json) : Except Error Str :=
  if Runtime.reprDepth < reprCalls v then .error .recursionError
  else match v with
    | .str s => .ok s
    | v => .ok (repr v)

theorem toStr_eq_ok [Runtime] {v : Json} {shown : Str} :
    toStr v = .ok shown ↔
      reprCalls v ≤ Runtime.reprDepth ∧ ((∃ s, v = .str s ∧ shown = s) ∨
        (∀ s, v ≠ .str s) ∧ shown = repr v) := by
  unfold toStr
  split
  · rename_i hdeep
    simp only [reduceCtorEq, false_iff, not_and]
    omega
  · rename_i hfits
    have hle : reprCalls v ≤ Runtime.reprDepth := by omega
    cases v <;> simp [hle, eq_comm]

/-- The items of a list are shown within the depth of the list. -/
theorem reprCalls_item {v : Json} {items : List Json} (h : v ∈ items) :
    reprCalls v < reprCalls (.list items) := by
  change reprCalls v < itemCalls items
  induction items with
  | nil => cases h
  | cons w items ih =>
    simp only [itemCalls]
    cases h with
    | head => omega
    | tail _ h =>
      have := ih h
      omega

/-! ## `float` -/

/-- `float(v)`. -/
def toFloat [Runtime] : Json → Except Error Float
  | .float x => .ok x
  | .int n =>
    match floatOfInt n with
    | some x => .ok x
    | none => .error .overflowError
  | .bool b => .ok (if b then 1 else 0)
  | .str s =>
    match floatOfStr s with
    | some x => .ok x
    | none => .error .valueError
  | .null => .error .typeError
  | .list _ => .error .typeError
  | .dict _ => .error .typeError

/-- Only an integer out of range makes `float` raise anything but `ValueError`
    and `TypeError`. -/
theorem toFloat_error [Runtime] {v : Json} {e : Error} (h : v.toFloat = .error e) :
    e = .valueError ∨ e = .typeError ∨ e = .overflowError ∧ ∃ n, v = .int n ∧ floatOfInt n = none := by
  unfold toFloat at h
  split at h
  · cases h
  · rename_i n
    split at h
    · cases h
    · rename_i hn
      cases h
      exact .inr (.inr ⟨rfl, n, rfl, hn⟩)
  · cases h
  · split at h <;> cases h
    exact .inl rfl
  · cases h
    exact .inr (.inl rfl)
  · cases h
    exact .inr (.inl rfl)
  · cases h
    exact .inr (.inl rfl)

/-! ## The text of a value -/

mutual

/-- Whatever was read, its `repr` can be shown. -/
theorem clean_repr [Runtime] (v : Json) : Clean (repr v) := by
  cases v with
  | null => exact (by decide : Clean (text "None"))
  | bool b =>
    cases b with
    | false => exact (by decide : Clean (text "False"))
    | true => exact (by decide : Clean (text "True"))
  | int n => exact clean_ofInt n
  | float x => exact clean_floatRepr x
  | str s => exact clean_strRepr s
  | list items =>
    have hitems := clean_join (by decide : Clean (text ", ")) (clean_reprItems items)
    simp only [repr, clean_append]
    exact ⟨⟨by decide, hitems⟩, by decide⟩
  | dict entries =>
    have hentries := clean_join (by decide : Clean (text ", ")) (clean_reprEntries entries)
    simp only [repr, clean_append]
    exact ⟨⟨by decide, hentries⟩, by decide⟩

theorem clean_reprItems [Runtime] (items : List Json) : ∀ p ∈ reprItems items, Clean p := by
  cases items with
  | nil => nofun
  | cons v items =>
    rw [reprItems, List.forall_mem_cons]
    exact ⟨clean_repr v, clean_reprItems items⟩

theorem clean_reprEntries [Runtime] (entries : List (Str × Json)) :
    ∀ p ∈ reprEntries entries, Clean p := by
  match entries with
  | [] => nofun
  | (key, v) :: entries =>
    rw [reprEntries, List.forall_mem_cons]
    have hkey := clean_append.mpr ⟨clean_strRepr key, (by decide : Clean (text ": "))⟩
    exact ⟨clean_append.mpr ⟨hkey, clean_repr v⟩, clean_reprEntries entries⟩

end

/-! ## The rounds of the loops are enough

A scanner that consumes leaves less text than it was given. The number of rounds
a loop is given then does not matter, as long as it exceeds the length of the text. -/

def Consumes {α : Type} (scan : Str → Scan α) : Prop :=
  ∀ s a rest, scan s = .ok (a, rest) → rest.length < s.length

theorem skipSpace_length_le (s : Str) : (skipSpace s).length ≤ s.length :=
  (List.dropWhile_suffix _).length_le

theorem skipSpace_cons_length {s rest : Str} {c : Nat} (h : skipSpace s = c :: rest) :
    rest.length < s.length := by
  have hle := skipSpace_length_le s
  rw [h, List.length_cons] at hle
  omega

theorem scanUnits_consumes : Consumes scanUnits := by
  intro s units rest h
  fun_induction scanUnits s generalizing units with
  | case1 => cases h
  | case2 s =>
    cases h
    simp
  | case3 a b c d s unit hhex ih =>
    obtain ⟨⟨u, r⟩, hs, heq⟩ := Except.map_eq_ok.mp h
    cases heq
    have hshort := ih u hs
    simp only [List.length_cons]
    omega
  | case4 => cases h
  | case5 c s _ e he ih =>
    obtain ⟨⟨u, r⟩, hs, heq⟩ := Except.map_eq_ok.mp h
    cases heq
    have hshort := ih u hs
    simp only [List.length_cons]
    omega
  | case6 => cases h
  | case7 => cases h
  | case8 c s _ _ _ hc ih =>
    obtain ⟨⟨u, r⟩, hs, heq⟩ := Except.map_eq_ok.mp h
    cases heq
    have hshort := ih u hs
    simp only [List.length_cons]
    omega

theorem scanString_consumes : Consumes scanString := by
  intro s u rest h
  obtain ⟨⟨units, r⟩, hs, heq⟩ := Except.map_eq_ok.mp h
  cases heq
  exact scanUnits_consumes s units _ hs

theorem splitExponent_length_le {s rest : Str} {exp : Int}
    (h : splitExponent s = some (exp, rest)) : rest.length ≤ s.length := by
  unfold splitExponent at h
  split at h
  · rename_i e ds
    dsimp only at h
    split at h
    · cases h
      have hsign : (splitSign ds).2.length ≤ ds.length := by
        unfold splitSign
        split <;> simp
      have hdrop := (List.dropWhile_suffix (l := (splitSign ds).2) isDigit).length_le
      simp only [List.length_cons]
      omega
    · cases h
  · cases h

theorem scanDigits_consumes (neg : Bool) : Consumes (scanDigits neg) := by
  intro s v rest h
  unfold scanDigits at h
  dsimp only at h
  generalize hwhole : (if s.head? = some 0x30 then [0x30] else s.takeWhile isDigit) = whole at h
  generalize hfrac : (match s.drop whole.length with
    | 0x2E :: r => r.takeWhile isDigit
    | _ => []) = fraction at h
  generalize hafter : (if fraction = [] then s.drop whole.length
    else (s.drop whole.length).drop (fraction.length + 1)) = after at h
  split at h
  · cases h
  · rename_i hne
    have hpos : 0 < whole.length := List.length_pos_iff.mpr hne
    have hle : whole.length ≤ s.length := by
      rw [← hwhole]
      split
      · rename_i hzero
        cases s with
        | nil => cases hzero
        | cons c s => simp
      · exact (List.takeWhile_prefix isDigit).length_le
    have hrest : (s.drop whole.length).length < s.length := by
      rw [List.length_drop]
      omega
    have hshort : after.length < s.length := by
      rw [← hafter]
      split
      · exact hrest
      · rw [List.length_drop]
        omega
    split at h
    · rename_i exp r hexp
      cases h
      have hexpLe := splitExponent_length_le hexp
      omega
    · split at h
      · cases h
        exact hshort
      · split at h
        · cases h
        · cases h
          exact hrest

theorem scanNumber_consumes : Consumes scanNumber := by
  intro s v rest h
  unfold scanNumber at h
  split at h
  · have hshort := scanDigits_consumes true _ v rest h
    simp only [List.length_cons]
    omega
  · exact scanDigits_consumes false _ v rest h

theorem constants_nonempty : ∀ entry ∈ constants, 0 < entry.1.length := by
  simp [constants, text]

theorem scanLeaf_consumes : Consumes scanLeaf := by
  intro s v rest h
  unfold scanLeaf at h
  split at h
  · obtain ⟨⟨u, r⟩, hs, heq⟩ := Except.map_eq_ok.mp h
    cases heq
    have hshort := scanString_consumes _ u _ hs
    simp only [List.length_cons]
    omega
  · split at h
    · rename_i name w hfind
      cases h
      have hname : 0 < name.length := constants_nonempty _ (List.mem_of_find?_eq_some hfind)
      have hprefix : name.isPrefixOf s = true := by simpa using List.find?_some hfind
      have hle := (List.isPrefixOf_iff_prefix.mp hprefix).length_le
      rw [List.length_drop]
      omega
    · exact scanNumber_consumes s v rest h

section
variable {scan : Str → Scan Json}

theorem scanElements_consumes (hscan : Consumes scan) (rounds : Nat) :
    Consumes (scanElements scan rounds) := by
  induction rounds with
  | zero =>
    intro s vs rest h
    cases h
  | succ rounds ih =>
    intro s vs rest h
    unfold scanElements at h
    split at h
    · cases h
    · rename_i v r hv
      have hfirst := hscan s v r hv
      split at h
      · rename_i hclose
        cases h
        have hshort := skipSpace_cons_length hclose
        omega
      · rename_i r' hcomma
        obtain ⟨⟨us, r''⟩, hs, heq⟩ := Except.map_eq_ok.mp h
        cases heq
        have hshort := skipSpace_cons_length hcomma
        have hskip := skipSpace_length_le r'
        have hmore := ih _ us _ hs
        omega
      · cases h

theorem scanArray_consumes (hscan : Consumes scan) : Consumes (scanArray scan) := by
  intro s v rest h
  unfold scanArray at h
  split at h
  · rename_i hclose
    cases h
    exact skipSpace_cons_length hclose
  · obtain ⟨⟨vs, r⟩, hs, heq⟩ := Except.map_eq_ok.mp h
    cases heq
    have hshort := scanElements_consumes hscan _ _ vs _ hs
    have hskip := skipSpace_length_le s
    omega

theorem scanMember_consumes (hscan : Consumes scan) : Consumes (scanMember scan) := by
  intro s entry rest h
  unfold scanMember at h
  split at h
  · rename_i s'
    split at h
    · cases h
    · rename_i key r hkey
      have hfirst := scanString_consumes s' key r hkey
      split at h
      · rename_i r' hcolon
        obtain ⟨⟨v, r''⟩, hs, heq⟩ := Except.map_eq_ok.mp h
        cases heq
        have hshort := skipSpace_cons_length hcolon
        have hskip := skipSpace_length_le r'
        have hmore := hscan _ v _ hs
        simp only [List.length_cons]
        omega
      · cases h
  · cases h

theorem scanMembers_consumes (hscan : Consumes scan) (rounds : Nat)
    (entries : List (Str × Json)) : Consumes (scanMembers scan rounds entries) := by
  induction rounds generalizing entries with
  | zero =>
    intro s vs rest h
    cases h
  | succ rounds ih =>
    intro s vs rest h
    unfold scanMembers at h
    split at h
    · cases h
    · rename_i key v r hv
      have hfirst := scanMember_consumes hscan s (key, v) r hv
      split at h
      · rename_i hclose
        cases h
        have hshort := skipSpace_cons_length hclose
        omega
      · rename_i r' hcomma
        have hshort := skipSpace_cons_length hcomma
        have hskip := skipSpace_length_le r'
        have hmore := ih _ _ vs rest h
        omega
      · cases h

theorem scanObject_consumes (hscan : Consumes scan) : Consumes (scanObject scan) := by
  intro s v rest h
  unfold scanObject at h
  split at h
  · rename_i hclose
    cases h
    exact skipSpace_cons_length hclose
  · obtain ⟨⟨vs, r⟩, hs, heq⟩ := Except.map_eq_ok.mp h
    cases heq
    have hshort := scanMembers_consumes hscan _ _ _ vs _ hs
    have hskip := skipSpace_length_le s
    omega

/-- Any number of rounds above the length of the text gives the same result. -/
theorem scanElements_rounds (hscan : Consumes scan) {n m : Nat} {s : Str} (hn : s.length < n)
    (hm : s.length < m) : scanElements scan n s = scanElements scan m s := by
  induction n generalizing m s with
  | zero => omega
  | succ n ih =>
    obtain ⟨m, rfl⟩ : ∃ k, m = k + 1 := ⟨m - 1, by omega⟩
    unfold scanElements
    cases hv : scan s with
    | error e => rfl
    | ok r =>
      obtain ⟨v, rest⟩ := r
      have hfirst := hscan s v rest hv
      dsimp only
      split
      · rfl
      · rename_i r' hcomma
        have hshort := skipSpace_cons_length hcomma
        have hskip := skipSpace_length_le r'
        rw [ih (m := m) (s := skipSpace r') (by omega) (by omega)]
      · rfl

theorem scanMembers_rounds (hscan : Consumes scan) {n m : Nat} {entries : List (Str × Json)}
    {s : Str} (hn : s.length < n) (hm : s.length < m) :
    scanMembers scan n entries s = scanMembers scan m entries s := by
  induction n generalizing m s entries with
  | zero => omega
  | succ n ih =>
    obtain ⟨m, rfl⟩ : ∃ k, m = k + 1 := ⟨m - 1, by omega⟩
    unfold scanMembers
    cases hv : scanMember scan s with
    | error e => rfl
    | ok r =>
      obtain ⟨⟨key, v⟩, rest⟩ := r
      have hfirst := scanMember_consumes hscan s (key, v) rest hv
      dsimp only
      split
      · rfl
      · rename_i r' hcomma
        have hshort := skipSpace_cons_length hcomma
        have hskip := skipSpace_length_le r'
        exact ih (by omega) (by omega)
      · rfl

end

theorem scanOnce_consumes (depth : Nat) : Consumes (scanOnce depth) := by
  induction depth with
  | zero =>
    intro s v rest h
    unfold scanOnce at h
    split at h
    · cases h
    · cases h
    · exact scanLeaf_consumes s v rest h
  | succ depth ih =>
    intro s v rest h
    unfold scanOnce at h
    split at h
    · have hshort := scanObject_consumes ih _ v rest h
      simp only [List.length_cons]
      omega
    · have hshort := scanArray_consumes ih _ v rest h
      simp only [List.length_cons]
      omega
    · exact scanLeaf_consumes s v rest h

/-! ## A string is shorter than its JSON -/

theorem consUnit_length (unit : Unit16) (units : List Unit16) :
    (consUnit unit units).length ≤ units.length + 1 := by
  unfold consUnit
  split
  · split <;> simp
  · simp

/-- The closing quote is in none of the units. -/
theorem scanUnits_length {s rest : Str} {units : List Unit16} (h : scanUnits s = .ok (units, rest)) :
    units.length < s.length := by
  fun_induction scanUnits s generalizing units with
  | case1 => cases h
  | case2 s =>
    cases h
    simp
  | case3 a b c d s unit hhex ih =>
    obtain ⟨⟨u, r⟩, hs, heq⟩ := Except.map_eq_ok.mp h
    cases heq
    have hshort := ih hs
    have hcons := consUnit_length (true, unit) u
    simp only [List.length_cons]
    omega
  | case4 => cases h
  | case5 c s _ e he ih =>
    obtain ⟨⟨u, r⟩, hs, heq⟩ := Except.map_eq_ok.mp h
    cases heq
    have hshort := ih hs
    have hcons := consUnit_length (false, e) u
    simp only [List.length_cons]
    omega
  | case6 => cases h
  | case7 => cases h
  | case8 c s _ _ _ hc ih =>
    obtain ⟨⟨u, r⟩, hs, heq⟩ := Except.map_eq_ok.mp h
    cases heq
    have hshort := ih hs
    have hcons := consUnit_length (false, c) u
    simp only [List.length_cons]
    omega

theorem scanString_length {s rest u : Str} (h : scanString s = .ok (u, rest)) :
    u.length < s.length := by
  obtain ⟨⟨units, r⟩, hs, heq⟩ := Except.map_eq_ok.mp h
  cases heq
  simpa using scanUnits_length hs

/-- Only a quote begins a string. -/
theorem scanDigits_not_str {neg : Bool} {s rest u : Str} : scanDigits neg s ≠ .ok (.str u, rest) := by
  intro h
  unfold scanDigits at h
  dsimp only at h
  generalize (if s.head? = some 0x30 then [0x30] else s.takeWhile isDigit) = whole at h
  generalize (match s.drop whole.length with
    | 0x2E :: r => r.takeWhile isDigit
    | _ => []) = fraction at h
  generalize (if fraction = [] then s.drop whole.length
    else (s.drop whole.length).drop (fraction.length + 1)) = after at h
  split at h
  · cases h
  · split at h
    · cases h
    · split at h
      · cases h
      · split at h <;> cases h

theorem scanLeaf_str {s rest u : Str} (h : scanLeaf s = .ok (.str u, rest)) :
    ∃ r, s = 0x22 :: r ∧ scanString r = .ok (u, rest) := by
  unfold scanLeaf at h
  split at h
  · rename_i r
    obtain ⟨⟨v, rest'⟩, hstring, heq⟩ := Except.map_eq_ok.mp h
    cases heq
    exact ⟨r, rfl, hstring⟩
  · split at h
    · rename_i name v hfind
      cases h
      have hnames : ∀ entry ∈ constants, entry.2 ≠ .str u := by
        simp [constants]
      exact absurd rfl (hnames _ (List.mem_of_find?_eq_some hfind))
    · unfold scanNumber at h
      split at h <;> exact absurd h scanDigits_not_str

theorem scanOnce_str {depth : Nat} {s rest u : Str} (h : scanOnce depth s = .ok (.str u, rest)) :
    ∃ r, s = 0x22 :: r ∧ scanString r = .ok (u, rest) := by
  cases depth with
  | zero =>
    unfold scanOnce at h
    split at h
    · cases h
    · cases h
    · exact scanLeaf_str h
  | succ depth =>
    unfold scanOnce at h
    split at h
    · unfold scanObject at h
      split at h
      · cases h
      · obtain ⟨_, -, heq⟩ := Except.map_eq_ok.mp h
        cases heq
    · unfold scanArray at h
      split at h
      · cases h
      · obtain ⟨_, -, heq⟩ := Except.map_eq_ok.mp h
        cases heq
    · exact scanLeaf_str h

/-- What a text decodes to is a shorter string, if it is one. -/
theorem loads_str_length [Runtime] {s u : Str} (h : loads s = .ok (.str u)) : u.length < s.length := by
  unfold loads at h
  split at h
  · cases h
  · split at h
    · cases h
    · rename_i v rest hscan
      split at h
      · cases h
        obtain ⟨r, hs, hstring⟩ := scanOnce_str hscan
        have hshort := scanString_length hstring
        have hskip := skipSpace_cons_length hs
        omega
      · cases h

end Json

end Python
