-- SUMMARY: `json.dumps`: whatever the value, it is written as printable ASCII.
import DealScreening.Python.Json
import Mathlib.Tactic.SplitIfs

/-!
# Writing JSON

`dumps` escapes everything outside printable ASCII, an astral character as a pair of
surrogates. It refuses an integer of too many digits, as `loads` does.
-/

namespace Python.Json

/-! ## The encoder -/

/-- `ascii_escape_unichar`. -/
def asciiEscape (c : Nat) : Str :=
  if 0x20 ≤ c ∧ c ≤ 0x7E ∧ c ≠ 0x22 ∧ c ≠ 0x5C then [c]
  else if c = 0x22 ∨ c = 0x5C then [0x5C, c]
  else if c = 0x08 then text "\\b"
  else if c = 0x0C then text "\\f"
  else if c = 0x0A then text "\\n"
  else if c = 0x0D then text "\\r"
  else if c = 0x09 then text "\\t"
  else if c < 0x10000 then text "\\u" ++ Str.hex 4 c
  else
    let v := c - 0x10000
    text "\\u" ++ Str.hex 4 (0xD800 + v / 0x400) ++ (text "\\u" ++ Str.hex 4 (0xDC00 + v % 0x400))

/-- `encode_basestring_ascii`. -/
def quote (s : Str) : Str := 0x22 :: (s.flatMap asciiEscape ++ [0x22])

/-- `encoder_encode_float`, which allows `NaN`. -/
def dumpFloat (x : Float) : Str :=
  if x.isNaN then text "NaN"
  else if x.isInf then (if x < 0 then text "-Infinity" else text "Infinity")
  else floatRepr x

/-- `int.__repr__`. -/
def dumpInt (n : Int) : Except Error Str :=
  if maxStrDigits < (Str.ofNat n.natAbs).length then .error .valueError else .ok (Str.ofInt n)

mutual

/-- `json.dumps(v)`, which may enter `depth` arrays and objects within each other. -/
def dumps (depth : Nat) : Json → Except Error Str
  | .null => .ok (text "null")
  | .bool true => .ok (text "true")
  | .bool false => .ok (text "false")
  | .int n => dumpInt n
  | .float x => .ok (dumpFloat x)
  | .str s => .ok (quote s)
  | .list items =>
    match depth with
    | 0 => .error .recursionError
    | depth + 1 =>
      (dumpItems depth items).map fun parts => text "[" ++ Str.join (text ", ") parts ++ text "]"
  | .dict entries =>
    match depth with
    | 0 => .error .recursionError
    | depth + 1 =>
      (dumpEntries depth entries).map fun parts =>
        text "\x7b" ++ Str.join (text ", ") parts ++ text "\x7d"

def dumpItems (depth : Nat) : List Json → Except Error (List Str)
  | [] => .ok []
  | v :: items => do
    let part ← dumps depth v
    let parts ← dumpItems depth items
    return part :: parts

def dumpEntries (depth : Nat) : List (Str × Json) → Except Error (List Str)
  | [] => .ok []
  | (key, v) :: entries => do
    let part ← dumps depth v
    let parts ← dumpEntries depth entries
    return (quote key ++ text ": " ++ part) :: parts

end

/-! ## Lists and entries -/

theorem dumpItems_cons {depth : Nat} {v : Json} {items : List Json} {parts : List Str} :
    dumpItems depth (v :: items) = .ok parts ↔
      ∃ part parts', dumps depth v = .ok part ∧ dumpItems depth items = .ok parts' ∧
        parts = part :: parts' := by
  rw [dumpItems]
  constructor
  · intro h
    obtain ⟨part, hpart, h⟩ := Except.bind_eq_ok.mp h
    obtain ⟨parts', hparts, h⟩ := Except.bind_eq_ok.mp h
    cases h
    exact ⟨part, parts', hpart, hparts, rfl⟩
  · rintro ⟨part, parts', hpart, hparts, rfl⟩
    rw [hpart, hparts]
    rfl

theorem dumpEntries_cons {depth : Nat} {key : Str} {v : Json} {entries : List (Str × Json)}
    {parts : List Str} :
    dumpEntries depth ((key, v) :: entries) = .ok parts ↔
      ∃ part parts', dumps depth v = .ok part ∧ dumpEntries depth entries = .ok parts' ∧
        parts = (quote key ++ text ": " ++ part) :: parts' := by
  rw [dumpEntries]
  constructor
  · intro h
    obtain ⟨part, hpart, h⟩ := Except.bind_eq_ok.mp h
    obtain ⟨parts', hparts, h⟩ := Except.bind_eq_ok.mp h
    cases h
    exact ⟨part, parts', hpart, hparts, rfl⟩
  · rintro ⟨part, parts', hpart, hparts, rfl⟩
    rw [hpart, hparts]
    rfl

/-! ## Texts -/

/-- Printable ASCII. -/
def Printable (s : Str) : Prop := ∀ c ∈ s, 0x20 ≤ c ∧ c ≤ 0x7E

instance (s : Str) : Decidable (Printable s) := inferInstanceAs (Decidable (∀ c ∈ s, _))

section
variable {s t : Str}

theorem printable_append : Printable (s ++ t) ↔ Printable s ∧ Printable t := by
  simp only [Printable, List.forall_mem_append]

theorem printable_join {parts : List Str} (h : ∀ p ∈ parts, Printable p) :
    Printable (Str.join (text ", ") parts) := by
  induction parts with
  | nil => exact (by decide : Printable [])
  | cons p parts ih =>
    rw [List.forall_mem_cons] at h
    cases parts with
    | nil => simpa [Str.join, List.intercalate] using h.1
    | cons q parts =>
      rw [Str.join, List.intercalate_cons_cons, printable_append, printable_append]
      exact ⟨⟨h.1, by decide⟩, ih h.2⟩

theorem asciiEscape_printable (c : Nat) : ∀ d ∈ asciiEscape c, 0x20 ≤ d ∧ d ≤ 0x7E := by
  have hhex : ∀ width n, ∀ d ∈ Str.hex width n, 0x20 ≤ d ∧ d ≤ 0x7E := by
    intro width n d hd
    obtain ⟨k, hk, rfl⟩ := mem_hex hd
    have hall : ∀ k < 16, 0x20 ≤ Str.hexDigit k ∧ Str.hexDigit k ≤ 0x7E := by decide
    exact hall k hk
  have hu : ∀ d ∈ text "\\u", 0x20 ≤ d ∧ d ≤ 0x7E := by decide
  unfold asciiEscape
  split_ifs with hplain hquote
  · intro d hd
    obtain rfl := List.mem_singleton.mp hd
    omega
  · rcases hquote with rfl | rfl <;> decide
  all_goals first | decide | skip
  · intro d hd
    rcases List.mem_append.mp hd with hd | hd
    · exact hu d hd
    · exact hhex _ _ d hd
  · intro d hd
    simp only [List.mem_append] at hd
    rcases hd with (hd | hd) | hd | hd
    · exact hu d hd
    · exact hhex _ _ d hd
    · exact hu d hd
    · exact hhex _ _ d hd

theorem printable_quote (s : Str) : Printable (quote s) := by
  intro c hc
  rcases List.mem_cons.mp hc with rfl | hc
  · decide
  rcases List.mem_append.mp hc with hc | hc
  · obtain ⟨d, -, hc⟩ := List.mem_flatMap.mp hc
    exact asciiEscape_printable d c hc
  · obtain rfl := List.mem_singleton.mp hc
    decide

theorem printable_ofNat (n : Nat) : Printable (Str.ofNat n) := by
  intro c hc
  have hrange := digit_range (isDigit_ofNat hc)
  omega

theorem printable_ofInt (n : Int) : Printable (Str.ofInt n) := by
  cases n with
  | ofNat n => exact printable_ofNat n
  | negSucc n => exact List.forall_mem_cons.mpr ⟨by decide, printable_ofNat (n + 1)⟩

theorem printable_dumpFloat (x : Float) : Printable (dumpFloat x) := by
  have hother : Printable (text ".e-+naif") := by decide
  unfold dumpFloat
  split_ifs
  · decide
  · decide
  · decide
  · intro c hc
    rcases mem_floatRepr hc with h | h
    · have hrange := digit_range h
      omega
    · exact hother c h

end

mutual

/-- Whatever the value holds, it is written as printable ASCII. -/
theorem printable_dumps {depth : Nat} (v : Json) {s : Str} (h : dumps depth v = .ok s) :
    Printable s := by
  match v with
  | .null =>
    cases h
    decide
  | .bool true =>
    cases h
    decide
  | .bool false =>
    cases h
    decide
  | .int n =>
    rw [dumps, dumpInt] at h
    split at h
    · cases h
    · cases h
      exact printable_ofInt n
  | .float x =>
    cases h
    exact printable_dumpFloat x
  | .str u =>
    cases h
    exact printable_quote u
  | .list items =>
    cases depth with
    | zero => cases h
    | succ depth =>
      obtain ⟨parts, hparts, rfl⟩ := Except.map_eq_ok.mp h
      have hjoin := printable_join (printable_dumpItems items hparts)
      rw [printable_append, printable_append]
      exact ⟨⟨by decide, hjoin⟩, by decide⟩
  | .dict entries =>
    cases depth with
    | zero => cases h
    | succ depth =>
      obtain ⟨parts, hparts, rfl⟩ := Except.map_eq_ok.mp h
      have hjoin := printable_join (printable_dumpEntries entries hparts)
      rw [printable_append, printable_append]
      exact ⟨⟨by decide, hjoin⟩, by decide⟩

theorem printable_dumpItems {depth : Nat} (items : List Json) {parts : List Str}
    (h : dumpItems depth items = .ok parts) : ∀ p ∈ parts, Printable p := by
  match items with
  | [] =>
    cases h
    nofun
  | v :: items =>
    obtain ⟨part, parts', hpart, hparts, rfl⟩ := dumpItems_cons.mp h
    rw [List.forall_mem_cons]
    exact ⟨printable_dumps v hpart, printable_dumpItems items hparts⟩

theorem printable_dumpEntries {depth : Nat} (entries : List (Str × Json)) {parts : List Str}
    (h : dumpEntries depth entries = .ok parts) : ∀ p ∈ parts, Printable p := by
  match entries with
  | [] =>
    cases h
    nofun
  | (key, v) :: entries =>
    obtain ⟨part, parts', hpart, hparts, rfl⟩ := dumpEntries_cons.mp h
    rw [List.forall_mem_cons, printable_append, printable_append]
    exact ⟨⟨⟨printable_quote key, by decide⟩, printable_dumps v hpart⟩,
      printable_dumpEntries entries hparts⟩

end

mutual

/-- More depth changes nothing that was written. -/
theorem dumps_depth {depth depth' : Nat} (hle : depth ≤ depth') (v : Json) {s : Str}
    (h : dumps depth v = .ok s) : dumps depth' v = .ok s := by
  match v with
  | .null => exact h
  | .bool true => exact h
  | .bool false => exact h
  | .int n => exact h
  | .float x => exact h
  | .str u => exact h
  | .list items =>
    cases depth with
    | zero => cases h
    | succ depth =>
      obtain ⟨depth', rfl⟩ := Nat.exists_eq_add_of_le' (Nat.lt_of_lt_of_le (Nat.succ_pos depth) hle)
      obtain ⟨parts, hparts, rfl⟩ := Except.map_eq_ok.mp h
      have hmore := dumpItems_depth (Nat.le_of_succ_le_succ hle) items hparts
      exact Except.map_eq_ok.mpr ⟨parts, hmore, rfl⟩
  | .dict entries =>
    cases depth with
    | zero => cases h
    | succ depth =>
      obtain ⟨depth', rfl⟩ := Nat.exists_eq_add_of_le' (Nat.lt_of_lt_of_le (Nat.succ_pos depth) hle)
      obtain ⟨parts, hparts, rfl⟩ := Except.map_eq_ok.mp h
      have hmore := dumpEntries_depth (Nat.le_of_succ_le_succ hle) entries hparts
      exact Except.map_eq_ok.mpr ⟨parts, hmore, rfl⟩

theorem dumpItems_depth {depth depth' : Nat} (hle : depth ≤ depth') (items : List Json)
    {parts : List Str} (h : dumpItems depth items = .ok parts) :
    dumpItems depth' items = .ok parts := by
  match items with
  | [] => exact h
  | v :: items =>
    obtain ⟨part, parts', hpart, hparts, rfl⟩ := dumpItems_cons.mp h
    exact dumpItems_cons.mpr
      ⟨part, parts', dumps_depth hle v hpart, dumpItems_depth hle items hparts, rfl⟩

theorem dumpEntries_depth {depth depth' : Nat} (hle : depth ≤ depth') (entries : List (Str × Json))
    {parts : List Str} (h : dumpEntries depth entries = .ok parts) :
    dumpEntries depth' entries = .ok parts := by
  match entries with
  | [] => exact h
  | (key, v) :: entries =>
    obtain ⟨part, parts', hpart, hparts, rfl⟩ := dumpEntries_cons.mp h
    exact dumpEntries_cons.mpr
      ⟨part, parts', dumps_depth hle v hpart, dumpEntries_depth hle entries hparts, rfl⟩

end

end Python.Json
