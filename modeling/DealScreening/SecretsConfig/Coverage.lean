-- SUMMARY: When redaction removes exactly the characters of registered values, in any order of registration: when no occurrences get in each other's way and no secret is in a list.
import DealScreening.SecretsConfig.Redaction

/-!
# What redaction covers

The characters of a text carry their positions through the scans, and those of a placeholder
carry none, so that what is left of the text can be told from what was put into it.
-/

open Python Replacing

namespace RedactionRegistry

/-- A character with its position in the text, or of a placeholder. -/
abbrev Marked := Nat × Option Nat

def mark (t : Str) : List Marked := t.zipIdx.map fun c => (c.1, some c.2)

def markedPlaceholder : List Marked := placeholder.map fun c => (c, none)

/-- `redactValue` on characters that carry their positions. -/
def redactValueMarked (s : List Marked) (value : Str) : List Marked :=
  if value ≠ [] ∧ Str.hasSubstring value (s.map Prod.fst) = true then
    replace Prod.fst value markedPlaceholder s
  else s

/-- `redact` on characters that carry their positions. -/
def redactMarked (values : List Str) (t : Str) : List Marked := values.foldl redactValueMarked (mark t)

/-- The position lies inside an occurrence of a value. -/
def Covered (values : List Str) (t : Str) (i : Nat) : Prop :=
  ∃ v ∈ values, ∃ j < i + 1, i < j + v.length ∧ v <+: t.drop j

instance (values : List Str) (t : Str) (i : Nat) : Decidable (Covered values t i) := by
  unfold Covered
  infer_instance

/-- The character is one of the text, outside all occurrences. -/
def isKept (values : List Str) (t : Str) (c : Marked) : Bool :=
  c.2.any fun i => decide ¬ Covered values t i

/-- Between placeholders stand exactly the characters outside all occurrences. -/
def Covers (values : List Str) (t : Str) (s : List Marked) : Prop :=
  ∃ tokens : List (Option Marked),
    s = tokens.flatMap (fun token => token.elim markedPlaceholder fun c => [c]) ∧
      tokens.filterMap id = (mark t).filter (isKept values t)

/-- A string is left with what is outside all occurrences. -/
def StrCovered (values : List Str) (s s' : Str) : Prop :=
  ∃ m : List Marked, m.map Prod.fst = s' ∧ Covers values s m

mutual

/-- The same of every string in a value. What is under a blocked key may be blanked. -/
inductive ItemCovered [Runtime] (values : List Str) (r : RedactionRegistry) : Json → Json → Prop
  | str {s s' : Str} (h : StrCovered values s s') : ItemCovered values r (.str s) (.str s')
  | dict {entries entries' : List (Str × Json)} (h : EntriesCovered values r entries entries') :
    ItemCovered values r (.dict entries) (.dict entries')
  | list {items items' : List Json} (h : ItemsCovered values r items items') :
    ItemCovered values r (.list items) (.list items')
  | null : ItemCovered values r .null .null
  | bool {b : Bool} : ItemCovered values r (.bool b) (.bool b)
  | int {n : Int} : ItemCovered values r (.int n) (.int n)
  | float {x : Float} : ItemCovered values r (.float x) (.float x)

inductive ItemsCovered [Runtime] (values : List Str) (r : RedactionRegistry) :
    List Json → List Json → Prop
  | nil : ItemsCovered values r [] []
  | cons {v w : Json} {items items' : List Json} (h : ItemCovered values r v w)
      (hrest : ItemsCovered values r items items') : ItemsCovered values r (v :: items) (w :: items')

inductive EntriesCovered [Runtime] (values : List Str) (r : RedactionRegistry) :
    List (Str × Json) → List (Str × Json) → Prop
  | nil : EntriesCovered values r [] []
  | blanked {key : Str} {v : Json} {entries entries' : List (Str × Json)} (h : r.isBlocked key = true)
      (hrest : EntriesCovered values r entries entries') :
    EntriesCovered values r ((key, v) :: entries) ((key, .str placeholder) :: entries')
  | entry {key : Str} {v w : Json} {entries entries' : List (Str × Json)} (h : ItemCovered values r v w)
      (hrest : EntriesCovered values r entries entries') :
    EntriesCovered values r ((key, v) :: entries) ((key, w) :: entries')

end

/-- The registry after the calls of `register_value`; a call that raises leaves it as it is. -/
def registerCalls (calls : List Str) (r : RedactionRegistry) : RedactionRegistry :=
  calls.foldl (fun r value => ((r.registerValue value).toOption).getD r) r

/-- The values whose calls do not raise. -/
def accepted (calls : List Str) : List Str := calls.filter fun value => value.encode.isOk

/-- A registry that knows some names and was called with some values. -/
def registryOf (names calls : List Str) : RedactionRegistry :=
  registerCalls calls { empty with secretNames := names }

/-- What the registry guarantees for a text and for the fields of a log record. -/
structure Guarantees [Runtime] (names calls : List Str) (t : Str) (fields : List (Str × Json)) :
    Prop where
  text : Covers (accepted calls) t (redactMarked (registryOf names calls).knownValues t)
  order : ∀ calls', calls'.Perm calls →
    (registryOf names calls').redact t = (registryOf names calls).redact t
  dict : EntriesCovered (accepted calls) (registryOf names calls) fields
    (redactDict (registryOf names calls) fields)

-- ---------------------------------------------------------------------------
-- Texts in which nothing is in the way
-- ---------------------------------------------------------------------------

/-- The text can be cut into characters and occurrences of values, so that every occurrence of
    a value begins in a piece of that value and its characters are all in such pieces. With
    pieces of another value in the text, a value overlaps no placeholder. -/
structure Cut (values : List Str) (t : Str) (pieces : List (Piece Marked)) : Prop where
  text : pieces.flatMap Piece.str = mark t
  secrets : ∀ bs, Piece.secret bs ∈ pieces → bs.map Prod.fst ∈ values
  begins : BeginsInOwn Prod.fst values pieces
  covers : ∀ i, Covered values t i → ∃ bs, pieceAt pieces i = some (.secret bs)
  apart : ∀ v ∈ values, ∀ bs, Piece.secret bs ∈ pieces → bs.map Prod.fst ≠ v → Apart v placeholder

mutual

/-- No value occurs in a string. -/
def ItemFree (values : List Str) : Json → Prop
  | .str s => ∀ v ∈ values, ¬ v <:+: s
  | .dict entries => EntriesFree values entries
  | .list items => ItemsFree values items
  | _ => True

def ItemsFree (values : List Str) : List Json → Prop
  | [] => True
  | v :: items => ItemFree values v ∧ ItemsFree values items

def EntriesFree (values : List Str) : List (Str × Json) → Prop
  | [] => True
  | (_, v) :: entries => ItemFree values v ∧ EntriesFree values entries

end

mutual

/-- The strings that are scanned can be cut, and no value occurs in a list. -/
def ItemFine [Runtime] (values : List Str) (r : RedactionRegistry) : Json → Prop
  | .str s => ∃ pieces, Cut values s pieces
  | .dict entries => EntriesFine values r entries
  | .list items => ItemsFree values items
  | _ => True

def EntriesFine [Runtime] (values : List Str) (r : RedactionRegistry) : List (Str × Json) → Prop
  | [] => True
  | (key, v) :: entries => (r.isBlocked key = false → ItemFine values r v) ∧ EntriesFine values r entries

end

/-- Nothing gets in the way of the scans. -/
structure Unobstructed [Runtime] (names calls : List Str) (t : Str) (fields : List (Str × Json)) :
    Prop where
  collision : ∀ v ∈ calls, ∀ w ∈ calls, ∀ bytes bytes', v.encode = .ok bytes → w.encode = .ok bytes' →
    Hashlib.sha256 bytes = Hashlib.sha256 bytes' → v = w
  text : ∃ pieces, Cut (accepted calls) t pieces
  fields : EntriesFine (accepted calls) (registryOf names calls) fields

-- ---------------------------------------------------------------------------
-- Scans of marked texts
-- ---------------------------------------------------------------------------

theorem map_mark (t : Str) : (mark t).map Prod.fst = t := by
  rw [mark, List.map_map]
  exact List.zipIdx_map_fst 0 t

theorem map_markedPlaceholder : markedPlaceholder.map Prod.fst = placeholder := by
  rw [markedPlaceholder, List.map_map]
  exact List.map_id _

/-- A value that does not occur is as good as scanned for. -/
theorem redactValueMarked_eq {s : List Marked} {value : Str} (hne : value ≠ []) :
    redactValueMarked s value = replace Prod.fst value markedPlaceholder s := by
  unfold redactValueMarked
  split
  · rfl
  · rename_i hnot
    refine (replace_of_absent fun hpart => hnot ⟨hne, ?_⟩).symm
    simpa [Str.hasSubstring] using hpart

theorem map_redactValueMarked (s : List Marked) (value : Str) :
    (redactValueMarked s value).map Prod.fst = redactValue (s.map Prod.fst) value := by
  unfold redactValueMarked redactValue
  split
  · rw [map_replace, map_markedPlaceholder]
  · rfl

/-- Without the positions it is `redact`. -/
theorem map_redactMarked (r : RedactionRegistry) (t : Str) :
    (redactMarked r.knownValues t).map Prod.fst = r.redact t := by
  unfold redactMarked redact
  conv_rhs => rw [← map_mark t]
  generalize mark t = s
  induction r.knownValues generalizing s with
  | nil => rfl
  | cons v values ih => rw [List.foldl_cons, List.foldl_cons, ih, map_redactValueMarked]

section
variable {values : List Str} {t : Str} {pieces : List (Piece Marked)}

/-- Once all values have been scanned for, all their pieces are placeholders. -/
theorem redactMarked_eq (hne : [] ∉ values) (hcut : Cut values t pieces) {known : List Str}
    (hnodup : known.Nodup) (hsame : ∀ v, v ∈ known ↔ v ∈ values) :
    redactMarked known t = pieces.flatMap (Piece.after Prod.fst markedPlaceholder values) := by
  have hscans : ∀ vs done : List Str, vs.Nodup → (∀ v ∈ vs, v ∈ values ∧ v ∉ done) →
      vs.foldl redactValueMarked (pieces.flatMap (Piece.after Prod.fst markedPlaceholder done)) =
        pieces.flatMap (Piece.after Prod.fst markedPlaceholder (vs.reverse ++ done)) := by
    intro vs
    induction vs with
    | nil => exact fun _ _ _ => rfl
    | cons v vs ih =>
      intro done hvs hmem
      obtain ⟨hfresh, hvs⟩ := List.nodup_cons.mp hvs
      obtain ⟨hv, hdone⟩ := hmem v (List.mem_cons_self ..)
      have hvne : v ≠ [] := fun heq => hne (heq ▸ hv)
      have hapart : ApartInside Prod.fst markedPlaceholder v pieces := by
        rw [ApartInside, map_markedPlaceholder]
        exact hcut.apart v hv
      rw [List.foldl_cons, redactValueMarked_eq hvne, replace_after hv hvne hdone hapart hcut.begins,
        ih _ hvs]
      · simp
      · intro w hw
        obtain ⟨hw', hwdone⟩ := hmem w (List.mem_cons_of_mem v hw)
        exact ⟨hw', List.not_mem_cons_of_ne_of_not_mem (fun heq => hfresh (heq ▸ hw)) hwdone⟩
  have hstart : mark t = pieces.flatMap (Piece.after Prod.fst markedPlaceholder []) := by
    rw [← hcut.text]
    refine List.flatMap_congr fun p _ => ?_
    cases p with
    | plain b => rfl
    | secret bs => rw [Piece.after_secret, if_neg List.not_mem_nil, Piece.str]
  rw [redactMarked, hstart,
    hscans known [] hnodup fun v hv => ⟨(hsame v).mp hv, List.not_mem_nil⟩]
  refine List.flatMap_congr fun p _ => ?_
  cases p with
  | plain b => rfl
  | secret bs =>
    rw [Piece.after_secret, Piece.after_secret]
    simp [hsame]

theorem getElem?_mark {i : Nat} {c : Marked} (h : (mark t)[i]? = some c) : c.2 = some i := by
  rw [mark, List.getElem?_map, List.getElem?_zipIdx] at h
  obtain ⟨ch, -, rfl⟩ := by simpa using h
  rfl

/-- A kept character, or a placeholder for a piece. -/
def token : Piece Marked → Option Marked
  | .plain c => some c
  | .secret _ => none

/-- What is left then are the characters outside all occurrences. -/
theorem covers_of_cut (hcut : Cut values t pieces) :
    Covers values t (pieces.flatMap (Piece.after Prod.fst markedPlaceholder values)) := by
  refine ⟨pieces.map token, ?_, ?_⟩
  · rw [List.flatMap_map]
    refine List.flatMap_congr fun p hp => ?_
    cases p with
    | plain c => rfl
    | secret bs =>
      rw [Piece.after_secret, if_pos (hcut.secrets bs hp)]
      rfl
  · suffices hpost : ∀ pre post, pieces = pre ++ post →
        (post.map token).filterMap id = (post.flatMap Piece.str).filter (isKept values t) by
      rw [hpost [] pieces rfl, hcut.text]
    intro pre post
    induction post generalizing pre with
    | nil => exact fun _ => rfl
    | cons p post ih =>
      intro heq
      have hrest := ih (pre ++ [p]) (by simp [heq])
      have htext : mark t = pre.flatMap Piece.str ++ (p.str ++ post.flatMap Piece.str) := by
        rw [← hcut.text, heq, List.flatMap_append, List.flatMap_cons]
      have hposition : ∀ k c, p.str[k]? = some c → c.2 = some ((pre.flatMap Piece.str).length + k) := by
        intro k c hk
        have hlt := (List.getElem?_eq_some_iff.mp hk).1
        refine getElem?_mark (t := t) ?_
        rw [htext, List.getElem?_append_right (by omega), Nat.add_sub_cancel_left,
          List.getElem?_append_left hlt, hk]
      rw [List.flatMap_cons, List.filter_append, ← hrest]
      cases p with
      | plain c =>
        have hfree : ¬ Covered values t (pre.flatMap Piece.str).length := by
          intro hcovered
          obtain ⟨bs, hpiece⟩ := hcut.covers _ hcovered
          have hhere := pieceAt_append pre (.plain c :: post) 0
          rw [Nat.add_zero, ← heq, hpiece] at hhere
          cases hhere
        have hkept : isKept values t c = true := by
          rw [isKept, hposition 0 c rfl]
          simpa using hfree
        simp [token, Piece.str, hkept]
      | secret bs =>
        have hgone : bs.filter (isKept values t) = [] := by
          refine List.filter_eq_nil_iff.mpr fun c hc => ?_
          obtain ⟨k, hk⟩ := List.mem_iff_getElem?.mp hc
          have hlt := (List.getElem?_eq_some_iff.mp hk).1
          have hcovered : Covered values t ((pre.flatMap Piece.str).length + k) := by
            refine ⟨bs.map Prod.fst, hcut.secrets bs (by simp [heq]), (pre.flatMap Piece.str).length,
              by omega, by simpa using hlt, ?_⟩
            rw [← map_mark t, htext, List.map_append, List.drop_left' (by simp), List.map_append]
            exact List.prefix_append ..
          rw [isKept, hposition k c hk]
          simpa using hcovered
        rw [show (Piece.secret bs).str = bs from rfl, hgone, List.nil_append, List.map_cons,
          List.filterMap_cons_none rfl]

theorem covers_of_free (hfree : ∀ v ∈ values, ¬ v <:+: t) : Covers values t (mark t) := by
  refine ⟨(mark t).map some, by simp [List.flatMap_map], ?_⟩
  rw [List.filterMap_map, List.filter_eq_self.mpr]
  · exact List.filterMap_some
  · intro c hc
    obtain ⟨i, hi⟩ := List.mem_iff_getElem?.mp hc
    have hclear : ¬ Covered values t i := fun ⟨v, hv, j, _, _, hfront⟩ =>
      hfree v hv (hfront.isInfix.trans (List.drop_suffix j t).isInfix)
    rw [isKept, getElem?_mark hi]
    simpa using hclear

end

-- ---------------------------------------------------------------------------
-- Fields of a record
-- ---------------------------------------------------------------------------

section
variable [Runtime] {values : List Str} {r : RedactionRegistry}

mutual

theorem itemCovered_of_free : ∀ {v : Json}, ItemFree values v → ItemCovered values r v v
  | .null, _ => .null
  | .bool _, _ => .bool
  | .int _, _ => .int
  | .float _, _ => .float
  | .str s, h => .str ⟨mark s, map_mark s, covers_of_free h⟩
  | .list _, h => .list (itemsCovered_of_free h)
  | .dict _, h => .dict (entriesCovered_of_free h)

theorem itemsCovered_of_free : ∀ {items : List Json}, ItemsFree values items →
    ItemsCovered values r items items
  | [], _ => .nil
  | _ :: _, h => .cons (itemCovered_of_free h.1) (itemsCovered_of_free h.2)

theorem entriesCovered_of_free : ∀ {entries : List (Str × Json)}, EntriesFree values entries →
    EntriesCovered values r entries entries
  | [], _ => .nil
  | _ :: _, h => .entry (itemCovered_of_free h.1) (entriesCovered_of_free h.2)

end

/-- The values are those the registry knows, none of them empty. -/
structure Scannable (values : List Str) (r : RedactionRegistry) : Prop where
  nonempty : [] ∉ values
  nodup : r.knownValues.Nodup
  known : ∀ v, v ∈ r.knownValues ↔ v ∈ values

omit [Runtime] in
theorem redactMarked_covers (hr : Scannable values r) {s : Str} {pieces : List (Piece Marked)}
    (hcut : Cut values s pieces) : Covers values s (redactMarked r.knownValues s) := by
  rw [redactMarked_eq hr.nonempty hcut hr.nodup hr.known]
  exact covers_of_cut hcut

mutual

theorem redactItem_covered (hr : Scannable values r) :
    ∀ v : Json, ItemFine values r v → ItemCovered values r v (redactItem r v)
  | .null, _ => .null
  | .bool _, _ => .bool
  | .int _, _ => .int
  | .float _, _ => .float
  | .str s, ⟨_, hcut⟩ => .str ⟨redactMarked r.knownValues s, map_redactMarked r s, redactMarked_covers hr hcut⟩
  | .list _, h => .list (itemsCovered_of_free h)
  | .dict entries, h => .dict (redactDict_covered hr entries h)

theorem redactDict_covered (hr : Scannable values r) :
    ∀ entries : List (Str × Json), EntriesFine values r entries →
      EntriesCovered values r entries (redactDict r entries)
  | [], _ => .nil
  | (key, v) :: entries, h => by
    rw [redactDict]
    by_cases hblocked : r.isBlocked key = true
    · rw [if_pos hblocked]
      exact .blanked hblocked (redactDict_covered hr entries h.2)
    · rw [if_neg hblocked]
      exact .entry (redactItem_covered hr v (h.1 (by simpa using hblocked))) (redactDict_covered hr entries h.2)

end

end

-- ---------------------------------------------------------------------------
-- Calls of the registry
-- ---------------------------------------------------------------------------

/-- The calls tell apart what they register, so each accepted value is known. -/
theorem knownValues_registerCalls {calls : List Str} {r : RedactionRegistry} (before : List Str)
    (hcollision : ∀ v ∈ before ++ calls, ∀ w ∈ before ++ calls, ∀ bytes bytes',
      v.encode = .ok bytes → w.encode = .ok bytes' →
        Hashlib.sha256 bytes = Hashlib.sha256 bytes' → v = w)
    (hhashes : r.HashesKnown) (hknown : ∀ v, v ∈ r.knownValues ↔ v ∈ accepted before) (v : Str) :
    v ∈ (registerCalls calls r).knownValues ↔ v ∈ accepted (before ++ calls) := by
  induction calls generalizing r before with
  | nil => rw [List.append_nil]; exact hknown v
  | cons value calls ih =>
    have hsplit : before ++ value :: calls = (before ++ [value]) ++ calls := by simp
    rw [hsplit] at hcollision ⊢
    change v ∈ (registerCalls calls (((r.registerValue value).toOption).getD r)).knownValues ↔ _
    unfold registerValue
    cases hencoded : value.encode with
    | error e =>
      refine ih _ hcollision hhashes fun w => (hknown w).trans ?_
      simp [accepted, List.filter_append, hencoded, Except.isOk, Except.toBool]
    | ok bytes =>
      refine ih _ hcollision (hhashes.add hencoded) fun w => ?_
      have haccepted : w ∈ accepted (before ++ [value]) ↔ w ∈ accepted before ∨ w = value := by
        simp [accepted, List.filter_append, hencoded, Except.isOk, Except.toBool]
      rw [haccepted, ← hknown]
      change w ∈ (r.add value bytes).knownValues ↔ _
      constructor
      · exact mem_knownValues_add
      · rintro (hold | rfl)
        · exact knownValues_subset_add hold
        · obtain ⟨w', hw', bytes', hbytes', hhash⟩ := (hhashes.add hencoded) _ mem_valueHashes_add
          rcases mem_knownValues_add hw' with hold | hself
          · have hbefore := List.mem_of_mem_filter ((hknown w').mp hold)
            have hsame : w' = w :=
              hcollision w' (by simp [hbefore]) w (by simp) bytes' bytes hbytes' hencoded hhash
            rwa [hsame] at hw'
          · rwa [hself] at hw'

theorem mem_knownValues_registryOf {names calls : List Str}
    (hcollision : ∀ v ∈ calls, ∀ w ∈ calls, ∀ bytes bytes', v.encode = .ok bytes →
      w.encode = .ok bytes' → Hashlib.sha256 bytes = Hashlib.sha256 bytes' → v = w) (v : Str) :
    v ∈ (registryOf names calls).knownValues ↔ v ∈ accepted calls :=
  knownValues_registerCalls [] hcollision (fun _ hmem => absurd hmem List.not_mem_nil)
    (fun _ => Iff.rfl) v

theorem nodup_registryOf (names calls : List Str) : (registryOf names calls).knownValues.Nodup := by
  suffices hall : ∀ (calls : List Str) (r : RedactionRegistry), r.Deduplicated →
      (registerCalls calls r).Deduplicated from
    (hall calls _ ⟨List.nodup_nil, fun _ hmem => absurd hmem List.not_mem_nil⟩).nodup
  intro calls
  induction calls with
  | nil => exact fun _ hr => hr
  | cons value calls ih =>
    intro r hr
    refine ih _ ?_
    change (((r.registerValue value).toOption).getD r).Deduplicated
    unfold registerValue
    cases hencoded : value.encode with
    | error e => exact hr
    | ok bytes => exact hr.add hencoded

/-- What is left of the text was to be kept. -/
theorem Covers.isKept {values : List Str} {t : Str} {s : List Marked} (h : Covers values t s)
    {c : Marked} (hc : c ∈ s) (hposition : c.2 ≠ none) : isKept values t c = true := by
  obtain ⟨tokens, rfl, hkept⟩ := h
  obtain ⟨token, htoken, hmem⟩ := List.mem_flatMap.mp hc
  cases token with
  | none =>
    obtain ⟨ch, -, rfl⟩ := List.mem_map.mp hmem
    exact absurd rfl hposition
  | some c' =>
    cases List.mem_singleton.mp hmem
    have hleft : c ∈ tokens.filterMap id := List.mem_filterMap.mpr ⟨some c, htoken, rfl⟩
    rw [hkept] at hleft
    exact (List.mem_filter.mp hleft).2

-- ---------------------------------------------------------------------------
-- Values in and out of each other's way
-- ---------------------------------------------------------------------------

/-- A text that is one registered value. -/
def oneValue : List (Piece Marked) := [.secret (mark (text "abc"))]

theorem cut_oneValue : Cut [text "abc"] (text "abc") oneValue where
  text := by decide
  secrets bs hbs := by
    cases List.mem_singleton.mp hbs
    decide
  begins v hv i hfront := by
    cases List.mem_singleton.mp hv
    have hle := hfront.length_le
    rw [List.length_map, List.length_drop] at hle
    change 3 ≤ 3 - i at hle
    obtain rfl : i = 0 := by omega
    exact ⟨_, rfl, by decide⟩
  covers i hcovered := by
    obtain ⟨v, hv, j, hj, hi, hfront⟩ := hcovered
    cases List.mem_singleton.mp hv
    have hle := hfront.length_le
    rw [List.length_drop] at hle
    change 3 ≤ 3 - j at hle
    have hlt : i < (Piece.secret (mark (text "abc"))).str.length := by
      change i < 3
      change i < j + 3 at hi
      omega
    exact ⟨_, if_pos hlt⟩
  apart v hv bs hbs hne := by
    cases List.mem_singleton.mp hv
    cases List.mem_singleton.mp hbs
    exact absurd (by decide) hne

end RedactionRegistry
