-- SUMMARY: The grammar of an extraction response, and which values the validator treats as the grammar says.
import DealScreening.Services.LlmClient
import Mathlib.Data.List.Perm.Basic

/-!
# Grammar of a response

The loop of the validator stops at the first entry it rejects. What it accepts is
the grammar with `truthy` in place of "is a non-empty string", and what makes it
raise something else than `LLMExtractionError` is a value of a type that the
operation it is given to has no case for.
-/

namespace LlmClient

open Python

-- ---------------------------------------------------------------------------
-- The grammar
-- ---------------------------------------------------------------------------

def nonEmptyString : Json → Bool
  | .str s => s ≠ []
  | _ => false

/-- An entry of `fields` for the core field `name`. A field that is not MISSING
    has a value that satisfies `value`. -/
structure FieldEntry (value : Json → Bool) (entries : List (Str × Json)) (name : String) : Prop where
  core : name ∈ coreExtractionFields
  fieldName : get entries "field_name" = .str (text name)
  fieldStatus : ∃ status ∈ validStatuses, get entries "field_status" = .str (text status) ∧
    if status = "MISSING" then get entries "field_value" = .null
    else value (get entries "field_value") = true
  confidence : ∃ confidence ∈ validConfidences, get entries "confidence" = .str (text confidence)

def Entry (value : Json → Bool) (item : Json) (name : String) : Prop :=
  ∃ entries, item = .dict entries ∧ FieldEntry value entries name

/-- `fields` is a list of objects, one for each core field and nothing else. -/
def Grammar (value : Json → Bool) (parsed : Json) : Prop :=
  ∃ entries items names, parsed = .dict entries ∧
    getItem entries (text "fields") = some (.list items) ∧
    List.Forall₂ (Entry value) items names ∧ names.Perm coreExtractionFields

-- ---------------------------------------------------------------------------
-- Values the validator has no case for
-- ---------------------------------------------------------------------------

/-- Lists and objects have no hash. -/
def unhashable : Json → Bool
  | .list _ => true
  | .dict _ => true
  | _ => false

/-- The entry is no object, or the first of its `field_name`, `field_status` and
    `confidence` that is not one of the allowed strings is a list or an object. -/
def EntryMistyped (seen : List String) : Json → Prop
  | .dict entries =>
    unhashable (get entries "field_name") = true ∨
      ∃ name ∈ coreExtractionFields, name ∉ seen ∧ get entries "field_name" = .str (text name) ∧
        (unhashable (get entries "field_status") = true ∨
          (∃ status ∈ validStatuses, get entries "field_status" = .str (text status)) ∧
            unhashable (get entries "confidence") = true)
  | _ => True

/-- A value that is no object and yet passes for one with the key `fields` or
    cannot be searched, or an object whose `fields` has a mistyped entry after
    entries that are all accepted. -/
def Mistyped : Json → Prop
  | .dict entries =>
    ∃ before item after names,
      getItem entries (text "fields") = some (.list (before ++ item :: after)) ∧
        List.Forall₂ (Entry truthy) before names ∧ names.Nodup ∧ EntryMistyped names item
  | .list items => items.any (isStr "fields") = true
  | .str s => Str.hasSubstring (text "fields") s = true
  | _ => True

-- ---------------------------------------------------------------------------
-- One entry
-- ---------------------------------------------------------------------------

theorem text_mem_map {name : String} {names : List String} :
    text name ∈ names.map text ↔ name ∈ names :=
  List.mem_map_of_injective text_injective

theorem toStr_of_hashable [Runtime] {v : Json} (h : unhashable v = false) :
    ∃ shown, v.toStr = .ok shown := by
  have hcalls : v.reprCalls = 0 := by
    cases v <;> first | rfl | cases h
  cases v with
  | str s => exact ⟨s, Json.toStr_eq_ok.mpr ⟨by omega, .inl ⟨s, rfl, rfl⟩⟩⟩
  | list items => cases h
  | dict entries => cases h
  | null => exact ⟨_, Json.toStr_eq_ok.mpr ⟨by omega, .inr ⟨fun _ => nofun, rfl⟩⟩⟩
  | bool b => exact ⟨_, Json.toStr_eq_ok.mpr ⟨by omega, .inr ⟨fun _ => nofun, rfl⟩⟩⟩
  | int n => exact ⟨_, Json.toStr_eq_ok.mpr ⟨by omega, .inr ⟨fun _ => nofun, rfl⟩⟩⟩
  | float x => exact ⟨_, Json.toStr_eq_ok.mpr ⟨by omega, .inr ⟨fun _ => nofun, rfl⟩⟩⟩

section
variable {condition : Bool} {message : Except Error Str} {shown : Str} {α : Type}
  {next : Unit → Except ServiceExn α}

theorem require_true (h : condition = true) : (require condition message >>= next) = next () := by
  simp [require, h, bind, Except.bind]

theorem require_false (h : condition = false) (hshown : message = .ok shown) :
    (require condition message >>= next) = .error (.llmExtractionError shown) := by
  simp [require, h, hshown, bind, Except.bind]

theorem require_false_pure (h : condition = false) :
    require condition (.ok shown) = .error (.llmExtractionError shown) := by
  simp [require, h]

end

/-- The three ways the check that a value is one of the names can go. -/
theorem member_check [Runtime] {α : Type} (names : List String) (v : Json) (message : Str → Str)
    (next : Unit → Except ServiceExn α) :
    let check := memberOf names v >>= fun known => require known (v.toStr.map message) >>= next
    (unhashable v = true ∧ check = .error (.builtin .typeError)) ∨
      (∃ name ∈ names, v = .str (text name) ∧ check = next ()) ∨
      (unhashable v = false ∧ (∀ name ∈ names, v ≠ .str (text name)) ∧
        ∃ shown, check = .error (.llmExtractionError shown)) := by
  intro check
  have absent (hhash : unhashable v = false) (hmem : memberOf names v = .ok false) :
      ∃ shown, check = .error (.llmExtractionError shown) := by
    obtain ⟨shown, hshown⟩ := toStr_of_hashable hhash
    refine ⟨message shown, ?_⟩
    simp [check, hmem, hshown, require, bind, Except.bind, Except.map]
  cases v with
  | list items => exact .inl ⟨rfl, rfl⟩
  | dict entries => exact .inl ⟨rfl, rfl⟩
  | str s =>
    by_cases hs : s ∈ names.map text
    · obtain ⟨name, hname, rfl⟩ := List.mem_map.mp hs
      exact .inr (.inl ⟨name, hname, rfl, by simp [check, memberOf, hs, require, bind, Except.bind]⟩)
    · refine .inr (.inr ⟨rfl, fun name hname heq => ?_, absent rfl (by simp [memberOf, hs])⟩)
      cases heq
      exact hs (List.mem_map_of_mem hname)
  | null => exact .inr (.inr ⟨rfl, fun _ _ => nofun, absent rfl rfl⟩)
  | bool b => exact .inr (.inr ⟨rfl, fun _ _ => nofun, absent rfl rfl⟩)
  | int n => exact .inr (.inr ⟨rfl, fun _ _ => nofun, absent rfl rfl⟩)
  | float x => exact .inr (.inr ⟨rfl, fun _ _ => nofun, absent rfl rfl⟩)

theorem isStr_text (s t : String) : isStr s (.str (text t)) = decide (t = s) := by
  unfold isStr
  exact decide_eq_decide.mpr text_injective.eq_iff

theorem isNone_iff {v : Json} : isNone v = true ↔ v = .null := by
  cases v <;> simp [isNone]

/-- The value fits the status. -/
def ValueFits (status : String) (v : Json) : Prop :=
  if status = "MISSING" then v = .null else truthy v = true

/-- The two checks of the value against the status. -/
theorem value_checks {status : String} {v : Json} (h : status ∈ validStatuses) {α : Type}
    (missing : Str) (empty : Except Error Str) (hempty : ∃ shown, empty = .ok shown)
    (next : Unit → Except ServiceExn α) :
    let check := require (!isStr "MISSING" (.str (text status)) || isNone v) (.ok missing) >>= fun _ =>
      require (!(isStr "FOUND" (.str (text status)) || isStr "INFERRED" (.str (text status))) ||
        truthy v) empty >>= next
    (ValueFits status v ∧ check = next ()) ∨
      (¬ ValueFits status v ∧ ∃ shown, check = .error (.llmExtractionError shown)) := by
  intro check
  obtain ⟨shown, rfl⟩ := hempty
  simp only [validStatuses, List.mem_cons, List.not_mem_nil, or_false] at h
  unfold ValueFits
  simp only [check, isStr_text]
  rcases h with rfl | rfl | rfl
  · cases htruthy : truthy v
    · exact .inr ⟨by simp, shown, by simp [require, bind, Except.bind]⟩
    · exact .inl ⟨by simp, by simp [require, bind, Except.bind]⟩
  · cases htruthy : truthy v
    · exact .inr ⟨by simp, shown, by simp [require, bind, Except.bind]⟩
    · exact .inl ⟨by simp, by simp [require, bind, Except.bind]⟩
  · cases hnone : isNone v
    · refine .inr ⟨?_, missing, by simp [require, bind, Except.bind]⟩
      simp [← isNone_iff, hnone]
    · exact .inl ⟨by simp [isNone_iff.mp hnone], by simp [require, bind, Except.bind]⟩

/-- After an entry's name has passed, its status and confidence decide. -/
theorem entryMistyped_iff {seen : List String} {entries : List (Str × Json)} {name : String}
    (hname : name ∈ coreExtractionFields) (hnew : name ∉ seen)
    (heq : get entries "field_name" = .str (text name)) :
    EntryMistyped seen (.dict entries) ↔
      unhashable (get entries "field_status") = true ∨
        (∃ status ∈ validStatuses, get entries "field_status" = .str (text status)) ∧
          unhashable (get entries "confidence") = true := by
  constructor
  · rintro (h | ⟨_, -, -, -, h⟩)
    · simp [heq, unhashable] at h
    · exact h
  · exact fun h => .inr ⟨name, hname, hnew, heq, h⟩

theorem entry_name {value : Json → Bool} {item : Json} {name name' : String}
    (h : Entry value item name) (h' : Entry value item name') : name = name' := by
  obtain ⟨entries, rfl, h⟩ := h
  obtain ⟨_, heq, h'⟩ := h'
  cases heq
  exact text_injective (Json.str.inj (h.fieldName.symm.trans h'.fieldName))

theorem entry_not_mistyped {value : Json → Bool} {item : Json} {name : String} {seen : List String}
    (h : Entry value item name) : ¬ EntryMistyped seen item := by
  obtain ⟨entries, rfl, h⟩ := h
  obtain ⟨status, -, hstatus, -⟩ := h.fieldStatus
  obtain ⟨confidence, -, hconfidence⟩ := h.confidence
  rintro (hbad | ⟨_, -, -, -, hbad | ⟨-, hbad⟩⟩)
  · simp [h.fieldName, unhashable] at hbad
  · simp [hstatus, unhashable] at hbad
  · simp [hconfidence, unhashable] at hbad

variable [Runtime]

/-- An entry is accepted, or the validator cannot handle its type, or it is rejected. -/
theorem validateField_cases (seen : List String) (item : Json) :
    (∃ name, Entry truthy item name ∧ name ∉ seen ∧
        validateField (seen.map text) item = .ok (text name)) ∨
      (EntryMistyped seen item ∧
        ∃ e, validateField (seen.map text) item = .error (.builtin e)) ∨
      (¬ EntryMistyped seen item ∧ (∀ name, Entry truthy item name → name ∈ seen) ∧
        ∃ shown, validateField (seen.map text) item = .error (.llmExtractionError shown)) := by
  cases item with
  | dict entries =>
    have entry : ∀ name, Entry truthy (.dict entries) name ↔ FieldEntry truthy entries name := by
      simp [Entry]
    simp only [entry, validateField]
    rcases member_check coreExtractionFields (get entries "field_name") _ _ with
      ⟨hhash, hrun⟩ | ⟨name, hname, hnameEq, hrun⟩ | ⟨hhash, hnone, shown, hrun⟩
    · exact .inr (.inl ⟨.inl hhash, _, hrun⟩)
    · have hsame : ∀ name', FieldEntry truthy entries name' → name' = name :=
        fun name' h => text_injective (Json.str.inj (h.fieldName.symm.trans hnameEq))
      rw [hrun]
      simp only [hnameEq]
      by_cases hseen : name ∈ seen
      · refine .inr (.inr ⟨?_, fun name' h => hsame name' h ▸ hseen, _,
          require_false (by simpa [text_mem_map] using hseen) rfl⟩)
        rintro (h | ⟨name', -, hnew, heq, -⟩)
        · simp [hnameEq, unhashable] at h
        · exact hnew (text_injective (Json.str.inj (heq.symm.trans hnameEq)) ▸ hseen)
      rw [require_true (by simpa [text_mem_map] using hseen)]
      simp only [entryMistyped_iff hname hseen hnameEq]
      rcases member_check validStatuses (get entries "field_status") _ _ with
        ⟨hhash, hrun⟩ | ⟨status, hstatus, hstatusEq, hrun⟩ | ⟨hhash, hnone, shown, hrun⟩
      · exact .inr (.inl ⟨.inl hhash, _, hrun⟩)
      · have hstatusHash : unhashable (get entries "field_status") = false := by
          rw [hstatusEq]
          rfl
        rw [hrun]
        rcases member_check validConfidences (get entries "confidence") _ _ with
          ⟨hhash, hrun⟩ | ⟨confidence, hconfidence, hconfidenceEq, hrun⟩ |
            ⟨hhash, hnone, shown, hrun⟩
        · exact .inr (.inl ⟨.inr ⟨⟨status, hstatus, hstatusEq⟩, hhash⟩, _, hrun⟩)
        · have hok : ¬ (unhashable (get entries "field_status") = true ∨
              (∃ status ∈ validStatuses, get entries "field_status" = .str (text status)) ∧
                unhashable (get entries "confidence") = true) := by
            rw [hstatusHash, hconfidenceEq]
            simp [unhashable]
          rw [hrun]
          simp only [hstatusEq]
          rcases value_checks hstatus _ _ ⟨_, rfl⟩ _ with
            ⟨hfits, hrun⟩ | ⟨hfits, shown, hrun⟩
          · refine .inl ⟨name, ⟨hname, hnameEq, ⟨status, hstatus, hstatusEq, hfits⟩,
              confidence, hconfidence, hconfidenceEq⟩, hseen, hrun⟩
          · refine .inr (.inr ⟨hstatusEq ▸ hok, fun name' h => ?_, shown, hrun⟩)
            obtain ⟨status', -, heq, hfits'⟩ := h.fieldStatus
            cases text_injective (Json.str.inj (heq.symm.trans hstatusEq))
            exact absurd hfits' hfits
        · refine .inr (.inr ⟨?_, fun name' h => ?_, shown, hrun⟩)
          · simp [hstatusHash, hhash]
          · obtain ⟨confidence, hconfidence, heq⟩ := h.confidence
            exact absurd heq (hnone confidence hconfidence)
      · refine .inr (.inr ⟨?_, fun name' h => ?_, shown, hrun⟩)
        · rintro (h | ⟨⟨status, hstatus, heq⟩, -⟩)
          · simp [hhash] at h
          · exact hnone status hstatus heq
        · obtain ⟨status, hstatus, heq, -⟩ := h.fieldStatus
          exact absurd heq (hnone status hstatus)
    · refine .inr (.inr ⟨?_, fun name h => absurd h.fieldName (hnone name h.core), shown, hrun⟩)
      rintro (h | ⟨name, hname, -, heq, -⟩)
      · simp [hhash] at h
      · exact hnone name hname heq
  | _ => exact .inr (.inl ⟨trivial, _, rfl⟩)

-- ---------------------------------------------------------------------------
-- The loop
-- ---------------------------------------------------------------------------

/-- The loop goes on where the entries before it were accepted. -/
theorem validateFields_accepted (after : List Json) {before : List Json} {names : List String}
    (h : List.Forall₂ (Entry truthy) before names) (hnodup : names.Nodup) (seen : List String)
    (hfresh : ∀ name ∈ names, name ∉ seen) :
    validateFields (seen.map text) (before ++ after) =
      validateFields ((names.reverse ++ seen).map text) after := by
  induction h generalizing seen with
  | nil => simp
  | @cons item name before names hentry hrest ih =>
    obtain ⟨hnew, hnodup⟩ := List.nodup_cons.mp hnodup
    rcases validateField_cases seen item with
      ⟨name', hentry', -, hrun⟩ | ⟨hbad, -⟩ | ⟨-, hseen, -⟩
    · cases entry_name hentry hentry'
      have hfresh' : ∀ other ∈ names, other ∉ name :: seen := by
        intro other hother hmem
        rcases List.mem_cons.mp hmem with rfl | hmem
        · exact hnew hother
        · exact hfresh other (List.mem_cons_of_mem _ hother) hmem
      simp only [List.cons_append, validateFields, hrun]
      simpa [bind, Except.bind] using ih hnodup (name :: seen) hfresh'
    · exact absurd hbad (entry_not_mistyped hentry)
    · exact absurd (hseen name hentry) (hfresh name (List.mem_cons_self ..))

omit [Runtime] in
theorem entryMistyped_congr {seen seen' : List String} {item : Json}
    (h : ∀ name, name ∈ seen ↔ name ∈ seen') : EntryMistyped seen item ↔ EntryMistyped seen' item := by
  cases item <;> simp [EntryMistyped, h]

/-- The loop accepts every entry, or meets a mistyped one, or rejects one. -/
theorem validateFields_cases (items : List Json) (seen : List String) :
    (∃ names, List.Forall₂ (Entry truthy) items names ∧ names.Nodup ∧ ∀ name ∈ names, name ∉ seen) ∨
      (∃ before item after names, items = before ++ item :: after ∧
        List.Forall₂ (Entry truthy) before names ∧ names.Nodup ∧ (∀ name ∈ names, name ∉ seen) ∧
        EntryMistyped (names ++ seen) item) ∨
      ∃ shown, validateFields (seen.map text) items = .error (.llmExtractionError shown) := by
  induction items generalizing seen with
  | nil => exact .inl ⟨[], .nil, List.nodup_nil, nofun⟩
  | cons item items ih =>
    rcases validateField_cases seen item with
      ⟨name, hentry, hnew, hrun⟩ | ⟨hbad, -⟩ | ⟨-, -, shown, hrun⟩
    · have extend {names : List String} (hnodup : names.Nodup)
          (hfresh : ∀ other ∈ names, other ∉ name :: seen) :
          (name :: names).Nodup ∧ ∀ other ∈ name :: names, other ∉ seen := by
        refine ⟨List.nodup_cons.mpr ⟨fun h => hfresh name h (List.mem_cons_self ..), hnodup⟩, ?_⟩
        rintro other (_ | ⟨_, hother⟩)
        · exact hnew
        · exact fun h => hfresh other hother (List.mem_cons_of_mem _ h)
      rcases ih (name :: seen) with
        ⟨names, hall, hnodup, hfresh⟩ | ⟨before, bad, after, names, rfl, hall, hnodup, hfresh, hbad⟩ |
          ⟨shown, hrest⟩
      · obtain ⟨hnodup', hfresh'⟩ := extend hnodup hfresh
        exact .inl ⟨name :: names, .cons hentry hall, hnodup', hfresh'⟩
      · obtain ⟨hnodup', hfresh'⟩ := extend hnodup hfresh
        refine .inr (.inl ⟨item :: before, bad, after, name :: names, rfl, .cons hentry hall,
          hnodup', hfresh', (entryMistyped_congr fun other => ?_).mp hbad⟩)
        simp only [List.mem_append, List.mem_cons, List.cons_append]
        tauto
      · refine .inr (.inr ⟨shown, ?_⟩)
        simp only [validateFields, hrun]
        simpa [bind, Except.bind] using hrest
    · exact .inr (.inl ⟨[], item, items, [], rfl, .nil, List.nodup_nil, nofun, hbad⟩)
    · exact .inr (.inr ⟨shown, by simp [validateFields, hrun, bind, Except.bind]⟩)

theorem validateFields_all {items : List Json} {names : List String}
    (h : List.Forall₂ (Entry truthy) items names) (hnodup : names.Nodup) :
    validateFields [] items = .ok (names.reverse.map text) := by
  simpa [validateFields] using validateFields_accepted [] h hnodup [] (by simp)

theorem validateFields_mistyped (after : List Json) {before : List Json} {item : Json} {names : List String}
    (h : List.Forall₂ (Entry truthy) before names) (hnodup : names.Nodup)
    (hbad : EntryMistyped names item) :
    ∃ e, validateFields [] (before ++ item :: after) = .error (.builtin e) := by
  have hrun := validateFields_accepted (item :: after) h hnodup [] (by simp)
  have hbad' : EntryMistyped (names.reverse ++ []) item :=
    (entryMistyped_congr (by simp)).mp hbad
  rcases validateField_cases (names.reverse ++ []) item with
    ⟨name, hentry, -, -⟩ | ⟨-, e, hitem⟩ | ⟨hok, -, -⟩
  · exact absurd hbad' (entry_not_mistyped hentry)
  · refine ⟨e, ?_⟩
    rw [List.map_nil] at hrun
    rw [hrun]
    simp only [validateFields, hitem]
    rfl
  · exact absurd hbad' hok

-- ---------------------------------------------------------------------------
-- The response
-- ---------------------------------------------------------------------------

theorem validate_dict {entries : List (Str × Json)} {items : List Json}
    (h : getItem entries (text "fields") = some (.list items)) :
    validateExtractionResponse (.dict entries) = validateFields [] items >>= fun seen =>
      require (coreExtractionFields.filter fun name => text name ∉ seen).isEmpty
        (.ok (text "LLM response missing fields: " ++
          showSet (coreExtractionFields.filter fun name => text name ∉ seen))) := by
  simp [validateExtractionResponse, hasFields, fieldsItem, h, require, bind, Except.bind]

omit [Runtime] in
theorem perm_core {items : List Json} {names : List String}
    (hall : List.Forall₂ (Entry truthy) items names) (hnodup : names.Nodup)
    (hcore : ∀ name ∈ coreExtractionFields, name ∈ names) : names.Perm coreExtractionFields := by
  refine (List.perm_ext_iff_of_nodup hnodup (by decide)).mpr fun name => ⟨fun hname => ?_, hcore name⟩
  obtain ⟨item, -, _, -, hentry⟩ := hall.exists_left hname
  exact hentry.core

theorem validate_of_grammar {parsed : Json} (h : Grammar truthy parsed) :
    validateExtractionResponse parsed = .ok () := by
  obtain ⟨entries, items, names, rfl, hfields, hall, hperm⟩ := h
  have hnodup : names.Nodup := hperm.nodup_iff.mpr (by decide)
  have hnone : (coreExtractionFields.filter fun name => text name ∉ names.reverse.map text) = [] := by
    simp only [List.filter_eq_nil_iff, decide_eq_true_eq, not_not, text_mem_map, List.mem_reverse]
    exact fun name hname => hperm.mem_iff.mpr hname
  rw [validate_dict hfields, validateFields_all hall hnodup]
  simp only [bind, Except.bind, hnone]
  rfl

theorem validate_of_mistyped {parsed : Json} (h : Mistyped parsed) :
    ∃ e, validateExtractionResponse parsed = .error (.builtin e) := by
  cases parsed with
  | dict entries =>
    obtain ⟨before, item, after, names, hfields, hall, hnodup, hbad⟩ := h
    obtain ⟨e, hrun⟩ := validateFields_mistyped after hall hnodup hbad
    exact ⟨e, by rw [validate_dict hfields, hrun]; rfl⟩
  | list items =>
    simp only [Mistyped] at h
    simp [validateExtractionResponse, hasFields, h, fieldsItem, require, bind, Except.bind]
  | str s =>
    simp only [Mistyped] at h
    simp [validateExtractionResponse, hasFields, h, fieldsItem, require, bind, Except.bind]
  | _ => exact ⟨_, rfl⟩

/-- A response is of the grammar, or mistyped, or rejected. -/
theorem validateExtractionResponse_cases (parsed : Json) :
    Grammar truthy parsed ∨ Mistyped parsed ∨
      ∃ shown, validateExtractionResponse parsed = .error (.llmExtractionError shown) := by
  cases parsed with
  | dict entries =>
    cases hfields : getItem entries (text "fields") with
    | none =>
      refine .inr (.inr ⟨text "LLM response missing 'fields' key", ?_⟩)
      simp [validateExtractionResponse, hasFields, hfields, require, bind, Except.bind]
    | some fields =>
      cases fields with
      | list items =>
        rcases validateFields_cases items [] with
          ⟨names, hall, hnodup, -⟩ | ⟨before, item, after, names, rfl, hall, hnodup, -, hbad⟩ |
            ⟨shown, hrun⟩
        · by_cases hcore : ∀ name ∈ coreExtractionFields, name ∈ names
          · exact .inl ⟨entries, items, names, rfl, hfields, hall, perm_core hall hnodup hcore⟩
          · have hmissing : (coreExtractionFields.filter fun name =>
                text name ∉ names.reverse.map text).isEmpty = false := by
              simpa [text_mem_map] using hcore
            have hrun := validate_dict hfields
            rw [validateFields_all hall hnodup, Except.ok_bind, require_false_pure hmissing] at hrun
            exact .inr (.inr ⟨_, hrun⟩)
        · rw [List.append_nil] at hbad
          exact .inr (.inl ⟨before, item, after, names, hfields, hall, hnodup, hbad⟩)
        · rw [List.map_nil] at hrun
          exact .inr (.inr ⟨shown, by rw [validate_dict hfields, hrun]; rfl⟩)
      | _ =>
        refine .inr (.inr ⟨text "'fields' must be a list", ?_⟩)
        simp [validateExtractionResponse, hasFields, fieldsItem, hfields, require, bind, Except.bind]
  | list items =>
    cases h : items.any (isStr "fields") with
    | false =>
      refine .inr (.inr ⟨text "LLM response missing 'fields' key", ?_⟩)
      simp [validateExtractionResponse, hasFields, h, require, bind, Except.bind]
    | true => exact .inr (.inl h)
  | str s =>
    cases h : Str.hasSubstring (text "fields") s with
    | false =>
      refine .inr (.inr ⟨text "LLM response missing 'fields' key", ?_⟩)
      simp [validateExtractionResponse, hasFields, h, require, bind, Except.bind]
    | true => exact .inr (.inl h)
  | _ => exact .inr (.inl trivial)

theorem validate_ok_iff {parsed : Json} :
    validateExtractionResponse parsed = .ok () ↔ Grammar truthy parsed := by
  refine ⟨fun hrun => ?_, validate_of_grammar⟩
  rcases validateExtractionResponse_cases parsed with h | h | ⟨shown, h⟩
  · exact h
  · obtain ⟨e, h⟩ := validate_of_mistyped h
    cases h.symm.trans hrun
  · cases h.symm.trans hrun

-- ---------------------------------------------------------------------------
-- The call
-- ---------------------------------------------------------------------------

theorem loads_nil : ∃ e, Json.loads [] = .error e := by
  unfold Json.loads
  cases Runtime.scanDepth <;> exact ⟨_, rfl⟩

theorem parseReply_eq_ok {raw : Option Str} {json : Json} :
    parseReply raw = .ok json ↔
      ∃ s, raw = some s ∧ Json.loads s = .ok json ∧ Grammar truthy json := by
  constructor
  · intro h
    unfold parseReply at h
    split at h
    · cases h
    · cases h
    · rename_i s hne
      split at h
      · cases h
      · cases h
      · rename_i parsed hparsed
        obtain ⟨⟨⟩, hvalid, h⟩ := Except.bind_eq_ok.mp h
        cases h
        exact ⟨s, rfl, hparsed, validate_ok_iff.mp hvalid⟩
  · rintro ⟨s, rfl, hparsed, hgrammar⟩
    cases s with
    | nil =>
      obtain ⟨e, he⟩ := loads_nil
      cases he.symm.trans hparsed
    | cons c s =>
      simp only [parseReply, hparsed, validate_of_grammar hgrammar]
      rfl

theorem attempts_eq_ok {reply : Nat → LlmReply} {left attempt : Nat} {lastError : Str}
    {json : Json} :
    attempts reply left attempt lastError = .ok json ↔
      ∃ k < left, (∀ i < k, ∃ message, reply (attempt + i) = .apiError message) ∧
        ∃ raw, reply (attempt + k) = .content (some raw) ∧ Json.loads raw = .ok json ∧
          Grammar truthy json := by
  induction left generalizing attempt lastError with
  | zero => simp [attempts]
  | succ left ih =>
    unfold attempts
    constructor
    · intro h
      split at h
      · rename_i message hreply
        obtain ⟨k, hk, herrors, hraw⟩ := ih.mp h
        refine ⟨k + 1, by omega, fun i hi => ?_, by rwa [Nat.add_right_comm] at hraw⟩
        cases i with
        | zero => exact ⟨message, hreply⟩
        | succ i =>
          rw [← Nat.add_assoc, Nat.add_right_comm]
          exact herrors i (by omega)
      · cases h
      · rename_i raw hreply
        obtain ⟨s, rfl, hs, hgrammar⟩ := parseReply_eq_ok.mp h
        exact ⟨0, by omega, nofun, s, hreply, hs, hgrammar⟩
    · rintro ⟨k, hk, herrors, raw, hreply, hs, hgrammar⟩
      cases k with
      | zero =>
        simp only [Nat.add_zero] at hreply
        rw [hreply]
        exact parseReply_eq_ok.mpr ⟨raw, rfl, hs, hgrammar⟩
      | succ k =>
        obtain ⟨message, hfirst⟩ := herrors 0 (by omega)
        simp only [Nat.add_zero] at hfirst
        rw [hfirst]
        refine ih.mpr ⟨k, by omega, fun i hi => ?_, raw, ?_, hs, hgrammar⟩
        · have herror := herrors (i + 1) (by omega)
          rwa [← Nat.add_assoc, Nat.add_right_comm] at herror
        · rwa [← Nat.add_assoc, Nat.add_right_comm] at hreply

-- ---------------------------------------------------------------------------
-- The validator against the grammar
-- ---------------------------------------------------------------------------

omit [Runtime] in
theorem truthy_of_nonEmptyString {v : Json} (h : nonEmptyString v = true) : truthy v = true := by
  cases v <;> simp_all [nonEmptyString, truthy]

omit [Runtime] in
theorem Grammar.truthy {parsed : Json} (h : Grammar nonEmptyString parsed) :
    Grammar LlmClient.truthy parsed := by
  obtain ⟨entries, items, names, hparsed, hfields, hall, hperm⟩ := h
  refine ⟨entries, items, names, hparsed, hfields, hall.imp fun item name hentry => ?_, hperm⟩
  obtain ⟨fields, hitem, h⟩ := hentry
  obtain ⟨status, hmem, hstatus, hvalue⟩ := h.fieldStatus
  refine ⟨fields, hitem, h.core, h.fieldName, ⟨status, hmem, hstatus, ?_⟩, h.confidence⟩
  split
  · simpa [*] using hvalue
  · rename_i hfound
    exact truthy_of_nonEmptyString (by simpa [hfound] using hvalue)

/-- The validator accepts the response when it is of the grammar, and otherwise
    raises `LLMExtractionError`. -/
def ValidatedExactly (parsed : Json) : Prop :=
  (validateExtractionResponse parsed = .ok () ↔ Grammar nonEmptyString parsed) ∧
    (¬ Grammar nonEmptyString parsed →
      ∃ shown, validateExtractionResponse parsed = .error (.llmExtractionError shown))

/-- The validator does what the grammar says unless the response is mistyped, or
    has a value for a found field that is truthy and no string. -/
theorem validated_exactly_iff (parsed : Json) :
    ValidatedExactly parsed ↔
      ¬ Mistyped parsed ∧ (Grammar truthy parsed → Grammar nonEmptyString parsed) := by
  constructor
  · rintro ⟨haccept, hreject⟩
    refine ⟨fun hbad => ?_, fun h => haccept.mp (validate_of_grammar h)⟩
    obtain ⟨e, hrun⟩ := validate_of_mistyped hbad
    have hnot : ¬ Grammar nonEmptyString parsed := by
      intro h
      cases hrun.symm.trans (validate_of_grammar h.truthy)
    obtain ⟨shown, hrun'⟩ := hreject hnot
    cases hrun.symm.trans hrun'
  · rintro ⟨htyped, hstrings⟩
    refine ⟨validate_ok_iff.trans ⟨hstrings, Grammar.truthy⟩, fun hnot => ?_⟩
    rcases validateExtractionResponse_cases parsed with h | h | h
    · exact absurd (hstrings h) hnot
    · exact absurd h htyped
    · exact h

/-- A field that was found, with a number for its value. -/
def numberField (name : String) : Json :=
  .dict [(text "field_name", .str (text name)), (text "field_value", .int 1500),
    (text "field_status", .str (text "FOUND")), (text "confidence", .str (text "HIGH"))]

def numberResponse : Json :=
  .dict [(text "fields", .list (coreExtractionFields.map numberField))]

omit [Runtime] in
theorem number_value_accepted :
    ¬ ∀ (_ : Runtime) (parsed : Json), ValidatedExactly parsed := by
  intro h
  have haccepted : @validateExtractionResponse asciiRuntime numberResponse = .ok () := by
    decide +kernel
  obtain ⟨entries, items, names, hparsed, hfields, hall, -⟩ :=
    (h asciiRuntime numberResponse).1.mp haccepted
  cases hparsed
  have hitems : items = coreExtractionFields.map numberField :=
    (Json.list.inj (Option.some.inj hfields)).symm
  subst hitems
  rcases hall with _ | ⟨⟨_, heq, hfirst⟩, -⟩
  cases heq
  obtain ⟨status, -, hstatus, hvalue⟩ := hfirst.fieldStatus
  have hfound : status = "FOUND" := text_injective (Json.str.inj hstatus).symm
  subst hfound
  cases hvalue

end LlmClient
