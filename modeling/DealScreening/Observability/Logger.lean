-- SUMMARY: The structured logger: how a record is made and formatted, and which records are logged with nothing unscrubbed in them.
import DealScreening.Observability.Leftovers

/-!
# Log records

The formatter scrubs the event and the fields of the caller, and adds the context that the
middleware has set. Fields are scrubbed through dictionaries, not through lists, and neither
the keys nor the text of an exception are scrubbed.
-/

-- ---------------------------------------------------------------------------
-- What stands in a value at any depth
-- ---------------------------------------------------------------------------

namespace Python.Json

mutual

/-- The strings of a value, its keys included. -/
def strings : Json → List Str
  | .str s => [s]
  | .list items => stringsOfItems items
  | .dict entries => stringsOfEntries entries
  | _ => []

def stringsOfItems : List Json → List Str
  | [] => []
  | v :: items => strings v ++ stringsOfItems items

def stringsOfEntries : List (Str × Json) → List Str
  | [] => []
  | (key, v) :: entries => key :: (strings v ++ stringsOfEntries entries)

end

mutual

/-- The entries of all dictionaries of a value. -/
def members : Json → List (Str × Json)
  | .list items => membersOfItems items
  | .dict entries => membersOfEntries entries
  | _ => []

def membersOfItems : List Json → List (Str × Json)
  | [] => []
  | v :: items => members v ++ membersOfItems items

def membersOfEntries : List (Str × Json) → List (Str × Json)
  | [] => []
  | (key, v) :: entries => (key, v) :: (members v ++ membersOfEntries entries)

end

end Python.Json

namespace LogScrubber

open Python Python.Re PiiScrubber

/-- The tables that the logger reads. -/
class LogTables extends ReTables, AsciiCase

@[reducible] def asciiLogTables : LogTables := { asciiTables, asciiCase with }

-- ---------------------------------------------------------------------------
-- Records
-- ---------------------------------------------------------------------------

/-- The context variables. -/
structure LogContext where
  requestId : Str
  tenantId : Str
  userId : Str
  traceId : Str
  spanId : Str

/-- A `LogRecord`, with the attributes that a `StructuredLogger` gives it. -/
structure LogRecord where
  levelname : Str
  /-- What `formatTime` makes of `created`. -/
  time : Str
  /-- `getMessage()`. -/
  message : Str
  event : Option Str
  fields : List (Str × Json)
  durationMs : Option Json
  /-- What `formatException` makes of `exc_info`. -/
  excInfo : Option Str
  /-- `exc_text`, which is empty when it is not set. -/
  excText : Str

/-- `StructuredLogger._log`, which has a parameter `level` of its own. -/
def log (levelname time event : Str) (fields : List (Str × Json)) : Except Error LogRecord :=
  if (getItem fields (text "level")).isSome then .error .typeError
  else .ok
    { levelname
      time
      message := event
      event := some event
      fields := fields.filter fun entry => entry.1 ≠ text "duration_ms"
      durationMs := getItem fields (text "duration_ms")
      excInfo := none
      excText := [] }

/-- `_PROTECTED_KEYS`. -/
def protectedKeys : List Str :=
  [text "request_id", text "tenant_id", text "user_id", text "trace_id", text "span_id",
    text "module", text "ts", text "level", text "event", text "duration_ms"]

/-- The fields that are not protected. -/
def LogRecord.callerFields (record : LogRecord) : List (Str × Json) :=
  record.fields.filter fun entry => !protectedKeys.contains entry.1

/-- The event, or else the message. -/
def LogRecord.title (record : LogRecord) : Str := record.event.getD record.message

/-- The text of the exception. -/
def LogRecord.exception (record : LogRecord) : Str :=
  if record.excText = [] then record.excInfo.getD [] else record.excText

section
variable [ReTables]

/-- The object that `StructuredFormatter.format` writes. -/
def format (ctx : LogContext) (moduleName : Str) (record : LogRecord) : List (Str × Json) :=
  let callerFields := scrubFields record.callerFields
  [(text "ts", .str record.time),
    (text "level", .str record.levelname),
    (text "event", .str (scrubValue record.title)),
    (text "request_id", .str ctx.requestId),
    (text "trace_id", .str ctx.traceId),
    (text "span_id", .str ctx.spanId),
    (text "tenant_id", .str ctx.tenantId),
    (text "user_id", .str ctx.userId),
    (text "module", .str moduleName),
    (text "duration_ms", record.durationMs.getD .null)] ++
  (if callerFields.isEmpty then [] else [(text "fields", .dict callerFields)]) ++
  (if record.exception = [] then [] else [(text "exception", .str record.exception)])

-- ---------------------------------------------------------------------------
-- What is promised
-- ---------------------------------------------------------------------------

/-- What is under a blocked key is the marker. -/
def Blanked (v : Json) : Prop := ∀ p ∈ v.members, isBlocked p.1 = true → p.2 = .str marker

/-- Every string of the value is scrubbed. -/
def AllScrubbed (v : Json) : Prop := ∀ s ∈ v.strings, Scrubbed s

/-- Nothing unscrubbed is logged, and the context is that of the request. -/
structure NothingUnscrubbed (ctx : LogContext) (entry : List (Str × Json)) : Prop where
  texts : ∀ key ∈ [text "event", text "fields", text "exception"], ∀ v ∈ getItem entry key, AllScrubbed v
  secrets : Blanked (.dict entry)
  requestId : getItem entry (text "request_id") = some (.str ctx.requestId)
  tenantId : getItem entry (text "tenant_id") = some (.str ctx.tenantId)
  userId : getItem entry (text "user_id") = some (.str ctx.userId)
  traceId : getItem entry (text "trace_id") = some (.str ctx.traceId)

-- ---------------------------------------------------------------------------
-- The records that keep it
-- ---------------------------------------------------------------------------

/-- No address or number comes to light when the keys are taken out of the string. -/
def Apart (s : Str) : Prop :=
  ∀ x ∈ betweenKeys (beforeKeys s), ∀ rule ∈ addresses, ¬ TouchesEnd rule.re x

mutual

/-- A field that is safe to log: what the scrubber does not go into has nothing to scrub. -/
def FieldSafe : Json → Prop
  | .str s => Apart s
  | .dict fields => FieldsSafe fields
  | v => AllScrubbed v ∧ Blanked v

def FieldsSafe : List (Str × Json) → Prop
  | [] => True
  | (key, v) :: fields => Scrubbed key ∧ (isBlocked key = false → FieldSafe v) ∧ FieldsSafe fields

end

/-- A record that is safe to log. -/
structure Safe (record : LogRecord) : Prop where
  title : Apart record.title
  fields : FieldsSafe record.callerFields
  duration : Blanked (record.durationMs.getD .null)
  exception : Scrubbed record.exception

end

-- ---------------------------------------------------------------------------
-- Fields
-- ---------------------------------------------------------------------------

section
variable [ReTables] {key : Str} {v : Json} {fields : List (Str × Json)}

theorem blanked_cons : Blanked (.dict ((key, v) :: fields)) ↔
    (isBlocked key = true → v = .str marker) ∧ Blanked v ∧ Blanked (.dict fields) := by
  simp only [Blanked, Json.members, Json.membersOfEntries, List.forall_mem_cons, List.forall_mem_append]

theorem allScrubbed_cons : AllScrubbed (.dict ((key, v) :: fields)) ↔
    Scrubbed key ∧ AllScrubbed v ∧ AllScrubbed (.dict fields) := by
  simp only [AllScrubbed, Json.strings, Json.stringsOfEntries, List.forall_mem_cons, List.forall_mem_append]

theorem blanked_nil : Blanked (.dict []) := fun _ h => by cases h

theorem allScrubbed_nil : AllScrubbed (.dict []) := fun _ h => by cases h

theorem blanked_str {s : Str} : Blanked (.str s) := fun _ h => by cases h

theorem allScrubbed_str {s : Str} : AllScrubbed (.str s) ↔ Scrubbed s := by
  simp [AllScrubbed, Json.strings]

/-- What holds no match is scrubbed, and so is the marker. -/
theorem scrubbed_of_absent {s : Str} (hs : ∀ p ∈ patterns, finditer (find p.1) s = []) : Scrubbed s := by
  intro p hp m hm
  rw [hs p hp] at hm
  cases hm

theorem scrubbed_marker : Scrubbed marker := by
  refine scrubbed_of_absent fun p hp => ?_
  rcases List.mem_append.1 hp with haddress | htoken
  · obtain ⟨rule, hrule, rfl⟩ := List.mem_map.1 haddress
    have hwall := wall_redacted rule hrule
    have habsent : Absent rule.re marker := by
      have hparts := @absent_append_bracketed _ rule.re redacted [] [] hwall
      rw [List.nil_append, List.append_nil] at hparts
      exact hparts.2 ⟨absent_nil hwall.nonempty, absent_nil hwall.nonempty⟩
    rw [finditer, (absent_iff (finds_find rule.re) hwall.nonempty).1 habsent]
    rfl
  · simp only [tokens, List.mem_cons, List.not_mem_nil, or_false] at htoken
    rcases htoken with rfl | rfl | rfl <;> rfl

theorem scrubbed_empty : Scrubbed [] := scrubbed_of_absent fun _ _ => rfl

mutual

/-- A scrubbed field has nothing unscrubbed when it was safe, and not otherwise. -/
theorem scrubField_iff (v : Json) :
    AllScrubbed (scrubField v) ∧ Blanked (scrubField v) ↔ FieldSafe v := by
  cases v with
  | str s =>
    rw [scrubField, FieldSafe, allScrubbed_str, and_iff_left blanked_str]
    exact scrubbed_scrubValue_iff s
  | dict fields => exact scrubFields_iff fields
  | null => exact Iff.rfl
  | bool b => exact Iff.rfl
  | int n => exact Iff.rfl
  | float x => exact Iff.rfl
  | list items => exact Iff.rfl

theorem scrubFields_iff (fields : List (Str × Json)) :
    AllScrubbed (.dict (scrubFields fields)) ∧ Blanked (.dict (scrubFields fields)) ↔
      FieldsSafe fields := by
  match fields with
  | [] => exact iff_of_true ⟨allScrubbed_nil, blanked_nil⟩ trivial
  | (key, v) :: fields =>
    have hrest := scrubFields_iff fields
    have hfield := scrubField_iff v
    rw [scrubFields, allScrubbed_cons, blanked_cons, FieldsSafe, ← hrest, ← hfield]
    cases isBlocked key with
    | true =>
      have hmarker : AllScrubbed (.str marker) := allScrubbed_str.2 scrubbed_marker
      simp only [if_true, forall_const, hmarker, blanked_str, true_and, reduceCtorEq, IsEmpty.forall_iff]
      tauto
    | false =>
      simp only [Bool.false_eq_true, if_false, IsEmpty.forall_iff, forall_const, true_and]
      tauto

end

end

-- ---------------------------------------------------------------------------
-- The record
-- ---------------------------------------------------------------------------

section
variable [LogTables] {ctx : LogContext} {moduleName : Str} {record : LogRecord}

/-- The lower case of an ASCII key is looked up. -/
theorem isBlocked_ascii {key : Str} (h : ∀ c ∈ key, c < 0x80) :
    isBlocked key = blockedKeys.contains (key.map asciiLower) :=
  congrArg blockedKeys.contains (AsciiCase.lower_ascii key h)

theorem not_blocked : ∀ key ∈ text "fields" :: text "exception" :: protectedKeys, isBlocked key = false := by
  intro key hkey
  have hascii : ∀ key ∈ text "fields" :: text "exception" :: protectedKeys,
      (∀ c ∈ key, c < 0x80) ∧ blockedKeys.contains (key.map asciiLower) = false := by decide
  rw [isBlocked_ascii (hascii key hkey).1]
  exact (hascii key hkey).2

theorem blanked_constant {key : Str} {v : Json} {fields : List (Str × Json)}
    (hkey : key ∈ text "fields" :: text "exception" :: protectedKeys) :
    Blanked (.dict ((key, v) :: fields)) ↔ Blanked v ∧ Blanked (.dict fields) := by
  rw [blanked_cons, not_blocked key hkey]
  simp

omit [LogTables] in
theorem getItem_fields [ReTables] : getItem (format ctx moduleName record) (text "fields") =
    if (scrubFields record.callerFields).isEmpty then none
    else some (.dict (scrubFields record.callerFields)) := by
  rw [format]
  split
  · split <;> rfl
  · rfl

omit [LogTables] in
theorem getItem_exception [ReTables] : getItem (format ctx moduleName record) (text "exception") =
    if record.exception = [] then none else some (.str record.exception) := by
  rw [format]
  split <;> split <;> rfl

/-- The texts of the record are the event, the fields and the exception. -/
theorem format_texts_iff : (∀ key ∈ [text "event", text "fields", text "exception"],
      ∀ v ∈ getItem (format ctx moduleName record) key, AllScrubbed v) ↔
    Apart record.title ∧ AllScrubbed (.dict (scrubFields record.callerFields)) ∧ Scrubbed record.exception := by
  have hevent : getItem (format ctx moduleName record) (text "event") =
      some (.str (scrubValue record.title)) := rfl
  simp only [List.forall_mem_cons, hevent, getItem_fields, getItem_exception, Option.mem_some_iff, forall_eq',
    allScrubbed_str, scrubbed_scrubValue_iff]
  refine and_congr Iff.rfl (and_congr ?_ ?_)
  · split
    · next hempty =>
      rw [List.isEmpty_iff.1 hempty]
      exact iff_of_true (by simp) allScrubbed_nil
    · simp
  · split
    · next hempty =>
      rw [hempty]
      exact iff_of_true (by simp) scrubbed_empty
    · simp [allScrubbed_str]

/-- What can stand under a blocked key is in the fields and the duration. -/
theorem format_secrets_iff : Blanked (.dict (format ctx moduleName record)) ↔
    Blanked (record.durationMs.getD .null) ∧ Blanked (.dict (scrubFields record.callerFields)) := by
  have hend : Blanked (.dict (if record.exception = [] then []
      else [(text "exception", .str record.exception)])) := by
    split
    · exact blanked_nil
    · exact (blanked_constant (by simp)).2 ⟨blanked_str, blanked_nil⟩
  have hfields : Blanked (.dict ((if (scrubFields record.callerFields).isEmpty then []
      else [(text "fields", .dict (scrubFields record.callerFields))]) ++
        (if record.exception = [] then [] else [(text "exception", .str record.exception)]))) ↔
      Blanked (.dict (scrubFields record.callerFields)) := by
    split
    · next hempty =>
      rw [List.isEmpty_iff.1 hempty]
      exact iff_of_true hend blanked_nil
    · rw [List.singleton_append, blanked_constant (by simp), and_iff_left hend]
  have hprotected : ∀ key ∈ protectedKeys, key ∈ text "fields" :: text "exception" :: protectedKeys :=
    fun key hkey => List.mem_cons_of_mem _ (List.mem_cons_of_mem _ hkey)
  rw [format]
  rw [List.append_assoc]
  simp only [List.cons_append, List.nil_append]
  iterate 9 rw [blanked_constant (hprotected _ (by simp [protectedKeys])), and_iff_right blanked_str]
  rw [blanked_constant (hprotected _ (by simp [protectedKeys])), hfields]

/-- For a record of the structured logger that is a matter of the event and the fields alone. -/
theorem safe_log_iff {levelname time event : Str} {fields : List (Str × Json)}
    (h : log levelname time event fields = .ok record) : Safe record ↔
    Apart event ∧ FieldsSafe (fields.filter fun entry => !protectedKeys.contains entry.1) ∧
      Blanked ((getItem fields (text "duration_ms")).getD .null) := by
  unfold log at h
  split at h
  · cases h
  obtain rfl := Except.ok.inj h
  -- The duration is a protected key, so that it is filtered out either way.
  have hfilter : (fields.filter fun entry => entry.1 ≠ text "duration_ms").filter
      (fun entry => !protectedKeys.contains entry.1) =
        fields.filter fun entry => !protectedKeys.contains entry.1 := by
    rw [List.filter_filter]
    refine List.filter_congr fun entry _ => ?_
    by_cases hkey : entry.1 = text "duration_ms" <;> simp [hkey, protectedKeys]
  constructor
  · rintro ⟨htitle, hfields, hduration, -⟩
    exact ⟨htitle, (congrArg FieldsSafe hfilter).mp hfields, hduration⟩
  · rintro ⟨htitle, hfields, hduration⟩
    exact ⟨htitle, (congrArg FieldsSafe hfilter).mpr hfields, hduration, scrubbed_empty⟩

end

end LogScrubber
