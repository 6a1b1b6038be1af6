-- SUMMARY: The stream of log lines: whatever the records hold, it is printable ASCII with one line for each record, and reading it line by line gives the records back.
import DealScreening.Observability.Logger
import DealScreening.Python.JsonRoundTrip

/-!
# Log lines

A handler writes the formatted record and a newline. The identifiers of the request are taken
from its headers as they are sent, and the event and the fields may hold anything that was read
from a request: none of it can end a line or begin another.
-/

-- ---------------------------------------------------------------------------
-- Characters after a substitution
-- ---------------------------------------------------------------------------

namespace Python.Re

variable {f : Finder} {new : Match → Str} {c : Nat}

theorem mem_glue {start : Str} {found : List (Match × Str)} :
    c ∈ glue new (start, found) ↔ c ∈ start ∨ ∃ p ∈ found, c ∈ new p.1 ∨ c ∈ p.2 := by
  simp only [glue, List.mem_append, List.mem_flatMap]

/-- A substitution brings no characters but those of the replacements. -/
theorem mem_glue_cuts {skip : Nat} {prev : Option Nat} {s : Str}
    (h : c ∈ glue new (cuts f skip prev s)) : c ∈ s ∨ ∃ m, c ∈ new m := by
  fun_induction cuts f skip prev s with
  | case1 => cases h
  | case2 skip prev d s ih => exact (ih h).imp_left (List.mem_cons_of_mem d)
  | case3 prev d s m hm following others hcuts ih =>
    rw [hcuts] at ih
    rw [mem_glue] at h
    rcases h with h | ⟨p, hp, h⟩
    · cases h
    rcases List.mem_cons.1 hp with rfl | hp
    · rcases h with h | h
      · exact .inr ⟨m, h⟩
      · exact (ih (mem_glue.2 (.inl h))).imp_left (List.mem_cons_of_mem d)
    · exact (ih (mem_glue.2 (.inr ⟨p, hp, h⟩))).imp_left (List.mem_cons_of_mem d)
  | case4 prev d s hm start found hcuts ih =>
    rw [hcuts] at ih
    rw [mem_glue] at h
    rcases h with h | h
    · rcases List.mem_cons.1 h with rfl | h
      · exact .inl (List.mem_cons_self ..)
      · exact (ih (mem_glue.2 (.inl h))).imp_left (List.mem_cons_of_mem d)
    · exact (ih (mem_glue.2 (.inr h))).imp_left (List.mem_cons_of_mem d)

theorem mem_sub {s : Str} (h : c ∈ sub f new s) : c ∈ s ∨ ∃ m, c ∈ new m := mem_glue_cuts h

end Python.Re

namespace LogScrubber

open Python Python.Re Python.Json PiiScrubber

-- ---------------------------------------------------------------------------
-- The handler
-- ---------------------------------------------------------------------------

/-- A record that reaches the handler of a logger, with the context it is formatted in and the
    depth that is left for `json.dumps`. -/
structure LogCall where
  ctx : LogContext
  moduleName : Str
  record : LogRecord
  depth : Nat

section
variable [ReTables]

def LogCall.entry (call : LogCall) : Json := .dict (format call.ctx call.moduleName call.record)

/-- What `StructuredFormatter.format` returns. -/
def LogCall.line (call : LogCall) : Except Error Str := dumps call.depth call.entry

/-- `StreamHandler.emit`, with what is on the stream already. It raises a `RecursionError`
    only; of other errors a report goes to another stream. -/
def emit (stream : Str) (call : LogCall) : Except Error Str :=
  match call.line with
  | .ok line => .ok (stream ++ (line ++ [0x0A]))
  | .error .recursionError => .error .recursionError
  | .error _ => .ok stream

/-- The stream after the calls. What a call raises ends the call only. -/
def run (stream : Str) (calls : List LogCall) : Str :=
  calls.foldl (fun stream call => (emit stream call).toOption.getD stream) stream

/-- What a collector of logs makes of a stream: the JSON on each line. -/
def readLines (stream : Str) : List (Except Error Json) := ((stream.splitOn 0x0A).dropLast).map loads

-- ---------------------------------------------------------------------------
-- Records
-- ---------------------------------------------------------------------------

/-- A record as Python can hold it. Nothing is asked of what the texts say. -/
structure LogCall.Valid (call : LogCall) : Prop where
  context : ∀ s ∈ [call.ctx.requestId, call.ctx.traceId, call.ctx.spanId, call.ctx.tenantId,
    call.ctx.userId, call.moduleName], CodePoints s
  texts : ∀ s ∈ [call.record.time, call.record.levelname, call.record.title, call.record.exception],
    CodePoints s
  fields : HeldEntries call.record.callerFields
  duration : Held (call.record.durationMs.getD .null)

omit [ReTables] in
theorem codePoints_marker : CodePoints marker := by decide

theorem codePoints_scrubValue {s : Str} (h : CodePoints s) : CodePoints (scrubValue s) := by
  have hnew : ∀ p ∈ patterns, CodePoints p.2 := by
    intro p hp
    rcases List.mem_append.1 hp with hp | hp
    · obtain ⟨rule, -, rfl⟩ := List.mem_map.1 hp
      exact codePoints_marker
    · simp only [tokens, List.mem_cons, List.not_mem_nil, or_false] at hp
      rcases hp with rfl | rfl | rfl
      · exact (by decide : CodePoints bearerMarker)
      · exact codePoints_marker
      · exact codePoints_marker
  unfold scrubValue
  generalize patterns = rules at hnew
  induction rules generalizing s with
  | nil => exact h
  | cons p rules ih =>
    rw [List.forall_mem_cons] at hnew
    rw [List.foldl_cons]
    refine ih ?_ hnew.2
    intro c hc
    rcases mem_sub hc with hc | ⟨-, hc⟩
    · exact h c hc
    · exact hnew.1 c hc

mutual

theorem held_scrubField (v : Json) (h : Held v) : Held (scrubField v) := by
  match v with
  | .str s => exact codePoints_scrubValue h
  | .dict fields => exact held_scrubFields fields h
  | .null => exact h
  | .bool b => exact h
  | .int n => exact h
  | .float x => exact h
  | .list items => exact h

theorem held_scrubFields (fields : List (Str × Json)) (h : HeldEntries fields) :
    HeldEntries (scrubFields fields) := by
  match fields with
  | [] => exact h
  | (key, v) :: fields =>
    obtain ⟨hkey, hv, hfields⟩ := h
    refine ⟨hkey, ?_, held_scrubFields fields hfields⟩
    split
    · exact codePoints_marker
    · exact held_scrubField v hv

end

omit [ReTables] in
theorem heldEntries_append {entries more : List (Str × Json)} :
    HeldEntries (entries ++ more) ↔ HeldEntries entries ∧ HeldEntries more := by
  induction entries with
  | nil => simp [HeldEntries]
  | cons entry entries ih =>
    simp only [List.cons_append, HeldEntries, ih, and_assoc]

/-- The object that is written is one Python can hold. -/
theorem LogCall.Valid.held {call : LogCall} (h : call.Valid) : Held call.entry := by
  have hcontext := h.context
  have htexts := h.texts
  simp only [List.forall_mem_cons] at hcontext htexts
  obtain ⟨hrequest, htrace, hspan, htenant, huser, hmodule, -⟩ := hcontext
  obtain ⟨htime, hlevel, htitle, hexception, -⟩ := htexts
  have hkey : ∀ key ∈ text "fields" :: text "exception" :: protectedKeys, CodePoints key := by decide
  have hprotected : ∀ key ∈ protectedKeys, CodePoints key :=
    fun key hmem => hkey key (List.mem_cons_of_mem _ (List.mem_cons_of_mem _ hmem))
  simp only [protectedKeys, List.forall_mem_cons] at hprotected
  obtain ⟨hk1, hk2, hk3, hk4, hk5, hk6, hk7, hk8, hk9, hk10, -⟩ := hprotected
  rw [LogCall.entry, format, Held, heldEntries_append, heldEntries_append]
  refine ⟨⟨?_, ?_⟩, ?_⟩
  · exact ⟨hk7, htime, hk8, hlevel, hk9, codePoints_scrubValue htitle, hk1, hrequest, hk4, htrace,
      hk5, hspan, hk2, htenant, hk3, huser, hk6, hmodule, hk10, h.duration, trivial⟩
  · split
    · trivial
    · exact ⟨hkey _ (by simp), held_scrubFields _ h.fields, trivial⟩
  · split
    · trivial
    · exact ⟨hkey _ (by simp), hexception, trivial⟩

-- ---------------------------------------------------------------------------
-- The stream
-- ---------------------------------------------------------------------------

/-- The lines of the calls that wrote one. -/
def written (calls : List LogCall) : List Str := calls.filterMap fun call => call.line.toOption

theorem run_eq (stream : Str) (calls : List LogCall) :
    run stream calls = stream ++ (written calls).flatMap (· ++ [0x0A]) := by
  induction calls generalizing stream with
  | nil => simp [run, written]
  | cons call calls ih =>
    change run ((emit stream call).toOption.getD stream) calls = _
    rw [ih, emit]
    change _ = stream ++ (List.filterMap _ (call :: calls)).flatMap _
    rw [List.filterMap_cons]
    cases call.line with
    | ok line => simp [Except.toOption, written]
    | error e => cases e <;> simp [Except.toOption, written]

omit [ReTables] in
/-- A line holds no newline, so that the stream is cut where a line ends. -/
theorem splitOn_lines {lines : List Str} (h : ∀ line ∈ lines, Printable line) :
    ((lines.flatMap (· ++ [0x0A])).splitOn 0x0A).dropLast = lines := by
  induction lines with
  | nil => rfl
  | cons line lines ih =>
    rw [List.forall_mem_cons] at h
    have hnot : 0x0A ∉ line := fun hmem => absurd (h.1 _ hmem).1 (by decide)
    rw [List.flatMap_cons, List.append_assoc, List.singleton_append,
      List.splitOn_append_cons_self_of_not_mem hnot, List.dropLast_cons_of_ne_nil (List.splitOn_ne_nil _ _),
      ih h.2]

theorem printable_written {calls : List LogCall} : ∀ line ∈ written calls, Printable line := by
  intro line hline
  obtain ⟨call, -, hcall⟩ := List.mem_filterMap.1 hline
  exact printable_dumps call.entry (Except.toOption_eq_some.mp hcall)

/-- Every record that was written is read from a line of its own, in the order of the calls,
    and the stream holds nothing else. -/
theorem readLines_run {calls : List LogCall} (hvalid : ∀ call ∈ calls, call.Valid)
    (hdepth : ∀ call ∈ calls, call.depth ≤ Runtime.scanDepth) :
    readLines (run [] calls) =
      (calls.filter fun call => call.line.isOk).map (fun call => .ok (reread call.entry)) ∧
    ∀ c ∈ run [] calls, c = 0x0A ∨ (0x20 ≤ c ∧ c ≤ 0x7E) := by
  have hrun : run [] calls = (written calls).flatMap (· ++ [0x0A]) := run_eq [] calls
  constructor
  · rw [hrun, readLines, splitOn_lines printable_written, written]
    induction calls with
    | nil => rfl
    | cons call calls ih =>
      rw [List.forall_mem_cons] at hvalid hdepth
      have hrest := ih hvalid.2 hdepth.2 (run_eq [] calls)
      rw [List.filterMap_cons, List.filter_cons]
      cases hline : call.line with
      | error e => simpa [Except.toOption, Except.isOk, Except.toBool, hline] using hrest
      | ok line =>
        have hread := loads_dumps (dumps_depth hdepth.1 call.entry hline) hvalid.1.held
        simpa [Except.toOption, Except.isOk, Except.toBool, hread] using hrest
  · intro c hc
    rw [hrun] at hc
    obtain ⟨line, hline, hc⟩ := List.mem_flatMap.1 hc
    rcases List.mem_append.1 hc with hc | hc
    · exact .inr (printable_written line hline c hc)
    · exact .inl (List.mem_singleton.1 hc)

end

/-- A record whose identifier of the request has a newline and a brace in it. -/
def forgedCall : LogCall where
  ctx := ⟨text "r\n\x7b\x7d", text "none", text "none", text "none", text "none"⟩
  moduleName := text "http"
  record := ⟨text "INFO", text "t", text "http.response", some (text "http.response"),
    [(text "status", .int 200)], some (.int 3), none, []⟩
  depth := 100

theorem forgedCall_valid : forgedCall.Valid :=
  ⟨by decide, by decide, ⟨by decide, trivial, trivial⟩, trivial⟩

theorem readLines_run_forged :
    @readLines asciiTables (@run asciiTables [] [forgedCall, forgedCall]) =
      ([forgedCall, forgedCall].filter fun call => (@LogCall.line asciiTables call).isOk).map
        (fun call => .ok (reread (@LogCall.entry asciiTables call))) ∧
    ∀ c ∈ @run asciiTables [] [forgedCall, forgedCall], c = 0x0A ∨ (0x20 ≤ c ∧ c ≤ 0x7E) :=
  @readLines_run asciiTables [forgedCall, forgedCall] (by simp [forgedCall_valid])
    (by decide)

end LogScrubber
