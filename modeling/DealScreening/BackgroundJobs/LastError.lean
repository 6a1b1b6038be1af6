-- SUMMARY: The error that a failed job keeps: what of it the scrubber leaves when the text is cut before it is scrubbed.
import DealScreening.BackgroundJobs.Queue
import DealScreening.Observability.Scrubber
import DealScreening.Python.ReFork

/-!
# The last error of a job

`mark_failed` cuts the error to 4096 characters and scrubs what is left. A match that the cut
breaks is no match any more, and then its part before the cut is stored.
-/

namespace LastError

open Python Python.Re Python.Re.Traced PiiScrubber LogScrubber

section
variable [ReTables]

/-- `scrub_value(error[:4096])`. -/
def lastError (error : Str) : Str := scrubValue (error.take 4096)

/-- The text that `scrub_value` makes, its characters with the places where they stood. -/
def scrubTraced (value : Str) : Traced := subAll patterns (ofStr 0 value)

/-- The places that are in no substring that `scrub_value` replaces. -/
def kept (value : Str) : List Nat := places (scrubTraced value)

/-- What of the error is stored, `scrub_value` would have left in the whole error. -/
def NothingRevealed (error : Str) : Prop := ∀ i ∈ kept (error.take 4096), i ∈ kept error

/-- The error up to the cut, with nothing behind it and with the rest. -/
def cutFork (error : Str) : Fork where
  front := ofStr 0 (error.take 4096)
  short := []
  long := ofStr (error.take 4096).length (error.drop 4096)

/-- Let the patterns run over the error with its rest and without. From where one of them finds
    something else on, each character before the cut is in a match of this or of a later one. -/
def NothingExposed (error : Str) : Prop := places (Fork.stepAll patterns (cutFork error)).short = []

-- ---------------------------------------------------------------------------
-- What is stored
-- ---------------------------------------------------------------------------

variable {value error : Str}

/-- The characters are those of the scrubbed text. -/
theorem chars_scrubTraced : chars (scrubTraced value) = scrubValue value := by
  rw [scrubTraced, chars_subAll, chars_ofStr]
  rfl

/-- A character with a place is the one that stood there; the others are of a replacement. -/
theorem mem_scrubTraced {c : Nat × Option Nat} (h : c ∈ scrubTraced value) :
    (∃ p ∈ patterns, c.1 ∈ p.2 ∧ c.2 = none) ∨ ∃ i, value[i]? = some c.1 ∧ c.2 = some i := by
  rcases mem_subAll h with ⟨p, hp, hc⟩ | hc
  · obtain ⟨d, hd, rfl⟩ := List.mem_map.1 hc
    exact .inl ⟨p, hp, hd, rfl⟩
  · obtain ⟨⟨d, i⟩, hd, rfl⟩ := List.mem_map.1 hc
    refine .inr ⟨i, ?_, rfl⟩
    rw [List.mk_mem_zipIdx_iff_getElem?] at hd
    exact hd

theorem mem_scrubValue {c : Nat} (h : c ∈ scrubValue value) : (∃ p ∈ patterns, c ∈ p.2) ∨ c ∈ value := by
  have htraced : ∃ d ∈ scrubTraced value, d.1 = c := by
    rwa [← chars_scrubTraced, chars, List.mem_map] at h
  obtain ⟨d, hd, rfl⟩ := htraced
  rcases mem_scrubTraced hd with ⟨p, hp, hnew, -⟩ | ⟨i, hstood, -⟩
  · exact .inl ⟨p, hp, hnew⟩
  · exact .inr (List.mem_of_getElem? hstood)

/-- `scrub_value` on texts of characters. -/
def scrubText (s : String) : String := String.ofList ((scrubValue (text s)).map Char.ofNat)

/-- The replacements are texts of characters. -/
theorem replacement_text : ∀ p ∈ patterns, ∃ new : String, p.2 = text new := by
  have hmarker : ∃ new : String, marker = text new := ⟨"[REDACTED]", by decide⟩
  have hbearer : ∃ new : String, bearerMarker = text new := ⟨"Bearer [REDACTED]", by decide⟩
  simp only [patterns, addresses, tokens, List.map_cons, List.map_nil, List.cons_append,
    List.nil_append, List.forall_mem_cons]
  exact ⟨hmarker, hmarker, hmarker, hbearer, hmarker, hmarker, by simp⟩

theorem text_scrubText (s : String) : text (scrubText s) = scrubValue (text s) := by
  have hchar : ∀ (s : String), ∀ c ∈ text s, (Char.ofNat c).toNat = c := by
    intro s c hc
    obtain ⟨d, -, rfl⟩ := List.mem_map.1 hc
    rw [Char.ofNat_toNat]
  have hscrubbed : ∀ c ∈ scrubValue (text s), (Char.ofNat c).toNat = c := by
    intro c hc
    rcases mem_scrubValue hc with ⟨p, hp, hnew⟩ | hstood
    · obtain ⟨new, htext⟩ := replacement_text p hp
      exact hchar new c (htext ▸ hnew)
    · exact hchar s c hstood
  rw [scrubText, text, String.toList_ofList, List.map_map]
  exact (List.map_congr_left hscrubbed).trans (List.map_id _)

/-- It is what `mark_failed` writes. -/
theorem markFailed_lastError {P : Type} {now : Time} {draw : Int} {error : String} {nonRetryable : Bool}
    {job : BackgroundJob P} :
    (Queue.markFailed scrubText now draw error nonRetryable job).lastError.map text =
      some (lastError (text error)) := by
  have hlast : (Queue.markFailed scrubText now draw error nonRetryable job).lastError =
      some (scrubText (String.ofList (error.toList.take 4096))) := by
    unfold Queue.markFailed
    dsimp only
    split <;> rfl
  rw [hlast, Option.map_some, text_scrubText, lastError, text, String.toList_ofList, List.map_take]
  rfl

-- ---------------------------------------------------------------------------
-- The cut
-- ---------------------------------------------------------------------------

omit [ReTables] in
theorem places_cutFork (error : Str) : (cutFork error).places.Nodup := by
  have hplaces : (cutFork error).places = places (ofStr 0 error) := by
    conv_rhs => rw [← List.take_append_drop 4096 error, ofStr_append, places_append]
    rw [Fork.places, cutFork, Nat.zero_add]
    rfl
  rw [hplaces, places_ofStr]
  exact List.nodup_range'

/-- Nothing is cut off a short error. -/
theorem nothingExposed_of_short (h : error.length ≤ 4096) : NothingExposed error := by
  have hlong : (cutFork error).long = (cutFork error).short := by
    rw [cutFork, List.drop_eq_nil_of_le h]
    rfl
  rw [NothingExposed, ← Fork.kept_iff (places_cutFork error), hlong]
  exact fun _ hi => hi

end

-- ---------------------------------------------------------------------------
-- A key at the cut
-- ---------------------------------------------------------------------------

/-- A key of which 13 letters stand before the cut, and 13 behind it. -/
def crossingKey : Str := List.replicate 4080 0x20 ++ text "sk-abcdefghijklmnopqrstuvwxyz"

theorem plain_blank [ReTables] : ∀ p ∈ patterns, 0 < p.1.minLength ∧ p.1.first 0x20 = false := by
  simp only [patterns, addresses, tokens, constant, List.map_cons, List.map_nil, List.cons_append,
    List.nil_append, List.forall_mem_cons]
  exact ⟨⟨Nat.succ_pos _, rfl⟩, ⟨Nat.succ_pos _, rfl⟩, ⟨Nat.succ_pos _, rfl⟩, ⟨Nat.succ_pos _, rfl⟩,
    ⟨Nat.succ_pos _, rfl⟩, ⟨Nat.succ_pos _, rfl⟩, by simp⟩

/-- What is kept of a text behind blanks. -/
theorem kept_behind_blanks [ReTables] (n : Nat) (s : Str) : kept (List.replicate (n + 1) 0x20 ++ s) =
    List.range' 0 (n + 1) ++ places (patterns.foldl
      (fun t p => sub (find p.1) p.2 0 (some 0x20) t) (ofStr (n + 1) s)) := by
  have hlast : last none (List.replicate (n + 1) 0x20) = some 0x20 := by
    rw [last_none, List.getLast?_replicate, if_neg (Nat.succ_ne_zero n)]
  rw [kept, scrubTraced, ofStr_append, subAll_plain, places_append, places_ofStr, chars_ofStr, hlast,
    List.length_replicate, Nat.zero_add]
  intro p hp
  refine ⟨(plain_blank p hp).1, fun c hc => ?_⟩
  obtain ⟨d, hd, rfl⟩ := List.mem_map.1 hc
  rw [List.eq_of_mem_replicate (List.fst_mem_of_mem_zipIdx hd)]
  exact (plain_blank p hp).2

end LastError
