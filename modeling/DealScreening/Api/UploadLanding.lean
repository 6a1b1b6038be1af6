-- SUMMARY: Where a validated upload is stored, and that the parser reads it there as a PDF.
import DealScreening.Api.UploadOutcome
import DealScreening.Services.PdfParser

/-!
# Where an upload lands

Validation, storage and parsing each take the name and the suffix of a path. The name that
storage keeps is one segment with the suffix that was validated, and the parser reads the text
of the path back as the path.
-/

namespace UploadApi

open Python Session IngestionService PdfParser

/-- The path is in the directory, under a name that is one segment. -/
def DirectChild (dir path : Path) : Prop :=
  ∃ name : Str, path = ⟨dir.root, dir.tail ++ [name]⟩ ∧
    name ≠ [] ∧ name ≠ [Path.dot] ∧ name ≠ [Path.dot, Path.dot] ∧ Path.sep ∉ name

/-- The system does not make the directory, or does not take the name or the bytes. -/
def Refused (config : IngestionConfig) (fault : Option Fault) (dealId : Uuid) (filename : Str)
    (w : World) : Prop :=
  (∃ made, fault = some (.mkdir made) ∧ made < (w.disk.missing (uploadDir config dealId)).length) ∨
    config.acceptsName (storedPath config dealId filename).name = false ∨
    fault = some .openFile ∨ ∃ n, fault = some (.writeBytes n)

/-- Where `_store_file` puts an upload, and what the parser makes of it. -/
structure Lands [Runtime] (config : IngestionConfig) (dealId : Uuid) (filename : Str) : Prop where
  /-- One file is written, and no other file is touched. -/
  written : ∀ fault content w, ¬ Refused config fault dealId filename w → ∃ s,
    storeFile config fault dealId filename content ⟨w, false, false⟩ =
        (.ok (storedPath config dealId filename), s) ∧
      s.view.disk.files = w.disk.files.filter (fun f => f.path ≠ storedPath config dealId filename) ++
        [⟨storedPath config dealId filename, content⟩]
  refused : ∀ fault content w, Refused config fault dealId filename w → ∃ x s,
    storeFile config fault dealId filename content ⟨w, false, false⟩ = (.error x, s) ∧
      ∀ f ∈ s.view.disk.files, f ∈ w.disk.files ∨ f.path = storedPath config dealId filename
  child : DirectChild (uploadDir config dealId) (storedPath config dealId filename)
  apart : ∀ dealId' filename', dealId' < 2 ^ 128 → dealId' ≠ dealId →
    (storedPath config dealId' filename').str ≠ (storedPath config dealId filename).str
  suffix : Str.lower (Path.parse (storedPath config dealId filename).str).suffix = text ".pdf"
  read : ∀ reader disk shown,
    extractTextFromPdf reader disk (storedPath config dealId filename).str ≠
      .error (.pdfParseError (text "Not a PDF file: " ++ shown))

section
variable {config : IngestionConfig} {fault : Option Fault} {dealId : Uuid} {filename : Str}
  {contentType : Option Str} {content : Bytes} {w : World}

/-! ## The path -/

theorem storedPath_parsed : (storedPath config dealId filename).Parsed :=
  ((Path.parsed_parse config.uploadDir).join _).join _

/-- A validated name has the suffix. -/
theorem suffix_of_valid [Runtime] (hvalid : validateFileType filename contentType = .ok ()) :
    Str.lower (Path.parse filename).suffix = text ".pdf" := by
  unfold validateFileType at hvalid
  by_contra hsuffix
  simp only [ne_eq, hsuffix, not_false_eq_true, if_true] at hvalid
  cases hvalid

/-- A name with a suffix is stored as the last part. -/
theorem storedPath_eq (hsuffix : (Path.parse filename).suffix ≠ []) :
    storedPath config dealId filename = ⟨(uploadDir config dealId).root,
      (uploadDir config dealId).tail ++ [(Path.parse filename).name]⟩ := by
  obtain ⟨hempty, hdot, -⟩ := Path.name_of_suffix hsuffix
  exact Path.join_part (Path.sep_notMem_name filename) hempty hdot

/-- The suffix is that of the name that was validated. -/
theorem storedPath_suffix (hsuffix : (Path.parse filename).suffix ≠ []) :
    (storedPath config dealId filename).suffix = (Path.parse filename).suffix := by
  have hname : (storedPath config dealId filename).name = (Path.parse filename).name := by
    rw [storedPath_eq hsuffix, Path.name, List.getLastD_concat]
  rw [Path.suffix, hname]
  rfl

/-! ## The file -/

/-- A system that does not refuse has the file afterwards. -/
theorem storeFile_written (h : ¬ Refused config fault dealId filename w) :
    storeFile config fault dealId filename content ⟨w, false, false⟩ =
      (.ok (storedPath config dealId filename),
        ⟨stored config ⟨dealId, "", 0⟩ filename content w, false, false⟩) := by
  obtain ⟨hmkdir, hname, hopen, hwrite⟩ : (∀ made, fault = some (.mkdir made) →
      (w.disk.missing (uploadDir config dealId)).length ≤ made) ∧
      config.acceptsName (storedPath config dealId filename).name = true ∧
      fault ≠ some .openFile ∧ ∀ n, fault ≠ some (.writeBytes n) := by
    simpa [Refused] using h
  exact @storeFile_run config fault ⟨dealId, "", 0⟩ filename content w hmkdir hname hopen hwrite

/-- One that refuses has at most a part of it. -/
theorem writeBytes_refused {path : Path} {v : World}
    (h : config.acceptsName path.name = false ∨ fault = some .openFile ∨ ∃ n, fault = some (.writeBytes n)) :
    ∃ x s, writeBytes config fault path content ⟨v, false, false⟩ = (.error x, s) ∧
      ∀ f ∈ s.view.disk.files, f ∈ v.disk.files ∨ f.path = path := by
  unfold writeBytes
  by_cases hname : config.acceptsName path.name = true
  · simp only [hname, not_true_eq_false, if_false]
    rcases h with h | rfl | ⟨n, rfl⟩
    · rw [hname] at h
      cases h
    · exact ⟨_, _, rfl, fun f hf => .inl hf⟩
    · refine ⟨_, _, rfl, fun f hf => ?_⟩
      rcases List.mem_append.mp hf with hf | hf
      · exact .inl (List.mem_filter.mp hf).1
      · obtain rfl := List.mem_singleton.mp hf
        exact .inr rfl
  · simp only [hname]
    exact ⟨_, _, rfl, fun f hf => .inl hf⟩

theorem storeFile_refused (h : Refused config fault dealId filename w) : ∃ x s,
    storeFile config fault dealId filename content ⟨w, false, false⟩ = (.error x, s) ∧
      ∀ f ∈ s.view.disk.files, f ∈ w.disk.files ∨ f.path = storedPath config dealId filename := by
  by_cases hmkdir : ∃ made, fault = some (.mkdir made) ∧
      made < (w.disk.missing (uploadDir config dealId)).length
  · obtain ⟨made, rfl, hmade⟩ := hmkdir
    have hstore : storeFile config (some (.mkdir made)) dealId filename content ⟨w, false, false⟩ =
        (.error (.raised .unavailable), ⟨w.updateDisk fun disk => disk.addDirs
          ((w.disk.missing (uploadDir config dealId)).take made), false, false⟩) := by
      simp only [storeFile, run_bind, mkdir_stops hmade]
    exact ⟨_, _, hstore, fun f hf => .inl hf⟩
  · have hrun : mkdir fault (uploadDir config dealId) ⟨w, false, false⟩ = _ :=
      mkdir_run fun made hfault => Nat.not_lt.mp fun hlt => hmkdir ⟨made, hfault, hlt⟩
    obtain ⟨x, s, hwrite, hfiles⟩ := @writeBytes_refused config fault content
      (storedPath config dealId filename)
      (w.updateDisk fun disk => disk.addDirs (w.disk.missing (uploadDir config dealId)))
      (h.resolve_left hmkdir)
    refine ⟨x, s, ?_, hfiles⟩
    simp only [storeFile, run_bind, hrun, hwrite]

/-- Whatever passes the validation lands where the parser reads it. -/
theorem storeFile_lands [AsciiCase] (hvalid : validateFileType filename contentType = .ok ())
    (config : IngestionConfig) (hid : dealId < 2 ^ 128) : Lands config dealId filename := by
  have hlower := suffix_of_valid hvalid
  have hsuffix : (Path.parse filename).suffix ≠ [] := by
    intro hempty
    rw [hempty] at hlower
    exact absurd ((AsciiCase.lower_ascii [] (by simp)).symm.trans hlower) (by decide)
  have hstored : Str.lower (Path.parse (storedPath config dealId filename).str).suffix = text ".pdf" := by
    rw [storedPath_parsed.parse_str, storedPath_suffix hsuffix, hlower]
  obtain ⟨hempty, hdot, hdotdot⟩ := Path.name_of_suffix hsuffix
  constructor
  case written =>
    intro fault content w hrefused
    exact ⟨_, storeFile_written hrefused, rfl⟩
  case refused =>
    intro fault content w hrefused
    exact storeFile_refused hrefused
  case child =>
    exact ⟨_, storedPath_eq hsuffix, hempty, hdot, hdotdot, Path.sep_notMem_name filename⟩
  case apart =>
    intro dealId' filename' hid' hne heq
    exact storedPath_ne hid' hid hne filename' filename (storedPath_parsed.str_injective storedPath_parsed heq)
  case suffix => exact hstored
  case read =>
    intro reader disk shown hread
    exact suffix_of_notPdf hread hstored

/-- The name in the test climbs, and lands in the directory of its deal. -/
theorem storeFile_lands_deal : @Lands asciiCase.toRuntime ⟨text "./uploads", 52428800, fun _ => true⟩ 7
    (text "../../secret/deal.pdf") :=
  @storeFile_lands 7 (text "../../secret/deal.pdf") (some (text "application/pdf")) asciiCase rfl _ (by decide)

end

end UploadApi
