-- SUMMARY: The text of a stored PDF: the checks of the path, the pages that are read, and the errors.
import DealScreening.Services.Exceptions
import DealScreening.Services.IngestionService

/-!
# PDF parser

What `pypdf` makes of a file is a parameter: its pages, each with a text, none, or an exception.
-/

namespace PdfParser

open Python

/-- What `extract_text` of a page returns or raises. -/
abbrev Page := Except Str (Option Str)

/-- `PdfReader(path)`: its pages, or the text of what it raises. -/
abbrev Reader := Str → Except Str (List Page)

/-- `MAX_PAGES`. -/
def maxPages : Nat := 80

/-- `MIN_TEXT_LENGTH`. -/
def minTextLength : Nat := 50

/-- A page that raises is left out. -/
def pageText : Page → Option Str
  | .ok pageText => some (pageText.getD [])
  | .error _ => none

/-- `path.exists()`. -/
def pathExists (disk : Disk) (path : Path) : Bool :=
  path ∈ disk.dirs ∨ path ∈ disk.files.map StoredFile.path

/-- `extract_text_from_pdf`. -/
def extractTextFromPdf [Runtime] (reader : Reader) (disk : Disk) (filePath : Str) :
    Except ServiceExn Str :=
  let path := Path.parse filePath
  if pathExists disk path = false then
    .error (.fileNotFoundError (text "PDF not found: " ++ filePath))
  else if Str.lower path.suffix ≠ text ".pdf" then
    .error (.pdfParseError (text "Not a PDF file: " ++ path.suffix))
  else match reader path.str with
    | .error e => .error (.pdfParseError (text "Failed to read PDF: " ++ e))
    | .ok pages =>
      if pages.length = 0 then .error (.pdfParseError (text "PDF has no pages"))
      else
        let textParts := (pages.take maxPages).filterMap pageText
        let fullText := Str.strip (Str.join (text "\n\n") textParts)
        if fullText.length < minTextLength then
          .error (.pdfParseError (text "Extracted text too short (" ++ Str.ofNat fullText.length ++
            text " chars). Document may be image-only or corrupted."))
        else .ok fullText

/-- Only a suffix other than `.pdf` is called no PDF file. -/
theorem suffix_of_notPdf [Runtime] {reader : Reader} {disk : Disk} {filePath shown : Str}
    (h : extractTextFromPdf reader disk filePath =
      .error (.pdfParseError (text "Not a PDF file: " ++ shown))) :
    Str.lower (Path.parse filePath).suffix ≠ text ".pdf" := by
  -- The other messages begin with another letter.
  have hother : ∀ {message : Str}, message.head? ≠ some 0x4E →
      (Except.error (ServiceExn.pdfParseError message) : Except ServiceExn Str) ≠
        .error (.pdfParseError (text "Not a PDF file: " ++ shown)) := by
    intro message hhead heq
    simp only [Except.error.injEq, ServiceExn.pdfParseError.injEq] at heq
    rw [heq] at hhead
    exact hhead rfl
  unfold extractTextFromPdf at h
  dsimp only at h
  split at h
  · cases h
  split at h
  · assumption
  split at h
  · exact absurd h (hother (show some 0x46 ≠ some 0x4E by decide))
  split at h
  · exact absurd h (hother (show some 0x50 ≠ some 0x4E by decide))
  split at h
  · exact absurd h (hother (show some 0x45 ≠ some 0x4E by decide))
  · cases h

end PdfParser
