-- SUMMARY: Validation of the bytes of an upload: reason codes with their answers, size, declared type and magic bytes.
import DealScreening.Python.Hashlib

inductive ReasonCode where
  | bodyTooLarge
  | headerTooLarge
  | tooManyParts
  | unsupportedContentType
  | mimeMagicMismatch
  | malformedPdf
  | pdfContainsJavascript
  | pdfEncrypted
  | pdfTooManyPages
  | decompressionBomb
  | compressionRatioExceeded
  | schemaViolation
  | webhookMalformed
  deriving DecidableEq, Repr

namespace ReasonCode

/-- `REASON_HTTP_STATUS`. -/
def httpStatus : ReasonCode → Nat
  | .bodyTooLarge | .tooManyParts => 413
  | .headerTooLarge => 431
  | .unsupportedContentType | .mimeMagicMismatch => 415
  | .malformedPdf | .pdfContainsJavascript | .pdfEncrypted | .pdfTooManyPages
  | .decompressionBomb | .compressionRatioExceeded => 422
  | .schemaViolation | .webhookMalformed => 400

/-- `REASON_USER_MESSAGE`. -/
def userMessage : ReasonCode → String
  | .bodyTooLarge => "File is too large. Maximum is 50 MB."
  | .headerTooLarge => "Request headers are too large."
  | .tooManyParts => "Too many parts in the upload."
  | .unsupportedContentType => "We only accept PDF files right now."
  | .mimeMagicMismatch => "This doesn't appear to be a valid PDF."
  | .malformedPdf => "We couldn't read this PDF."
  | .pdfContainsJavascript => "This PDF contains content we can't process safely."
  | .pdfEncrypted => "Encrypted PDFs aren't supported. Please upload an unlocked copy."
  | .pdfTooManyPages => "This PDF has too many pages. Maximum is 500."
  | .decompressionBomb | .compressionRatioExceeded => "This file couldn't be safely processed."
  | .schemaViolation => "Invalid request body."
  | .webhookMalformed => "Malformed webhook payload."

end ReasonCode

structure ValidationFailure where
  reason : ReasonCode
  detail : Option Python.Str
  deriving DecidableEq, Repr

structure ValidatedFile where
  content : Bytes
  size : Nat
  declaredMime : Python.Str
  detectedMime : Python.Str
  pageCount : Option Nat
  deriving DecidableEq, Repr

namespace FileValidator

open Python

/-- The one key of `MAGIC_BYTES`. -/
def pdfMime : Str := text "application/pdf"

/-- `%PDF-`. -/
def pdfMagic : Bytes := [0x25, 0x50, 0x44, 0x46, 0x2D]

/-- `MAX_FILE_SIZE_BYTES`. -/
def maxFileSizeBytes : Nat := 50 * 1024 * 1024

/-- `check_magic_bytes`. -/
def checkMagicBytes (content : Bytes) : Option Str :=
  if content.take pdfMagic.length = pdfMagic then some pdfMime else none

def validateFile [Runtime] (content : Bytes) (declaredMime : Option Str) (maxBytes : Nat) :
    Except ValidationFailure ValidatedFile :=
  if content.length > maxBytes then
    .error ⟨.bodyTooLarge, some (text "File size " ++ Str.ofNat content.length ++
      text " exceeds limit " ++ Str.ofNat maxBytes)⟩
  else
    let effectiveMime := Str.strip (Str.lower (declaredMime.getD []))
    if effectiveMime ≠ pdfMime then
      .error ⟨.unsupportedContentType, some (text "Content type '" ++ effectiveMime ++
        text "' is not accepted")⟩
    else
      match checkMagicBytes content with
      | none => .error ⟨.mimeMagicMismatch, some (text "Magic bytes don't match declared type '" ++
          effectiveMime ++ text "'")⟩
      | some detected =>
        .ok { content, size := content.length, declaredMime := effectiveMime,
              detectedMime := detected, pageCount := none }

end FileValidator
