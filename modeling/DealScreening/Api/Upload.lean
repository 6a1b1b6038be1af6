-- SUMMARY: The route that uploads a document, in its session: validators, ingestion, commit or roll back.
import DealScreening.Services.IngestionService

namespace UploadApi

open Python Session IngestionService

/-- The uploaded file, with what the client says of it. -/
structure UploadFile where
  filename : Option Str
  contentType : Option Str
  content : Bytes
  deriving DecidableEq

/-- `validate_pdf`. -/
abbrev PdfValidator := ValidatedFile → Except ValidationFailure ValidatedFile

def httpException (failure : ValidationFailure) : UploadExn :=
  .http failure.reason.httpStatus (text failure.reason.userMessage)

/-- `file.filename or "unknown.pdf"`. -/
def UploadFile.name (file : UploadFile) : Str :=
  match file.filename with
  | none | some [] => text "unknown.pdf"
  | some filename => filename

/-- `except IngestionError`. -/
def exceptIngestionError : Exn UploadExn → IngestM IngestionResult
  | .raised (.ingestionError message) => raise (.http 400 message)
  | x => throw x

/-- `upload_deal`. -/
def uploadDeal [Runtime] (config : IngestionConfig) (validatePdf : PdfValidator)
    (fault : Option Fault) (draw : IngestDraw) (tenantId : Uuid) (file : UploadFile) :
    IngestM IngestionResult := do
  let fileCheck ← ofExcept ((FileValidator.validateFile file.content file.contentType
    FileValidator.maxFileSizeBytes).mapError httpException)
  let _ ← ofExcept ((validatePdf fileCheck).mapError httpException)
  Session.tryCatch
    (ingestDeal config fault draw tenantId file.name file.content file.contentType (text "upload")
      none)
    exceptIngestionError

/-- The body that `get_db` wraps. -/
def getDb {α : Type} (fault : Option Fault) (body : IngestM α) : IngestM α := do
  let result ← body
  strike fault .commit
  flush
  return result

/-- A roll back undoes what was done to the database. -/
def rollBack (before after : World) : World := { after with db := before.db }

/-- A request: its answer, and the world after it. -/
def upload [Runtime] (config : IngestionConfig) (validatePdf : PdfValidator) (fault : Option Fault)
    (draw : IngestDraw) (tenantId : Uuid) (file : UploadFile) (w : World) :
    Except (Exn UploadExn) IngestionResult × World :=
  transactionWith rollBack
    (getDb fault (uploadDeal config validatePdf fault draw tenantId file)) w

end UploadApi
