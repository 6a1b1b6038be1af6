-- SUMMARY: Extraction of a deal's fields: load and verify, PDF and LLM, validation of the outcome, and the rows it leaves.
import DealScreening.Lib.Session
import DealScreening.Models.Deal
import DealScreening.Services.LlmClient

/-!
# Extraction service

The steps from the PDF to the validated response touch no table. What follows
writes rows, and whatever raises is turned into a failed deal in the same
transaction. After a refused write that does not help: the transaction is lost.
-/

structure ExtractionResult where
  success : Bool
  dealId : Uuid
  fieldsFound : Nat
  overallConfidence : ConfidenceLevel
  error : Option Python.Str
  deriving DecidableEq

/-- The disk and the LLM as one execution meets them. `extractText` is
    `extract_text_from_pdf`, and `reply` what each attempt of the call gives. -/
structure ExtractionWorld where
  extractText : Python.Str → Except ServiceExn Python.Str
  scrubPii : Python.Str → Python.Str
  reply : Python.Str → Nat → LlmClient.LlmReply

namespace ExtractionService

open Python Session

abbrev ServiceM := Session DealDb ServiceExn

/-- A field of a validated response. -/
structure LlmField where
  fieldName : Str
  fieldValue : Json
  fieldStatus : FieldExtractionStatus
  confidence : ConfidenceLevel

/-! ## Reading the response -/

def readField : Json → Except Error LlmField
  | .dict entries =>
    match getItem entries (text "field_name"), getItem entries (text "field_status"),
      getItem entries (text "confidence") with
    | some (.str fieldName), some (.str status), some (.str confidence) =>
      match FieldExtractionStatus.ofValue status, ConfidenceLevel.ofValue confidence with
      | some fieldStatus, some confidence =>
        .ok { fieldName, fieldValue := LlmClient.get entries "field_value", fieldStatus, confidence }
      | _, _ => .error .valueError
    | _, _, _ => .error .keyError
  | _ => .error .typeError

/-- `llm_result["fields"]`. -/
def readFields : Json → Except Error (List LlmField)
  | .dict entries =>
    match getItem entries (text "fields") with
    | some (.list fields) => fields.mapM readField
    | some _ => .error .typeError
    | none => .error .keyError
  | _ => .error .typeError

def LlmField.isFound (f : LlmField) : Bool :=
  f.fieldStatus = .found || f.fieldStatus = .inferred

/-- `_compute_overall_confidence`. -/
def computeOverallConfidence (fields : List LlmField) (foundCount : Nat) : ConfidenceLevel :=
  if foundCount < minFieldsForExtraction then .none
  else
    let highCount := fields.countP fun f => f.isFound && f.confidence = .high
    if foundCount = coreExtractionFields.length ∧ highCount = foundCount then .high
    else
      let mediumOrBetter := fields.countP fun f =>
        f.isFound && (f.confidence = .high || f.confidence = .medium)
      if 4 ≤ mediumOrBetter then .medium else .low

/-- A text column takes a string or null. -/
def textColumn : Json → Option (Option PgText)
  | .null => some none
  | .str s => (PgText.ofStr s).map some
  | _ => none

/-- The row of a field, if the columns take its texts. -/
def fieldRow (dealId : Uuid) (extractionRun : Nat) (overallConfidence : Option ConfidenceLevel)
    (f : LlmField) : Option ExtractedField := do
  let fieldName ← PgText.ofStr f.fieldName
  let fieldValue ← textColumn f.fieldValue
  return { dealId, extractionRun, fieldName, fieldValue, fieldStatus := f.fieldStatus,
           confidence := f.confidence, overallConfidence }

/-- The row of a field with its index; the first row carries the overall confidence. -/
def indexedRow (dealId : Uuid) (extractionRun : Nat) (overall : ConfidenceLevel)
    (field : LlmField × Nat) : Option ExtractedField :=
  fieldRow dealId extractionRun (if field.2 = 0 then some overall else none) field.1

def fieldInserts (dealId : Uuid) (extractionRun : Nat) (overall : ConfidenceLevel)
    (fields : List LlmField) : List (DealDb → Option DealDb) :=
  fields.zipIdx.map fun field db =>
    (indexedRow dealId extractionRun overall field).bind db.insertField

/-! ## The steps of a transaction -/

/-- `_load_and_verify_deal`. -/
def loadAndVerifyDeal (dealId tenantId : Uuid) : ServiceM Deal := do
  match ← select fun db => db.deal dealId tenantId with
  | none => raise (.valueError (text (s!"Deal {Uuid.str dealId} not found for tenant " ++
      Uuid.str tenantId)))
  | some deal =>
    if deal.status ≠ .uploaded ∧ deal.status ≠ .failed then
      raise (.valueError (text (s!"Deal {Uuid.str dealId} is in status DealStatus." ++
        deal.status.value ++ " — extraction only allowed from UPLOADED or FAILED")))
    else return deal

/-- The row that `_log_audit` adds. -/
def auditRow (deal : Deal) (action : String) (fromStatus toStatus : DealStatus)
    (detail : Option Str) : DealAuditLog :=
  { dealId := deal.id, tenantId := Uuid.str deal.tenantId, actorType := "worker", actorId := none,
    action, beforeState := some fromStatus, afterState := some toStatus,
    metadata :=
      match detail with
      | none => .empty
      | some [] => .empty
      | some detail => .detail detail }

/-- `_log_audit`. -/
def logAudit (deal : Deal) (action : String) (fromStatus toStatus : DealStatus)
    (detail : Option Str) : ServiceM Unit :=
  write fun db => db.insertAudit (auditRow deal action fromStatus toStatus detail)

/-- `_mark_deal_failed`. -/
def markDealFailed (deal : Deal) (errorDetail : Str) : ServiceM ExtractionResult := do
  update fun db => db.updateDeal deal.id fun d =>
    { d.setStatus .failed with retryCount := deal.retryCount + 1 }
  logAudit deal "EXTRACTION_FAILED" deal.status .failed (some errorDetail)
  flush
  return { success := false, dealId := deal.id, fieldsFound := 0, overallConfidence := .none,
           error := some errorDetail }

def tooFewDetail (foundCount : Nat) : Str :=
  text "Only " ++ Str.ofNat foundCount ++ text "/" ++ Str.ofNat coreExtractionFields.length ++
    text " fields extracted (minimum " ++ Str.ofNat minFieldsForExtraction ++ text " required)"

/-- `_process_extraction_result`. -/
def processExtractionResult (deal : Deal) (llmResult : Json) : ServiceM ExtractionResult := do
  let fields ← ofExcept ((readFields llmResult).mapError .builtin)
  let foundCount := fields.countP LlmField.isFound
  let overallConfidence := computeOverallConfidence fields foundCount
  writeAll (fieldInserts deal.id (deal.retryCount + 1) overallConfidence fields)
  if minFieldsForExtraction ≤ foundCount then do
    update fun db => db.updateDeal deal.id (Deal.setStatus .extracted)
    logAudit deal "EXTRACTION_COMPLETED" deal.status .extracted none
    flush
    return { success := true, dealId := deal.id, fieldsFound := foundCount, overallConfidence,
             error := none }
  else markDealFailed deal (tooFewDetail foundCount)

/-! ## `extract_deal` -/

variable [Runtime]

/-- Steps 3 to 5: the validated response, or what was raised before it. -/
def fetchFields (world : ExtractionWorld) (filePath : Str) : Except ServiceExn Json := do
  let rawText ← world.extractText filePath
  LlmClient.extractFieldsViaLlm (world.reply (world.scrubPii rawText))

/-- The detail recorded for what was raised: the text of an exception that is
    expected, and a prefix before any other. -/
def failureDetail : Exn ServiceExn → Str
  | .raised (.pdfParseError message) => message
  | .raised (.llmExtractionError message) => message
  | .raised (.fileNotFoundError message) => message
  | .raised (.builtin e) => text "Unexpected error: " ++ Runtime.errorText e
  | .raised (.valueError message) => text "Unexpected error: " ++ message
  | _ => text "Unexpected error: "

/-- Steps 2 to 6, for a deal that was loaded and verified. -/
def extractLoaded (world : ExtractionWorld) (deal : Deal) : ServiceM ExtractionResult := do
  logAudit deal "EXTRACTION_STARTED" deal.status deal.status none
  Session.tryCatch
    (do
      let llmResult ← ofExcept (fetchFields world deal.filePath.val)
      processExtractionResult deal llmResult)
    (fun e => markDealFailed deal (failureDetail e))

def extractDeal (world : ExtractionWorld) (dealId tenantId : Uuid) : ServiceM ExtractionResult := do
  let deal ← loadAndVerifyDeal dealId tenantId
  extractLoaded world deal

/-! ## An extraction -/

def sampleField (name : String) : Str :=
  text "\x7b\"field_name\": \"" ++ text name ++
    text "\", \"field_value\": \"1,500\", \"field_status\": \"FOUND\", \"confidence\": \"HIGH\"\x7d"

def sampleReply : Str :=
  text "\x7b\"fields\": [" ++ Str.join (text ", ") (coreExtractionFields.map sampleField) ++
    text "]\x7d"

/-- Every field of the document is found. -/
def sampleWorld : ExtractionWorld where
  extractText _ := .ok (text "A memorandum.")
  scrubPii s := s
  reply _ _ := .content (some sampleReply)

/-- An uploaded deal of tenant 2. -/
def sampleDeal : Deal where
  id := 1
  tenantId := 2
  filename := .ofLiteral "cim.pdf" (by decide)
  contentHash := "00"
  filePath := .ofLiteral "uploads/1/cim.pdf" (by decide)
  fileSizeBytes := 10
  sourceChannel := .ofLiteral "upload" (by decide)
  sourceSender := none
  status := .uploaded
  retryCount := 0
  createdAt := 0

end ExtractionService
