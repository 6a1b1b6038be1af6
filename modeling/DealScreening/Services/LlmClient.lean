-- SUMMARY: The LLM call that extracts fields: retries, decoding of the reply, and validation of its structure.
import DealScreening.Models.Enums
import DealScreening.Python.Json
import DealScreening.Services.Exceptions

namespace LlmClient

open Python

/-! ## Validation of the response -/

/-- `d.get(key)`, with `None` for a key that is not there. -/
def get (entries : List (Str × Json)) (key : String) : Json :=
  (getItem entries (text key)).getD .null

/-- `raise LLMExtractionError(message)` unless the condition holds. -/
def require (condition : Bool) (message : Except Error Str) : Except ServiceExn Unit :=
  if condition then .ok ()
  else match message with
    | .ok message => .error (.llmExtractionError message)
    | .error e => .error (.builtin e)

/-- `v in names`, for a set of strings. A list or a dict has no hash. -/
def memberOf (names : List String) : Json → Except ServiceExn Bool
  | .list _ => .error (.builtin .typeError)
  | .dict _ => .error (.builtin .typeError)
  | .str s => .ok (s ∈ names.map text)
  | _ => .ok false

/-- `bool(v)`. -/
def truthy : Json → Bool
  | .null => false
  | .bool b => b
  | .int n => n ≠ 0
  | .float x => !(x == 0)
  | .str s => s ≠ []
  | .list items => !items.isEmpty
  | .dict entries => !entries.isEmpty

def validStatuses : List String := ["FOUND", "INFERRED", "MISSING"]

def validConfidences : List String := ["HIGH", "MEDIUM", "LOW"]

/-- A set of strings as it is printed; Python leaves the order open. -/
def showSet [Runtime] (names : List String) : Str :=
  text "\x7b" ++ Str.join (text ", ") (names.map fun name => Str.repr (text name)) ++ text "\x7d"

/-- Is the value `None`? -/
def isNone : Json → Bool
  | .null => true
  | _ => false

def isStr (s : String) : Json → Bool
  | .str t => t = text s
  | _ => false

variable [Runtime]

/-- One round of the loop over the fields. It returns the name it has seen. -/
def validateField (seen : List Str) (field : Json) : Except ServiceExn Str :=
  match field with
  | .dict entries => do
    let name := get entries "field_name"
    let known ← memberOf coreExtractionFields name
    require known (name.toStr.map fun name => text "Unknown field_name: " ++ name)
    let nameText := match name with
      | .str s => s
      | _ => []
    require (nameText ∉ seen) (.ok (text "Duplicate field_name: " ++ nameText))
    let status := get entries "field_status"
    let statusValid ← memberOf validStatuses status
    require statusValid (status.toStr.map fun status =>
      text "Invalid field_status for " ++ nameText ++ text ": " ++ status ++
        text ". Must be one of " ++ showSet validStatuses)
    let confidence := get entries "confidence"
    let confidenceValid ← memberOf validConfidences confidence
    require confidenceValid (confidence.toStr.map fun confidence =>
      text "Invalid confidence for " ++ nameText ++ text ": " ++ confidence ++
        text ". Must be one of " ++ showSet validConfidences)
    let value := get entries "field_value"
    require (!isStr "MISSING" status || isNone value)
      (.ok (text "Field " ++ nameText ++ text " is MISSING but has a non-null value"))
    require (!(isStr "FOUND" status || isStr "INFERRED" status) || truthy value)
      (status.toStr.map fun status =>
        text "Field " ++ nameText ++ text " is " ++ status ++ text " but has no value")
    return nameText
  | _ => .error (.builtin .attributeError)

def validateFields (seen : List Str) : List Json → Except ServiceExn (List Str)
  | [] => .ok seen
  | field :: fields => do
    let name ← validateField seen field
    validateFields (name :: seen) fields

/-- `"fields" in parsed`. -/
def hasFields : Json → Except ServiceExn Bool
  | .dict entries => .ok (getItem entries (text "fields")).isSome
  | .list items => .ok (items.any (isStr "fields"))
  | .str s => .ok (Str.hasSubstring (text "fields") s)
  | _ => .error (.builtin .typeError)

/-- `parsed["fields"]`. -/
def fieldsItem : Json → Except ServiceExn Json
  | .dict entries =>
    match getItem entries (text "fields") with
    | some fields => .ok fields
    | none => .error (.builtin .keyError)
  | _ => .error (.builtin .typeError)

/-- `_validate_extraction_response`. -/
def validateExtractionResponse (parsed : Json) : Except ServiceExn Unit := do
  let present ← hasFields parsed
  require present (.ok (text "LLM response missing 'fields' key"))
  match ← fieldsItem parsed with
  | .list fields =>
    let seen ← validateFields [] fields
    let missing := coreExtractionFields.filter fun name => text name ∉ seen
    require missing.isEmpty (.ok (text "LLM response missing fields: " ++ showSet missing))
  | _ => .error (.llmExtractionError (text "'fields' must be a list"))

/-! ## The call -/

/-- What one call of the API gives: an API error, another exception, or the content
    of the first choice. -/
inductive LlmReply where
  | apiError (message : Str)
  | raised (e : Error)
  | content (raw : Option Str)
  deriving DecidableEq, Repr

def maxRetries : Nat := 2

def parseReply (raw : Option Str) : Except ServiceExn Json :=
  match raw with
  | none => .error (.llmExtractionError (text "LLM returned empty response"))
  | some [] => .error (.llmExtractionError (text "LLM returned empty response"))
  | some raw =>
    match Json.loads raw with
    | .error .jsonDecodeError =>
      .error (.llmExtractionError
        (text "LLM returned invalid JSON: " ++ Runtime.errorText .jsonDecodeError))
    | .error e => .error (.builtin e)
    | .ok parsed => do
      validateExtractionResponse parsed
      return parsed

/-- The rounds that are left, the number of this one, and the last API error. -/
def attempts (reply : Nat → LlmReply) : Nat → Nat → Str → Except ServiceExn Json
  | 0, _, lastError =>
    .error (.llmExtractionError (text "LLM extraction failed after " ++ Str.ofNat (maxRetries + 1) ++
      text " attempts. Last error: " ++ lastError))
  | left + 1, attempt, _ =>
    match reply attempt with
    | .apiError message => attempts reply left (attempt + 1) message
    | .raised e => .error (.builtin e)
    | .content raw => parseReply raw

/-- `extract_fields_via_llm`, given what each attempt meets. -/
def extractFieldsViaLlm (reply : Nat → LlmReply) : Except ServiceExn Json :=
  attempts reply (maxRetries + 1) 0 (text "None")

end LlmClient
