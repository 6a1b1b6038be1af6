-- SUMMARY: The enumerations of the deal pipeline and the table of status transitions.
import DealScreening.Python.Text

inductive DealStatus where
  | uploaded
  | extracted
  | failed
  | scored
  | decided
  | archived
  deriving DecidableEq, Repr

namespace DealStatus

def value : DealStatus → String
  | .uploaded => "UPLOADED"
  | .extracted => "EXTRACTED"
  | .failed => "FAILED"
  | .scored => "SCORED"
  | .decided => "DECIDED"
  | .archived => "ARCHIVED"

end DealStatus

/-- `VALID_STATE_TRANSITIONS`. -/
def validStateTransitions : DealStatus → List DealStatus
  | .uploaded => [.extracted, .failed]
  | .extracted => [.scored]
  | .failed => [.uploaded]
  | .scored => [.decided]
  | .decided => [.archived]
  | .archived => []

structure InvalidStateTransition where
  fromStatus : DealStatus
  toStatus : DealStatus
  deriving DecidableEq, Repr

def validateTransition (fromStatus toStatus : DealStatus) : Except InvalidStateTransition Unit :=
  if toStatus ∈ validStateTransitions fromStatus then .ok ()
  else .error ⟨fromStatus, toStatus⟩

inductive DecisionType where
  | passed
  | pursuing
  deriving DecidableEq, Repr

def DecisionType.value : DecisionType → String
  | .passed => "PASSED"
  | .pursuing => "PURSUING"

/-- Per-field extraction status. -/
inductive FieldExtractionStatus where
  | found
  | inferred
  | missing
  deriving DecidableEq, Repr

/-- `FieldExtractionStatus(s)`, `none` for `ValueError`. -/
def FieldExtractionStatus.ofValue (s : Python.Str) : Option FieldExtractionStatus :=
  if s = Python.text "FOUND" then some .found
  else if s = Python.text "INFERRED" then some .inferred
  else if s = Python.text "MISSING" then some .missing
  else none

inductive ConfidenceLevel where
  | high
  | medium
  | low
  | none
  deriving DecidableEq, Repr

namespace ConfidenceLevel

def value : ConfidenceLevel → String
  | .high => "HIGH"
  | .medium => "MEDIUM"
  | .low => "LOW"
  | .none => "NONE"

/-- `ConfidenceLevel(s)`, `none` for `ValueError`. -/
def ofValue (s : Python.Str) : Option ConfidenceLevel :=
  if s = Python.text "HIGH" then some .high
  else if s = Python.text "MEDIUM" then some .medium
  else if s = Python.text "LOW" then some .low
  else if s = Python.text "NONE" then some .none
  else Option.none

end ConfidenceLevel

/-- How a criterion affects scoring. -/
inductive CriterionType where
  | mustHave
  | niceToHave
  | dealbreaker
  deriving DecidableEq, Repr

/-- `CORE_EXTRACTION_FIELDS`. -/
def coreExtractionFields : List String :=
  ["sector", "revenue", "ebitda", "geography", "ask_price", "deal_type"]

/-- `MIN_FIELDS_FOR_EXTRACTION`. -/
def minFieldsForExtraction : Nat := 3
