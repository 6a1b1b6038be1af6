-- SUMMARY: The exceptions of the pipeline's services and routes.
import DealScreening.Python.Text

/-- What the services and routes of the pipeline raise. -/
inductive ServiceExn where
  | builtin (e : Python.Error)
  | valueError (message : Python.Str)
  | pdfParseError (message : Python.Str)
  | fileNotFoundError (message : Python.Str)
  | llmExtractionError (message : Python.Str)
  | tenantMismatch
  | http (status : Nat) (detail : Python.Str)
  deriving DecidableEq, Repr
