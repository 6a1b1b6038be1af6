-- SUMMARY: Job states, job rows, and the registry of job types.
import DealScreening.Models.Base

/-!
# Jobs

The rows of `background_jobs` and the registry that says which payloads a job
type accepts. `P` is the type of payloads.
-/

inductive JobState where
  | pending
  | claimed
  | running
  | succeeded
  | failed
  | deadLettered
  deriving DecidableEq, Repr

/-- `TERMINAL_STATES`. -/
def JobState.terminal : JobState → Bool
  | .succeeded | .deadLettered => true
  | _ => false

/-- A row of `background_jobs`, and the object a worker holds for it. -/
structure BackgroundJob (P : Type) where
  jobId : String
  jobType : String
  payload : P
  state : JobState
  attempts : Nat
  maxAttempts : Nat
  notBefore : Time
  claimedBy : Option String
  claimExpiresAt : Option Time
  idempotencyKey : Option String
  /-- The trace context, as JSON text. -/
  traceContext : Option String
  lastError : Option String
  tenantId : Option String
  succeededAt : Option Time
  deadLetteredAt : Option Time
  deriving DecidableEq, Repr

/-- `payload.get("tenant_id")`. -/
class Payload (P : Type) where
  tenantId : P → Option String

/-- What the handler is told about the job besides its payload. -/
structure JobContext where
  jobId : String
  jobType : String
  attempt : Nat
  traceContext : Option String
  tenantId : Option String
  deriving DecidableEq, Repr

/-- The registration of a job type. `schema` is `model_validate` of its payload
    schema: the text of the validation error, if there is one. -/
structure HandlerRegistration (P : Type) where
  schema : P → Option String
  maxAttempts : Nat

abbrev Registry (P : Type) := String → Option (HandlerRegistration P)

/-- How a call of a handler ends. -/
inductive HandlerOutcome where
  | returned
  | raised (error : String) (nonRetryable : Bool)
  deriving DecidableEq, Repr

/-! ## The registered job type -/

/-- The payload of an extraction job. The two texts of the JSON are `str` of UUIDs
    and the handler reads them back, so the payload holds the UUIDs. -/
structure ExtractionJob where
  dealId : Uuid
  tenantId : Uuid
  deriving DecidableEq, Repr

instance : Payload ExtractionJob := ⟨fun job => some (Uuid.str job.tenantId)⟩

/-- What `@register("extraction", schema=ExtractionJob, max_attempts=5)` leaves in
    the registry. Payloads of type `ExtractionJob` validate. -/
def extractionRegistry : Registry ExtractionJob := fun jobType =>
  if jobType = "extraction" then some { schema := fun _ => none, maxAttempts := 5 } else none
