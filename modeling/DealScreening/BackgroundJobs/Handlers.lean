-- SUMMARY: The handler of extraction jobs: its tenant check, its two transactions, and what is committed when its worker dies.
import DealScreening.BackgroundJobs.Types
import DealScreening.Services.ExtractionService
import DealScreening.Services.ScoringService

/-!
# The extraction handler

The handler extracts a deal in one transaction and, if that succeeded, scores it in a
second one. What it raises leaves the first commit in place, and so does a worker
that dies between the two.
-/

namespace Handlers

open Python Session ExtractionService ScoringService

inductive HandlerExn where
  | tenantMismatch (message : String)
  | service (exn : Exn ServiceExn)
  deriving DecidableEq

/-- `NON_RETRYABLE_EXCEPTIONS`. -/
def HandlerExn.nonRetryable : HandlerExn → Bool
  | .tenantMismatch _ => true
  | .service _ => false

/-- What the tenant check raises: the job was enqueued for another tenant than its payload names. -/
def tenantMismatch (job : ExtractionJob) (ctx : JobContext) : Option HandlerExn :=
  match ctx.tenantId with
  | none => none
  | some tenantId =>
    if tenantId ≠ "" ∧ tenantId ≠ Uuid.str job.tenantId then
      some (.tenantMismatch
        s!"Job tenant_id {tenantId} != payload tenant_id {Uuid.str job.tenantId}")
    else none

/-- Where the handler is after its first transaction. -/
inductive Progress where
  | ended (result : Except HandlerExn Unit)
  /-- The extraction succeeded, and the deal is to be scored. -/
  | extracted
  deriving DecidableEq

section
variable [Runtime]

/-- The check and the first transaction. -/
def extraction (world : ExtractionWorld) (job : ExtractionJob) (ctx : JobContext) (db : DealDb) :
    Progress × DealDb :=
  match tenantMismatch job ctx with
  | some e => (.ended (.error e), db)
  | none =>
    match transaction (extractDeal world job.dealId job.tenantId) db with
    | (.error x, db') => (.ended (.error (.service x)), db')
    | (.ok result, db') => (if result.success then .extracted else .ended (.ok ()), db')

/-- The second transaction. A score that could not be given is only logged. -/
def scoring (draw : ScoreDraw) (job : ExtractionJob) (db : DealDb) : Except HandlerExn Unit × DealDb :=
  match transaction (scoreDeal draw job.dealId job.tenantId) db with
  | (.error x, db') => (.error (.service x), db')
  | (.ok _, db') => (.ok (), db')

/-- `handle_extraction`. -/
def handleExtraction (world : ExtractionWorld) (draw : ScoreDraw) (job : ExtractionJob)
    (ctx : JobContext) (db : DealDb) : Except HandlerExn Unit × DealDb :=
  match extraction world job ctx db with
  | (.ended result, db') => (result, db')
  | (.extracted, db') => scoring draw job db'

/-- Where the worker dies. -/
inductive Crash where
  | beforeExtraction
  | beforeScoring
  | beforeMark
  deriving DecidableEq, Repr

/-- What an execution has committed when its worker dies. -/
def interrupted (crash : Crash) (world : ExtractionWorld) (draw : ScoreDraw) (job : ExtractionJob)
    (ctx : JobContext) (db : DealDb) : DealDb :=
  match crash with
  | .beforeExtraction => db
  | .beforeScoring => (extraction world job ctx db).2
  | .beforeMark => (handleExtraction world draw job ctx db).2

/-! ## The two transactions -/

variable {world : ExtractionWorld} {draw : ScoreDraw} {job : ExtractionJob} {ctx : JobContext}
  {db : DealDb}

/-- The first half raises and commits nothing, or goes by what its transaction returned. -/
theorem extraction_cases (world : ExtractionWorld) (job : ExtractionJob) (ctx : JobContext)
    (db : DealDb) :
    (∃ e, extraction world job ctx db = (.ended (.error e), db)) ∨
    ∃ result db', tenantMismatch job ctx = none ∧
      transaction (extractDeal world job.dealId job.tenantId) db = (.ok result, db') ∧
      extraction world job ctx db =
        (if result.success then .extracted else .ended (.ok ()), db') := by
  unfold extraction
  cases hcheck : tenantMismatch job ctx with
  | some e => exact .inl ⟨e, rfl⟩
  | none =>
    cases hrun : transaction (extractDeal world job.dealId job.tenantId) db with
    | mk result db' =>
      cases result with
      | error x =>
        have hback : (transaction (extractDeal world job.dealId job.tenantId) db).2 = db :=
          transaction_rollback (x := x) (by rw [hrun])
        rw [hrun] at hback
        exact .inl ⟨.service x, by rw [← hback]⟩
      | ok result => exact .inr ⟨result, db', rfl, rfl, rfl⟩

theorem scoring_tables : (scoring draw job db).2 =
    (transaction (scoreDeal draw job.dealId job.tenantId) db).2 := by
  unfold scoring
  split <;> rename_i hrun <;> rw [hrun]

end

end Handlers
