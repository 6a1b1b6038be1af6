import DealScreening.Lib.Run
import DealScreening.Lib.Table
import DealScreening.Lib.Session
import DealScreening.Python.Json
import DealScreening.Models.Deal
import DealScreening.Services.CriteriaEvaluator
import DealScreening.Services.ScoringService
import DealScreening.Services.ExtractionService
import DealScreening.Services.Scorable
import DealScreening.Services.ScoreRange
import DealScreening.Services.ScoreAlgebra
import DealScreening.Services.Rationale
import DealScreening.Services.Confidence
import DealScreening.Services.Operators
import DealScreening.Python.FloatOrder
import DealScreening.Api.Criteria
import DealScreening.Api.Deals
import DealScreening.Pipeline.Lifecycle
import DealScreening.BackgroundJobs.Queue
import DealScreening.BackgroundJobs.Worker
import DealScreening.BackgroundJobs.Ownership
import DealScreening.BackgroundJobs.Accounting
import DealScreening.BackgroundJobs.EnqueueRace
import DealScreening.Auth.Service
import DealScreening.Auth.Routes
import DealScreening.Auth.Effects
import DealScreening.Auth.TokenRows
import DealScreening.Auth.Reuse
import DealScreening.Auth.AuditTrail
import DealScreening.Auth.TokenChain
import DealScreening.Auth.RefreshRace
import DealScreening.Auth.Identity
import DealScreening.Auth.Logout
import DealScreening.Auth.Issuing
import DealScreening.Auth.Rotation
import DealScreening.Auth.PasswordRace
import DealScreening.Frontend.AuthClient
import DealScreening.Frontend.CriteriaForm
import DealScreening.Api.ConfigRace
import DealScreening.Services.LlmGrammar
import DealScreening.Services.ExtractionOutcome
import DealScreening.Python.Path
import DealScreening.Services.IngestionService
import DealScreening.Api.Upload
import DealScreening.Api.UploadOutcome
import DealScreening.Api.UploadRace
import DealScreening.Api.DealCards
import DealScreening.Lib.Paging
import DealScreening.Api.DealPages
import DealScreening.Models.Ownership
import DealScreening.Api.Noninterference
import DealScreening.Lib.Relational
import DealScreening.RateLimiter.Bucket
import DealScreening.RateLimiter.Forecast
import DealScreening.RateLimiter.Store
import DealScreening.RateLimiter.Middleware
import DealScreening.RateLimiter.IpParser
import DealScreening.BackgroundJobs.Handlers
import DealScreening.Pipeline.Transactions
import DealScreening.Pipeline.System
import DealScreening.Pipeline.Guarantees
import DealScreening.Pipeline.Redelivery
import DealScreening.Pipeline.Rescoring
import DealScreening.Pipeline.Statements
import DealScreening.Pipeline.DecisionRace
import DealScreening.Pipeline.DecisionAccess
import DealScreening.Pipeline.Handover
import DealScreening.Pipeline.Sequential
import DealScreening.Python.FileSystem
import DealScreening.Api.SpaFallback
import DealScreening.Lib.Replace
import DealScreening.Python.Utf8
import DealScreening.SecretsConfig.Redaction
import DealScreening.SecretsConfig.Providers
import DealScreening.SecretsConfig.Client
import DealScreening.SecretsConfig.Convergence
import DealScreening.SecretsConfig.Coverage
import DealScreening.InputValidation.PdfValidator
import DealScreening.Python.Re
import DealScreening.Python.ReSearch
import DealScreening.Python.ReSub
import DealScreening.Python.ReRules
import DealScreening.Services.PiiScrubber
import DealScreening.Services.PiiFigures
import DealScreening.Services.PiiLeftovers
import DealScreening.Observability.Scrubber
import DealScreening.Observability.Bearer
import DealScreening.Observability.Leftovers
import DealScreening.Observability.Logger
import DealScreening.Services.PdfParser
import DealScreening.Api.UploadLanding
import DealScreening.Services.EvaluationOrder
import DealScreening.Pipeline.Dashboard
import DealScreening.Python.ReFork
import DealScreening.BackgroundJobs.LastError
import DealScreening.Python.JsonDump
import DealScreening.Python.JsonRoundTrip
import DealScreening.Observability.LogLine
import DealScreening.Lib.Amortised
import DealScreening.BackgroundJobs.Budget
import DealScreening.BackgroundJobs.Backoff
import DealScreening.Lib.Growth
import DealScreening.Pipeline.History
import DealScreening.Pipeline.Custody
import DealScreening.Auth.SessionManager
import DealScreening.Auth.Refinement
import DealScreening.Lib.Purge
import DealScreening.Pipeline.Tenancy
import DealScreening.Pipeline.Isolation
import DealScreening.Pipeline.Authority
import DealScreening.RateLimiter.Traffic
import DealScreening.BackgroundJobs.Recovery
