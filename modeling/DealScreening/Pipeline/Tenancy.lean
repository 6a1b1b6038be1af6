-- SUMMARY: The deployment as its tenants share it: logins, requests with tokens, and executions of jobs that read the documents on the disk.
import DealScreening.Api.Noninterference
import DealScreening.Api.UploadLanding
import DealScreening.Auth.Identity
import DealScreening.BackgroundJobs.Worker
import DealScreening.Lib.Purge
import DealScreening.Pipeline.Custody
import DealScreening.Services.PdfParser
import DealScreening.Services.PiiScrubber

/-!
# Tenancy

All tenants share the tables, the disk and the workers. Which tenant a request is for is in its
token, and which tenant a job is for in its payload.
-/

open Python

-- ---------------------------------------------------------------------------
-- Jobs of a tenant
-- ---------------------------------------------------------------------------

namespace Noninterference

open Session DealDb ExtractionService ScoringService Handlers

section
variable {tenantId dealId : Uuid} {theirs d d' d₀ : DealDb} {deal : Deal} {detail : Option Str}
  {action : String} {fromStatus toStatus : DealStatus} {world world' : ExtractionWorld}

theorem loadAndVerifyDeal_local :
    Together (fun d d' => Part tenantId theirs d d' ∧ d = d₀)
      (loadAndVerifyDeal dealId tenantId) (loadAndVerifyDeal dealId tenantId)
      (fun deal d d' => Part tenantId theirs d d' ∧ d₀.deal dealId tenantId = some deal ∧
        theirs.NoDeal deal.id)
      (Part tenantId theirs) := by
  unfold loadAndVerifyDeal
  refine Together.bind (together_select (fun d d' h => h.1.part ▸ deal_rowsOf) fun _ _ h => h.1)
    fun o => ?_
  cases o with
  | none => exact together_raise fun _ _ h => h.1.1
  | some deal =>
    dsimp only
    split
    · exact together_raise fun _ _ h => h.1.1
    · refine together_pure ?_
      rintro d d' ⟨⟨hpart, rfl⟩, hdeal⟩
      have htenant := (deal_key hdeal.symm).2
      exact ⟨hpart, hdeal.symm, hpart.noDeal (List.mem_of_find?_eq_some hdeal.symm) htenant⟩

theorem logAudit_local (hno : theirs.NoDeal deal.id) :
    Local tenantId theirs (logAudit deal action fromStatus toStatus detail)
      fun _ => Part tenantId theirs :=
  local_write fun _ _ h => h.insertAudit hno

theorem markDealFailed_local {errorDetail : Str} (hno : theirs.NoDeal deal.id) :
    Local tenantId theirs (markDealFailed deal errorDetail) fun _ => Part tenantId theirs := by
  unfold markDealFailed
  refine Together.bind (together_update fun _ _ h => h.updateDeal hno (fun _ => rfl) fun _ => rfl)
    fun _ => ?_
  refine Together.bind (logAudit_local hno) fun _ => ?_
  exact Together.bind (together_flush fun _ _ h => h) fun _ => together_pure fun _ _ h => h

theorem processExtractionResult_local {llmResult : Json} (hno : theirs.NoDeal deal.id) :
    Local tenantId theirs (processExtractionResult deal llmResult) fun _ => Part tenantId theirs := by
  unfold processExtractionResult
  refine Together.bind (together_ofExcept (fun _ _ _ _ h => h) fun _ _ h => h) fun fields => ?_
  refine Together.bind (together_writeAll fun field _ d d' h => ?_) fun _ => ?_
  · cases hrow : indexedRow deal.id (deal.retryCount + 1)
        (computeOverallConfidence fields (fields.countP LlmField.isFound)) field with
    | none => exact .inr ⟨rfl, rfl⟩
    | some row =>
      have hid : row.dealId = deal.id := by
        unfold indexedRow fieldRow at hrow
        obtain ⟨name, -, hrow⟩ := Option.bind_eq_some_iff.mp hrow
        obtain ⟨value, -, hrow⟩ := Option.bind_eq_some_iff.mp hrow
        cases hrow
        rfl
      exact (h.insertField (hid.symm ▸ hno)).imp id fun hnone => ⟨hnone.1, hnone.2.1⟩
  split
  · refine Together.bind (together_update fun _ _ h =>
      h.updateDeal hno (Deal.setStatus_id .extracted) fun _ => rfl) fun _ => ?_
    refine Together.bind (logAudit_local hno) fun _ => ?_
    exact Together.bind (together_flush fun _ _ h => h) fun _ => together_pure fun _ _ h => h
  · exact markDealFailed_local hno

variable [Runtime]

theorem extractLoaded_local (hno : theirs.NoDeal deal.id) :
    Local tenantId theirs (extractLoaded world deal) fun _ => Part tenantId theirs := by
  unfold extractLoaded
  refine Together.bind (logAudit_local hno) fun _ => ?_
  refine Together.tryCatch (E := Part tenantId theirs) ?_ fun e => markDealFailed_local hno
  refine Together.bind (together_ofExcept (fun _ _ _ _ h => h) fun _ _ h => h) fun llmResult => ?_
  exact processExtractionResult_local hno

theorem extractLoaded_congr (h : fetchFields world deal.filePath.val = fetchFields world' deal.filePath.val) :
    extractLoaded world deal = extractLoaded world' deal := by
  unfold extractLoaded
  rw [h]

/-- Two extractions that read the same for the deal. -/
theorem extractDeal_local (hsame : ∀ deal, d₀.deal dealId tenantId = some deal →
      fetchFields world deal.filePath.val = fetchFields world' deal.filePath.val) :
    Together (fun d d' => Part tenantId theirs d d' ∧ d = d₀) (extractDeal world dealId tenantId)
      (extractDeal world' dealId tenantId) (fun _ => Part tenantId theirs) (Part tenantId theirs) := by
  refine Together.bind loadAndVerifyDeal_local fun deal s s' hpre hrefused hfailed => ?_
  obtain ⟨hpart, hdeal, hno⟩ := hpre
  rw [extractLoaded_congr (hsame deal hdeal)]
  exact extractLoaded_local hno s s' hpart hrefused hfailed

theorem extraction_local (world world' : ExtractionWorld) {job : ExtractionJob} (ctx : JobContext)
    (hpart : Part job.tenantId theirs d d') (hsame : ∀ deal, d.deal job.dealId job.tenantId = some deal →
      fetchFields world deal.filePath.val = fetchFields world' deal.filePath.val) :
    (extraction world job ctx d).1 = (extraction world' job ctx d').1 ∧
      Part job.tenantId theirs (extraction world job ctx d).2 (extraction world' job ctx d').2 := by
  obtain ⟨hresult, htables⟩ := (extractDeal_local hsame).transaction_of ⟨hpart, rfl⟩ hpart
  unfold extraction
  cases tenantMismatch job ctx with
  | some e => exact ⟨rfl, hpart⟩
  | none =>
    revert hresult htables
    generalize transaction (extractDeal world job.dealId job.tenantId) d = r
    generalize transaction (extractDeal world' job.dealId job.tenantId) d' = r'
    obtain ⟨result, e⟩ := r
    obtain ⟨result', e'⟩ := r'
    rintro rfl htables
    cases result with
    | error x => exact ⟨rfl, htables⟩
    | ok result => exact ⟨rfl, htables⟩

theorem scoring_local {job : ExtractionJob} (draw : ScoreDraw) (hpart : Part job.tenantId theirs d d')
    (hscore : NoScore theirs draw.scoreId) :
    Part job.tenantId theirs (scoring draw job d).2 (scoring draw job d').2 := by
  have hlocal : Local job.tenantId theirs (scoreDeal draw job.dealId job.tenantId)
      fun _ => Part job.tenantId theirs :=
    (scoreDeal_local hscore).weaken (fun _ _ h => h) (fun _ _ _ h => h.1) fun _ _ h => h
  rw [scoring_tables, scoring_tables]
  exact (hlocal.transaction hpart).2

end

end Noninterference

namespace Tenancy

open Session DealDb Noninterference IngestionService UploadApi DealsApi CriteriaApi ScoringService
  Handlers Pipeline

-- ---------------------------------------------------------------------------
-- The system
-- ---------------------------------------------------------------------------

/-- What a deployment fixes. -/
structure Deployment where
  auth : AuthEnv
  api : Environment
  /-- `uuid.UUID` of the tenant that a token names. -/
  parseUuid : String → Option Uuid
  /-- What `PdfReader` makes of the bytes of a file, or of a directory. -/
  pypdf : Option Bytes → Except Str (List PdfParser.Page)

structure St where
  auth : Auth.St
  world : World
  /-- The jobs whose handlers are between their two transactions. -/
  executing : List ExtractionJob
  /-- The access tokens that were given out. No code reads this. -/
  issued : List AccessToken

/-- Nobody is registered, and the tables are empty. -/
def init (start : Time) (disk : Disk) : St := ⟨⟨AuthDb.empty, start⟩, ⟨⟨.empty, []⟩, disk⟩, [], []⟩

inductive Act where
  | auth (a : Auth.Act)
  | request (authorization : Authorization) (op : Operation)
  /-- A worker runs the first transaction of the handler on a job. -/
  | extract (jobId : String) (reply : Str → Nat → LlmClient.LlmReply)
  | score (job : ExtractionJob) (draw : ScoreDraw)
  /-- A worker dies between the two transactions. -/
  | crash (job : ExtractionJob)

namespace St

def tables (s : St) : DealDb := s.world.db.tables

def jobs (s : St) : Queue.Jobs ExtractionJob := s.world.db.jobs

def setTables (s : St) (tables : DealDb) : St :=
  { s with world := { s.world with db := { s.world.db with tables } } }

end St

/-- `PdfReader(path)`: it opens what is under the path. -/
def reader (d : Deployment) (disk : Disk) : PdfParser.Reader := fun path =>
  d.pypdf ((disk.found (Path.parse path)).head?.map StoredFile.content)

/-- What an execution reads: the disk, and the replies of the model. -/
def extractionWorld [ReTables] (d : Deployment) (reply : Str → Nat → LlmClient.LlmReply)
    (disk : Disk) : ExtractionWorld where
  extractText := PdfParser.extractTextFromPdf (reader d disk) disk
  scrubPii := PiiScrubber.scrubPii
  reply

/-- The caller that a route gets from `require_auth`, if the tenant is a UUID. -/
def callerOf (d : Deployment) (s : St) (authorization : Authorization) : Option Caller :=
  match (transaction (Auth.requireAuth d.auth s.auth.now authorization) s.auth.db).1 with
  | .ok context => (d.parseUuid context.tenantId).map fun tenantId => ⟨tenantId, context.userId⟩
  | .error _ => none

/-- The job whose second transaction comes next. -/
def pending (progress : Progress) (job : ExtractionJob) : List ExtractionJob :=
  match progress with
  | .ended _ => []
  | .extracted => [job]

/-- One transaction. Any job may be executed at any time, by any number of workers. -/
def step [ReTables] (d : Deployment) (s : St) : Act → Option St
  | .auth a =>
    some { s with
      auth := Auth.step d.auth s.auth a
      issued := s.issued ++ (Auth.response d.auth s.auth a).toList.map TokenBundle.accessToken }
  | .request authorization op =>
    match callerOf d s authorization with
    | none => some s
    | some caller => some { s with world := (serve d.api caller op s.world).2 }
  | .extract jobId reply =>
    (Queue.find s.jobs jobId).map fun job =>
      let done := extraction (extractionWorld d reply s.world.disk) job.payload
        (Worker.jobContext job) s.tables
      { s.setTables done.2 with executing := s.executing ++ pending done.1 job.payload }
  | .score job draw =>
    if job ∈ s.executing then
      some { s.setTables (scoring draw job s.tables).2 with executing := s.executing.erase job }
    else none
  | .crash job =>
    if job ∈ s.executing then some { s with executing := s.executing.erase job } else none

/-- The tenant that an action is for. -/
def tenantOf (d : Deployment) (s : St) : Act → Option Uuid
  | .auth _ => none
  | .request authorization _ => (callerOf d s authorization).map Caller.tenantId
  | .extract jobId _ => (Queue.find s.jobs jobId).map fun job => job.payload.tenantId
  | .score job _ => some job.tenantId
  | .crash job => some job.tenantId

/-- What a tenant's request is answered with. -/
def answer [ReTables] (d : Deployment) (tenantId : Uuid) (s : St) : Act → Option Response
  | .request authorization op =>
    match callerOf d s authorization with
    | none => none
    | some caller =>
      if caller.tenantId = tenantId then some (serve d.api caller op s.world).1 else none
  | _ => none

/-- The action is for no other tenant. -/
def spares (d : Deployment) (tenantId : Uuid) (s : St) (a : Act) : Bool :=
  (tenantOf d s a).all fun other => other = tenantId

/-- The ids that an action draws are new, and are those of `uuid4`. -/
def DrawsFresh (s : St) : Act → Prop
  | .request _ op => FreshIds s.world op ∧ ∀ draw file, op = .upload draw file → draw.dealId < 2 ^ 128
  | .score _ draw => ∀ score ∈ s.tables.dealScores, score.id ≠ draw.scoreId
  | _ => True

/-- `uuid.UUID` gives 128 bits. -/
def Uuids (parseUuid : String → Option Uuid) : Prop := ∀ s id, parseUuid s = some id → id < 2 ^ 128

-- ---------------------------------------------------------------------------
-- What a request can do
-- ---------------------------------------------------------------------------

section
variable {order : Table.RowOrder} {tenantId dealId : Uuid} {deal : Deal}

/-- Nothing is written. -/
abbrev Reads {α : Type} (m : ServiceM α) : Prop := Respects Eq m

theorem buildDealCard_reads : Reads (buildDealCard order deal) := by
  unfold buildDealCard getLatestExtractedFields
  refine (Respects.bind respects_select fun _ => respects_pure).bind fun _ => ?_
  exact Respects.bind respects_select fun _ => Respects.bind respects_select fun _ => respects_pure

theorem buildDealCards_reads {deals : List Deal} : Reads (buildDealCards order deals) := by
  induction deals with
  | nil => exact respects_pure
  | cons deal deals ih => exact buildDealCard_reads.bind fun _ => ih.bind fun _ => respects_pure

theorem listDeals_reads {query : ListQuery} : Reads (listDeals order tenantId query) :=
  Respects.bind respects_select fun _ => buildDealCards_reads

theorem getDeal_reads : Reads (getDeal order dealId tenantId) := by
  refine Respects.bind (Respects.bind respects_select fun found => ?_) fun _ => buildDealCard_reads
  cases found with
  | none => exact respects_raise
  | some deal => exact respects_pure

theorem getActiveConfig_reads : Reads (getActiveConfig tenantId) := by
  refine Respects.bind respects_select fun found => ?_
  cases found with
  | none => exact respects_raise
  | some config => exact Respects.bind respects_select fun _ => respects_pure

theorem configResponses_reads {configs : List CriteriaConfig} : Reads (configResponses configs) := by
  induction configs with
  | nil => exact respects_pure
  | cons config configs ih =>
    exact Respects.bind respects_select fun _ => ih.bind fun _ => respects_pure

theorem getConfigHistory_reads : Reads (getConfigHistory order tenantId) :=
  Respects.bind respects_select fun _ => configResponses_reads

end

section
variable [ReTables] {d : Deployment} {s t : St} {a : Act} {op : Operation} {w w' : World}

/-- The state after a request that is served. -/
def served (d : Deployment) (s : St) (caller : Caller) (op : Operation) : St :=
  { s with world := (serve d.api caller op s.world).2 }

/-- What an execution of a job comes to. -/
def extracted (d : Deployment) (s : St) (reply : Str → Nat → LlmClient.LlmReply)
    (job : BackgroundJob ExtractionJob) : Progress × DealDb :=
  extraction (extractionWorld d reply s.world.disk) job.payload (Worker.jobContext job) s.tables

theorem step_request {authorization : Authorization} (h : step d s (.request authorization op) = some t) :
    (callerOf d s authorization = none ∧ t = s) ∨
      ∃ caller, callerOf d s authorization = some caller ∧ t = served d s caller op := by
  simp only [step] at h
  split at h <;> cases h <;> rename_i hcaller
  · exact .inl ⟨hcaller, rfl⟩
  · exact .inr ⟨_, hcaller, rfl⟩

theorem step_extract {jobId : String} {reply : Str → Nat → LlmClient.LlmReply}
    (h : step d s (.extract jobId reply) = some t) :
    ∃ job, Queue.find s.jobs jobId = some job ∧
      t = { s.setTables (extracted d s reply job).2 with
            executing := s.executing ++ pending (extracted d s reply job).1 job.payload } := by
  obtain ⟨job, hjob, rfl⟩ := Option.map_eq_some_iff.mp h
  exact ⟨job, hjob, rfl⟩

theorem step_score {job : ExtractionJob} {draw : ScoreDraw} (h : step d s (.score job draw) = some t) :
    job ∈ s.executing ∧
      t = { s.setTables (scoring draw job s.tables).2 with executing := s.executing.erase job } := by
  simp only [step] at h
  split at h <;> cases h
  rename_i hjob
  exact ⟨hjob, rfl⟩

theorem step_crash {job : ExtractionJob} (h : step d s (.crash job) = some t) :
    job ∈ s.executing ∧ t = { s with executing := s.executing.erase job } := by
  simp only [step] at h
  split at h <;> cases h
  rename_i hjob
  exact ⟨hjob, rfl⟩

/-- The jobs and the disk stay, and the tables are edited. -/
def Edited (w w' : World) : Prop :=
  w'.disk = w.disk ∧ w'.db.jobs = w.db.jobs ∧ Edits w.db.tables w'.db.tables

theorem edited_refl (w : World) : Edited w w := ⟨rfl, rfl, .refl⟩

/-- A request is an upload, or it edits the tables. -/
theorem serve_cases (env : Environment) (caller : Caller) (op : Operation) (w : World) :
    (∃ draw file, op = .upload draw file ∧ (serve env caller op w).2 =
      (upload env.config env.validatePdf none draw caller.tenantId file w).2) ∨
    Edited w (serve env caller op w).2 := by
  have hreads : ∀ {α : Type} {m : ServiceM α} (response : Except (Exn ServiceExn) α → Response),
      Reads m → Edited w (onTables response m w).2 := by
    intro α m response hm
    refine ⟨rfl, rfl, ?_⟩
    rw [onTables, ← hm.transaction w.db.tables]
  cases op with
  | upload draw file => exact .inl ⟨draw, file, rfl, rfl⟩
  | listDeals query => exact .inr (hreads _ listDeals_reads)
  | getDeal dealId => exact .inr (hreads _ getDeal_reads)
  | decideDeal now dealId body =>
    exact .inr ⟨rfl, rfl, decideDeal_edits _ now dealId caller.tenantId caller.userId body w.db.tables⟩
  | createCriteriaConfig draw body =>
    exact .inr ⟨rfl, rfl, createCriteriaConfig_edits draw caller.tenantId body w.db.tables⟩
  | getActiveConfig => exact .inr (hreads _ getActiveConfig_reads)
  | getConfigHistory => exact .inr (hreads _ getConfigHistory_reads)

/-- A step uploads a document for a caller, or it edits the tables. -/
theorem step_cases (h : step d s a = some t) :
    (∃ authorization draw file caller, a = .request authorization (.upload draw file) ∧
      callerOf d s authorization = some caller ∧ t.world =
        (upload d.api.config d.api.validatePdf none draw caller.tenantId file s.world).2) ∨
    Edited s.world t.world := by
  cases a with
  | auth a =>
    cases h
    exact .inr (edited_refl _)
  | request authorization op =>
    rcases step_request h with ⟨-, rfl⟩ | ⟨caller, hcaller, rfl⟩
    · exact .inr (edited_refl _)
    · rcases serve_cases d.api caller op s.world with ⟨draw, file, rfl, hworld⟩ | hedited
      · exact .inl ⟨authorization, draw, file, caller, rfl, hcaller, hworld⟩
      · exact .inr hedited
  | extract jobId reply =>
    obtain ⟨job, -, rfl⟩ := step_extract h
    exact .inr ⟨rfl, rfl, extraction_edits _ job.payload (Worker.jobContext job) s.tables⟩
  | score job draw =>
    obtain ⟨-, rfl⟩ := step_score h
    exact .inr ⟨rfl, rfl, scoring_edits draw job s.tables⟩
  | crash job =>
    obtain ⟨-, rfl⟩ := step_crash h
    exact .inr (edited_refl _)

/-- No row or job of another tenant has changed, and references still lead to rows. -/
theorem step_confined (hsound : s.tables.Sound) (hfresh : DrawsFresh s a) (h : step d s a = some t) :
    t.world = s.world ∨ ∃ tenantId, tenantOf d s a = some tenantId ∧ t.tables.Sound ∧
      Spared tenantId s.world t.world := by
  have halone : ∀ tenantId, Part tenantId (s.tables.rowsOfOthers tenantId) s.tables
      (s.tables.rowsOf tenantId) := fun _ => ⟨hsound, rfl, rfl⟩
  cases a with
  | auth a =>
    cases h
    exact .inl rfl
  | request authorization op =>
    rcases step_request h with ⟨-, rfl⟩ | ⟨caller, hcaller, rfl⟩
    · exact .inl rfl
    · obtain ⟨-, hpart⟩ := serve_alone d.api caller hsound hfresh.1
      refine .inr ⟨caller.tenantId, ?_, hpart.tables.sound, hpart.tables.others, hpart.others⟩
      simp only [tenantOf, hcaller, Option.map_some]
  | extract jobId reply =>
    obtain ⟨job, hjob, rfl⟩ := step_extract h
    have hpart := (extraction_local (extractionWorld d reply s.world.disk) _ (Worker.jobContext job)
      (halone job.payload.tenantId) fun _ _ => rfl).2
    refine .inr ⟨job.payload.tenantId, ?_, hpart.sound, hpart.others, rfl⟩
    simp only [tenantOf, hjob, Option.map_some]
  | score job draw =>
    obtain ⟨-, rfl⟩ := step_score h
    have hpart := scoring_local draw (halone job.tenantId)
      fun score hscore => hfresh score (List.mem_filter.mp hscore).1
    exact .inr ⟨job.tenantId, rfl, hpart.sound, hpart.others, rfl⟩
  | crash job =>
    obtain ⟨-, rfl⟩ := step_crash h
    exact .inl rfl

-- ---------------------------------------------------------------------------
-- The invariant
-- ---------------------------------------------------------------------------

/-- The tables are in order, the documents in custody, and tenants are UUIDs. -/
structure Ok (d : Deployment) (s : St) : Prop where
  inv : Inv s.tables
  sound : s.tables.Sound
  custody : Custody d.api.config s.world
  tenants : ∀ deal ∈ s.tables.deals, deal.tenantId < 2 ^ 128

omit [ReTables] in
theorem ok_init (d : Deployment) (start : Time) (disk : Disk) : Ok d (init start disk) where
  inv := inv_empty
  sound := ⟨.nil, .nil, by simp [init, St.tables, DealDb.empty], by simp [init, St.tables, DealDb.empty],
    by simp [init, St.tables, DealDb.empty], by simp [init, St.tables, DealDb.empty],
    by simp [init, St.tables, DealDb.empty]⟩
  custody := ⟨by simp [init, DealDb.empty], by simp [init, DealDb.empty], by simp [init]⟩
  tenants := by simp [init, St.tables, DealDb.empty]

omit [ReTables] in
theorem callerOf_bound {authorization : Authorization} {caller : Caller} (hparse : Uuids d.parseUuid)
    (h : callerOf d s authorization = some caller) : caller.tenantId < 2 ^ 128 := by
  unfold callerOf at h
  split at h
  · obtain ⟨tenantId, hread, rfl⟩ := Option.map_eq_some_iff.mp h
    exact hparse _ _ hread
  · cases h

omit [ReTables] in
/-- Nothing else has the id of a deal that is uploaded. -/
theorem DrawsFresh.deal {authorization : Authorization} {draw : IngestDraw} {file : UploadFile}
    (h : DrawsFresh s (.request authorization (.upload draw file))) :
    draw.dealId < 2 ^ 128 ∧ s.tables.dealById draw.dealId = none :=
  ⟨h.2 draw file rfl, Table.lookup_eq_none.mpr h.1.1⟩

/-- Every step with fresh ids keeps the invariant. -/
theorem Ok.step (hok : Ok d s) (hparse : Uuids d.parseUuid) (hfresh : DrawsFresh s a)
    (h : step d s a = some t) : Ok d t := by
  have hsound : t.tables.Sound := by
    rcases step_confined hok.sound hfresh h with hworld | ⟨_, -, hsound, -⟩
    · rw [St.tables, hworld]
      exact hok.sound
    · exact hsound
  rcases step_cases h with ⟨authorization, draw, file, caller, rfl, hcaller, hworld⟩ |
    ⟨hdisk, hjobs, hedits⟩
  · obtain ⟨hid, hnew⟩ := hfresh.deal
    refine ⟨?_, hsound, ?_, ?_⟩
    · rw [St.tables, hworld]
      rcases upload_uploads d.api.config d.api.validatePdf none draw caller.tenantId file s.world with
        hsame | ⟨hevent, -⟩
      · rw [hsame]
        exact hok.inv
      · exact hok.inv.event hevent.1
    · rw [hworld]
      exact hok.custody.upload d.api.validatePdf none hid hnew caller.tenantId file
    · rw [St.tables, hworld]
      rcases upload_ingests d.api.config d.api.validatePdf none draw caller.tenantId file s.world with
        hsame | ⟨-, ⟨deal, hrow, hdeals⟩, -⟩
      · rw [hsame]
        exact hok.tenants
      · rw [hdeals]
        refine forall_mem_snoc hok.tenants ?_
        rw [(row_eq_some hrow).2.1]
        exact callerOf_bound hparse hcaller
  · refine ⟨hedits.inv hok.inv, hsound, hok.custody.edits hok.inv hdisk hjobs hedits, fun deal' hdeal' => ?_⟩
    obtain ⟨hgrows, hlength⟩ := hedits.grows hok.inv
    obtain ⟨deal, hdeal, hlater⟩ := hgrows.deals.of_mem hlength hdeal'
    rw [hlater.1]
    exact hok.tenants deal hdeal

end

-- ---------------------------------------------------------------------------
-- The documents of a tenant
-- ---------------------------------------------------------------------------

section
variable {config : IngestionConfig} {tenantId tenantId' : Uuid} {w w' v v' : World} {disk disk' : Disk}
  {path : Path}

/-- The documents of the tenant's deals are the same on both disks. -/
def SameDocuments (config : IngestionConfig) (tenantId : Uuid) (w w' : World) : Prop :=
  ∀ deal ∈ w.db.tables.deals, deal.tenantId = tenantId →
    w'.disk.found (documentPath config deal) = w.disk.found (documentPath config deal)

variable [ReTables] {d : Deployment}

theorem SameDocuments.edited (h : SameDocuments config tenantId w w') (hinv : Inv w.db.tables)
    (hedited : Edited w v) (hdisk' : v'.disk = w'.disk) : SameDocuments config tenantId v v' := by
  obtain ⟨hdisk, -, hedits⟩ := hedited
  intro deal' hdeal' htenant
  obtain ⟨hgrows, hlength⟩ := hedits.grows hinv
  obtain ⟨deal, hdeal, hlater⟩ := hgrows.deals.of_mem hlength hdeal'
  rw [hlater.1] at htenant ⊢
  rw [hdisk, hdisk']
  exact h deal hdeal htenant

section
variable {validatePdf : PdfValidator} {draw : IngestDraw} {file : UploadFile}

omit [ReTables] in
/-- The document of a deal is elsewhere than one that is uploaded. -/
theorem documentPath_ne {deal : Deal} (hcustody : Custody config w) (hid : draw.dealId < 2 ^ 128)
    (hnew : w.db.tables.dealById draw.dealId = none) (hdeal : deal ∈ w.db.tables.deals)
    (filename : Str) : documentPath config deal ≠ storedPath config draw.dealId filename :=
  storedPath_ne (hcustody.ids deal hdeal) hid (Table.lookup_eq_none.mp hnew deal hdeal) _ _

/-- The tenant uploads a document to both. -/
theorem SameDocuments.upload (h : SameDocuments config tenantId w w') (hcustody : Custody config w)
    (hid : draw.dealId < 2 ^ 128) (hnew : w.db.tables.dealById draw.dealId = none)
    (htables : w'.db.tables = w.db.tables.rowsOf tenantId)
    (htables' : (UploadApi.upload config validatePdf none draw tenantId file w').2.db.tables =
      (UploadApi.upload config validatePdf none draw tenantId file w).2.db.tables.rowsOf tenantId) :
    SameDocuments config tenantId (UploadApi.upload config validatePdf none draw tenantId file w).2
      (UploadApi.upload config validatePdf none draw tenantId file w').2 := by
  intro deal hdeal htenant
  by_cases hold : deal ∈ w.db.tables.deals
  · have hne := documentPath_ne hcustody hid hnew hold file.name
    rw [upload_filesApart validatePdf file w' _ hne, upload_filesApart validatePdf file w _ hne]
    exact h deal hold htenant
  · have hmine : deal ∈ (w.db.tables.rowsOf tenantId).deals → deal ∈ w.db.tables.deals :=
      fun hmem => (List.mem_filter.mp hmem).1
    rcases upload_ingests config validatePdf none draw tenantId file w with
      hsame | ⟨-, ⟨new, hrow, hdeals⟩, hfile, -⟩
    · rw [hsame] at hdeal
      exact absurd hdeal hold
    · have hdocument : documentPath config deal = storedPath config draw.dealId file.name := by
        rw [hdeals] at hdeal
        rcases List.mem_append.mp hdeal with hdeal | hdeal
        · exact absurd hdeal hold
        · obtain ⟨hdealId, -, hfilename, -⟩ := row_eq_some hrow
          rw [List.mem_singleton.mp hdeal, documentPath, hdealId, hfilename]
      rcases upload_ingests config validatePdf none draw tenantId file w' with hsame' | ⟨-, -, hfile', -⟩
      · -- The row is the tenant's, so it is in both databases or in none.
        rw [hsame', htables] at htables'
        refine absurd (hmine ?_) hold
        rw [htables']
        exact List.mem_filter.mpr ⟨hdeal, decide_eq_true htenant⟩
      · rw [hdocument, hfile, hfile']

/-- Another tenant uploads a document to one. -/
theorem SameDocuments.other (h : SameDocuments config tenantId w w') (hcustody : Custody config w)
    (hid : draw.dealId < 2 ^ 128) (hnew : w.db.tables.dealById draw.dealId = none)
    (hrows : (UploadApi.upload config validatePdf none draw tenantId' file w).2.db.tables.rowsOf tenantId =
      w.db.tables.rowsOf tenantId) :
    SameDocuments config tenantId (UploadApi.upload config validatePdf none draw tenantId' file w).2 w' := by
  intro deal hdeal htenant
  have hmem : deal ∈ (w.db.tables.rowsOf tenantId).deals := by
    rw [← hrows]
    exact List.mem_filter.mpr ⟨hdeal, decide_eq_true htenant⟩
  have hold := (List.mem_filter.mp hmem).1
  have hne := documentPath_ne hcustody hid hnew hold file.name
  rw [upload_filesApart validatePdf file w _ hne]
  exact h deal hold htenant

end

/-- The text of a document that is there. -/
theorem extractText_congr (hparsed : path.Parsed) (hthere : disk.found path ≠ [])
    (hsame : disk'.found path = disk.found path) :
    PdfParser.extractTextFromPdf (reader d disk') disk' path.str =
      PdfParser.extractTextFromPdf (reader d disk) disk path.str := by
  have hexists : ∀ disk : Disk, disk.found path ≠ [] → PdfParser.pathExists disk path = true := by
    intro disk hthere
    obtain ⟨f, hf⟩ := List.exists_mem_of_ne_nil _ hthere
    obtain ⟨hmem, hpath⟩ := List.mem_filter.mp hf
    exact decide_eq_true (.inr (List.mem_map.mpr ⟨f, hmem, of_decide_eq_true hpath⟩))
  unfold PdfParser.extractTextFromPdf reader
  rw [hparsed.parse_str]
  dsimp only
  rw [hparsed.parse_str, hexists disk hthere, hexists disk' (by rwa [hsame]), hsame]

/-- An execution reads the same for a deal of the tenant. -/
theorem fetchFields_congr {s : St} {dealId : Uuid} {deal : Deal}
    (reply : Str → Nat → LlmClient.LlmReply) (hok : Ok d s)
    (hsame : SameDocuments d.api.config tenantId s.world w')
    (hdeal : s.tables.deal dealId tenantId = some deal) :
    ExtractionService.fetchFields (extractionWorld d reply s.world.disk) deal.filePath.val =
      ExtractionService.fetchFields (extractionWorld d reply w'.disk) deal.filePath.val := by
  have hmem := List.mem_of_find?_eq_some hdeal
  obtain ⟨hpath, ⟨content, hfound, -⟩, -⟩ := hok.custody.deals deal hmem
  have hthere : s.world.disk.found (documentPath d.api.config deal) ≠ [] := by
    rw [hfound]
    exact List.cons_ne_nil _ _
  have htext := extractText_congr (d := d) storedPath_parsed hthere (hsame deal hmem (deal_key hdeal).2)
  unfold ExtractionService.fetchFields extractionWorld
  rw [hpath]
  exact congrArg (· >>= _) htext.symm

end

-- ---------------------------------------------------------------------------
-- Two tenants
-- ---------------------------------------------------------------------------

/-- `DrawsFresh`, computed. Configs are left out. -/
def drawsFresh (s : St) : Act → Bool
  | .request _ (.upload draw _) =>
    decide (draw.dealId < 2 ^ 128) && s.tables.deals.all (fun deal => deal.id ≠ draw.dealId) &&
      s.jobs.all fun job =>
        job.jobId ≠ draw.jobId ∧ job.idempotencyKey ≠ some (idempotencyKey draw.dealId)
  | .request _ (.createCriteriaConfig _ _) => false
  | .score _ draw => s.tables.dealScores.all fun score => score.id ≠ draw.scoreId
  | _ => true

theorem drawsFresh_sound (s : St) (a : Act) (h : drawsFresh s a = true) : DrawsFresh s a := by
  cases a with
  | request authorization op =>
    cases op with
    | upload draw file =>
      simp only [drawsFresh, Bool.and_eq_true, decide_eq_true_eq, List.all_eq_true] at h
      refine ⟨⟨h.1.2, h.2⟩, ?_⟩
      rintro _ _ ⟨⟩
      exact h.1.1
    | createCriteriaConfig => cases h
    | _ => exact ⟨trivial, by simp⟩
  | score job draw =>
    simp only [drawsFresh, List.all_eq_true, decide_eq_true_eq] at h
    exact h
  | _ => trivial

def sampleDeployment : Deployment where
  auth := Auth.toyEnv
  api := sampleEnvironment
  parseUuid s := [2, 9].find? fun id => Uuid.str id = s
  pypdf _ := .ok []

theorem uuids_sampleDeployment : Uuids sampleDeployment.parseUuid := by
  intro s id h
  have hmem := List.mem_of_find?_eq_some h
  simp only [List.mem_cons, List.not_mem_nil, or_false] at hmem
  rcases hmem with rfl | rfl <;> decide

/-- The token of a user's login. -/
def sampleToken (userId sessionId : String) (tenantId : Uuid) : AccessToken :=
  { Auth.loggedInToken with claims :=
      { Auth.loggedInToken.claims with sub := userId, sid := sessionId, tnt := Uuid.str tenantId } }

/-- Two tenants upload the same document. The job of the first is executed, and the second looks at
    its deal. -/
def twoTenants : List Act :=
  [.auth (.createUser (Uuid.str 2) "ana@fund.com" "password" (Auth.toyDraw "0")),
    .auth (.login "ana@fund.com" "password" none none (Auth.toyDraw "1")),
    .auth (.createUser (Uuid.str 9) "bob@fund.com" "password" (Auth.toyDraw "2")),
    .auth (.login "bob@fund.com" "password" none none (Auth.toyDraw "3")),
    .request (.bearer (sampleToken "usr_0" "sess_1" 2)) (.upload sampleDraw sampleFile),
    .request (.bearer (sampleToken "usr_2" "sess_3" 9)) (.upload ⟨3, "b", 0⟩ sampleFile),
    .extract "a" (fun _ _ => .content none),
    .request (.bearer (sampleToken "usr_2" "sess_3" 9)) (.getDeal 3)]

theorem twoTenants_runs :
    letI := asciiTables
    Run.checks (step sampleDeployment) drawsFresh (init 0 ⟨[], []⟩) twoTenants = true ∧
      (Run.exec (step sampleDeployment) (init 0 ⟨[], []⟩) twoTenants).isSome ∧
      (Run.outputs (step sampleDeployment) (answer sampleDeployment 9) (init 0 ⟨[], []⟩)
        twoTenants).length = 2 := by
  decide +kernel

end Tenancy
