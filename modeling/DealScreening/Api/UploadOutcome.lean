-- SUMMARY: An upload under every fault: when the rows, the job and the file are all there afterwards, or nothing is changed.
import DealScreening.Api.Upload
import DealScreening.Lib.Except
import DealScreening.Python.Json

/-!
# Outcome of an upload

The transaction takes back the rows of a request that fails, and nothing takes back
the directory and the file. So a request is all or nothing when it fails before the
first directory is made, or not at all.
-/

namespace UploadApi

open Python Session IngestionService

-- ---------------------------------------------------------------------------
-- All or nothing
-- ---------------------------------------------------------------------------

/-- The row, the audit row, the job and the file, referring to each other. -/
def Ingested (draw : IngestDraw) (tenantId : Uuid) (file : UploadFile) (w : World) : Prop :=
  ∃ deal ∈ w.db.tables.deals, ∃ entry ∈ w.db.tables.dealAuditLog, ∃ job ∈ w.db.jobs,
    ∃ stored ∈ w.disk.files,
      deal.id = draw.dealId ∧ deal.tenantId = tenantId ∧
      deal.contentHash = Hashlib.sha256 file.content ∧
      entry.dealId = deal.id ∧ entry.action = "DEAL_UPLOADED" ∧
      job.jobType = "extraction" ∧ job.payload = ⟨deal.id, tenantId⟩ ∧
      stored.path.str = deal.filePath.val ∧ stored.content = file.content

/-- None of the four is there. -/
structure Absent (config : IngestionConfig) (draw : IngestDraw) (w : World) : Prop where
  deal : ∀ deal ∈ w.db.tables.deals, deal.id ≠ draw.dealId
  audit : ∀ entry ∈ w.db.tables.dealAuditLog, entry.dealId ≠ draw.dealId
  job : ∀ job ∈ w.db.jobs, job.payload.dealId ≠ draw.dealId
  file : ∀ stored ∈ w.disk.files, ¬ (uploadDir config draw.dealId).tail <+: stored.path.tail

/-- Nothing uses the ids that the request draws. -/
structure Fresh (config : IngestionConfig) (draw : IngestDraw) (w : World) : Prop extends
    Absent config draw w where
  key : ∀ job ∈ w.db.jobs, job.idempotencyKey ≠ some (idempotencyKey draw.dealId)
  jobId : ∀ job ∈ w.db.jobs, job.jobId ≠ draw.jobId
  dir : uploadDir config draw.dealId ∉ w.disk.dirs

def AllOrNothing (config : IngestionConfig) (draw : IngestDraw) (tenantId : Uuid)
    (file : UploadFile) (w w' : World) : Prop :=
  Ingested draw tenantId file w' ∨ (Absent config draw w' ∧ w' = w)

/-- No fault, or one that comes after the last directory is made. -/
def Unhindered (fault : Option Fault) (missing : List Path) : Prop :=
  fault = none ∨ ∃ made, fault = some (.mkdir made) ∧ missing.length ≤ made

-- ---------------------------------------------------------------------------
-- The statements under a fault
-- ---------------------------------------------------------------------------

/-- The body raises, and leaves these directories. -/
def Fails {α : Type} (m : IngestM α) (s : SessionState World) (dirs : List Path) : Prop :=
  ∃ x s', m s = (.error x, s') ∧ s'.view.disk.dirs = dirs

section
variable {config : IngestionConfig} {fault : Option Fault} {draw : IngestDraw} {tenantId : Uuid}
  {filename : Str} {content : Bytes} {path dir : Path} {dirs : List Path} {w : World}

theorem Fails.bind {α β : Type} {m : IngestM α} {f : α → IngestM β} {s : SessionState World}
    (h : Fails m s dirs) : Fails (m >>= f) s dirs := by
  obtain ⟨x, s', hm, hdirs⟩ := h
  exact ⟨x, s', by rw [run_bind, hm], hdirs⟩

theorem fails_after {α β : Type} {m : IngestM α} {f : α → IngestM β} {a : α}
    {s t : SessionState World} (hm : m s = (.ok a, t)) (h : Fails (f a) t dirs) :
    Fails (m >>= f) s dirs := by
  obtain ⟨x, u, hf, hdirs⟩ := h
  exact ⟨x, u, by rw [run_bind, hm]; exact hf, hdirs⟩

theorem Fails.tryCatch {α : Type} {m : IngestM α} {handler : Exn UploadExn → IngestM α}
    {s : SessionState World} (h : Fails m s dirs)
    (hh : ∀ x s, ∃ y, handler x s = (.error y, s)) : Fails (Session.tryCatch m handler) s dirs := by
  obtain ⟨x, s', hm, hdirs⟩ := h
  obtain ⟨y, hy⟩ := hh x s'
  exact ⟨y, s', by rw [Session.tryCatch, hm]; exact hy, hdirs⟩

theorem strike_run {here : Fault} {s : SessionState World} (h : fault ≠ some here) :
    strike fault here s = (.ok (), s) := by
  simp only [strike, if_neg h]
  rfl

theorem strike_fails {here : Fault} (h : fault = some here) :
    Fails (strike fault here) ⟨w, false, false⟩ w.disk.dirs := by
  simp only [strike, if_pos h]
  exact ⟨_, _, rfl, rfl⟩

/-! ## The file -/

theorem mkdir_run
    (h : ∀ made, fault = some (.mkdir made) → (w.disk.missing dir).length ≤ made) :
    mkdir fault dir ⟨w, false, false⟩ =
      (.ok (), ⟨w.updateDisk fun disk => disk.addDirs (w.disk.missing dir), false, false⟩) := by
  unfold mkdir
  simp only [run_bind, run_inspect]
  split
  · rename_i made
    have hmade := h made rfl
    simp [Nat.not_lt.mpr hmade, List.take_of_length_le hmade]
  · rfl

theorem mkdir_stops {made : Nat} (h : made < (w.disk.missing dir).length) :
    mkdir (some (.mkdir made)) dir ⟨w, false, false⟩ =
      (.error (.raised .unavailable), ⟨w.updateDisk fun disk =>
        disk.addDirs ((w.disk.missing dir).take made), false, false⟩) := by
  simp [mkdir, h]

theorem writeBytes_run (hname : config.acceptsName path.name = true)
    (hopen : fault ≠ some .openFile) (hwrite : ∀ n, fault ≠ some (.writeBytes n)) :
    writeBytes config fault path content ⟨w, false, false⟩ =
      (.ok (), ⟨w.updateDisk fun disk => disk.put path content, false, false⟩) := by
  unfold writeBytes
  simp only [hname, not_true_eq_false, if_false, run_bind, strike_run hopen]
  rfl

theorem writeBytes_fails (h : config.acceptsName path.name = false ∨ fault = some .openFile ∨
    ∃ n, fault = some (.writeBytes n)) :
    Fails (writeBytes config fault path content) ⟨w, false, false⟩ w.disk.dirs := by
  unfold writeBytes
  by_cases hname : config.acceptsName path.name = true
  · simp only [hname, not_true_eq_false, if_false]
    rcases h with h | h | ⟨n, rfl⟩
    · rw [hname] at h
      cases h
    · exact (strike_fails h).bind
    · refine fails_after (strike_run nofun) ?_
      exact ⟨_, _, rfl, rfl⟩
  · simp only [hname]
    exact ⟨_, _, rfl, rfl⟩

/-- The world with the file stored. -/
def stored (config : IngestionConfig) (draw : IngestDraw) (filename : Str) (content : Bytes)
    (w : World) : World :=
  w.updateDisk fun disk =>
    (disk.addDirs (disk.missing (uploadDir config draw.dealId))).put
      (storedPath config draw.dealId filename) content

theorem storeFile_run
    (hmkdir : ∀ made, fault = some (.mkdir made) →
      (w.disk.missing (uploadDir config draw.dealId)).length ≤ made)
    (hname : config.acceptsName (storedPath config draw.dealId filename).name = true)
    (hopen : fault ≠ some .openFile) (hwrite : ∀ n, fault ≠ some (.writeBytes n)) :
    storeFile config fault draw.dealId filename content ⟨w, false, false⟩ =
      (.ok (storedPath config draw.dealId filename),
        ⟨stored config draw filename content w, false, false⟩) := by
  simp only [storeFile, run_bind, mkdir_run hmkdir, writeBytes_run hname hopen hwrite]
  rfl

theorem storeFile_fails
    (hmkdir : ∀ made, fault = some (.mkdir made) →
      (w.disk.missing (uploadDir config draw.dealId)).length ≤ made)
    (h : config.acceptsName (storedPath config draw.dealId filename).name = false ∨
      fault = some .openFile ∨ ∃ n, fault = some (.writeBytes n)) :
    Fails (storeFile config fault draw.dealId filename content) ⟨w, false, false⟩
      (w.disk.dirs ++ w.disk.missing (uploadDir config draw.dealId)) :=
  fails_after (mkdir_run hmkdir) (writeBytes_fails h).bind

/-! ## The rows -/

/-- The row of the deal. -/
def row (config : IngestionConfig) (draw : IngestDraw) (tenantId : Uuid) (filename : Str)
    (content : Bytes) : Option Deal :=
  dealRow draw tenantId filename (Hashlib.sha256 content) (storedPath config draw.dealId filename)
    content.length (text "upload") none

theorem dealRow_eq_some {contentHash : String} {filePath : Path} {size : Nat} {channel : Str}
    {sender : Option Str} {deal : Deal}
    (h : dealRow draw tenantId filename contentHash filePath size channel sender = some deal) :
    deal.id = draw.dealId ∧ deal.tenantId = tenantId ∧ deal.contentHash = contentHash ∧
      deal.status = .uploaded ∧ PgText.varchar 1024 filePath.str = some deal.filePath := by
  unfold dealRow at h
  obtain ⟨filename, -, h⟩ := Option.bind_eq_some_iff.mp h
  obtain ⟨filePath, hpath, h⟩ := Option.bind_eq_some_iff.mp h
  obtain ⟨channel, -, h⟩ := Option.bind_eq_some_iff.mp h
  obtain ⟨sender, -, h⟩ := Option.bind_eq_some_iff.mp h
  split at h
  · cases h
    exact ⟨rfl, rfl, rfl, rfl, hpath⟩
  · cases h

/-- The job that is enqueued. -/
def job (draw : IngestDraw) (tenantId : Uuid) : BackgroundJob ExtractionJob :=
  { jobId := draw.jobId, jobType := "extraction", payload := ⟨draw.dealId, tenantId⟩,
    state := .pending, attempts := 0, maxAttempts := 5, notBefore := draw.now, claimedBy := none,
    claimExpiresAt := none, idempotencyKey := some (idempotencyKey draw.dealId),
    traceContext := none, lastError := none, tenantId := some (Uuid.str tenantId),
    succeededAt := none, deadLetteredAt := none }

theorem enqueue_job :
    Queue.enqueue extractionRegistry draw.now draw.jobId "extraction" ⟨draw.dealId, tenantId⟩
      (some (idempotencyKey draw.dealId)) none (some (Uuid.str tenantId)) none =
      .ok (job draw tenantId) := rfl

/-- The world with the deal, its audit row and the job. -/
def recorded (draw : IngestDraw) (tenantId : Uuid) (filename : Str) (content : Bytes) (deal : Deal)
    (w : World) : World :=
  { w with db :=
    { tables :=
      { w.db.tables with
        deals := w.db.tables.deals ++ [deal]
        dealAuditLog := w.db.tables.dealAuditLog ++
          [uploadAudit draw.dealId tenantId filename content.length (text "upload")] }
      jobs := w.db.jobs ++ [job draw tenantId] } }

theorem insertDeal_run {deal : Deal} (hrow : row config draw tenantId filename content = some deal)
    (hfresh : Fresh config draw w)
    (hnew : w.db.tables.dealByHash tenantId (Hashlib.sha256 content) = none) :
    w.db.tables.insertDeal deal =
      some { w.db.tables with deals := w.db.tables.deals ++ [deal] } := by
  obtain ⟨hid, htenant, hhash, -⟩ := dealRow_eq_some hrow
  refine if_pos ⟨?_, ?_⟩
  · rw [hid, DealDb.dealById, Table.lookup_eq_none.mpr hfresh.deal]
    rfl
  · rw [htenant, hhash, hnew]
    rfl

theorem insertRows {deal : Deal} (hrow : row config draw tenantId filename content = some deal)
    (hfresh : Fresh config draw w)
    (hnew : w.db.tables.dealByHash tenantId (Hashlib.sha256 content) = none) :
    w.db.tables.insertDeal deal =
        some { w.db.tables with deals := w.db.tables.deals ++ [deal] } ∧
      DealDb.insertAudit { w.db.tables with deals := w.db.tables.deals ++ [deal] }
          (uploadAudit draw.dealId tenantId filename content.length (text "upload")) =
        some { w.db.tables with
          deals := w.db.tables.deals ++ [deal]
          dealAuditLog := w.db.tables.dealAuditLog ++
            [uploadAudit draw.dealId tenantId filename content.length (text "upload")] } := by
  refine ⟨insertDeal_run hrow hfresh hnew, if_pos ?_⟩
  obtain ⟨d, hd⟩ := Table.lookup_isSome_of_mem Deal.id
    (List.mem_append_right w.db.tables.deals (List.mem_singleton_self deal))
  rw [(dealRow_eq_some hrow).1] at hd
  exact Option.isSome_of_mem hd

theorem enqueueJob_run {s : SessionState World} (henqueue : fault ≠ some .enqueue)
    (hclean : s = ⟨s.view, false, false⟩)
    (hkey : ∀ job ∈ s.view.db.jobs, job.idempotencyKey ≠ some (idempotencyKey draw.dealId))
    (hid : ∀ job ∈ s.view.db.jobs, job.jobId ≠ draw.jobId) :
    enqueueJob fault draw "extraction" ⟨draw.dealId, tenantId⟩ (idempotencyKey draw.dealId) tenantId s =
      (.ok draw.jobId, ⟨{ s.view with db :=
        { s.view.db with jobs := s.view.db.jobs ++ [job draw tenantId] } }, false, false⟩) := by
  have hhit : Queue.idempotentHit s.view.db.jobs "extraction" (some (idempotencyKey draw.dealId)) =
      none := by
    refine List.find?_eq_none.mpr fun j hj => ?_
    have hne := hkey j hj
    simp [hne]
  have hinsert : World.insertJob (job draw tenantId) s.view = some { s.view with db :=
      { s.view.db with jobs := s.view.db.jobs ++ [job draw tenantId] } } := by
    refine if_pos ?_
    have hnone : Queue.find s.view.db.jobs draw.jobId = none := Table.lookup_eq_none.mpr hid
    exact Option.isNone_iff_eq_none.mpr hnone
  unfold enqueueJob
  rw [hclean]
  simp only [run_bind, strike_run henqueue, enqueue_job, run_select, hhit, run_write hinsert,
    run_flush]
  rfl

theorem ingestNew_run {deal : Deal} (hfresh : Fresh config draw w)
    (hnew : w.db.tables.dealByHash tenantId (Hashlib.sha256 content) = none)
    (hmkdir : ∀ made, fault = some (.mkdir made) →
      (w.disk.missing (uploadDir config draw.dealId)).length ≤ made)
    (hname : config.acceptsName (storedPath config draw.dealId filename).name = true)
    (hrow : row config draw tenantId filename content = some deal)
    (hopen : fault ≠ some .openFile) (hwrite : ∀ n, fault ≠ some (.writeBytes n))
    (hflush : fault ≠ some .flush) (henqueue : fault ≠ some .enqueue) :
    ingestNew config fault draw tenantId filename content (Hashlib.sha256 content)
        (text "upload") none ⟨w, false, false⟩ =
      (.ok (uploadedResult draw.dealId), ⟨recorded draw tenantId filename content deal
        (stored config draw filename content w), false, false⟩) := by
  obtain ⟨hdeal, haudit⟩ := insertRows hrow hfresh hnew
  unfold row at hrow
  unfold ingestNew
  simp only [run_bind, storeFile_run hmkdir hname hopen hwrite, strike_run hflush]
  simp only [write, World.insert, stored, World.updateDisk, hrow, Option.bind_some, hdeal,
    Option.map_some, haudit, run_flush]
  rw [enqueueJob_run henqueue rfl hfresh.key hfresh.jobId]
  rfl

/-- The row is refused, or the database is lost before the job is enqueued. -/
theorem ingestNew_fails (hfresh : Fresh config draw w)
    (hnew : w.db.tables.dealByHash tenantId (Hashlib.sha256 content) = none)
    (hmkdir : ∀ made, fault = some (.mkdir made) →
      (w.disk.missing (uploadDir config draw.dealId)).length ≤ made)
    (hname : config.acceptsName (storedPath config draw.dealId filename).name = true)
    (hopen : fault ≠ some .openFile) (hwrite : ∀ n, fault ≠ some (.writeBytes n))
    (h : row config draw tenantId filename content = none ∨ fault = some .flush ∨
      fault = some .enqueue) :
    Fails (ingestNew config fault draw tenantId filename content (Hashlib.sha256 content)
        (text "upload") none) ⟨w, false, false⟩
      (w.disk.dirs ++ w.disk.missing (uploadDir config draw.dealId)) := by
  refine fails_after (storeFile_run hmkdir hname hopen hwrite) ?_
  cases hrow : row config draw tenantId filename content with
  | none =>
    unfold row at hrow
    have habsent : DealDb.insertAudit w.db.tables
        (uploadAudit draw.dealId tenantId filename content.length (text "upload")) = none := by
      have hnone : w.db.tables.dealById draw.dealId = none :=
        Table.lookup_eq_none.mpr hfresh.deal
      exact if_neg (Option.not_isSome_iff_eq_none.mpr hnone)
    refine fails_after (t := ⟨stored config draw filename content w, true, false⟩) (a := ()) ?_ ?_
    · simp [write, World.insert, stored, World.updateDisk, hrow]
    refine fails_after (t := ⟨stored config draw filename content w, true, false⟩) (a := ()) ?_ ?_
    · simp [write, World.insert, stored, World.updateDisk, habsent]
    by_cases hflush : fault = some .flush
    · simp only [strike, if_pos hflush]
      exact ⟨_, _, rfl, rfl⟩
    · refine fails_after (strike_run hflush) ?_
      exact ⟨_, _, rfl, rfl⟩
  | some deal =>
    obtain ⟨hdeal, haudit⟩ := insertRows hrow hfresh hnew
    rw [hrow] at h
    replace h := h.resolve_left (Option.some_ne_none deal)
    unfold row at hrow
    refine fails_after (t := ⟨{ stored config draw filename content w with db :=
        { w.db with tables := { w.db.tables with deals := w.db.tables.deals ++ [deal] } } },
      false, false⟩) (a := ()) ?_ ?_
    · simp [write, World.insert, stored, World.updateDisk, hrow, hdeal]
    refine fails_after (t := ⟨{ stored config draw filename content w with db :=
        { w.db with tables :=
          { w.db.tables with
            deals := w.db.tables.deals ++ [deal]
            dealAuditLog := w.db.tables.dealAuditLog ++
              [uploadAudit draw.dealId tenantId filename content.length (text "upload")] } } },
      false, false⟩) (a := ()) ?_ ?_
    · simp [write, World.insert, stored, World.updateDisk, haudit]
    by_cases hflush : fault = some .flush
    · simp only [strike, if_pos hflush]
      exact ⟨_, _, rfl, rfl⟩
    · refine fails_after (strike_run hflush) ?_
      refine fails_after run_flush ?_
      refine Fails.bind ?_
      simp only [enqueueJob, strike, if_pos (h.resolve_left hflush)]
      exact ⟨_, _, rfl, rfl⟩

end

-- ---------------------------------------------------------------------------
-- The request
-- ---------------------------------------------------------------------------

/-- The checks that a request passes before the database is asked. -/
def screen [Runtime] (config : IngestionConfig) (validatePdf : PdfValidator) (file : UploadFile) :
    Except UploadExn Unit := do
  let fileCheck ← (FileValidator.validateFile file.content file.contentType
    FileValidator.maxFileSizeBytes).mapError httpException
  let _ ← (validatePdf fileCheck).mapError httpException
  validateFileType file.name file.contentType
  validateSize config file.content

/-- The request was refused, or the content was known, or no directory was made; or
    nothing failed. -/
def Settled [Runtime] (config : IngestionConfig) (validatePdf : PdfValidator)
    (fault : Option Fault) (draw : IngestDraw) (tenantId : Uuid) (file : UploadFile) (w : World) :
    Prop :=
  screen config validatePdf file ≠ .ok () ∨
  (w.db.tables.dealByHash tenantId (Hashlib.sha256 file.content)).isSome ∨
  fault = some .select ∨ fault = some (.mkdir 0) ∨
  (Unhindered fault (w.disk.missing (uploadDir config draw.dealId)) ∧
    config.acceptsName (storedPath config draw.dealId file.name).name = true ∧
    (row config draw tenantId file.name file.content).isSome)


/-- What follows the checks. -/
def ingestScreened (config : IngestionConfig) (fault : Option Fault) (draw : IngestDraw)
    (tenantId : Uuid) (file : UploadFile) : IngestM IngestionResult := do
  match ← checkDuplicate fault tenantId (Hashlib.sha256 file.content) with
  | some existing => return duplicateResult existing
  | none =>
    ingestNew config fault draw tenantId file.name file.content (Hashlib.sha256 file.content)
      (text "upload") none

section
variable [Runtime] {config : IngestionConfig} {validatePdf : PdfValidator} {fault : Option Fault}
  {draw : IngestDraw} {tenantId : Uuid} {file : UploadFile} {w : World}

omit [Runtime] in
theorem exceptIngestionError_raises (x : Exn UploadExn) (s : SessionState World) :
    ∃ y, exceptIngestionError x s = (.error y, s) := by
  unfold exceptIngestionError
  split <;> exact ⟨_, rfl⟩

/-- A request whose checks fail raises before it has touched anything. -/
theorem uploadDeal_rejected {e : UploadExn} {s : SessionState World}
    (h : screen config validatePdf file = .error e) :
    ∃ x, uploadDeal config validatePdf fault draw tenantId file s = (.error x, s) := by
  unfold screen at h
  unfold uploadDeal
  cases hfile : (FileValidator.validateFile file.content file.contentType
      FileValidator.maxFileSizeBytes).mapError httpException with
  | error failure => exact ⟨_, rfl⟩
  | ok checked =>
    cases hpdf : (validatePdf checked).mapError httpException with
    | error failure => exact ⟨.raised failure, by simp [hpdf]⟩
    | ok _ =>
      simp only [run_bind, run_ofExcept_ok, hpdf, Session.tryCatch, ingestDeal]
      simp only [hfile, hpdf, Except.ok_bind] at h
      cases htype : validateFileType file.name file.contentType with
      | error e => exact exceptIngestionError_raises _ s
      | ok _ =>
        simp only [htype, Except.ok_bind] at h
        simp only [run_ofExcept_ok, h]
        exact exceptIngestionError_raises _ s

theorem uploadDeal_screened (h : screen config validatePdf file = .ok ()) :
    uploadDeal config validatePdf fault draw tenantId file =
      Session.tryCatch (ingestScreened config fault draw tenantId file) exceptIngestionError := by
  unfold screen at h
  obtain ⟨checked, hfile, h⟩ := Except.bind_eq_ok.mp h
  obtain ⟨_, hpdf, h⟩ := Except.bind_eq_ok.mp h
  obtain ⟨⟨⟩, htype, hsize⟩ := Except.bind_eq_ok.mp h
  funext s
  unfold uploadDeal
  simp only [run_bind, hfile, run_ofExcept_ok, hpdf]
  unfold ingestDeal Session.tryCatch
  simp only [run_bind, htype, hsize, run_ofExcept_ok]
  rfl

/-- What a body that raises leaves of the world. -/
theorem upload_error {x : Exn UploadExn} {s : SessionState World}
    (h : uploadDeal config validatePdf fault draw tenantId file ⟨w, false, false⟩ = (.error x, s)) :
    (upload config validatePdf fault draw tenantId file w).2 = { w with disk := s.view.disk } := by
  simp [upload, transactionWith, getDb, h, rollBack]

theorem upload_ok {result : IngestionResult} {v : World}
    (h : uploadDeal config validatePdf fault draw tenantId file ⟨w, false, false⟩ =
      (.ok result, ⟨v, false, false⟩)) :
    (upload config validatePdf fault draw tenantId file w).2 =
      if fault = some .commit then { w with disk := v.disk } else v := by
  unfold upload transactionWith getDb
  simp only [run_bind, h]
  split_ifs with hcommit
  · simp only [strike, if_pos hcommit, run_raise, rollBack]
  · simp only [strike_run hcommit, run_flush, run_pure]

theorem upload_returns {result : IngestionResult} {v : World}
    (h : uploadDeal config validatePdf none draw tenantId file ⟨w, false, false⟩ =
      (.ok result, ⟨v, false, false⟩)) :
    upload config validatePdf none draw tenantId file w = (.ok result, v) := by
  unfold upload transactionWith getDb
  simp only [run_bind, h, strike_run (Option.some_ne_none Fault.commit).symm, run_flush, run_pure]

omit [Runtime] in
theorem ingested_recorded {deal : Deal}
    (hrow : row config draw tenantId file.name file.content = some deal) :
    Ingested draw tenantId file (recorded draw tenantId file.name file.content deal
      (stored config draw file.name file.content w)) := by
  obtain ⟨hid, htenant, hhash, -, hpath⟩ := dealRow_eq_some hrow
  refine ⟨deal, ?_, uploadAudit draw.dealId tenantId file.name file.content.length (text "upload"),
    ?_, job draw tenantId, ?_, ⟨storedPath config draw.dealId file.name, file.content⟩, ?_, hid,
    htenant, hhash, hid.symm, rfl, rfl, ?_, (PgText.varchar_val hpath).symm, rfl⟩
  · exact List.mem_append_right _ (List.mem_singleton_self _)
  · exact List.mem_append_right _ (List.mem_singleton_self _)
  · exact List.mem_append_right _ (List.mem_singleton_self _)
  · exact List.mem_append_right _ (List.mem_singleton_self _)
  · rw [hid]
    rfl

omit [Runtime] in
/-- A request that leaves a directory behind is neither all nor nothing. -/
theorem not_allOrNothing {disk : Disk} {made : List Path} (hfresh : Fresh config draw w)
    (hmade : made ≠ []) (hdirs : disk.dirs = w.disk.dirs ++ made) :
    ¬ AllOrNothing config draw tenantId file w { w with disk } := by
  rintro (⟨deal, hdeal, _, _, _, _, _, _, hid, -⟩ | ⟨-, heq⟩)
  · exact hfresh.deal deal hdeal hid
  · have hsame : w.disk.dirs = w.disk.dirs ++ made := by
      rw [← hdirs]
      exact congrArg (fun v : World => v.disk.dirs) heq.symm
    exact hmade (List.append_right_eq_self.mp hsame.symm)

omit [Runtime] in
/-- The directory of the deal is to be made. -/
theorem missing_ne_nil (hfresh : Fresh config draw w) :
    w.disk.missing (uploadDir config draw.dealId) ≠ [] := by
  have hmem : uploadDir config draw.dealId ∈ (uploadDir config draw.dealId).lineage :=
    Path.mem_lineage (by simp [uploadDir_eq])
  exact List.ne_nil_of_mem (List.mem_filter.mpr ⟨hmem, by simpa using hfresh.dir⟩)

/-- What happens to content that the tenant does not have, once it is asked for. -/
theorem uploadDeal_new (hscreen : screen config validatePdf file = .ok ())
    (hnew : w.db.tables.dealByHash tenantId (Hashlib.sha256 file.content) = none)
    (hselect : fault ≠ some .select) :
    uploadDeal config validatePdf fault draw tenantId file ⟨w, false, false⟩ =
      Session.tryCatch (ingestNew config fault draw tenantId file.name file.content
        (Hashlib.sha256 file.content) (text "upload") none) exceptIngestionError
        ⟨w, false, false⟩ := by
  rw [uploadDeal_screened hscreen]
  simp only [Session.tryCatch, ingestScreened, checkDuplicate, run_bind, strike_run hselect,
    run_select, hnew]

/-- Without the file, the directory stays behind. -/
theorem ingestNew_littered {made : List Path} (hfresh : Fresh config draw w)
    (hscreen : screen config validatePdf file = .ok ())
    (hnew : w.db.tables.dealByHash tenantId (Hashlib.sha256 file.content) = none)
    (hselect : fault ≠ some .select) (hmade : made ≠ [])
    (h : Fails (ingestNew config fault draw tenantId file.name file.content
      (Hashlib.sha256 file.content) (text "upload") none) ⟨w, false, false⟩ (w.disk.dirs ++ made)) :
    ¬ AllOrNothing config draw tenantId file w
        (upload config validatePdf fault draw tenantId file w).2 := by
  obtain ⟨x, s, hrun, hdirs⟩ := h.tryCatch exceptIngestionError_raises
  rw [← uploadDeal_new hscreen hnew hselect] at hrun
  rw [upload_error hrun]
  exact not_allOrNothing hfresh hmade hdirs

theorem upload_duplicate {existing : Deal} (hscreen : screen config validatePdf file = .ok ())
    (hdup : w.db.tables.dealByHash tenantId (Hashlib.sha256 file.content) = some existing) :
    (upload config validatePdf fault draw tenantId file w).2 = w := by
  by_cases hselect : fault = some .select
  · refine upload_error (x := .raised .unavailable) (s := ⟨w, false, false⟩) ?_
    rw [uploadDeal_screened hscreen]
    simp only [Session.tryCatch, ingestScreened, checkDuplicate, run_bind, strike, if_pos hselect]
    rfl
  · rw [upload_ok (v := w)]
    · split <;> rfl
    rw [uploadDeal_screened hscreen]
    simp only [Session.tryCatch, ingestScreened, checkDuplicate, run_bind, strike_run hselect,
      run_select, hdup]
    rfl

theorem upload_unasked (hscreen : screen config validatePdf file = .ok ())
    (hselect : fault = some .select) :
    (upload config validatePdf fault draw tenantId file w).2 = w := by
  refine upload_error (x := .raised .unavailable) (s := ⟨w, false, false⟩) ?_
  rw [uploadDeal_screened hscreen]
  simp only [Session.tryCatch, ingestScreened, checkDuplicate, run_bind, strike, if_pos hselect]
  rfl

omit [Runtime] in
theorem ingestNew_unmade {filename : Str} {content : Bytes} {made : Nat} {contentHash : String}
    {channel : Str} {sender : Option Str}
    (h : made < (w.disk.missing (uploadDir config draw.dealId)).length) :
    Fails (ingestNew config (some (.mkdir made)) draw tenantId filename content contentHash channel
        sender) ⟨w, false, false⟩
      (w.disk.dirs ++ (w.disk.missing (uploadDir config draw.dealId)).take made) := by
  refine ⟨.raised .unavailable, ⟨w.updateDisk fun disk => disk.addDirs
    ((w.disk.missing (uploadDir config draw.dealId)).take made), false, false⟩, ?_, rfl⟩
  simp only [ingestNew, storeFile, run_bind, mkdir_stops h]

theorem upload_unmade (hfresh : Fresh config draw w)
    (hscreen : screen config validatePdf file = .ok ())
    (hnew : w.db.tables.dealByHash tenantId (Hashlib.sha256 file.content) = none) :
    (upload config validatePdf (some (.mkdir 0)) draw tenantId file w).2 = w := by
  have hmade := List.length_pos_iff.mpr (missing_ne_nil hfresh)
  have hrun : uploadDeal config validatePdf (some (.mkdir 0)) draw tenantId file ⟨w, false, false⟩ =
      (.error (.raised .unavailable), ⟨w, false, false⟩) := by
    have hselect : some (Fault.mkdir 0) ≠ some .select := nofun
    rw [uploadDeal_new hscreen hnew hselect]
    simp only [Session.tryCatch, ingestNew, storeFile, run_bind, mkdir_stops hmade, List.take_zero]
    simp only [exceptIngestionError, World.updateDisk, Disk.addDirs, List.append_nil]
    rfl
  exact upload_error hrun

/-- With the content asked for and new, only the faults decide. -/
theorem settled_iff (hscreen : screen config validatePdf file = .ok ())
    (hnew : w.db.tables.dealByHash tenantId (Hashlib.sha256 file.content) = none)
    (hselect : fault ≠ some .select) :
    Settled config validatePdf fault draw tenantId file w ↔
      fault = some (.mkdir 0) ∨
      (Unhindered fault (w.disk.missing (uploadDir config draw.dealId)) ∧
        config.acceptsName (storedPath config draw.dealId file.name).name = true ∧
        (row config draw tenantId file.name file.content).isSome) := by
  simp [Settled, hscreen, hnew, hselect]

theorem allOrNothing_iff (hfresh : Fresh config draw w) :
    AllOrNothing config draw tenantId file w
        (upload config validatePdf fault draw tenantId file w).2 ↔
      Settled config validatePdf fault draw tenantId file w := by
  have huntouched : (upload config validatePdf fault draw tenantId file w).2 = w →
      AllOrNothing config draw tenantId file w
        (upload config validatePdf fault draw tenantId file w).2 := by
    intro h
    rw [h]
    exact .inr ⟨hfresh.toAbsent, rfl⟩
  cases hscreen : screen config validatePdf file with
  | error e =>
    obtain ⟨x, hrun⟩ := @uploadDeal_rejected _ config validatePdf fault draw tenantId file e
      ⟨w, false, false⟩ hscreen
    exact iff_of_true (huntouched (upload_error hrun)) (.inl (by simp [hscreen]))
  | ok _ =>
    cases hdup : w.db.tables.dealByHash tenantId (Hashlib.sha256 file.content) with
    | some existing =>
      exact iff_of_true (huntouched (upload_duplicate hscreen hdup)) (.inr (.inl (by simp [hdup])))
    | none =>
      by_cases hselect : fault = some .select
      · exact iff_of_true (huntouched (upload_unasked hscreen hselect)) (.inr (.inr (.inl hselect)))
      rw [settled_iff hscreen hdup hselect]
      by_cases hmkdir : ∃ made, fault = some (.mkdir made) ∧
          made < (w.disk.missing (uploadDir config draw.dealId)).length
      · obtain ⟨made, rfl, hmade⟩ := hmkdir
        by_cases hzero : made = 0
        · subst hzero
          exact iff_of_true (huntouched (upload_unmade hfresh hscreen hdup)) (.inl rfl)
        · refine iff_of_false (ingestNew_littered hfresh hscreen hdup hselect ?_
            (ingestNew_unmade hmade)) ?_
          · exact List.ne_nil_of_length_pos (by rw [List.length_take]; omega)
          · rintro (h | ⟨h | ⟨made', h, hlate⟩, -⟩)
            · cases h
              exact hzero rfl
            · cases h
            · cases h
              omega
      · have hlate : ∀ made, fault = some (.mkdir made) →
            (w.disk.missing (uploadDir config draw.dealId)).length ≤ made :=
          fun made h => Nat.not_lt.mp fun hlt => hmkdir ⟨made, h, hlt⟩
        have hdir := missing_ne_nil hfresh
        have hzero : fault ≠ some (.mkdir 0) := fun h =>
          hdir (List.eq_nil_of_length_eq_zero (Nat.le_zero.mp (hlate 0 h)))
        have hlittered := fun h => ingestNew_littered hfresh hscreen hdup hselect hdir h
        by_cases hstore : config.acceptsName (storedPath config draw.dealId file.name).name = false ∨
            fault = some .openFile ∨ ∃ n, fault = some (.writeBytes n)
        · refine iff_of_false (hlittered (storeFile_fails hlate hstore).bind) ?_
          rintro (h | ⟨h | ⟨made', h, -⟩, hname, -⟩)
          · exact hzero h
          · subst h
            simp [hname] at hstore
          · subst h
            simp [hname] at hstore
        · simp only [not_or, not_exists, Bool.not_eq_false] at hstore
          obtain ⟨hname, hopen, hwrite⟩ := hstore
          by_cases hrows : row config draw tenantId file.name file.content = none ∨
              fault = some .flush ∨ fault = some .enqueue
          · refine iff_of_false
              (hlittered (ingestNew_fails hfresh hdup hlate hname hopen hwrite hrows)) ?_
            rintro (h | ⟨h | ⟨made', h, -⟩, -, hrow⟩)
            · exact hzero h
            · subst h
              rcases hrows with h | h | h
              · simp [h] at hrow
              · cases h
              · cases h
            · subst h
              rcases hrows with h | h | h
              · simp [h] at hrow
              · cases h
              · cases h
          · simp only [not_or] at hrows
            obtain ⟨hrow, hflush, henqueue⟩ := hrows
            obtain ⟨deal, hrow⟩ := Option.ne_none_iff_exists'.mp hrow
            have hrun :=
              ingestNew_run hfresh hdup hlate hname hrow hopen hwrite hflush henqueue
            have hrun : uploadDeal config validatePdf fault draw tenantId file ⟨w, false, false⟩ =
                (.ok (uploadedResult draw.dealId), ⟨recorded draw tenantId file.name file.content deal
                  (stored config draw file.name file.content w), false, false⟩) := by
              rw [uploadDeal_new hscreen hdup hselect, Session.tryCatch, hrun]
            rw [upload_ok hrun]
            by_cases hcommit : fault = some .commit
            · rw [if_pos hcommit]
              refine iff_of_false (not_allOrNothing hfresh hdir rfl) ?_
              rintro (h | ⟨h | ⟨made', h, -⟩, -⟩)
              · exact hzero h
              · rw [h] at hcommit
                cases hcommit
              · rw [h] at hcommit
                cases hcommit
            · rw [if_neg hcommit]
              refine iff_of_true (.inl (ingested_recorded hrow)) (.inr ⟨?_, hname, by simp [hrow]⟩)
              cases fault with
              | none => exact .inl rfl
              | some fault =>
                cases fault with
                | mkdir made => exact .inr ⟨made, rfl, hlate made rfl⟩
                | writeBytes n => exact absurd rfl (hwrite n)
                | _ => simp_all

end

-- ---------------------------------------------------------------------------
-- A failed commit
-- ---------------------------------------------------------------------------

def sampleConfig : IngestionConfig where
  uploadDir := text "./uploads"
  maxFileSizeBytes := 50 * 1024 * 1024
  acceptsName name := name.length ≤ 255

def sampleFile : UploadFile where
  filename := some (text "cim.pdf")
  contentType := some (text "application/pdf")
  content := FileValidator.pdfMagic

def sampleDraw : IngestDraw := ⟨1, "a", 0⟩

def emptyWorld : World := ⟨⟨DealDb.empty, []⟩, ⟨[], []⟩⟩

theorem fresh_empty (config : IngestionConfig) (draw : IngestDraw) :
    Fresh config draw emptyWorld where
  deal _ h := absurd h List.not_mem_nil
  audit _ h := absurd h List.not_mem_nil
  job _ h := absurd h List.not_mem_nil
  file _ h := absurd h List.not_mem_nil
  key _ h := absurd h List.not_mem_nil
  jobId _ h := absurd h List.not_mem_nil
  dir := List.not_mem_nil

theorem allOrNothing_iff_commit :
    letI := asciiRuntime
    AllOrNothing sampleConfig sampleDraw 2 sampleFile emptyWorld
        (upload sampleConfig .ok (some .commit) sampleDraw 2 sampleFile emptyWorld).2 ↔
      Settled sampleConfig .ok (some .commit) sampleDraw 2 sampleFile emptyWorld :=
  letI := asciiRuntime
  allOrNothing_iff (fresh_empty sampleConfig sampleDraw)

/-- The commit fails, and the file stays. -/
theorem failed_commit_leaves_file :
    ¬ ∀ (_ : Runtime) (config : IngestionConfig) (validatePdf : PdfValidator)
        (fault : Option Fault) (draw : IngestDraw) (tenantId : Uuid) (file : UploadFile) (w : World),
      Fresh config draw w →
      AllOrNothing config draw tenantId file w
        (upload config validatePdf fault draw tenantId file w).2 := by
  intro h
  have hleft := h asciiRuntime sampleConfig .ok (some .commit) sampleDraw 2 sampleFile emptyWorld
    (fresh_empty sampleConfig sampleDraw)
  obtain ⟨hdeals, hfiles⟩ :
      (@upload asciiRuntime sampleConfig .ok (some .commit) sampleDraw 2 sampleFile
        emptyWorld).2.db.tables.deals = [] ∧
      (@upload asciiRuntime sampleConfig .ok (some .commit) sampleDraw 2 sampleFile
        emptyWorld).2.disk.files ≠ [] := by
    decide +kernel
  generalize (@upload asciiRuntime sampleConfig .ok (some .commit) sampleDraw 2 sampleFile
    emptyWorld).2 = w' at hleft hdeals hfiles
  rcases hleft with ⟨deal, hdeal, -⟩ | ⟨-, rfl⟩
  · rw [hdeals] at hdeal
    cases hdeal
  · exact hfiles rfl

end UploadApi
