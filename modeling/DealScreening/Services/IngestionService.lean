-- SUMMARY: Ingestion of a document: validation, duplicate check, storage of the file, the deal and its audit row, and the extraction job.
import DealScreening.BackgroundJobs.Queue
import DealScreening.InputValidation.FileValidator
import DealScreening.Lib.Session
import DealScreening.Models.Deal
import DealScreening.Python.Path

/-!
# Ingestion service

The files are outside the database: what a request does to them stays when its
transaction is rolled back. A `Fault` says where the world fails a request.
-/

open Python

/-- The tables of the pipeline and the jobs. -/
structure PipelineDb where
  tables : DealDb
  jobs : Queue.Jobs ExtractionJob
  deriving DecidableEq

structure StoredFile where
  path : Path
  content : Bytes
  deriving DecidableEq

/-- The directories and files on the disk. -/
structure Disk where
  dirs : List Path
  files : List StoredFile
  deriving DecidableEq

structure World where
  db : PipelineDb
  disk : Disk
  deriving DecidableEq

/-- What a request to upload a document can raise. -/
inductive UploadExn where
  | ingestionError (message : Str)
  | enqueueError (e : Queue.EnqueueError)
  | http (status : Nat) (detail : Str)
  /-- The file system, the database or the connection to it fails. -/
  | unavailable
  deriving DecidableEq, Repr

/-- Where the world fails a request. -/
inductive Fault where
  | select
  /-- `os.mkdir` fails after it has made so many directories. -/
  | mkdir (made : Nat)
  | openFile
  /-- The write fails after so many bytes. -/
  | writeBytes (written : Nat)
  | flush
  | enqueue
  | commit
  deriving DecidableEq, Repr

/-- The settings of the service, and the file names that the file system takes. -/
structure IngestionConfig where
  uploadDir : Str
  maxFileSizeBytes : Nat
  acceptsName : Str → Bool

/-- The id of the deal, the id of the job, and the time of the transaction. -/
structure IngestDraw where
  dealId : Uuid
  jobId : String
  now : Time
  deriving DecidableEq, Repr

structure IngestionResult where
  dealId : Uuid
  status : DealStatus
  message : String
  isDuplicate : Bool
  deriving DecidableEq, Repr

namespace Disk

/-- The directories that `mkdir(parents=True)` makes. -/
def missing (disk : Disk) (dir : Path) : List Path :=
  dir.lineage.filter fun p => p ∉ disk.dirs

def addDirs (disk : Disk) (dirs : List Path) : Disk := { disk with dirs := disk.dirs ++ dirs }

def put (disk : Disk) (path : Path) (content : Bytes) : Disk :=
  { disk with files := disk.files.filter (fun f => f.path ≠ path) ++ [⟨path, content⟩] }

end Disk

def World.updateDisk (f : Disk → Disk) (w : World) : World := { w with disk := f w.disk }

/-- An insert into a table of the pipeline. -/
def World.insert (f : DealDb → Option DealDb) (w : World) : Option World :=
  (f w.db.tables).map fun tables => { w with db := { w.db with tables } }

/-- `background_jobs_pkey`. -/
def World.insertJob (job : BackgroundJob ExtractionJob) (w : World) : Option World :=
  if (Queue.find w.db.jobs job.jobId).isNone then
    some { w with db := { w.db with jobs := w.db.jobs ++ [job] } }
  else none

namespace IngestionService

open Session

abbrev IngestM := Session World UploadExn

/-- The fault strikes here. -/
def strike (fault : Option Fault) (here : Fault) : IngestM Unit :=
  if fault = some here then raise .unavailable else Session.pure ()

-- ---------------------------------------------------------------------------
-- Validation
-- ---------------------------------------------------------------------------

/-- `_validate_file_type`. -/
def validateFileType [Runtime] (filename : Str) (contentType : Option Str) :
    Except UploadExn Unit :=
  let ext := Str.lower (Path.parse filename).suffix
  if ext ≠ text ".pdf" then
    .error (.ingestionError (text "Invalid file type '" ++ ext ++
      text "'. Only PDF files are accepted."))
  else
    match contentType with
    | none | some [] => .ok ()
    | some contentType =>
      if contentType ≠ text "application/pdf" then
        .error (.ingestionError (text "Invalid content type '" ++ contentType ++
          text "'. Expected application/pdf."))
      else .ok ()

/-- The checks of the size. -/
def validateSize (config : IngestionConfig) (content : Bytes) : Except UploadExn Unit :=
  if content.length > config.maxFileSizeBytes then
    .error (.ingestionError (text "File too large (" ++ Str.ofNat content.length ++
      text " bytes). Maximum size is " ++ Str.ofNat (config.maxFileSizeBytes / (1024 * 1024)) ++
      text "MB."))
  else if content.length = 0 then .error (.ingestionError (text "File is empty."))
  else .ok ()

-- ---------------------------------------------------------------------------
-- The file
-- ---------------------------------------------------------------------------

/-- `Path(settings.upload_dir) / str(deal_id)`. -/
def uploadDir (config : IngestionConfig) (dealId : Uuid) : Path :=
  (Path.parse config.uploadDir).join (text (Uuid.str dealId))

/-- Only the name of the file is kept. -/
def storedPath (config : IngestionConfig) (dealId : Uuid) (filename : Str) : Path :=
  (uploadDir config dealId).join (Path.parse filename).name

theorem uploadDir_eq (config : IngestionConfig) (dealId : Uuid) :
    uploadDir config dealId = ⟨(Path.parse config.uploadDir).root,
      (Path.parse config.uploadDir).tail ++ [text (Uuid.str dealId)]⟩ := by
  have hdash := Uuid.dash_mem_str dealId
  refine Path.join_part (Uuid.slash_notMem_str dealId) (List.ne_nil_of_mem hdash) ?_
  intro hdot
  rw [hdot] at hdash
  cases List.mem_singleton.mp hdash

/-- A file is stored under the directory of its deal. -/
theorem storedPath_under (config : IngestionConfig) (dealId : Uuid) (filename : Str) :
    (uploadDir config dealId).tail <+: (storedPath config dealId filename).tail := by
  rw [storedPath, Path.join_of_notMem (Path.sep_notMem_name filename)]
  exact List.prefix_append _ _

/-- Files of different deals do not meet. -/
theorem storedPath_ne {config : IngestionConfig} {id id' : Uuid} (hid : id < 2 ^ 128)
    (hid' : id' < 2 ^ 128) (hne : id ≠ id') (filename filename' : Str) :
    storedPath config id filename ≠ storedPath config id' filename' := by
  intro heq
  have hprefix := storedPath_under config id filename
  have hprefix' := storedPath_under config id' filename'
  rw [heq] at hprefix
  rw [uploadDir_eq] at hprefix hprefix'
  have hsame := List.prefix_of_prefix_length_le hprefix hprefix' (by simp)
  have htexts := List.append_cancel_left (hsame.eq_of_length (by simp))
  exact hne (Uuid.str_injective hid hid' (text_injective (List.singleton_inj.mp htexts)))

/-- `upload_dir.mkdir(parents=True, exist_ok=True)`. -/
def mkdir (fault : Option Fault) (dir : Path) : IngestM Unit := do
  let missing ← inspect fun w => w.disk.missing dir
  match fault with
  | some (.mkdir made) =>
    update (World.updateDisk fun disk => disk.addDirs (missing.take made))
    if made < missing.length then raise .unavailable
  | _ => update (World.updateDisk fun disk => disk.addDirs missing)

/-- `file_path.write_bytes(file_content)`. The file is there as soon as it is open. -/
def writeBytes (config : IngestionConfig) (fault : Option Fault) (path : Path) (content : Bytes) :
    IngestM Unit := do
  if ¬ config.acceptsName path.name then raise .unavailable
  else
    strike fault .openFile
    match fault with
    | some (.writeBytes written) =>
      update (World.updateDisk fun disk => disk.put path (content.take written))
      raise .unavailable
    | _ => update (World.updateDisk fun disk => disk.put path content)

/-- `_store_file`. -/
def storeFile (config : IngestionConfig) (fault : Option Fault) (dealId : Uuid) (filename : Str)
    (content : Bytes) : IngestM Path := do
  mkdir fault (uploadDir config dealId)
  let filePath := storedPath config dealId filename
  writeBytes config fault filePath content
  return filePath

-- ---------------------------------------------------------------------------
-- The rows
-- ---------------------------------------------------------------------------

/-- `_check_duplicate`. -/
def checkDuplicate (fault : Option Fault) (tenantId : Uuid) (contentHash : String) :
    IngestM (Option Deal) := do
  strike fault .select
  select fun w => w.db.tables.dealByHash tenantId contentHash

/-- The row of the deal, if its columns take the texts and the size. -/
def dealRow (draw : IngestDraw) (tenantId : Uuid) (filename : Str) (contentHash : String)
    (filePath : Path) (size : Nat) (sourceChannel : Str) (sourceSender : Option Str) :
    Option Deal := do
  let filename ← PgText.varchar 512 filename
  let filePath ← PgText.varchar 1024 filePath.str
  let sourceChannel ← PgText.varchar 64 sourceChannel
  let sourceSender ← PgText.nullable (PgText.varchar 256) sourceSender
  if size < 2 ^ 31 then
    return { id := draw.dealId, tenantId, filename, contentHash, filePath, fileSizeBytes := size,
             sourceChannel, sourceSender, status := .uploaded, retryCount := 0,
             createdAt := draw.now }
  else none

def uploadAudit (dealId tenantId : Uuid) (filename : Str) (size : Nat) (sourceChannel : Str) :
    DealAuditLog :=
  { dealId, tenantId := Uuid.str tenantId, actorType := "system", actorId := none,
    action := "DEAL_UPLOADED", beforeState := none, afterState := some .uploaded,
    metadata := .upload filename size sourceChannel }

def idempotencyKey (dealId : Uuid) : String := s!"extraction:{Uuid.str dealId}"

/-- `enqueue`: the id of the new job, or of the one that has the key. -/
def enqueueJob (fault : Option Fault) (draw : IngestDraw) (jobType : String)
    (payload : ExtractionJob) (key : String) (tenantId : Uuid) : IngestM String := do
  strike fault .enqueue
  match Queue.enqueue extractionRegistry draw.now draw.jobId jobType payload (some key) none
      (some (Uuid.str tenantId)) none with
  | .error e => raise (.enqueueError e)
  | .ok job =>
    match ← select fun w => Queue.idempotentHit w.db.jobs jobType (some key) with
    | some existing => return existing.jobId
    | none =>
      write (World.insertJob job)
      flush
      return job.jobId

def uploadedResult (dealId : Uuid) : IngestionResult where
  dealId
  status := .uploaded
  message := "Deal uploaded. Extraction and scoring queued for processing."
  isDuplicate := false

def duplicateResult (existing : Deal) : IngestionResult where
  dealId := existing.id
  status := existing.status
  message := "Duplicate document detected. Returning existing deal."
  isDuplicate := true

/-- Steps 5 to 8, for content that the tenant does not have yet. -/
def ingestNew (config : IngestionConfig) (fault : Option Fault) (draw : IngestDraw)
    (tenantId : Uuid) (filename : Str) (content : Bytes) (contentHash : String)
    (sourceChannel : Str) (sourceSender : Option Str) : IngestM IngestionResult := do
  let filePath ← storeFile config fault draw.dealId filename content
  write (World.insert fun db =>
    (dealRow draw tenantId filename contentHash filePath content.length sourceChannel
      sourceSender).bind db.insertDeal)
  write (World.insert fun db =>
    db.insertAudit (uploadAudit draw.dealId tenantId filename content.length sourceChannel))
  strike fault .flush
  flush
  let _ ← enqueueJob fault draw "extraction" ⟨draw.dealId, tenantId⟩
    (idempotencyKey draw.dealId) tenantId
  return uploadedResult draw.dealId

/-- `ingest_deal`. -/
def ingestDeal [Runtime] (config : IngestionConfig) (fault : Option Fault) (draw : IngestDraw)
    (tenantId : Uuid) (filename : Str) (content : Bytes) (contentType : Option Str)
    (sourceChannel : Str) (sourceSender : Option Str) : IngestM IngestionResult := do
  ofExcept (validateFileType filename contentType)
  ofExcept (validateSize config content)
  let contentHash := Hashlib.sha256 content
  match ← checkDuplicate fault tenantId contentHash with
  | some existing => return duplicateResult existing
  | none =>
    ingestNew config fault draw tenantId filename content contentHash sourceChannel sourceSender

end IngestionService
