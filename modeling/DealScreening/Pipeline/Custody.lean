-- SUMMARY: The documents behind the deals: in every serial run the bytes that were hashed are on the disk where the row says, and one job was enqueued for each deal.
import DealScreening.Pipeline.History

/-!
# Custody of the documents

The rows are in the database, the documents on a disk that no transaction covers, and the jobs
name deals by their ids alone. Requests fail at every point, and what a failed one has written
to the disk stays there. That the three agree nevertheless rests on the ids: each request draws
one that no deal has.
-/

open Python

namespace Disk

variable {disk : Disk} {path p : Path} {content : Bytes}

/-- The files under a path. -/
def found (disk : Disk) (path : Path) : List StoredFile := disk.files.filter fun f => f.path = path

theorem found_put : (disk.put path content).found p = if p = path then [⟨path, content⟩] else disk.found p := by
  unfold found put
  rw [List.filter_append, List.filter_filter]
  by_cases hp : p = path
  · subst hp
    rw [if_pos rfl, List.filter_eq_nil_iff.mpr (by simp)]
    simp
  · have hnew : [StoredFile.mk path content].filter (fun f => f.path = p) = [] := by simp [Ne.symm hp]
    rw [if_neg hp, hnew, List.append_nil]
    refine List.filter_congr fun f _ => ?_
    by_cases hf : f.path = p
    · simp [hf, hp]
    · simp [hf]

end Disk

namespace IngestionService

theorem idempotencyKey_injective {id id' : Uuid} (hid : id < 2 ^ 128) (hid' : id' < 2 ^ 128)
    (h : idempotencyKey id = idempotencyKey id') : id = id' := by
  have hkey : ∀ id, idempotencyKey id = "extraction:" ++ Uuid.str id := fun _ => rfl
  rw [hkey, hkey] at h
  exact Uuid.str_injective hid hid' (String.append_right_inj _ |>.mp h)

end IngestionService

namespace Pipeline

open Session Dossier ExtractionService ScoringService DealsApi CriteriaApi IngestionService UploadApi
  Handlers

-- ---------------------------------------------------------------------------
-- What a request stores
-- ---------------------------------------------------------------------------

section
variable {config : IngestionConfig} {fault : Option Fault} {draw : IngestDraw} {tenantId dealId : Uuid}
  {filename : Str} {content : Bytes} {path dir : Path}

/-- Files elsewhere stay as they are. -/
def FilesApart (path : Path) (w w' : World) : Prop := ∀ p ≠ path, w'.disk.found p = w.disk.found p

instance : IsPreorder World (FilesApart path) where
  refl _ _ _ := rfl
  trans _ _ _ h h' p hp := (h' p hp).trans (h p hp)

/-- Whatever comes of an upload, other files stay. -/
theorem upload_filesApart [Runtime] (validatePdf : PdfValidator) (file : UploadFile) (w : World) :
    FilesApart (storedPath config draw.dealId file.name) w
      (upload config validatePdf fault draw tenantId file w).2 := by
  refine upload_leaves validatePdf file w ?_ fun w w' h => h
  exact ⟨fun _ _ _ _ => rfl, fun _ _ _ hp => Disk.found_put.trans (if_neg hp), fun _ _ _ _ => rfl,
    fun _ _ _ _ => rfl⟩

/-- The database and the files stay. -/
def OnlyDirs (w w' : World) : Prop := w'.db = w.db ∧ w'.disk.files = w.disk.files

instance : IsPreorder World OnlyDirs where
  refl _ := ⟨rfl, rfl⟩
  trans _ _ _ h h' := ⟨h'.1.trans h.1, h'.2.trans h.2⟩

theorem strike_onlyDirs {here : Fault} : Respects OnlyDirs (strike fault here) := by
  unfold strike
  split
  · exact respects_raise
  · exact respects_pure

theorem mkdir_onlyDirs : Respects OnlyDirs (mkdir fault dir) := by
  have hdirs : ∀ dirs : List Path, Respects OnlyDirs
      (update (World.updateDisk fun disk => disk.addDirs dirs) : IngestM Unit) :=
    fun _ => respects_update fun _ => ⟨rfl, rfl⟩
  refine respects_inspect.bind fun missing => ?_
  split
  · refine (hdirs _).bind fun _ => ?_
    split
    · exact respects_raise
    · exact respects_pure
  · exact hdirs _

theorem writeBytes_commits : Commits (writeBytes config fault path content) fun w _ w' =>
    w'.db = w.db ∧ w'.disk.found path = [⟨path, content⟩] := by
  unfold writeBytes
  split
  · exact commits_raise
  · refine strike_onlyDirs.commits.bind fun _ => ?_
    split
    · exact commits_update.bind fun _ => commits_raise
    · refine commits_update.weaken ?_
      rintro w₁ _ _ rfl w ⟨hdb, -⟩
      exact ⟨hdb, Disk.found_put.trans (if_pos rfl)⟩

/-- A document that is stored is alone under its path. -/
theorem storeFile_commits : Commits (storeFile config fault dealId filename content) fun w filePath w' =>
    filePath = storedPath config dealId filename ∧ w'.db = w.db ∧
      w'.disk.found filePath = [⟨filePath, content⟩] := by
  refine mkdir_onlyDirs.commits.bind fun _ => writeBytes_commits.bind fun _ => commits_pure ?_
  rintro w₂ w₁ ⟨hdb, hfound⟩ w ⟨hdb', -⟩
  exact ⟨rfl, hdb.trans hdb', hfound⟩

/-- The job of a deal is enqueued, unless there is one that has its key. -/
def Enqueued (draw : IngestDraw) (tenantId : Uuid) (jobs jobs' : Queue.Jobs ExtractionJob) : Prop :=
  jobs' = jobs ++ [job draw tenantId] ∨
    (jobs' = jobs ∧ ∃ j ∈ jobs, j.idempotencyKey = some (idempotencyKey draw.dealId))

theorem enqueueJob_commits :
    Commits (enqueueJob fault draw "extraction" ⟨draw.dealId, tenantId⟩ (idempotencyKey draw.dealId) tenantId)
      fun w _ w' => w'.disk = w.disk ∧ w'.db.tables = w.db.tables ∧
        Enqueued draw tenantId w.db.jobs w'.db.jobs := by
  have hstrike : Commits (strike fault .enqueue) fun w _ w' => w' = w := by
    unfold strike
    split
    · exact commits_raise
    · exact commits_pure fun _ => rfl
  refine hstrike.bind fun _ => ?_
  rw [enqueue_job]
  dsimp only
  refine commits_select.bind fun existing => ?_
  cases existing with
  | some existing =>
    refine commits_pure ?_
    rintro w₁ w ⟨hhit, rfl⟩ _ rfl
    refine ⟨rfl, rfl, .inr ⟨rfl, existing, List.mem_of_find?_eq_some hhit.symm, ?_⟩⟩
    have hkey := List.find?_some hhit.symm
    simp only [decide_eq_true_eq] at hkey
    exact hkey.2
  | none =>
    refine commits_write.bind fun _ => commits_flush.bind fun _ => commits_pure ?_
    rintro w₃ w₂ rfl w₁ hinsert w ⟨-, rfl⟩ _ rfl
    unfold World.insertJob at hinsert
    split at hinsert <;> cases hinsert
    exact ⟨rfl, rfl, .inl rfl⟩

/-- What a request that ingests a document leaves: the row of the deal, the document, the job. -/
structure Ingests (config : IngestionConfig) (draw : IngestDraw) (tenantId : Uuid) (filename : Str)
    (content : Bytes) (w w' : World) : Prop where
  deal : ∃ deal, row config draw tenantId filename content = some deal ∧
    w'.db.tables.deals = w.db.tables.deals ++ [deal]
  file : w'.disk.found (storedPath config draw.dealId filename) =
    [⟨storedPath config draw.dealId filename, content⟩]
  job : Enqueued draw tenantId w.db.jobs w'.db.jobs

theorem ingestNew_ingests :
    Commits (ingestNew config fault draw tenantId filename content (Hashlib.sha256 content) (text "upload") none)
      fun w _ w' => Ingests config draw tenantId filename content w w' := by
  refine storeFile_commits.bind fun filePath => commits_write.bind fun _ => commits_write.bind fun _ =>
    strike_onlyDirs.commits.bind fun _ => commits_flush.bind fun _ => enqueueJob_commits.bind fun _ =>
      commits_pure ?_
  rintro w₆ w₅ ⟨hdisk, htables, hjobs⟩ w₄ rfl w₃ ⟨hdb, hfiles⟩ w₂ haudit w₁ hdeal w ⟨rfl, hstored, hfound⟩
  obtain ⟨tables₁, hinsert, rfl⟩ := Option.map_eq_some_iff.mp hdeal
  obtain ⟨tables₂, hentry, rfl⟩ := Option.map_eq_some_iff.mp haudit
  obtain ⟨deal, hrow, hinsert⟩ := Option.bind_eq_some_iff.mp hinsert
  obtain ⟨-, rfl⟩ := insertDeal_eq_some hinsert
  obtain ⟨-, rfl⟩ := insertAudit_eq_some.mp hentry
  refine ⟨⟨deal, hrow, ?_⟩, ?_, ?_⟩
  · rw [htables, hdb]
    exact congrArg (fun db : PipelineDb => db.tables.deals ++ [deal]) hstored
  · rw [Disk.found, hdisk, hfiles]
    exact hfound
  · rw [hdb] at hjobs
    rwa [hstored] at hjobs

end

section
variable [Runtime] {config : IngestionConfig} {validatePdf : PdfValidator} {fault : Option Fault}
  {draw : IngestDraw} {tenantId : Uuid} {file : UploadFile} {w : World}

/-- What the checks say of a document. -/
structure Checked (config : IngestionConfig) (content : Bytes) : Prop where
  magic : content.take FileValidator.pdfMagic.length = FileValidator.pdfMagic
  nonempty : 0 < content.length
  size : content.length ≤ config.maxFileSizeBytes

omit [Runtime] in
theorem validateSize_eq_ok {content : Bytes} (h : validateSize config content = .ok ()) :
    0 < content.length ∧ content.length ≤ config.maxFileSizeBytes := by
  unfold validateSize at h
  split at h
  · cases h
  · rename_i hlarge
    split at h
    · cases h
    · rename_i hempty
      omega

theorem validateFile_magic {content : Bytes} {declaredMime : Option Str} {maxBytes : Nat}
    {checked : ValidatedFile} (h : FileValidator.validateFile content declaredMime maxBytes = .ok checked) :
    content.take FileValidator.pdfMagic.length = FileValidator.pdfMagic := by
  unfold FileValidator.validateFile at h
  split at h
  · cases h
  · dsimp only at h
    split at h
    · cases h
    · by_contra hmagic
      rw [FileValidator.checkMagicBytes, if_neg hmagic] at h
      cases h

theorem ingestDeal_ingests :
    Commits (ingestDeal config fault draw tenantId file.name file.content file.contentType (text "upload") none)
      fun w _ w' => w'.db = w.db ∨ ((0 < file.content.length ∧
        file.content.length ≤ config.maxFileSizeBytes) ∧
          Ingests config draw tenantId file.name file.content w w') := by
  refine commits_ofExcept.bind fun _ => commits_ofExcept.bind fun _ =>
    Respects.commits (R := OnlyDirs) (strike_onlyDirs.bind fun _ => respects_select) |>.bind fun found => ?_
  cases found with
  | some existing =>
    refine commits_pure ?_
    rintro w₃ w₂ hchecked w₁ ⟨-, rfl⟩ w ⟨-, rfl⟩
    exact .inl hchecked.1
  | none =>
    refine ingestNew_ingests.weaken ?_
    rintro w₃ _ w' hingests w₂ ⟨hdb, -⟩ w₁ ⟨hsize, rfl⟩ w ⟨-, rfl⟩
    obtain ⟨⟨deal, hrow, hdeals⟩, hfile, hjob⟩ := hingests
    rw [hdb] at hdeals hjob
    exact .inr ⟨validateSize_eq_ok hsize, ⟨deal, hrow, hdeals⟩, hfile, hjob⟩

/-- A request leaves the database as it was, or ingests a document that passed the checks. -/
theorem upload_ingests (config : IngestionConfig) (validatePdf : PdfValidator) (fault : Option Fault)
    (draw : IngestDraw) (tenantId : Uuid) (file : UploadFile) (w : World) :
    (upload config validatePdf fault draw tenantId file w).2.db = w.db ∨
      (Checked config file.content ∧ Ingests config draw tenantId file.name file.content w
        (upload config validatePdf fault draw tenantId file w).2) := by
  have hbody : Commits (uploadDeal config validatePdf fault draw tenantId file) fun w _ w' =>
      w'.db = w.db ∨ (Checked config file.content ∧
        Ingests config draw tenantId file.name file.content w w') := by
    refine commits_ofExcept.bind fun fileCheck => commits_ofExcept.bind fun _ =>
      (ingestDeal_ingests.tryCatch fun x s => ?_).weaken ?_
    · obtain ⟨y, hy⟩ := exceptIngestionError_raises x s
      exact ⟨y, s, hy⟩
    · rintro w₂ _ w' hingested w₁ ⟨-, rfl⟩ w ⟨hchecked, rfl⟩
      have hmagic := validateFile_magic (Except.mapError_eq_ok.mp hchecked)
      exact hingested.imp_right fun ⟨⟨hpos, hle⟩, hingests⟩ => ⟨⟨hmagic, hpos, hle⟩, hingests⟩
  have hrequest : Commits (getDb fault (uploadDeal config validatePdf fault draw tenantId file))
      fun w _ w' => w'.db = w.db ∨ (Checked config file.content ∧
        Ingests config draw tenantId file.name file.content w w') := by
    refine hbody.bind fun result => strike_onlyDirs.commits.bind fun _ => commits_flush.bind fun _ =>
      commits_pure ?_
    rintro w₃ w₂ rfl w₁ ⟨hdb, hfiles⟩ w hingested
    refine hingested.imp (hdb.trans ·) fun ⟨hchecked, hdeal, hfile, hjob⟩ => ⟨hchecked, ?_, ?_, ?_⟩
    · rwa [hdb]
    · rwa [Disk.found, hfiles]
    · rwa [hdb]
  rcases @Commits.commitWith _ _ _ _ _ rollBack hrequest w with ⟨v, hback⟩ | ⟨result, hdone⟩
  · exact .inl (by rw [upload, hback]; rfl)
  · exact hdone

end

-- ---------------------------------------------------------------------------
-- Custody
-- ---------------------------------------------------------------------------

section
variable {config : IngestionConfig} {w w' : World} {deal deal' : Deal}

/-- Where the document of a deal is stored. -/
def documentPath (config : IngestionConfig) (deal : Deal) : Path :=
  storedPath config deal.id deal.filename.val

/-- The row of the deal names the one file that holds its document, and one job is for it. -/
structure InCustody (config : IngestionConfig) (w : World) (deal : Deal) : Prop where
  path : deal.filePath.val = (documentPath config deal).str
  document : ∃ content, w.disk.found (documentPath config deal) = [⟨documentPath config deal, content⟩] ∧
    Hashlib.sha256 content = deal.contentHash ∧ content.length = deal.fileSizeBytes ∧
    Checked config content
  job : ∃ job, w.db.jobs.filter (fun j => j.payload.dealId = deal.id) = [job] ∧
    job.jobType = "extraction" ∧ job.payload = ⟨deal.id, deal.tenantId⟩ ∧
    job.tenantId = some (Uuid.str deal.tenantId)

/-- The job is for a deal that exists, under the key of that deal. -/
def JobForDeal (deals : List Deal) (job : BackgroundJob ExtractionJob) : Prop :=
  ∃ deal ∈ deals, job.payload = ⟨deal.id, deal.tenantId⟩ ∧
    job.idempotencyKey = some (idempotencyKey deal.id)

/-- Documents, rows and jobs agree. -/
structure Custody (config : IngestionConfig) (w : World) : Prop where
  ids : ∀ deal ∈ w.db.tables.deals, deal.id < 2 ^ 128
  deals : ∀ deal ∈ w.db.tables.deals, InCustody config w deal
  jobs : ∀ job ∈ w.db.jobs, JobForDeal w.db.tables.deals job

/-- An upload draws a `uuid4` that no deal has. -/
def DrawsFresh (s : St) (a : Act) : Prop :=
  ∀ fault draw tenantId file, a = .upload fault draw tenantId file →
    draw.dealId < 2 ^ 128 ∧ s.tables.dealById draw.dealId = none

/-- What happens to the row of a deal does not matter. -/
theorem InCustody.later (h : InCustody config w deal) (hlater : deal.Later deal')
    (hdocument : w'.disk.found (documentPath config deal) = w.disk.found (documentPath config deal))
    (hjobs : w'.db.jobs.filter (fun j => j.payload.dealId = deal.id) =
      w.db.jobs.filter (fun j => j.payload.dealId = deal.id)) : InCustody config w' deal' := by
  obtain ⟨hpath, ⟨content, hfound, hhash, hsize, hchecked⟩, job, hjob, htype, hpayload, htenant⟩ := h
  rw [hlater.1]
  refine ⟨hpath, ⟨content, ?_, hhash, hsize, hchecked⟩, job, ?_, htype, hpayload, htenant⟩
  · exact hdocument.trans hfound
  · exact hjobs.trans hjob

theorem row_eq_some {draw : IngestDraw} {tenantId : Uuid} {filename : Str} {content : Bytes}
    (h : row config draw tenantId filename content = some deal) :
    deal.id = draw.dealId ∧ deal.tenantId = tenantId ∧ deal.filename.val = filename ∧
      deal.contentHash = Hashlib.sha256 content ∧ deal.fileSizeBytes = content.length ∧
      deal.filePath.val = (storedPath config draw.dealId filename).str := by
  unfold row dealRow at h
  obtain ⟨filename', hname, h⟩ := Option.bind_eq_some_iff.mp h
  obtain ⟨filePath, hpath, h⟩ := Option.bind_eq_some_iff.mp h
  obtain ⟨channel, -, h⟩ := Option.bind_eq_some_iff.mp h
  obtain ⟨sender, -, h⟩ := Option.bind_eq_some_iff.mp h
  split at h <;> cases h
  exact ⟨rfl, rfl, PgText.varchar_val hname, rfl, rfl, PgText.varchar_val hpath⟩

/-- Without an upload the documents and the jobs stay, and the deals are those that were there. -/
theorem Custody.edits [Runtime] (h : Custody config w) (hinv : Inv w.db.tables)
    (hdisk : w'.disk = w.disk) (hjobs : w'.db.jobs = w.db.jobs)
    (hedits : Edits w.db.tables w'.db.tables) : Custody config w' := by
  obtain ⟨hgrows, hlength⟩ := hedits.grows hinv
  refine ⟨fun deal' hdeal' => ?_, fun deal' hdeal' => ?_, fun job hjob => ?_⟩
  · obtain ⟨deal, hdeal, hlater⟩ := hgrows.deals.of_mem hlength hdeal'
    rw [hlater.id_eq]
    exact h.ids deal hdeal
  · obtain ⟨deal, hdeal, hlater⟩ := hgrows.deals.of_mem hlength hdeal'
    exact (h.deals deal hdeal).later hlater (by rw [hdisk]) (by rw [hjobs])
  · rw [hjobs] at hjob
    obtain ⟨deal, hdeal, hpayload, hkey⟩ := h.jobs job hjob
    obtain ⟨deal', hdeal', hlater⟩ := hgrows.deals.mem hdeal
    refine ⟨deal', hdeal', ?_, ?_⟩
    · rw [hpayload, hlater.1]
    · rw [hkey, hlater.id_eq]

section
variable {draw : IngestDraw} {tenantId : Uuid} {filename : Str} {content : Bytes}

/-- A request that draws a fresh id enqueues its job. -/
theorem Enqueued.new (hjobs : Enqueued draw tenantId w.db.jobs w'.db.jobs) (h : Custody config w)
    (hid : draw.dealId < 2 ^ 128) (hfresh : w.db.tables.dealById draw.dealId = none) :
    w'.db.jobs = w.db.jobs ++ [job draw tenantId] := by
  rcases hjobs with hjobs | ⟨-, j, hj, hkey⟩
  · exact hjobs
  · obtain ⟨deal, hdeal, -, hkey'⟩ := h.jobs j hj
    have hsame := idempotencyKey_injective (h.ids deal hdeal) hid (Option.some.inj (hkey'.symm.trans hkey))
    exact absurd hsame (Table.lookup_eq_none.mp hfresh deal hdeal)

/-- The documents of other deals are elsewhere, and the jobs for them stay. -/
theorem Custody.apart (h : Custody config w) (hid : draw.dealId < 2 ^ 128)
    (hfresh : w.db.tables.dealById draw.dealId = none)
    (hfiles : FilesApart (storedPath config draw.dealId filename) w w')
    (hjobs : ∀ id ≠ draw.dealId, w'.db.jobs.filter (fun j => j.payload.dealId = id) =
      w.db.jobs.filter (fun j => j.payload.dealId = id))
    (hdeal : deal ∈ w.db.tables.deals) : InCustody config w' deal := by
  have hne : deal.id ≠ draw.dealId := Table.lookup_eq_none.mp hfresh deal hdeal
  refine (h.deals deal hdeal).later (refl_of Deal.Later deal) ?_ (hjobs deal.id hne)
  exact hfiles _ (storedPath_ne (h.ids deal hdeal) hid hne deal.filename.val filename)

/-- A request that leaves the database keeps the documents of all deals. -/
theorem Custody.untouched (h : Custody config w) (hid : draw.dealId < 2 ^ 128)
    (hfresh : w.db.tables.dealById draw.dealId = none)
    (hfiles : FilesApart (storedPath config draw.dealId filename) w w') (hdb : w'.db = w.db) :
    Custody config w' where
  ids := hdb ▸ h.ids
  deals deal hdeal := h.apart hid hfresh hfiles (fun _ _ => by rw [hdb]) (hdb ▸ hdeal)
  jobs := hdb ▸ h.jobs

/-- A request that ingests a document takes it into custody. -/
theorem Custody.ingests (h : Custody config w) (hid : draw.dealId < 2 ^ 128)
    (hfresh : w.db.tables.dealById draw.dealId = none)
    (hfiles : FilesApart (storedPath config draw.dealId filename) w w') (hchecked : Checked config content)
    (hingests : Ingests config draw tenantId filename content w w') : Custody config w' := by
  obtain ⟨⟨deal, hrow, hdeals⟩, hfile, henqueued⟩ := hingests
  obtain ⟨hdealId, htenant, hfilename, hhash, hsize, hpath⟩ := row_eq_some hrow
  have hjobs := henqueued.new h hid hfresh
  have hdocument : documentPath config deal = storedPath config draw.dealId filename := by
    rw [documentPath, hdealId, hfilename]
  refine ⟨fun d hd => ?_, fun d hd => ?_, fun j hj => ?_⟩
  · rw [hdeals] at hd
    rcases List.mem_append.mp hd with hd | hd
    · exact h.ids d hd
    · rw [List.mem_singleton.mp hd, hdealId]
      exact hid
  · rw [hdeals] at hd
    rcases List.mem_append.mp hd with hd | hd
    · refine h.apart hid hfresh hfiles (fun id hne => ?_) hd
      have hother : [job draw tenantId].filter (fun j => j.payload.dealId = id) = [] := by
        simpa [job] using Ne.symm hne
      rw [hjobs, List.filter_append, hother, List.append_nil]
    · -- No job was for the id, so the new one is alone.
      have hnone : w.db.jobs.filter (fun j => j.payload.dealId = draw.dealId) = [] := by
        refine List.filter_eq_nil_iff.mpr fun j hj heq => ?_
        obtain ⟨d', hd', hpayload, -⟩ := h.jobs j hj
        have heq := of_decide_eq_true heq
        rw [hpayload] at heq
        exact Table.lookup_eq_none.mp hfresh d' hd' heq
      rw [List.mem_singleton.mp hd]
      refine ⟨by rw [hdocument, hpath], ⟨content, ?_, hhash.symm, hsize.symm, hchecked⟩,
        job draw tenantId, ?_, rfl, ?_, ?_⟩
      · rw [hdocument]
        exact hfile
      · rw [hdealId, hjobs, List.filter_append, hnone]
        simp [job]
      · rw [hdealId, htenant]
        rfl
      · rw [htenant]
        rfl
  · rw [hdeals]
    rw [hjobs] at hj
    rcases List.mem_append.mp hj with hj | hj
    · obtain ⟨d, hd, hpayload, hkey⟩ := h.jobs j hj
      exact ⟨d, List.mem_append_left _ hd, hpayload, hkey⟩
    · rw [List.mem_singleton.mp hj]
      refine ⟨deal, List.mem_append_right _ (List.mem_singleton_self deal), ?_, ?_⟩
      · rw [hdealId, htenant]
        rfl
      · rw [hdealId]
        rfl

end

variable [Runtime] {settings : Settings} {s t : St} {a : Act} {disk : Disk} {acts : List Act}

/-- A request to upload a document keeps the documents in custody. -/
theorem Custody.upload (h : Custody config w) (validatePdf : PdfValidator) (fault : Option Fault)
    {draw : IngestDraw} (hid : draw.dealId < 2 ^ 128) (hfresh : w.db.tables.dealById draw.dealId = none)
    (tenantId : Uuid) (file : UploadFile) :
    Custody config (UploadApi.upload config validatePdf fault draw tenantId file w).2 := by
  have hfiles : FilesApart (storedPath config draw.dealId file.name) w
      (UploadApi.upload config validatePdf fault draw tenantId file w).2 :=
    upload_filesApart validatePdf file w
  rcases upload_ingests config validatePdf fault draw tenantId file w with hdb | ⟨hchecked, hingests⟩
  · exact h.untouched hid hfresh hfiles hdb
  · exact h.ingests hid hfresh hfiles hchecked hingests

/-- Every step with a fresh id keeps the documents in custody. -/
theorem Custody.step (h : Custody settings.config s.world) (hinv : Inv s.tables) (hok : DrawsFresh s a)
    (hstep : step settings s a = some t) : Custody settings.config t.world := by
  rcases step_cases hstep with ⟨fault, draw, tenantId, file, hact, hworld⟩ | ⟨hdisk, hjobs, hedits⟩
  · obtain ⟨hid, hfresh⟩ := hok fault draw tenantId file hact
    rw [hworld]
    exact h.upload settings.validatePdf fault hid hfresh tenantId file
  · exact h.edits hinv hdisk hjobs hedits

/-- Documents, rows and jobs agree in every state of every run, whatever fails in it. -/
theorem custody_kept (hfresh : Run.Guarded (step settings) DrawsFresh (init disk) acts) :
    Run.Always (step settings) (fun s => Custody settings.config s.world) (init disk) acts := by
  have hkeep : ∀ {s a t}, InOrder s ∧ Custody settings.config s.world → DrawsFresh s a →
      step settings s a = some t → InOrder t ∧ Custody settings.config t.world :=
    fun hs hok hstep => ⟨hs.1.step hstep, hs.2.step hs.1.inv hok hstep⟩
  have hinit : Custody settings.config (init disk).world :=
    ⟨fun _ h => (nomatch h), fun _ h => (nomatch h), fun _ h => nomatch h⟩
  exact hfresh.always hkeep And.right ⟨inOrder_init disk, hinit⟩

end

/-- `DrawsFresh`, computed. -/
def drawsFresh (s : St) : Act → Bool
  | .upload _ draw _ _ => draw.dealId < 2 ^ 128 ∧ (s.tables.dealById draw.dealId).isNone
  | _ => true

theorem drawsFresh_sound (s : St) (a : Act) (h : drawsFresh s a = true) : DrawsFresh s a := by
  rintro fault draw tenantId file rfl
  obtain ⟨hid, hnone⟩ := of_decide_eq_true h
  exact ⟨hid, Option.isNone_iff_eq_none.mp hnone⟩

/-- A commit fails and leaves its file; the same document is uploaded again, and cannot be read. -/
theorem custody_kept_retried :
    letI := asciiRuntime
    ∃ acts t, Run.exec (step sampleSettings) (init ⟨[], []⟩) acts = some t ∧ t.tables.deals ≠ [] ∧
      Run.Always (step sampleSettings) (fun s => Custody sampleSettings.config s.world) (init ⟨[], []⟩) acts := by
  let _ := asciiRuntime
  have hruns : (do
      let t ← Run.exec (step sampleSettings) (init ⟨[], []⟩)
        (.upload (some .commit) sampleDraw 2 sampleFile :: failedOnce)
      return decide (t.tables.deals ≠ []) : Option Bool) = some true := by
    decide +kernel
  obtain ⟨t, hrun, hdeals⟩ := Option.bind_eq_some_iff.mp hruns
  have hfresh : Run.checks (step sampleSettings) drawsFresh (init ⟨[], []⟩)
      (.upload (some .commit) sampleDraw 2 sampleFile :: failedOnce) = true := by
    decide +kernel
  exact ⟨_, t, hrun, of_decide_eq_true (Option.some.inj hdeals),
    custody_kept (Run.guarded_of_checks drawsFresh drawsFresh_sound hfresh)⟩

end Pipeline
