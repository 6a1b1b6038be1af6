-- SUMMARY: Concurrent uploads of one document, statement by statement: they leave one deal and one file exactly when no duplicate check misses a request in flight.
import DealScreening.Api.UploadOutcome
import DealScreening.Lib.Run

/-!
# Concurrent uploads of one document

Each request is a READ COMMITTED transaction of its own, and nothing fails from
outside. The `INSERT` of a deal whose content another transaction has inserted waits
for that one to end, and is refused if it has committed. The idempotency key of a job
holds the id of its deal, so no two requests share one.
-/

namespace UploadRace

open Python Session IngestionService UploadApi

structure Request where
  draw : IngestDraw
  file : UploadFile
  deriving DecidableEq

/-- The next statement of a request, with the rows it has written. -/
inductive Tx where
  /-- `SELECT` the deal with the content. -/
  | begun (request : Request)
  /-- Store the file. -/
  | missed (request : Request)
  /-- `INSERT` the deal. -/
  | stored (request : Request)
  /-- `INSERT` the audit row. -/
  | inserted (request : Request) (deal : Deal)
  /-- `INSERT` the job. -/
  | audited (request : Request) (deal : Deal)
  /-- `COMMIT`. -/
  | enqueued (request : Request) (deal : Deal) (job : Option (BackgroundJob ExtractionJob))
  | answered (request : Request) (result : IngestionResult)
  /-- Raised before the file was stored. -/
  | refused (request : Request)
  /-- Raised, and rolled back, after the file was stored. -/
  | failed (request : Request)
  deriving DecidableEq

namespace Tx

def request : Tx → Request
  | .begun request | .missed request | .stored request | .inserted request _ | .audited request _
  | .enqueued request _ _ | .answered request _ | .refused request | .failed request => request

/-- The row of `deals` the transaction has inserted. -/
def deal? : Tx → Option Deal
  | .inserted _ deal | .audited _ deal | .enqueued _ deal _ => some deal
  | _ => none

/-- Past a duplicate check that found nothing, and not committed. -/
def inFlight : Tx → Bool
  | .missed _ | .stored _ | .inserted _ _ | .audited _ _ | .enqueued _ _ _ => true
  | _ => false

/-- The file of the request has been stored. -/
def hasStored : Tx → Bool
  | .stored _ | .inserted _ _ | .audited _ _ | .enqueued _ _ _ | .failed _ => true
  | .answered _ result => !result.isDuplicate
  | _ => false

/-- Answered, and not as a duplicate. -/
def answeredNew : Tx → Bool
  | .answered _ result => !result.isDuplicate
  | _ => false

def finished : Tx → Bool
  | .answered _ _ | .refused _ | .failed _ => true
  | _ => false

end Tx

/-- The committed database with the disk, and the transactions. -/
structure St where
  world : World
  txs : List Tx
  deriving DecidableEq

def init (w : World) (requests : List Request) : St := ⟨w, requests.map .begun⟩

inductive Act where
  | select (i : Nat)
  | store (i : Nat)
  | insertDeal (i : Nat)
  | insertAudit (i : Nat)
  | insertJob (i : Nat)
  | commit (i : Nat)
  deriving DecidableEq, Repr

namespace St

def setTx (s : St) (i : Nat) (tx : Tx) : St := { s with txs := s.txs.set i tx }

/-- Another transaction has inserted the primary key or the content. -/
def heldByOther (s : St) (i : Nat) (deal : Deal) : Bool :=
  s.txs.zipIdx.any fun (tx, j) => j ≠ i ∧ tx.deal?.any fun d =>
    d.id = deal.id ∨ (d.tenantId = deal.tenantId ∧ d.contentHash = deal.contentHash)

end St

def withDirs (config : IngestionConfig) (request : Request) (w : World) : World :=
  w.updateDisk fun disk => disk.addDirs (disk.missing (uploadDir config request.draw.dealId))

/-- The world with the directory and the file of a request. -/
def storedBy (config : IngestionConfig) (request : Request) (w : World) : World :=
  stored config request.draw request.file.name request.file.content w

def rowOf (config : IngestionConfig) (tenantId : Uuid) (request : Request) : Option Deal :=
  row config request.draw tenantId request.file.name request.file.content

/-- The database after the commit of a request. -/
def commitWorld (tenantId : Uuid) (request : Request) (deal : Deal)
    (job : Option (BackgroundJob ExtractionJob)) (w : World) : World :=
  { w with db :=
    { tables :=
      { w.db.tables with
        deals := w.db.tables.deals ++ [deal]
        dealAuditLog := w.db.tables.dealAuditLog ++
          [uploadAudit request.draw.dealId tenantId request.file.name request.file.content.length
            (text "upload")] }
      jobs := w.db.jobs ++ job.toList } }

/-- One statement of one transaction. -/
def step [Runtime] (config : IngestionConfig) (validatePdf : PdfValidator) (tenantId : Uuid)
    (s : St) : Act → Option St
  | .select i =>
    match s.txs[i]? with
    | some (.begun request) =>
      match screen config validatePdf request.file with
      | .error _ => some (s.setTx i (.refused request))
      | .ok _ =>
        match s.world.db.tables.dealByHash tenantId (Hashlib.sha256 request.file.content) with
        | some existing => some (s.setTx i (.answered request (duplicateResult existing)))
        | none => some (s.setTx i (.missed request))
    | _ => none
  | .store i =>
    match s.txs[i]? with
    | some (.missed request) =>
      if config.acceptsName (storedPath config request.draw.dealId request.file.name).name then
        some { s.setTx i (.stored request) with world := storedBy config request s.world }
      else
        some { s.setTx i (.refused request) with world := withDirs config request s.world }
    | _ => none
  | .insertDeal i =>
    match s.txs[i]? with
    | some (.stored request) =>
      match rowOf config tenantId request with
      | none => some (s.setTx i (.failed request))
      | some deal =>
        if s.heldByOther i deal then none
        else match s.world.db.tables.insertDeal deal with
          | none => some (s.setTx i (.failed request))
          | some _ => some (s.setTx i (.inserted request deal))
    | _ => none
  | .insertAudit i =>
    match s.txs[i]? with
    | some (.inserted request deal) => some (s.setTx i (.audited request deal))
    | _ => none
  | .insertJob i =>
    match s.txs[i]? with
    | some (.audited request deal) =>
      match Queue.idempotentHit s.world.db.jobs "extraction"
          (some (idempotencyKey request.draw.dealId)) with
      | some _ => some (s.setTx i (.enqueued request deal none))
      | none =>
        match World.insertJob (job request.draw tenantId) s.world with
        | none => some (s.setTx i (.failed request))
        | some _ => some (s.setTx i (.enqueued request deal (some (job request.draw tenantId))))
    | _ => none
  | .commit i =>
    match s.txs[i]? with
    | some (.enqueued request deal job) =>
      some { s.setTx i (.answered request (uploadedResult request.draw.dealId)) with
        world := commitWorld tenantId request deal job s.world }
    | _ => none

-- ---------------------------------------------------------------------------
-- What a statement does
-- ---------------------------------------------------------------------------

/-- The statement of a transaction `i` that is at `old`: where it is then, and the world
    after it. -/
inductive Move [Runtime] (config : IngestionConfig) (validatePdf : PdfValidator) (tenantId : Uuid)
    (s : St) (i : Nat) : Act → Tx → Tx → World → Prop where
  | rejected {request e} (h : screen config validatePdf request.file = .error e) :
    Move config validatePdf tenantId s i (.select i) (.begun request) (.refused request) s.world
  | duplicate {request existing} (h : s.world.db.tables.dealByHash tenantId
      (Hashlib.sha256 request.file.content) = some existing) :
    Move config validatePdf tenantId s i (.select i) (.begun request)
      (.answered request (duplicateResult existing)) s.world
  | missed {request} (h : s.world.db.tables.dealByHash tenantId
      (Hashlib.sha256 request.file.content) = none) :
    Move config validatePdf tenantId s i (.select i) (.begun request) (.missed request) s.world
  | unwritable {request} (h : config.acceptsName
      (storedPath config request.draw.dealId request.file.name).name = false) :
    Move config validatePdf tenantId s i (.store i) (.missed request) (.refused request)
      (withDirs config request s.world)
  | stored {request} :
    Move config validatePdf tenantId s i (.store i) (.missed request) (.stored request)
      (storedBy config request s.world)
  | rowRefused {request} (h : rowOf config tenantId request = none) :
    Move config validatePdf tenantId s i (.insertDeal i) (.stored request) (.failed request) s.world
  | violated {request deal} (hrow : rowOf config tenantId request = some deal)
      (hheld : s.heldByOther i deal = false) (h : s.world.db.tables.insertDeal deal = none) :
    Move config validatePdf tenantId s i (.insertDeal i) (.stored request) (.failed request) s.world
  | inserted {request deal} (hrow : rowOf config tenantId request = some deal)
      (hheld : s.heldByOther i deal = false) :
    Move config validatePdf tenantId s i (.insertDeal i) (.stored request) (.inserted request deal)
      s.world
  | audited {request deal} :
    Move config validatePdf tenantId s i (.insertAudit i) (.inserted request deal)
      (.audited request deal) s.world
  | hit {request deal existing} (h : Queue.idempotentHit s.world.db.jobs "extraction"
      (some (idempotencyKey request.draw.dealId)) = some existing) :
    Move config validatePdf tenantId s i (.insertJob i) (.audited request deal)
      (.enqueued request deal none) s.world
  | jobRefused {request deal} (h : World.insertJob (job request.draw tenantId) s.world = none) :
    Move config validatePdf tenantId s i (.insertJob i) (.audited request deal) (.failed request)
      s.world
  | enqueued {request deal} :
    Move config validatePdf tenantId s i (.insertJob i) (.audited request deal)
      (.enqueued request deal (some (job request.draw tenantId))) s.world
  | committed {request deal job} :
    Move config validatePdf tenantId s i (.commit i) (.enqueued request deal job)
      (.answered request (uploadedResult request.draw.dealId))
      (commitWorld tenantId request deal job s.world)

section
variable [Runtime] {config : IngestionConfig} {validatePdf : PdfValidator} {tenantId : Uuid}
  {w : World} {requests : List Request} {content : Bytes} {s t : St} {a : Act} {i : Nat}
  {old new : Tx} {w' : World}

theorem step_move (h : step config validatePdf tenantId s a = some t) :
    ∃ i old new w', s.txs[i]? = some old ∧
      Move config validatePdf tenantId s i a old new w' ∧ t = ⟨w', s.txs.set i new⟩ := by
  cases a with
  | select i =>
    simp only [step] at h
    split at h
    · rename_i request hold
      split at h
      · cases h
        exact ⟨i, _, _, _, hold, .rejected ‹_›, rfl⟩
      · split at h <;> cases h
        · exact ⟨i, _, _, _, hold, .duplicate ‹_›, rfl⟩
        · exact ⟨i, _, _, _, hold, .missed ‹_›, rfl⟩
    · cases h
  | store i =>
    simp only [step] at h
    split at h
    · rename_i request hold
      split at h <;> cases h
      · exact ⟨i, _, _, _, hold, .stored, rfl⟩
      · exact ⟨i, _, _, _, hold, .unwritable ((Bool.not_eq_true _).mp ‹_›), rfl⟩
    · cases h
  | insertDeal i =>
    simp only [step] at h
    split at h
    · rename_i request hold
      split at h
      · cases h
        exact ⟨i, _, _, _, hold, .rowRefused ‹_›, rfl⟩
      · rename_i deal hrow
        split at h
        · cases h
        · rename_i hheld
          split at h <;> cases h
          · exact ⟨i, _, _, _, hold, .violated hrow (by simpa using hheld) ‹_›, rfl⟩
          · exact ⟨i, _, _, _, hold, .inserted hrow (by simpa using hheld), rfl⟩
    · cases h
  | insertAudit i =>
    simp only [step] at h
    split at h <;> cases h
    exact ⟨i, _, _, _, ‹_›, .audited, rfl⟩
  | insertJob i =>
    simp only [step] at h
    split at h
    · rename_i request deal hold
      split at h
      · cases h
        exact ⟨i, _, _, _, hold, .hit ‹_›, rfl⟩
      · split at h <;> cases h
        · exact ⟨i, _, _, _, hold, .jobRefused ‹_›, rfl⟩
        · exact ⟨i, _, _, _, hold, .enqueued, rfl⟩
    · cases h
  | commit i =>
    simp only [step] at h
    split at h <;> cases h
    exact ⟨i, _, _, _, ‹_›, .committed, rfl⟩

end

-- ---------------------------------------------------------------------------
-- One deal for all
-- ---------------------------------------------------------------------------

/-- The tenant's rows of a document. -/
def dealsFor (tenantId : Uuid) (content : Bytes) (w : World) : List Deal :=
  w.db.tables.deals.filter fun d =>
    d.tenantId = tenantId ∧ d.contentHash = Hashlib.sha256 content

/-- Every request is answered with one deal, and all but one as a duplicate; there is
    one row of the document, with one audit row and one job, and one file of it that
    was not there in `w`. -/
structure Deduplicated (tenantId : Uuid) (content : Bytes) (w : World) (s : St) : Prop where
  answers : ∃ dealId, ∀ tx ∈ s.txs, ∃ request result, tx = .answered request result ∧
    result.dealId = dealId
  oneNew : (s.txs.filter Tx.answeredNew).length = 1
  oneDeal : (dealsFor tenantId content s.world).length = 1
  oneAudit : (s.world.db.tables.dealAuditLog.filter fun entry => entry.action = "DEAL_UPLOADED" ∧
    entry.dealId ∈ (dealsFor tenantId content s.world).map Deal.id).length = 1
  oneJob : (s.world.db.jobs.filter fun job => job.jobType = "extraction" ∧
    job.payload.dealId ∈ (dealsFor tenantId content s.world).map Deal.id).length = 1
  oneFile : (s.world.disk.files.filter fun f => f.content = content ∧ f ∉ w.disk.files).length = 1

/-- A request with these bytes that nothing refuses, with fresh ids. -/
structure Valid [Runtime] (config : IngestionConfig) (validatePdf : PdfValidator) (tenantId : Uuid)
    (content : Bytes) (w : World) (request : Request) : Prop where
  content : request.file.content = content
  screened : screen config validatePdf request.file = .ok ()
  name : config.acceptsName (storedPath config request.draw.dealId request.file.name).name = true
  row : (rowOf config tenantId request).isSome
  fresh : Fresh config request.draw w
  uuid : request.draw.dealId < 2 ^ 128

/-- The requests of a storm: the tenant does not have the document yet, and no two draw
    the same id. -/
structure Storm [Runtime] (config : IngestionConfig) (validatePdf : PdfValidator) (tenantId : Uuid)
    (content : Bytes) (w : World) (requests : List Request) : Prop where
  new : w.db.tables.dealByHash tenantId (Hashlib.sha256 content) = none
  valid : ∀ request ∈ requests, Valid config validatePdf tenantId content w request
  distinct : requests.Pairwise fun r r' => r.draw.dealId ≠ r'.draw.dealId

/-- A duplicate check finds the document, or no other request is in flight. -/
def ChecksAlone (tenantId : Uuid) (s : St) : Act → Prop
  | .select i => ∀ request, s.txs[i]? = some (.begun request) →
    s.world.db.tables.dealByHash tenantId (Hashlib.sha256 request.file.content) = none →
    ∀ (j : Nat) (tx : Tx), s.txs[j]? = some tx → tx.inFlight = false
  | _ => True

/-- Every transaction has ended. -/
def Finished (s : St) : Prop := ∀ tx ∈ s.txs, tx.finished = true

-- ---------------------------------------------------------------------------
-- The file of every request
-- ---------------------------------------------------------------------------

/-- The requests stay, and the file of each that has stored one is on the disk. -/
structure Sound (config : IngestionConfig) (requests : List Request) (s : St) : Prop where
  requests : s.txs.map Tx.request = requests
  files : ∀ (i : Nat) (tx : Tx), s.txs[i]? = some tx → tx.hasStored = true →
    ⟨storedPath config tx.request.draw.dealId tx.request.file.name, tx.request.file.content⟩ ∈
      s.world.disk.files

section
variable [Runtime] {config : IngestionConfig} {validatePdf : PdfValidator} {tenantId : Uuid}
  {w : World} {requests : List Request} {content : Bytes} {s t : St} {a : Act} {i : Nat}
  {old new : Tx} {w' : World}

theorem Storm.path_ne (h : Storm config validatePdf tenantId content w requests) {j : Nat}
    {r r' : Request} (hr : requests[i]? = some r) (hr' : requests[j]? = some r') (hne : i ≠ j) :
    storedPath config r.draw.dealId r.file.name ≠ storedPath config r'.draw.dealId r'.file.name := by
  have hid : r.draw.dealId ≠ r'.draw.dealId := by
    obtain ⟨hi, rfl⟩ := List.getElem?_eq_some_iff.mp hr
    obtain ⟨hj, rfl⟩ := List.getElem?_eq_some_iff.mp hr'
    have hpairs := List.pairwise_iff_getElem.mp h.distinct
    rcases Nat.lt_or_gt_of_ne hne with hlt | hlt
    · exact hpairs i j hi hj hlt
    · exact (hpairs j i hj hi hlt).symm
  exact storedPath_ne (h.valid r (List.mem_of_getElem? hr)).uuid
    (h.valid r' (List.mem_of_getElem? hr')).uuid hid _ _

theorem Move.request (h : Move config validatePdf tenantId s i a old new w') :
    new.request = old.request := by
  cases h <;> rfl

theorem Move.running (h : Move config validatePdf tenantId s i a old new w') :
    old.finished = false := by
  cases h <;> rfl

/-- A statement leaves the files alone, or stores the one of its request. -/
theorem Move.files (h : Move config validatePdf tenantId s i a old new w') :
    (w'.disk.files = s.world.disk.files ∧ (new.hasStored = true → old.hasStored = true)) ∨
    w'.disk.files =
      s.world.disk.files.filter (fun f =>
        f.path ≠ storedPath config old.request.draw.dealId old.request.file.name) ++
      [⟨storedPath config old.request.draw.dealId old.request.file.name,
        old.request.file.content⟩] := by
  cases h with
  | stored => exact .inr rfl
  | _ => exact .inl ⟨rfl, fun h => h⟩

omit [Runtime] in
theorem Sound.request (h : Sound config requests s) {tx : Tx} (htx : s.txs[i]? = some tx) :
    requests[i]? = some tx.request := by
  rw [← h.requests, List.getElem?_map, htx]
  rfl

theorem Sound.keep (h : Sound config requests s)
    (hstorm : Storm config validatePdf tenantId content w requests)
    (hstep : step config validatePdf tenantId s a = some t) : Sound config requests t := by
  obtain ⟨i, old, new, w', hold, hmove, rfl⟩ := step_move hstep
  have hrequests : (s.txs.set i new).map Tx.request = requests := by
    have hi := h.request hold
    obtain ⟨hlt, heq⟩ := List.getElem?_eq_some_iff.mp hi
    rw [List.map_set, h.requests, hmove.request, ← heq, List.set_getElem_self]
  refine ⟨hrequests, fun j tx hj hhas => ?_⟩
  rw [Run.getElem?_set_of_some hold] at hj
  rcases hmove.files with ⟨hsame, himp⟩ | hput
  · show _ ∈ w'.disk.files
    rw [hsame]
    split at hj
    · cases hj
      rw [hmove.request]
      exact h.files i old hold (himp hhas)
    · exact h.files j tx hj hhas
  · show _ ∈ w'.disk.files
    rw [hput, List.mem_append]
    split at hj
    · cases hj
      rw [hmove.request]
      exact .inr (List.mem_singleton_self _)
    · rename_i hne
      have hpath := hstorm.path_ne (h.request hj) (h.request hold) hne
      exact .inl (List.mem_filter.mpr ⟨h.files j tx hj hhas, by simpa using hpath⟩)

end

-- ---------------------------------------------------------------------------
-- One request leads
-- ---------------------------------------------------------------------------

/-- How far the first request that missed has come, and the world then. -/
inductive Stage (config : IngestionConfig) (tenantId : Uuid) (w : World) : Tx → World → Prop where
  | missed (request : Request) : Stage config tenantId w (.missed request) w
  | stored (request : Request) :
    Stage config tenantId w (.stored request) (storedBy config request w)
  | inserted (request : Request) (deal : Deal) (h : rowOf config tenantId request = some deal) :
    Stage config tenantId w (.inserted request deal) (storedBy config request w)
  | audited (request : Request) (deal : Deal) (h : rowOf config tenantId request = some deal) :
    Stage config tenantId w (.audited request deal) (storedBy config request w)
  | enqueued (request : Request) (deal : Deal) (h : rowOf config tenantId request = some deal) :
    Stage config tenantId w (.enqueued request deal (some (job request.draw tenantId)))
      (storedBy config request w)
  | committed (request : Request) (deal : Deal) (h : rowOf config tenantId request = some deal) :
    Stage config tenantId w (.answered request (uploadedResult request.draw.dealId))
      (commitWorld tenantId request deal (some (job request.draw tenantId))
        (storedBy config request w))

/-- Nothing has happened yet. -/
def Idle (w : World) (s : St) : Prop := s.world = w ∧ ∀ tx ∈ s.txs, ∃ request, tx = .begun request

/-- Only the request `k` has missed, and the others have not asked or have found its deal. -/
structure Led (config : IngestionConfig) (tenantId : Uuid) (w : World) (s : St) (k : Nat)
    (lead : Tx) : Prop where
  leader : s.txs[k]? = some lead
  stage : Stage config tenantId w lead s.world
  others : ∀ (j : Nat) (tx : Tx), s.txs[j]? = some tx → j ≠ k →
    (∃ request, tx = .begun request) ∨
    (lead.inFlight = false ∧ ∃ request result, tx = .answered request result ∧
      result.isDuplicate = true ∧ result.dealId = lead.request.draw.dealId)

structure Inv (config : IngestionConfig) (tenantId : Uuid) (w : World) (requests : List Request)
    (s : St) : Prop where
  sound : Sound config requests s
  progress : Idle w s ∨ ∃ k lead, Led config tenantId w s k lead

/-- Past a duplicate check that found nothing. -/
def Tx.engaged (tx : Tx) : Bool := tx.inFlight || tx.hasStored

/-- Two requests have missed. -/
structure Bad (config : IngestionConfig) (requests : List Request) (s : St) : Prop where
  sound : Sound config requests s
  two : ∃ (i j : Nat) (tx tx' : Tx), i ≠ j ∧ s.txs[i]? = some tx ∧ s.txs[j]? = some tx' ∧
    tx.engaged = true ∧ tx'.engaged = true

section
variable [Runtime] {config : IngestionConfig} {validatePdf : PdfValidator} {tenantId : Uuid}
  {w : World} {requests : List Request} {content : Bytes} {s t : St} {a : Act} {i k : Nat}
  {old new lead : Tx} {w' : World}

omit [Runtime] in
theorem Stage.db (h : Stage config tenantId w lead w') (hflight : lead.inFlight = true) :
    w'.db = w.db := by
  cases h with
  | committed => cases hflight
  | _ => rfl

omit [Runtime] in
theorem Stage.inFlight_or_finished (h : Stage config tenantId w lead w') :
    lead.inFlight = true ∨ lead.finished = true := by
  cases h with
  | committed => exact .inr rfl
  | _ => exact .inl rfl

/-- While the first request is in flight, nobody finds the document. -/
theorem Stage.not_found (hstorm : Storm config validatePdf tenantId content w requests)
    (h : Stage config tenantId w lead w') (hflight : lead.inFlight = true) :
    w'.db.tables.dealByHash tenantId (Hashlib.sha256 content) = none := by
  rw [h.db hflight]
  exact hstorm.new

/-- Once it has committed, everybody does. -/
theorem Stage.found (hstorm : Storm config validatePdf tenantId content w requests)
    (hvalid : Valid config validatePdf tenantId content w lead.request)
    (h : Stage config tenantId w lead w') (hflight : lead.inFlight = false) :
    ∃ deal, rowOf config tenantId lead.request = some deal ∧
      w' = commitWorld tenantId lead.request deal (some (job lead.request.draw tenantId))
        (storedBy config lead.request w) ∧
      lead = .answered lead.request (uploadedResult lead.request.draw.dealId) ∧
      w'.db.tables.dealByHash tenantId (Hashlib.sha256 content) = some deal := by
  cases h with
  | committed request deal hrow =>
    refine ⟨deal, hrow, rfl, rfl, ?_⟩
    obtain ⟨-, htenant, hhash, -⟩ := dealRow_eq_some hrow
    have hcontent : deal.contentHash = Hashlib.sha256 content := by
      rw [hhash]
      exact congrArg Hashlib.sha256 hvalid.content
    have hnew := hstorm.new
    unfold DealDb.dealByHash at hnew ⊢
    show List.find? _ (w.db.tables.deals ++ [deal]) = some deal
    rw [List.find?_append, hnew]
    simp [htenant, hcontent]
  | _ => cases hflight

/-- The leader's own statements. -/
theorem Stage.move (hstorm : Storm config validatePdf tenantId content w requests)
    (hvalid : Valid config validatePdf tenantId content w old.request)
    (h : Stage config tenantId w old s.world)
    (hmove : Move config validatePdf tenantId s i a old new w') : Stage config tenantId w new w' := by
  have hfresh := hvalid.fresh
  generalize hworld : s.world = v at h
  cases hmove with
  | rejected => cases h
  | duplicate => cases h
  | missed => cases h
  | unwritable hname =>
    have hok := hvalid.name
    simp only [Tx.request, hname] at hok
    cases hok
  | stored =>
    cases h
    rw [hworld]
    exact .stored _
  | rowRefused hrow =>
    have hok := hvalid.row
    simp only [Tx.request, hrow] at hok
    cases hok
  | @violated request deal hrow _ hnone =>
    cases h
    have hnew : w.db.tables.dealByHash tenantId (Hashlib.sha256 request.file.content) = none :=
      (congrArg (fun c => w.db.tables.dealByHash tenantId (Hashlib.sha256 c)) hvalid.content).trans
        hstorm.new
    have hinsert := insertDeal_run hrow hfresh hnew
    have hsame : s.world.db.tables = w.db.tables := by rw [hworld]; rfl
    rw [hsame, hinsert] at hnone
    cases hnone
  | inserted hrow =>
    cases h
    rw [hworld]
    exact .inserted _ _ hrow
  | audited =>
    cases h
    rw [hworld]
    exact .audited _ _ ‹_›
  | @hit request deal existing hhit =>
    cases h
    have hsame : s.world.db.jobs = w.db.jobs := by rw [hworld]; rfl
    rw [hsame] at hhit
    have hkey := List.find?_some hhit
    have hne := hfresh.key existing (List.mem_of_find?_eq_some hhit)
    simp only [Tx.request] at hne
    simp [hne] at hkey
  | @jobRefused request deal hnone =>
    cases h
    have hsame : s.world.db.jobs = w.db.jobs := by rw [hworld]; rfl
    have hfree : Queue.find s.world.db.jobs request.draw.jobId = none := by
      rw [hsame]
      exact Table.lookup_eq_none.mpr hfresh.jobId
    have hinsert : World.insertJob (job request.draw tenantId) s.world = some _ :=
      if_pos (Option.isNone_iff_eq_none.mpr hfree)
    cases hinsert.symm.trans hnone
  | enqueued =>
    cases h
    rw [hworld]
    exact .enqueued _ _ ‹_›
  | committed =>
    cases h
    rw [hworld]
    exact .committed _ _ ‹_›

omit [Runtime] in
theorem Led.at_k {j : Nat} {tx : Tx} (h : Led config tenantId w s k lead) (hj : s.txs[j]? = some tx) :
    (j = k ∧ tx = lead) ∨ j ≠ k := by
  by_cases hjk : j = k
  · subst hjk
    exact .inl ⟨rfl, Option.some.inj (hj.symm.trans h.leader)⟩
  · exact .inr hjk

/-- A request that begins is not rejected. -/
theorem Valid.not_rejected {request : Request} {e : UploadExn}
    (h : Valid config validatePdf tenantId content w request) :
    screen config validatePdf request.file ≠ .error e := by
  rw [h.screened]
  nofun

/-- The first request misses. -/
theorem Idle.keep (hstorm : Storm config validatePdf tenantId content w requests)
    (hsound : Sound config requests s) (h : Idle w s) (hold : s.txs[i]? = some old)
    (hmove : Move config validatePdf tenantId s i a old new w') :
    Led config tenantId w ⟨w', s.txs.set i new⟩ i new := by
  obtain ⟨hworld, hbegun⟩ := h
  obtain ⟨request, rfl⟩ := hbegun old (List.mem_of_getElem? hold)
  have hvalid := hstorm.valid _ (List.mem_of_getElem? (hsound.request hold))
  have hnew : s.world.db.tables.dealByHash tenantId (Hashlib.sha256 request.file.content) = none := by
    rw [hworld]
    exact (congrArg (fun c => w.db.tables.dealByHash tenantId (Hashlib.sha256 c))
      hvalid.content).trans hstorm.new
  have hat : ∀ {tx : Tx} (j : Nat), (s.txs.set i tx)[j]? = if j = i then some tx else s.txs[j]? :=
    fun j => Run.getElem?_set_of_some hold
  cases hmove with
  | rejected he => exact absurd he hvalid.not_rejected
  | duplicate hdup =>
    rw [hnew] at hdup
    cases hdup
  | missed =>
    refine ⟨(hat i).trans (if_pos rfl), hworld ▸ .missed request, fun j tx hj hne => .inl ?_⟩
    rw [hat j, if_neg hne] at hj
    exact hbegun tx (List.mem_of_getElem? hj)

/-- Only the leader misses, when each check that misses is alone. -/
theorem Led.keep (hstorm : Storm config validatePdf tenantId content w requests)
    (hsound : Sound config requests s) (h : Led config tenantId w s k lead)
    (hok : ChecksAlone tenantId s a) (hold : s.txs[i]? = some old)
    (hmove : Move config validatePdf tenantId s i a old new w') :
    ∃ lead', Led config tenantId w ⟨w', s.txs.set i new⟩ k lead' := by
  have hvalid : ∀ {j : Nat} {tx : Tx}, s.txs[j]? = some tx →
      Valid config validatePdf tenantId content w tx.request :=
    fun hj => hstorm.valid _ (List.mem_of_getElem? (hsound.request hj))
  have hat : ∀ {tx : Tx} (j : Nat), (s.txs.set i tx)[j]? = if j = i then some tx else s.txs[j]? :=
    fun j => Run.getElem?_set_of_some hold
  rcases h.at_k hold with ⟨rfl, rfl⟩ | hne
  · -- the leader's own statement; it has not committed, so the others have not asked
    have hflight : old.inFlight = true := by
      refine h.stage.inFlight_or_finished.resolve_right fun hfinished => ?_
      rw [hmove.running] at hfinished
      cases hfinished
    refine ⟨new, (hat i).trans (if_pos rfl), h.stage.move hstorm (hvalid hold) hmove,
      fun j tx hj hji => ?_⟩
    rw [hat j, if_neg hji] at hj
    refine (h.others j tx hj hji).imp id fun hdone => ?_
    rw [hflight] at hdone
    cases hdone.1
  · have hothers : ∀ (j : Nat) (tx : Tx), (s.txs.set i new)[j]? = some tx → j ≠ k → j ≠ i →
        (∃ request, tx = .begun request) ∨
        (lead.inFlight = false ∧ ∃ request result, tx = .answered request result ∧
          result.isDuplicate = true ∧ result.dealId = lead.request.draw.dealId) := by
      intro j tx hj hjk hji
      rw [hat j, if_neg hji] at hj
      exact h.others j tx hj hjk
    have hlead : (s.txs.set i new)[k]? = some lead := by
      rw [hat k, if_neg (Ne.symm hne)]
      exact h.leader
    rcases h.others i old hold hne with ⟨request, rfl⟩ | ⟨-, _, _, rfl, -⟩
    · have hcontent : Hashlib.sha256 request.file.content = Hashlib.sha256 content :=
        congrArg Hashlib.sha256 (hvalid hold).content
      cases hflight : lead.inFlight with
      | true =>
        have hnone := h.stage.not_found hstorm hflight
        cases hmove with
        | rejected he => exact absurd he (hvalid hold).not_rejected
        | duplicate hdup =>
          rw [hcontent, hnone] at hdup
          cases hdup
        | missed hmiss =>
          have halone := hok request hold hmiss k lead h.leader
          rw [hflight] at halone
          cases halone
      | false =>
        obtain ⟨deal, hrow, -, -, hfound⟩ := h.stage.found hstorm (hvalid h.leader) hflight
        cases hmove with
        | rejected he => exact absurd he (hvalid hold).not_rejected
        | missed hmiss =>
          rw [hcontent, hfound] at hmiss
          cases hmiss
        | duplicate hdup =>
          rw [hcontent, hfound] at hdup
          cases hdup
          refine ⟨lead, hlead, h.stage, fun j tx hj hjk => ?_⟩
          by_cases hji : j = i
          · subst hji
            rw [hat j, if_pos rfl] at hj
            cases hj
            exact .inr ⟨hflight, request, _, rfl, rfl, (dealRow_eq_some hrow).1⟩
          · exact hothers j tx hj hjk hji
    · exact absurd hmove.running nofun

/-- What a check that is not alone leads to. -/
theorem Inv.leave (h : Inv config tenantId w requests s)
    (hstorm : Storm config validatePdf tenantId content w requests)
    (hok : ¬ ChecksAlone tenantId s a) (hstep : step config validatePdf tenantId s a = some t) :
    Bad config requests t := by
  refine ⟨h.sound.keep hstorm hstep, ?_⟩
  cases a with
  | select i =>
    simp only [ChecksAlone, not_forall] at hok
    obtain ⟨request, hi, hmiss, j, tx, hj, hflight⟩ := hok
    have hne : i ≠ j := by
      rintro rfl
      cases hi.symm.trans hj
      exact hflight rfl
    obtain ⟨i', old, new, w', hold, hmove, rfl⟩ := step_move hstep
    cases hmove with
    | @rejected request' e he =>
      exact absurd he (hstorm.valid _ (List.mem_of_getElem? (h.sound.request hold))).not_rejected
    | duplicate hdup =>
      cases hi.symm.trans hold
      rw [hmiss] at hdup
      cases hdup
    | @missed request' _ =>
      have hat : ∀ j, (s.txs.set i (.missed request'))[j]? =
          if j = i then some (.missed request') else s.txs[j]? :=
        fun j => Run.getElem?_set_of_some hold
      refine ⟨i, j, .missed request', tx, hne, (hat i).trans (if_pos rfl),
        ((hat j).trans (if_neg hne.symm)).trans hj, rfl, ?_⟩
      rw [Tx.engaged, (Bool.not_eq_false _).mp hflight, Bool.true_or]
  | _ => exact absurd trivial hok

/-- Whoever has missed stays among those that have. -/
theorem Move.engaged (h : Move config validatePdf tenantId s i a old new w')
    (hvalid : Valid config validatePdf tenantId content w old.request)
    (hengaged : old.engaged = true) : new.engaged = true := by
  cases h with
  | unwritable hname =>
    have hok := hvalid.name
    simp only [Tx.request, hname] at hok
    cases hok
  | rejected => cases hengaged
  | duplicate => cases hengaged
  | _ => rfl

theorem Bad.stays (h : Bad config requests s)
    (hstorm : Storm config validatePdf tenantId content w requests)
    (hstep : step config validatePdf tenantId s a = some t) : Bad config requests t := by
  refine ⟨h.sound.keep hstorm hstep, ?_⟩
  obtain ⟨j, k, tx, tx', hne, hj, hk, hengaged, hengaged'⟩ := h.two
  obtain ⟨i, old, new, w', hold, hmove, rfl⟩ := step_move hstep
  have hstays : ∀ {l : Nat} {u : Tx}, s.txs[l]? = some u → u.engaged = true →
      ∃ u', (s.txs.set i new)[l]? = some u' ∧ u'.engaged = true := by
    intro l u hl hu
    rw [Run.getElem?_set_of_some hold]
    by_cases hli : l = i
    · subst hli
      cases hl.symm.trans hold
      exact ⟨new, if_pos rfl, hmove.engaged
        (hstorm.valid _ (List.mem_of_getElem? (h.sound.request hold))) hu⟩
    · exact ⟨u, (if_neg hli).trans hl, hu⟩
  obtain ⟨u, hu, hue⟩ := hstays hj hengaged
  obtain ⟨u', hu', hue'⟩ := hstays hk hengaged'
  exact ⟨j, k, u, u', hne, hu, hu', hue, hue'⟩

omit [Runtime] in
theorem inv_init (w : World) (requests : List Request) :
    Inv config tenantId w requests (init w requests) := by
  have hbegun : ∀ tx ∈ (init w requests).txs, ∃ request, tx = .begun request := by
    intro tx htx
    obtain ⟨request, -, rfl⟩ := List.mem_map.mp htx
    exact ⟨request, rfl⟩
  refine ⟨⟨?_, fun i tx hi hhas => ?_⟩, .inl ⟨rfl, hbegun⟩⟩
  · simp [init, Function.comp_def, Tx.request]
  · obtain ⟨request, rfl⟩ := hbegun tx (List.mem_of_getElem? hi)
    cases hhas

theorem Inv.keep (h : Inv config tenantId w requests s)
    (hstorm : Storm config validatePdf tenantId content w requests)
    (hok : ChecksAlone tenantId s a) (hstep : step config validatePdf tenantId s a = some t) :
    Inv config tenantId w requests t := by
  refine ⟨h.sound.keep hstorm hstep, .inr ?_⟩
  obtain ⟨i, old, new, w', hold, hmove, rfl⟩ := step_move hstep
  rcases h.progress with hidle | ⟨k, lead, hled⟩
  · exact ⟨i, new, hidle.keep hstorm h.sound hold hmove⟩
  · exact ⟨k, hled.keep hstorm h.sound hok hold hmove⟩

-- ---------------------------------------------------------------------------
-- When all have ended
-- ---------------------------------------------------------------------------

/-- Two requests that have missed have stored two files. -/
theorem Bad.not_deduplicated (h : Bad config requests s)
    (hstorm : Storm config validatePdf tenantId content w requests) (hfinished : Finished s) :
    ¬ Deduplicated tenantId content w s := by
  intro hdedup
  obtain ⟨i, j, tx, tx', hne, hi, hj, hengaged, hengaged'⟩ := h.two
  have hnewFile : ∀ {l : Nat} {u : Tx}, s.txs[l]? = some u → u.engaged = true →
      (⟨storedPath config u.request.draw.dealId u.request.file.name, u.request.file.content⟩ :
        StoredFile) ∈ s.world.disk.files.filter
          fun f => f.content = content ∧ f ∉ w.disk.files := by
    intro l u hl hu
    have hvalid := hstorm.valid _ (List.mem_of_getElem? (h.sound.request hl))
    have hhas : u.hasStored = true := by
      have hend := hfinished u (List.mem_of_getElem? hl)
      cases u <;> first | exact hu | cases hend
    have hold : (⟨storedPath config u.request.draw.dealId u.request.file.name,
        u.request.file.content⟩ : StoredFile) ∉ w.disk.files :=
      fun hmem => hvalid.fresh.file _ hmem (storedPath_under config _ _)
    exact List.mem_filter.mpr ⟨h.sound.files l u hl hhas, decide_eq_true ⟨hvalid.content, hold⟩⟩
  obtain ⟨f, hf⟩ := List.length_eq_one_iff.mp hdedup.oneFile
  have hfile := hnewFile hi hengaged
  have hfile' := hnewFile hj hengaged'
  rw [hf, List.mem_singleton] at hfile hfile'
  exact hstorm.path_ne (h.sound.request hi) (h.sound.request hj) hne
    (congrArg StoredFile.path (hfile.trans hfile'.symm))

omit [Runtime] in
theorem filter_snoc {α : Type} {xs : List α} {x : α} {p : α → Bool} (hxs : ∀ y ∈ xs, p y = false)
    (hx : p x = true) : (xs ++ [x]).filter p = [x] := by
  have hnone : xs.filter p = [] := List.filter_eq_nil_iff.mpr fun y hy => by simp [hxs y hy]
  simp [hnone, hx]

/-- The leader has committed, and the others have found its deal. -/
theorem Led.deduplicated (hstorm : Storm config validatePdf tenantId content w requests)
    (hsound : Sound config requests s) (h : Led config tenantId w s k lead)
    (hfinished : Finished s) : Deduplicated tenantId content w s := by
  have hvalid := hstorm.valid _ (List.mem_of_getElem? (hsound.request h.leader))
  have hflight : lead.inFlight = false := by
    have hend := hfinished lead (List.mem_of_getElem? h.leader)
    cases lead <;> first | rfl | cases hend
  obtain ⟨deal, hrow, hworld, hlead, hfound⟩ := h.stage.found hstorm hvalid hflight
  obtain ⟨hid, htenant, hhash, -⟩ := dealRow_eq_some hrow
  have hcontent : Hashlib.sha256 lead.request.file.content = Hashlib.sha256 content :=
    congrArg Hashlib.sha256 hvalid.content
  have hanswered : ∀ (j : Nat) (tx : Tx), s.txs[j]? = some tx → j ≠ k →
      ∃ request result, tx = .answered request result ∧ result.isDuplicate = true ∧
        result.dealId = lead.request.draw.dealId := by
    intro j tx hj hne
    rcases h.others j tx hj hne with ⟨request, rfl⟩ | ⟨-, hanswer⟩
    · cases hfinished _ (List.mem_of_getElem? hj)
    · exact hanswer
  have hdeals : dealsFor tenantId content s.world = [deal] := by
    have hold : ∀ d ∈ w.db.tables.deals, decide (d.tenantId = tenantId ∧
        d.contentHash = Hashlib.sha256 content) = false := by
      simpa using List.find?_eq_none.mp hstorm.new
    rw [hworld]
    exact filter_snoc hold (decide_eq_true ⟨htenant, hhash.trans hcontent⟩)
  have hids : (dealsFor tenantId content s.world).map Deal.id = [lead.request.draw.dealId] := by
    rw [hdeals, List.map_singleton, hid]
  refine ⟨⟨lead.request.draw.dealId, fun tx htx => ?_⟩, ?_, by rw [hdeals]; rfl, ?_, ?_, ?_⟩
  · obtain ⟨j, hj⟩ := List.mem_iff_getElem?.mp htx
    rcases h.at_k hj with ⟨-, rfl⟩ | hne
    · exact ⟨_, _, hlead, rfl⟩
    · obtain ⟨request, result, htx, -, hdeal⟩ := hanswered j tx hj hne
      exact ⟨request, result, htx, hdeal⟩
  · refine Run.length_filter_eq_one h.leader (by rw [hlead]; rfl) fun j tx hj hne => ?_
    obtain ⟨request, result, rfl, hdup, -⟩ := hanswered j tx hj hne
    simp [Tx.answeredNew, hdup]
  · rw [hids, hworld]
    refine congrArg List.length (filter_snoc (fun entry hentry => ?_) (by simp [uploadAudit]))
    simpa using fun _ => hvalid.fresh.audit entry hentry
  · rw [hids, hworld]
    refine congrArg List.length (filter_snoc (fun j hj => ?_) (by simp [job]))
    simpa using fun _ => hvalid.fresh.job j hj
  · rw [hworld]
    refine congrArg List.length (filter_snoc (fun f hf => ?_) ?_)
    · exact decide_eq_false fun hnew => hnew.2 (List.mem_filter.mp hf).1
    · refine decide_eq_true ⟨hvalid.content, fun hmem => ?_⟩
      exact hvalid.fresh.file _ hmem (storedPath_under config _ _)

/-- Concurrent uploads of one document end with one deal, one audit row, one job and
    one file, known to all of them, exactly when no duplicate check misses while
    another request is in flight. -/
theorem deduplicated_iff {as : List Act}
    (hstorm : Storm config validatePdf tenantId content w requests) (hsome : requests ≠ [])
    (hrun : Run.exec (step config validatePdf tenantId) (init w requests) as = some t)
    (hfinished : Finished t) :
    Deduplicated tenantId content w t ↔
      Run.Guarded (step config validatePdf tenantId) (ChecksAlone tenantId) (init w requests) as := by
  rcases Run.guarded_or_bad (Inv config tenantId w requests) (Bad config requests)
    (fun h hok hstep => h.keep hstorm hok hstep) (fun h hok hstep => h.leave hstorm hok hstep)
    (fun h hstep => h.stays hstorm hstep) (inv_init w requests) hrun with
    ⟨hguarded, hinv⟩ | ⟨hunguarded, hbad⟩
  · refine iff_of_true ?_ hguarded
    rcases hinv.progress with ⟨-, hbegun⟩ | ⟨k, lead, hled⟩
    · have hnone : t.txs = [] := by
        refine List.eq_nil_iff_forall_not_mem.mpr fun tx htx => ?_
        obtain ⟨request, rfl⟩ := hbegun tx htx
        cases hfinished _ htx
      have hempty := hinv.sound.requests
      rw [hnone] at hempty
      exact absurd hempty.symm hsome
    · exact hled.deduplicated hstorm hinv.sound hfinished
  · exact iff_of_false (hbad.not_deduplicated hstorm hfinished) hunguarded

end

-- ---------------------------------------------------------------------------
-- Two requests
-- ---------------------------------------------------------------------------

def sampleRequests : List Request :=
  [⟨sampleDraw, sampleFile⟩, ⟨⟨3, "b", 0⟩, sampleFile⟩]

def sampleInit : St := init emptyWorld sampleRequests

/-- The statements of a request that misses. -/
def statements (i : Nat) : List Act :=
  [.select i, .store i, .insertDeal i, .insertAudit i, .insertJob i, .commit i]

def sampleStep : St → Act → Option St := @step asciiRuntime sampleConfig .ok 2

theorem storm_sample :
    letI := asciiRuntime
    Storm sampleConfig .ok 2 sampleFile.content emptyWorld sampleRequests := by
  have hvalid : ∀ request ∈ sampleRequests, request.file = sampleFile ∧
      sampleConfig.acceptsName
        (storedPath sampleConfig request.draw.dealId request.file.name).name = true ∧
      (rowOf sampleConfig 2 request).isSome = true ∧ request.draw.dealId < 2 ^ 128 := by
    decide +kernel
  refine @Storm.mk asciiRuntime _ _ _ _ _ _ rfl (fun request hmem => ?_) (by decide)
  obtain ⟨hfile, hname, hrow, huuid⟩ := hvalid request hmem
  have hscreen : @screen asciiRuntime sampleConfig .ok sampleFile = .ok () := by decide +kernel
  exact @Valid.mk asciiRuntime _ _ _ _ _ _ (congrArg UploadFile.content hfile)
    (hfile.symm ▸ hscreen) hname hrow (fresh_empty _ _) huuid

/-- A computation that decides `ChecksAlone`. -/
def checksAlone (tenantId : Uuid) (s : St) : Act → Bool
  | .select i =>
    match s.txs[i]? with
    | some (.begun request) =>
      (s.world.db.tables.dealByHash tenantId (Hashlib.sha256 request.file.content)).isSome ||
        s.txs.all fun tx => !tx.inFlight
    | _ => true
  | _ => true

theorem checksAlone_sound (tenantId : Uuid) (s : St) (a : Act)
    (h : checksAlone tenantId s a = true) : ChecksAlone tenantId s a := by
  cases a with
  | select i =>
    intro request hi hmiss j tx hj
    simp only [checksAlone, hi, hmiss, Option.isSome_none, Bool.false_or] at h
    simpa using List.all_eq_true.mp h tx (List.mem_of_getElem? hj)
  | _ => trivial

theorem deduplicated_iff_sample :
    ∃ t, Run.exec sampleStep sampleInit (statements 0 ++ [.select 1]) = some t ∧
      Deduplicated 2 sampleFile.content emptyWorld t := by
  have hrun : (Run.exec sampleStep sampleInit (statements 0 ++ [.select 1])).any
      (fun t => t.txs.all Tx.finished) = true := by
    decide +kernel
  obtain ⟨t, ht, hfinished⟩ := (Option.any_eq_true _ _).mp hrun
  refine ⟨t, ht, (@deduplicated_iff asciiRuntime _ _ _ _ _ _ _ _ storm_sample
    (List.cons_ne_nil _ _) ht (List.all_eq_true.mp hfinished)).mpr ?_⟩
  exact Run.guarded_of_checks _ (checksAlone_sound 2) (by decide +kernel)

/-- Both requests look before either has committed: the second is refused, and its file
    stays. -/
def bothMiss : List Act :=
  [.select 0, .select 1, .store 0, .store 1, .insertDeal 0, .insertAudit 0, .insertJob 0, .commit 0,
    .insertDeal 1]

theorem loser_fails :
    ¬ ∀ (_ : Runtime) (config : IngestionConfig) (validatePdf : PdfValidator) (tenantId : Uuid)
        (content : Bytes) (w : World) (requests : List Request) (as : List Act) (t : St),
      Storm config validatePdf tenantId content w requests → requests ≠ [] →
      Run.exec (step config validatePdf tenantId) (init w requests) as = some t → Finished t →
        Deduplicated tenantId content w t := by
  intro h
  have hrun : (Run.exec sampleStep sampleInit bothMiss).any
      (fun t => t.txs.all Tx.finished &&
        (t.world.disk.files.filter fun f =>
          f.content = sampleFile.content ∧ f ∉ emptyWorld.disk.files).length == 2) = true := by
    decide +kernel
  obtain ⟨t, ht, hfacts⟩ := (Option.any_eq_true _ _).mp hrun
  obtain ⟨hfinished, htwo⟩ := Bool.and_eq_true_iff.mp hfacts
  have hone := (h asciiRuntime sampleConfig .ok 2 sampleFile.content emptyWorld sampleRequests bothMiss
    t storm_sample (List.cons_ne_nil _ _) ht (List.all_eq_true.mp hfinished)).oneFile
  rw [hone] at htwo
  cases htwo

-- ---------------------------------------------------------------------------
-- One request by itself
-- ---------------------------------------------------------------------------

section
variable [Runtime] {config : IngestionConfig} {validatePdf : PdfValidator} {tenantId : Uuid}
  {w : World} {request : Request}

/-- Run without interruption, the statements of a request that misses do what `upload` does. -/
theorem statements_upload
    (hvalid : Valid config validatePdf tenantId request.file.content w request)
    (hnew : w.db.tables.dealByHash tenantId (Hashlib.sha256 request.file.content) = none) :
    ∃ w', upload config validatePdf none request.draw tenantId request.file w =
        (.ok (uploadedResult request.draw.dealId), w') ∧
      Run.exec (step config validatePdf tenantId) (init w [request]) (statements 0) =
        some ⟨w', [.answered request (uploadedResult request.draw.dealId)]⟩ := by
  obtain ⟨deal, hrow⟩ := Option.isSome_iff_exists.mp hvalid.row
  have hfresh := hvalid.fresh
  have hinsert := insertDeal_run hrow hfresh hnew
  have hhit : Queue.idempotentHit w.db.jobs "extraction"
      (some (idempotencyKey request.draw.dealId)) = none := by
    refine List.find?_eq_none.mpr fun j hj => ?_
    have hne := hfresh.key j hj
    simp [hne]
  have hjob : World.insertJob (job request.draw tenantId) (storedBy config request w) =
      some { storedBy config request w with
        db := { w.db with jobs := w.db.jobs ++ [job request.draw tenantId] } } := by
    have hnone : Queue.find w.db.jobs request.draw.jobId = none :=
      Table.lookup_eq_none.mpr hfresh.jobId
    exact if_pos (Option.isNone_iff_eq_none.mpr hnone)
  refine ⟨recorded request.draw tenantId request.file.name request.file.content deal
    (storedBy config request w), ?_, ?_⟩
  · refine upload_returns ?_
    rw [uploadDeal_new hvalid.screened hnew (Option.some_ne_none _).symm, Session.tryCatch,
      ingestNew_run hfresh hnew (fun made h => absurd h.symm (Option.some_ne_none _)) hvalid.name hrow
        (Option.some_ne_none _).symm (fun n => (Option.some_ne_none _).symm)
        (Option.some_ne_none _).symm (Option.some_ne_none _).symm]
    rfl
  let stored := storedBy config request w
  refine Run.exec_cons_eq_some.mpr ⟨⟨w, [.missed request]⟩, ?_, ?_⟩
  · simp [step, init, hvalid.screened, hnew, St.setTx]
  refine Run.exec_cons_eq_some.mpr ⟨⟨stored, [.stored request]⟩, ?_, ?_⟩
  · simp [step, hvalid.name, St.setTx, stored]
  refine Run.exec_cons_eq_some.mpr ⟨⟨stored, [.inserted request deal]⟩, ?_, ?_⟩
  · have hheld : St.heldByOther ⟨stored, [.stored request]⟩ 0 deal = false := rfl
    have hinsert : stored.db.tables.insertDeal deal = _ := hinsert
    have hrow : rowOf config tenantId request = some deal := hrow
    simp [step, hrow, hheld, hinsert, St.setTx]
  refine Run.exec_cons_eq_some.mpr ⟨⟨stored, [.audited request deal]⟩, rfl, ?_⟩
  refine Run.exec_cons_eq_some.mpr
    ⟨⟨stored, [.enqueued request deal (some (job request.draw tenantId))]⟩, ?_, rfl⟩
  have hhit : Queue.idempotentHit stored.db.jobs "extraction"
      (some (idempotencyKey request.draw.dealId)) = none := hhit
  simp [step, hhit, hjob, St.setTx, stored]

/-- So does the one statement of a request that finds its document. -/
theorem statements_duplicate {existing : Deal}
    (hscreen : screen config validatePdf request.file = .ok ())
    (hdup : w.db.tables.dealByHash tenantId (Hashlib.sha256 request.file.content) = some existing) :
    upload config validatePdf none request.draw tenantId request.file w =
        (.ok (duplicateResult existing), w) ∧
      Run.exec (step config validatePdf tenantId) (init w [request]) [.select 0] =
        some ⟨w, [.answered request (duplicateResult existing)]⟩ := by
  refine ⟨upload_returns ?_, Run.exec_cons_eq_some.mpr ⟨_, ?_, rfl⟩⟩
  · have hselect : (none : Option Fault) ≠ some .select := (Option.some_ne_none _).symm
    rw [uploadDeal_screened hscreen]
    simp only [Session.tryCatch, ingestScreened, checkDuplicate, run_bind, strike_run hselect,
      run_select, hdup]
    rfl
  · simp [step, init, hscreen, hdup, St.setTx]

end

end UploadRace
