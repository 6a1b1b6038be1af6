-- SUMMARY: What an extraction commits: the outcome the PDF and the LLM decide, and the exact condition for it to be recorded.
import DealScreening.Services.ExtractionService
import DealScreening.Services.LlmGrammar

/-!
# Outcome of an extraction

An extraction that was loaded and verified ends in one of three ways. It writes
the fields and the deal is EXTRACTED; it marks the deal FAILED, with the fields
it may have read; or a row is refused, and then the handler that should record
the failure meets a transaction that can no longer be flushed.
-/

namespace ExtractionService

open Python Session

-- ---------------------------------------------------------------------------
-- The outcome
-- ---------------------------------------------------------------------------

inductive Outcome where
  | extracted (rows : List ExtractedField) (foundCount : Nat) (overallConfidence : ConfidenceLevel)
  | failed (rows : List ExtractedField) (detail : Str)
  | refused
  deriving DecidableEq

/-- The rows of the fields, if each can be stored. -/
def fieldRows (dealId : Uuid) (extractionRun : Nat) (overall : ConfidenceLevel)
    (fields : List LlmField) : Option (List ExtractedField) :=
  fields.zipIdx.mapM (indexedRow dealId extractionRun overall)

def outcome [Runtime] (world : ExtractionWorld) (deal : Deal) : Outcome :=
  match fetchFields world deal.filePath.val with
  | .error e => .failed [] (failureDetail (.raised e))
  | .ok llmResult =>
    match readFields llmResult with
    | .error e => .failed [] (failureDetail (.raised (.builtin e)))
    | .ok fields =>
      let foundCount := fields.countP LlmField.isFound
      let overall := computeOverallConfidence fields foundCount
      match fieldRows deal.id (deal.retryCount + 1) overall fields with
      | none => .refused
      | some rows =>
        if minFieldsForExtraction ≤ foundCount then .extracted rows foundCount overall
        else .failed rows (tooFewDetail foundCount)

def startedRow (deal : Deal) : DealAuditLog :=
  auditRow deal "EXTRACTION_STARTED" deal.status deal.status none

def extractedChange (deal : Deal) (rows : List ExtractedField) : DealChange :=
  { status := .extracted, retryCount := none, fields := rows, scores := [], decisions := [],
    entries := [startedRow deal, auditRow deal "EXTRACTION_COMPLETED" deal.status .extracted none] }

def failedChange (deal : Deal) (rows : List ExtractedField) (detail : Str) : DealChange :=
  { status := .failed, retryCount := some (deal.retryCount + 1), fields := rows, scores := [],
    decisions := [],
    entries := [startedRow deal,
      auditRow deal "EXTRACTION_FAILED" deal.status .failed (some detail)] }

/-- What an outcome writes, unless it is refused. -/
def Outcome.change (deal : Deal) : Outcome → Option DealChange
  | .extracted rows _ _ => some (extractedChange deal rows)
  | .failed rows detail => some (failedChange deal rows detail)
  | .refused => none

def Outcome.result (deal : Deal) : Outcome → ExtractionResult
  | .extracted _ foundCount overallConfidence =>
    { success := true, dealId := deal.id, fieldsFound := foundCount, overallConfidence,
      error := none }
  | .failed _ detail =>
    { success := false, dealId := deal.id, fieldsFound := 0, overallConfidence := .none,
      error := some detail }
  | .refused =>
    { success := false, dealId := deal.id, fieldsFound := 0, overallConfidence := .none,
      error := none }

-- ---------------------------------------------------------------------------
-- The writes
-- ---------------------------------------------------------------------------

section
variable {db db' : DealDb} {deal : Deal} {entry : DealAuditLog} {id : Uuid}

theorem insertAudit_eq_some : db.insertAudit entry = some db' ↔
    (db.dealById entry.dealId).isSome ∧
      db' = { db with dealAuditLog := db.dealAuditLog ++ [entry] } := by
  unfold DealDb.insertAudit
  split <;> simp [*, eq_comm]

theorem dealById_failed :
    ((db.updateDeal deal.id fun d =>
      { d.setStatus .failed with retryCount := deal.retryCount + 1 }).dealById id).isSome =
      (db.dealById id).isSome :=
  DealDb.dealById_updateDeal fun _ => rfl

theorem fieldRow_dealId {dealId : Uuid} {extractionRun : Nat} {overall : Option ConfidenceLevel}
    {f : LlmField} {row : ExtractedField}
    (h : fieldRow dealId extractionRun overall f = some row) : row.dealId = dealId := by
  obtain ⟨fieldName, -, h⟩ := Option.bind_eq_some_iff.mp h
  obtain ⟨fieldValue, -, h⟩ := Option.bind_eq_some_iff.mp h
  cases h
  rfl

/-- The inserts of the fields of a deal that exists go through when each row can be stored. -/
theorem applyAll_fieldInserts {dealId : Uuid} {extractionRun : Nat} {overall : ConfidenceLevel}
    {fields : List LlmField} (hexists : (db.dealById dealId).isSome) :
    applyAll (fieldInserts dealId extractionRun overall fields) db =
      (fieldRows dealId extractionRun overall fields).map fun rows =>
        { db with extractedFields := db.extractedFields ++ rows } := by
  unfold fieldInserts fieldRows
  generalize fields.zipIdx = fields
  induction fields generalizing db with
  | nil => simp [applyAll]
  | cons field fields ih =>
    rw [List.map_cons, List.mapM_cons, applyAll]
    cases hrow : indexedRow dealId extractionRun overall field with
    | none => rfl
    | some row =>
      have hinsert : db.insertField row =
          some { db with extractedFields := db.extractedFields ++ [row] } :=
        if_pos (by rw [fieldRow_dealId hrow]; exact hexists)
      simp only [Option.bind_some, hinsert]
      rw [@ih { db with extractedFields := db.extractedFields ++ [row] } hexists]
      cases fields.mapM (indexedRow dealId extractionRun overall) <;> simp

/-! ## What is committed -/

theorem markDealFailed_commits {detail : Str} :
    Commits (markDealFailed deal detail) fun db r db' =>
      r = (Outcome.failed [] detail).result deal ∧
        db' = { db.updateDeal deal.id (fun d =>
            { d.setStatus .failed with retryCount := deal.retryCount + 1 }) with
          dealAuditLog := db.dealAuditLog ++
            [auditRow deal "EXTRACTION_FAILED" deal.status .failed (some detail)] } := by
  refine commits_update.bind fun _ => commits_write.bind fun _ => commits_flush.bind fun _ =>
    commits_pure ?_
  rintro d₃ d₂ rfl d₁ haudit d rfl
  exact ⟨rfl, (insertAudit_eq_some.mp haudit).2⟩

/-- What is left to do after the start is logged: the change of the outcome without
    its first audit row. -/
def Settles [Runtime] (world : ExtractionWorld) (deal : Deal) (db : DealDb) (r : ExtractionResult)
    (db' : DealDb) : Prop :=
  ∃ c rest, (outcome world deal).change deal = some c ∧ c.entries = startedRow deal :: rest ∧
    r = (outcome world deal).result deal ∧ db' = db.change deal.id { c with entries := rest }

variable [Runtime] {world : ExtractionWorld}

theorem settles_failed (db : DealDb) (rows : List ExtractedField) {detail : Str}
    (h : outcome world deal = .failed rows detail) :
    Settles world deal db ((Outcome.failed [] detail).result deal)
      { db.updateDeal deal.id (fun d =>
          { d.setStatus .failed with retryCount := deal.retryCount + 1 }) with
        extractedFields := db.extractedFields ++ rows
        dealAuditLog := db.dealAuditLog ++
          [auditRow deal "EXTRACTION_FAILED" deal.status .failed (some detail)] } := by
  refine ⟨failedChange deal rows detail, _, by rw [h]; rfl, rfl, by rw [h]; rfl, ?_⟩
  simp only [DealDb.change, failedChange, List.append_nil]
  rfl

theorem settles_extracted {rows : List ExtractedField} {foundCount : Nat}
    {overall : ConfidenceLevel} (h : outcome world deal = .extracted rows foundCount overall) :
    Settles world deal db ((Outcome.extracted rows foundCount overall).result deal)
      { db.updateDeal deal.id (Deal.setStatus .extracted) with
        extractedFields := db.extractedFields ++ rows
        dealAuditLog := db.dealAuditLog ++
          [auditRow deal "EXTRACTION_COMPLETED" deal.status .extracted none] } := by
  refine ⟨extractedChange deal rows, _, by rw [h]; rfl, rfl, by rw [h], ?_⟩
  simp only [DealDb.change, extractedChange, List.append_nil]
  rfl

/-- The outcome of a response that is read, by its rows. -/
theorem outcome_of_read {llmResult : Json} {fields : List LlmField}
    (hfetch : fetchFields world deal.filePath.val = .ok llmResult)
    (hread : readFields llmResult = .ok fields) :
    outcome world deal =
      match fieldRows deal.id (deal.retryCount + 1)
        (computeOverallConfidence fields (fields.countP LlmField.isFound)) fields with
      | none => .refused
      | some rows =>
        if minFieldsForExtraction ≤ fields.countP LlmField.isFound then
          .extracted rows (fields.countP LlmField.isFound)
            (computeOverallConfidence fields (fields.countP LlmField.isFound))
        else .failed rows (tooFewDetail (fields.countP LlmField.isFound)) := by
  simp only [outcome, hfetch, hread]

theorem processExtractionResult_commits {llmResult : Json}
    (hfetch : fetchFields world deal.filePath.val = .ok llmResult) :
    Commits (processExtractionResult deal llmResult) fun db r db' =>
      (db.dealById deal.id).isSome → Settles world deal db r db' := by
  unfold processExtractionResult
  refine commits_ofExcept.bind fun fields => commits_writeAll.bind fun _ => ?_
  split
  · rename_i hfound
    refine commits_update.bind fun _ => commits_write.bind fun _ => commits_flush.bind fun _ =>
      commits_pure ?_
    rintro _ _ rfl _ haudit _ rfl _ hwrites db ⟨hread, rfl⟩ hexists
    rw [applyAll_fieldInserts hexists] at hwrites
    obtain ⟨rows, hrows, rfl⟩ := Option.map_eq_some_iff.mp hwrites
    obtain ⟨-, rfl⟩ := insertAudit_eq_some.mp haudit
    refine settles_extracted ?_
    rw [outcome_of_read hfetch (Except.mapError_eq_ok.mp hread), hrows]
    exact if_pos hfound
  · rename_i hfound
    refine markDealFailed_commits.weaken ?_
    rintro _ _ _ ⟨rfl, rfl⟩ _ hwrites db ⟨hread, rfl⟩ hexists
    rw [applyAll_fieldInserts hexists] at hwrites
    obtain ⟨rows, hrows, rfl⟩ := Option.map_eq_some_iff.mp hwrites
    refine settles_failed _ rows ?_
    rw [outcome_of_read hfetch (Except.mapError_eq_ok.mp hread), hrows]
    exact if_neg hfound

/-- The body of the `try` raises before it writes anything, or spoils the transaction. -/
theorem extraction_aborts :
    Aborts (do
        let llmResult ← ofExcept (fetchFields world deal.filePath.val)
        processExtractionResult deal llmResult)
      fun (db : DealDb) x db' => db' = db ∧ outcome world deal = .failed [] (failureDetail x) := by
  refine (aborts_ofExcept fun _ e he => ?_).bind commits_ofExcept fun llmResult => ?_
  · exact ⟨rfl, by simp only [outcome, he]⟩
  unfold processExtractionResult
  refine (aborts_ofExcept ?_).bind commits_ofExcept fun fields =>
    aborts_writeAll.bind commits_writeAll fun _ => ?_
  · rintro d e he d₀ ⟨hfetch, rfl⟩
    obtain ⟨e, hread, rfl⟩ := Except.mapError_eq_error.mp he
    exact ⟨rfl, by simp only [outcome, hfetch, hread]⟩
  split
  · exact aborts_update.bind commits_update fun _ => aborts_write.bind commits_write fun _ =>
      aborts_flush.bind commits_flush fun _ => aborts_pure
  · exact aborts_update.bind commits_update fun _ => aborts_write.bind commits_write fun _ =>
      aborts_flush.bind commits_flush fun _ => aborts_pure

/-- An extraction commits the change of its outcome. -/
theorem extractLoaded_commits :
    Commits (extractLoaded world deal) fun db r db' =>
      ∃ c, (outcome world deal).change deal = some c ∧ r = (outcome world deal).result deal ∧
        db' = db.change deal.id c := by
  have hbody : Commits (do
      let llmResult ← ofExcept (fetchFields world deal.filePath.val)
      processExtractionResult deal llmResult) fun db r db' =>
        (db.dealById deal.id).isSome → Settles world deal db r db' := by
    intro s r s' hrun hclean
    cases hfetch : fetchFields world deal.filePath.val with
    | error e => simp [hfetch] at hrun
    | ok llmResult =>
      simp only [hfetch, run_bind, run_ofExcept_ok] at hrun
      exact processExtractionResult_commits hfetch s r s' hrun hclean
  refine commits_write.bind fun _ => (hbody.catch extraction_aborts fun x =>
    markDealFailed_commits.weaken ?_).weaken ?_
  · rintro d _ _ ⟨rfl, rfl⟩ _ ⟨rfl, houtcome⟩ hexists
    have hsettles := settles_failed d [] houtcome
    rw [List.append_nil] at hsettles
    exact hsettles
  · rintro d₁ r db' hsettles db hstarted
    obtain ⟨hexists, rfl⟩ := insertAudit_eq_some.mp hstarted
    obtain ⟨c, rest, hc, hentries, hr, rfl⟩ := hsettles hexists
    refine ⟨c, hc, hr, ?_⟩
    simp only [DealDb.change, hentries, List.append_assoc, List.singleton_append]
    rfl

/-- The transaction of an outcome that is not refused can be committed. -/
def Committable {α : Type} (m : ServiceM α) (db : DealDb) : Prop :=
  ∃ a s, m ⟨db, false, false⟩ = (.ok a, s) ∧ s.Clean

omit [Runtime] in
theorem logAudit_run {action : String} {fromStatus toStatus : DealStatus} {detail : Option Str}
    (hexists : (db.dealById deal.id).isSome) :
    logAudit deal action fromStatus toStatus detail ⟨db, false, false⟩ =
      (.ok (), ⟨{ db with dealAuditLog := db.dealAuditLog ++
        [auditRow deal action fromStatus toStatus detail] }, false, false⟩) :=
  run_write (insertAudit_eq_some.mpr ⟨hexists, rfl⟩)

omit [Runtime] in
theorem markDealFailed_committable {detail : Str} (hexists : (db.dealById deal.id).isSome) :
    Committable (markDealFailed deal detail) db := by
  unfold Committable markDealFailed
  simp only [run_bind, run_update, logAudit_run (dealById_failed.trans hexists), run_flush, run_pure]
  exact ⟨_, _, rfl, rfl, rfl⟩

theorem extractLoaded_committable {c : DealChange} (hexists : (db.dealById deal.id).isSome)
    (hc : (outcome world deal).change deal = some c) :
    Committable (extractLoaded world deal) db := by
  unfold Committable extractLoaded
  simp only [run_bind, logAudit_run hexists, Session.tryCatch]
  generalize hdb : { db with dealAuditLog := db.dealAuditLog ++
    [auditRow deal "EXTRACTION_STARTED" deal.status deal.status none] } = started
  have hexists' : (started.dealById deal.id).isSome := by
    rw [← hdb]
    exact hexists
  clear hdb hexists
  cases hfetch : fetchFields world deal.filePath.val with
  | error e => exact markDealFailed_committable hexists'
  | ok llmResult =>
    simp only [run_ofExcept_ok, processExtractionResult, run_bind]
    cases hread : readFields llmResult with
    | error e => exact markDealFailed_committable hexists'
    | ok fields =>
      simp only [Except.mapError, run_ofExcept_ok]
      rw [outcome_of_read hfetch hread] at hc
      cases hrows : fieldRows deal.id (deal.retryCount + 1)
          (computeOverallConfidence fields (fields.countP LlmField.isFound)) fields with
      | none =>
        rw [hrows] at hc
        cases hc
      | some rows =>
        have hwrites : applyAll (fieldInserts deal.id (deal.retryCount + 1)
            (computeOverallConfidence fields (fields.countP LlmField.isFound)) fields) started =
            some { started with extractedFields := started.extractedFields ++ rows } := by
          rw [applyAll_fieldInserts hexists', hrows]
          rfl
        rw [run_writeAll hwrites]
        generalize hdb : { started with extractedFields := started.extractedFields ++ rows } = written
        have hexists : (written.dealById deal.id).isSome := hdb ▸ hexists'
        simp only []
        by_cases hfound : minFieldsForExtraction ≤ fields.countP LlmField.isFound
        · have hupdated : ((written.updateDeal deal.id (Deal.setStatus .extracted)).dealById
              deal.id).isSome := by
            rw [DealDb.dealById_updateDeal (Deal.setStatus_id .extracted)]
            exact hexists
          rw [if_pos hfound]
          simp only [run_bind, run_update, logAudit_run hupdated, run_flush, run_pure]
          exact ⟨_, _, rfl, rfl, rfl⟩
        · obtain ⟨r, s, hrun, hclean⟩ := markDealFailed_committable hexists
          rw [if_neg hfound, hrun]
          exact ⟨r, s, rfl, hclean⟩

omit [Runtime] in
theorem loadAndVerifyDeal_run {dealId tenantId : Uuid} (hdeal : db.deal dealId tenantId = some deal)
    (hstatus : deal.status = .uploaded ∨ deal.status = .failed) :
    loadAndVerifyDeal dealId tenantId ⟨db, false, false⟩ = (.ok deal, ⟨db, false, false⟩) := by
  have hallowed : ¬ (deal.status ≠ .uploaded ∧ deal.status ≠ .failed) := by tauto
  simp [loadAndVerifyDeal, hdeal, hallowed]

/-- Extraction of a deal that is neither UPLOADED nor FAILED raises. -/
theorem extractDeal_wrong_status {dealId tenantId : Uuid}
    (h : ∀ deal, db.deal dealId tenantId = some deal →
      deal.status ≠ .uploaded ∧ deal.status ≠ .failed) :
    ∃ x, Session.transaction (extractDeal world dealId tenantId) db = (.error x, db) := by
  apply Raises.transaction
  unfold Raises extractDeal loadAndVerifyDeal
  cases hdeal : db.deal dealId tenantId with
  | none => simp [hdeal]
  | some deal => simp [hdeal, h deal hdeal]

/-- The transaction of an extraction commits what its outcome says. -/
theorem extractDeal_ok {dealId tenantId : Uuid} {c : DealChange}
    (hdeal : db.deal dealId tenantId = some deal)
    (hstatus : deal.status = .uploaded ∨ deal.status = .failed)
    (hc : (outcome world deal).change deal = some c) :
    Session.transaction (extractDeal world dealId tenantId) db =
      (.ok ((outcome world deal).result deal), db.change deal.id c) := by
  obtain ⟨r, ⟨view, refused, failed⟩, hrun, rfl, rfl⟩ :=
    extractLoaded_committable (DealDb.dealById_isSome hdeal) hc
  obtain ⟨-, c', hc', rfl, rfl⟩ := extractLoaded_commits _ _ _ hrun ⟨rfl, rfl⟩
  cases hc.symm.trans hc'
  apply transaction_ok
  simp only [extractDeal, run_bind, loadAndVerifyDeal_run hdeal hstatus]
  exact hrun

/-- A refused outcome loses the transaction. -/
theorem extractDeal_refused {dealId tenantId : Uuid} (hdeal : db.deal dealId tenantId = some deal)
    (hstatus : deal.status = .uploaded ∨ deal.status = .failed)
    (hrefused : (outcome world deal).change deal = none) :
    ∃ x, Session.transaction (extractDeal world dealId tenantId) db = (.error x, db) := by
  cases hrun : Session.transaction (extractDeal world dealId tenantId) db with
  | mk r db' =>
    cases r with
    | ok a =>
      have hbody : Session.transaction (extractLoaded world deal) db = (.ok a, db') := by
        rw [← hrun]
        simp only [Session.transaction, extractDeal, run_bind, loadAndVerifyDeal_run hdeal hstatus]
      obtain ⟨c, hc, -⟩ := extractLoaded_commits.transaction hbody
      cases hrefused.symm.trans hc
    | error x =>
      have hback := transaction_rollback (congrArg Prod.fst hrun)
      rw [hrun] at hback
      cases hback
      exact ⟨x, rfl⟩

end

-- ---------------------------------------------------------------------------
-- The response that is received
-- ---------------------------------------------------------------------------

/-- The PDF is read and an attempt, after API errors only, is answered with the
    text of the JSON value. -/
def Received [Runtime] (world : ExtractionWorld) (filePath : Str) (json : Json) : Prop :=
  ∃ rawText attempt raw, world.extractText filePath = .ok rawText ∧ attempt ≤ LlmClient.maxRetries ∧
    (∀ i < attempt, ∃ message, world.reply (world.scrubPii rawText) i = .apiError message) ∧
    world.reply (world.scrubPii rawText) attempt = .content (some raw) ∧ Json.loads raw = .ok json

/-- Each entry of `fields` has null or text that a column can hold for its value. -/
def StorableValues (json : Json) : Prop :=
  ∀ entries items fields, json = .dict entries →
    getItem entries (text "fields") = some (.list items) → .dict fields ∈ items →
    LlmClient.get fields "field_value" = .null ∨
      ∃ s, LlmClient.get fields "field_value" = .str s ∧ Storable s

theorem fetchFields_eq_ok [Runtime] {world : ExtractionWorld} {filePath : Str} {json : Json} :
    fetchFields world filePath = .ok json ↔
      Received world filePath json ∧ LlmClient.Grammar LlmClient.truthy json := by
  constructor
  · intro h
    obtain ⟨rawText, htext, h⟩ := Except.bind_eq_ok.mp h
    obtain ⟨k, hk, herrors, raw, hreply, hraw, hgrammar⟩ := LlmClient.attempts_eq_ok.mp h
    simp only [Nat.zero_add] at herrors hreply
    exact ⟨⟨rawText, k, raw, htext, Nat.le_of_lt_succ hk, herrors, hreply, hraw⟩, hgrammar⟩
  · rintro ⟨⟨rawText, k, raw, htext, hk, herrors, hreply, hraw⟩, hgrammar⟩
    refine Except.bind_eq_ok.mpr ⟨rawText, htext, LlmClient.attempts_eq_ok.mpr
      ⟨k, Nat.lt_succ_of_le hk, ?_, raw, ?_, hraw, hgrammar⟩⟩
    · simpa using herrors
    · simpa using hreply

/-- What the reader makes of an accepted entry. -/
def FieldOf (item : Json) (f : LlmField) : Prop :=
  ∃ fields name, item = .dict fields ∧ name ∈ coreExtractionFields ∧ f.fieldName = text name ∧
    f.fieldValue = LlmClient.get fields "field_value"

theorem getItem_of_get {entries : List (Str × Json)} {key : String} {s : Str}
    (h : LlmClient.get entries key = .str s) : getItem entries (text key) = some (.str s) := by
  unfold LlmClient.get at h
  cases hitem : getItem entries (text key) with
  | none =>
    rw [hitem] at h
    cases h
  | some v =>
    rw [hitem] at h
    exact congrArg some h

theorem readField_entry {item : Json} {name : String}
    (h : LlmClient.Entry LlmClient.truthy item name) :
    ∃ f, readField item = .ok f ∧ FieldOf item f ∧ f.fieldName = text name := by
  obtain ⟨fields, rfl, h⟩ := h
  obtain ⟨status, hstatus, hstatusEq, -⟩ := h.fieldStatus
  obtain ⟨confidence, hconfidence, hconfidenceEq⟩ := h.confidence
  have hstatusValue : ∃ v, FieldExtractionStatus.ofValue (text status) = some v := by
    simp only [LlmClient.validStatuses, List.mem_cons, List.not_mem_nil, or_false] at hstatus
    rcases hstatus with rfl | rfl | rfl <;> exact ⟨_, rfl⟩
  have hconfidenceValue : ∃ v, ConfidenceLevel.ofValue (text confidence) = some v := by
    simp only [LlmClient.validConfidences, List.mem_cons, List.not_mem_nil, or_false] at hconfidence
    rcases hconfidence with rfl | rfl | rfl <;> exact ⟨_, rfl⟩
  obtain ⟨fieldStatus, hfieldStatus⟩ := hstatusValue
  obtain ⟨level, hlevel⟩ := hconfidenceValue
  refine ⟨{ fieldName := text name, fieldValue := LlmClient.get fields "field_value", fieldStatus,
            confidence := level }, ?_, ⟨fields, name, rfl, h.core, rfl, rfl⟩, rfl⟩
  simp only [readField, getItem_of_get h.fieldName, getItem_of_get hstatusEq,
    getItem_of_get hconfidenceEq, hfieldStatus, hlevel]

/-- An accepted response is read, into one field for each of its entries. -/
theorem readFields_grammar {json : Json} (h : LlmClient.Grammar LlmClient.truthy json) :
    ∃ entries items fields, json = .dict entries ∧
      getItem entries (text "fields") = some (.list items) ∧ readFields json = .ok fields ∧
      List.Forall₂ FieldOf items fields ∧
      (fields.map LlmField.fieldName).Perm (coreExtractionFields.map text) := by
  obtain ⟨entries, items, names, rfl, hfields, hall, hperm⟩ := h
  have hread : ∃ fields, items.mapM readField = .ok fields ∧ List.Forall₂ FieldOf items fields ∧
      fields.map LlmField.fieldName = names.map text := by
    clear hfields hperm
    induction hall with
    | nil => exact ⟨[], rfl, .nil, rfl⟩
    | cons hentry _ ih =>
      obtain ⟨f, hf, hof, hname⟩ := readField_entry hentry
      obtain ⟨fields, hfields, hofs, hnames⟩ := ih
      refine ⟨f :: fields, ?_, .cons hof hofs, ?_⟩
      · rw [Except.mapM_eq_ok] at hfields ⊢
        exact .cons hf hfields
      · rw [List.map_cons, List.map_cons, hname, hnames]
  obtain ⟨fields, hread, hof, hnames⟩ := hread
  refine ⟨entries, items, fields, rfl, hfields, ?_, hof, ?_⟩
  · simp only [readFields, hfields, hread]
  · rw [hnames]
    exact hperm.map text

theorem textColumn_isSome {v : Json} :
    (textColumn v).isSome ↔ v = .null ∨ ∃ s, v = .str s ∧ Storable s := by
  cases v with
  | null => simp [textColumn]
  | str s =>
    by_cases hs : Storable s
    · simp [textColumn, PgText.ofStr, hs]
    · simp [textColumn, PgText.ofStr, hs]
  | _ => simp [textColumn]

theorem storable_core {name : String} (h : name ∈ coreExtractionFields) : Storable (text name) := by
  revert name
  decide

theorem indexedRow_isSome {dealId : Uuid} {extractionRun : Nat} {overall : ConfidenceLevel}
    {field : LlmField × Nat} (hname : Storable field.1.fieldName) :
    (indexedRow dealId extractionRun overall field).isSome ↔
      (textColumn field.1.fieldValue).isSome := by
  unfold indexedRow fieldRow PgText.ofStr
  rw [dif_pos hname]
  cases textColumn field.1.fieldValue <;> simp

section
variable [Runtime] {world : ExtractionWorld} {deal : Deal}

omit [Runtime] in
theorem fieldRows_isSome {items : List Json} {fields : List LlmField}
    (hof : List.Forall₂ FieldOf items fields) (dealId : Uuid) (extractionRun : Nat)
    (overall : ConfidenceLevel) :
    (fieldRows dealId extractionRun overall fields).isSome ↔
      ∀ f ∈ fields, (textColumn f.fieldValue).isSome := by
  have hname : ∀ f ∈ fields, Storable f.fieldName := by
    intro f hf
    obtain ⟨_, -, _, name, -, hcore, heq, -⟩ := hof.exists_left hf
    exact heq ▸ storable_core hcore
  have hmem : ∀ field ∈ fields.zipIdx, field.1 ∈ fields := by
    intro field hfield
    rw [← List.zipIdx_map_fst 0 fields]
    exact List.mem_map_of_mem hfield
  unfold fieldRows
  rw [Option.mapM_isSome_iff]
  constructor
  · intro h f hf
    rw [← List.zipIdx_map_fst 0 fields] at hf
    obtain ⟨field, hfield, rfl⟩ := List.mem_map.mp hf
    exact (indexedRow_isSome (hname _ (hmem field hfield))).mp (h field hfield)
  · intro h field hfield
    exact (indexedRow_isSome (hname _ (hmem field hfield))).mpr (h _ (hmem field hfield))

/-- The outcome is refused when a response is accepted that has a value no column can hold. -/
theorem outcome_refused_iff :
    (outcome world deal).change deal = none ↔
      ∃ json, Received world deal.filePath.val json ∧ LlmClient.Grammar LlmClient.truthy json ∧
        ¬ StorableValues json := by
  cases hfetch : fetchFields world deal.filePath.val with
  | error e =>
    have hnone : ¬ ∃ json, Received world deal.filePath.val json ∧
        LlmClient.Grammar LlmClient.truthy json ∧ ¬ StorableValues json := by
      rintro ⟨json, hreceived, hgrammar, -⟩
      cases hfetch.symm.trans (fetchFields_eq_ok.mpr ⟨hreceived, hgrammar⟩)
    simp [outcome, hfetch, Outcome.change, hnone]
  | ok json =>
    obtain ⟨hreceived, hgrammar⟩ := fetchFields_eq_ok.mp hfetch
    obtain ⟨entries, items, fields, rfl, hitems, hread, hof, -⟩ := readFields_grammar hgrammar
    have hstorable : StorableValues (.dict entries) ↔ ∀ f ∈ fields, (textColumn f.fieldValue).isSome := by
      constructor
      · intro h f hf
        obtain ⟨item, hitem, obj, _, rfl, -, -, hvalue⟩ := hof.exists_left hf
        rw [hvalue, textColumn_isSome]
        exact h entries items obj rfl hitems hitem
      · intro h _ _ obj heq hitems' hobj
        cases heq
        cases hitems.symm.trans hitems'
        obtain ⟨f, hf, obj', _, heq, -, -, hvalue⟩ := hof.flip.exists_left hobj
        cases heq
        rw [← textColumn_isSome, ← hvalue]
        exact h f hf
    have honly : (∃ json, Received world deal.filePath.val json ∧
        LlmClient.Grammar LlmClient.truthy json ∧ ¬ StorableValues json) ↔
          ¬ StorableValues (.dict entries) := by
      constructor
      · rintro ⟨json, hreceived', hgrammar', hnot⟩
        cases hfetch.symm.trans (fetchFields_eq_ok.mpr ⟨hreceived', hgrammar'⟩)
        exact hnot
      · exact fun h => ⟨_, hreceived, hgrammar, h⟩
    rw [honly, hstorable, outcome_of_read hfetch hread, ← fieldRows_isSome hof deal.id
      (deal.retryCount + 1) (computeOverallConfidence fields (fields.countP LlmField.isFound))]
    split
    · rename_i hrows
      simp [hrows, Outcome.change]
    · rename_i rows hrows
      rw [hrows]
      split <;> simp [Outcome.change]

omit [Runtime] in
theorem indexedRow_row {dealId : Uuid} {extractionRun : Nat} {overall : ConfidenceLevel}
    {field : LlmField × Nat} {row : ExtractedField}
    (h : indexedRow dealId extractionRun overall field = some row) :
    row.dealId = dealId ∧ row.extractionRun = extractionRun ∧
      row.fieldStatus = field.1.fieldStatus := by
  obtain ⟨fieldName, -, h⟩ := Option.bind_eq_some_iff.mp h
  obtain ⟨fieldValue, -, h⟩ := Option.bind_eq_some_iff.mp h
  cases h
  exact ⟨rfl, rfl, rfl⟩

omit [Runtime] in
theorem indexedRow_confidence {dealId : Uuid} {extractionRun : Nat} {overall : ConfidenceLevel}
    {field : LlmField × Nat} {row : ExtractedField}
    (h : indexedRow dealId extractionRun overall field = some row) :
    row.confidence = field.1.confidence := by
  obtain ⟨fieldName, -, h⟩ := Option.bind_eq_some_iff.mp h
  obtain ⟨fieldValue, -, h⟩ := Option.bind_eq_some_iff.mp h
  cases h
  rfl

/-- FOUND or INFERRED. -/
def rowFound (row : ExtractedField) : Bool :=
  row.fieldStatus = .found || row.fieldStatus = .inferred

omit [Runtime] in
theorem fieldRows_rows {dealId : Uuid} {extractionRun : Nat} {overall : ConfidenceLevel}
    {fields : List LlmField} {rows : List ExtractedField}
    (h : fieldRows dealId extractionRun overall fields = some rows) :
    rows.length = fields.length ∧ rows.countP rowFound = fields.countP LlmField.isFound ∧
      ∀ row ∈ rows, row.dealId = dealId ∧ row.extractionRun = extractionRun := by
  have hrows := Option.mapM_eq_some.mp h
  refine ⟨by rw [← hrows.length_eq, List.length_zipIdx], ?_, fun row hrow => ?_⟩
  · conv_rhs => rw [← List.zipIdx_map_fst 0 fields, List.countP_map]
    refine (hrows.countP_eq fun field row hrow => ?_).symm
    simp only [Function.comp, rowFound, LlmField.isFound, (indexedRow_row hrow).2.2]
  · obtain ⟨field, -, hfield⟩ := hrows.exists_left hrow
    obtain ⟨hdeal, hrun, -⟩ := indexedRow_row hfield
    exact ⟨hdeal, hrun⟩

omit [Runtime] in
theorem fieldRows_names {dealId : Uuid} {extractionRun : Nat} {overall : ConfidenceLevel}
    {fields : List LlmField} {rows : List ExtractedField}
    (h : fieldRows dealId extractionRun overall fields = some rows) :
    rows.map (fun row => row.fieldName.val) = fields.map LlmField.fieldName := by
  have hrows := Option.mapM_eq_some.mp h
  rw [← List.zipIdx_map_fst 0 fields, List.map_map]
  clear h
  generalize fields.zipIdx = indexed at hrows
  induction hrows with
  | nil => rfl
  | cons hrow _ ih =>
    obtain ⟨fieldName, hname, hrow⟩ := Option.bind_eq_some_iff.mp hrow
    obtain ⟨fieldValue, -, hrow⟩ := Option.bind_eq_some_iff.mp hrow
    cases hrow
    rw [List.map_cons, List.map_cons, ih]
    exact congrArg (· :: _) (PgText.ofStr_eq_some.mp hname)

/-- The rows of an outcome belong to the deal and to its next run. -/
theorem outcome_rows {c : DealChange} (h : (outcome world deal).change deal = some c) :
    ∀ row ∈ c.fields, row.dealId = deal.id ∧ row.extractionRun = deal.retryCount + 1 := by
  cases hfetch : fetchFields world deal.filePath.val with
  | error e =>
    simp only [outcome, hfetch, Outcome.change, Option.some.injEq] at h
    subst h
    simp [failedChange]
  | ok json =>
    cases hread : readFields json with
    | error e =>
      simp only [outcome, hfetch, hread, Outcome.change, Option.some.injEq] at h
      subst h
      simp [failedChange]
    | ok fields =>
      rw [outcome_of_read hfetch hread] at h
      split at h
      · cases h
      · rename_i rows hrows
        split at h <;> cases h <;> exact (fieldRows_rows hrows).2.2

/-- An extraction that succeeds has found at least half of the six fields. -/
theorem outcome_extracted {rows : List ExtractedField} {foundCount : Nat}
    {overall : ConfidenceLevel} (h : outcome world deal = .extracted rows foundCount overall) :
    rows.length = coreExtractionFields.length ∧ minFieldsForExtraction ≤ rows.countP rowFound := by
  cases hfetch : fetchFields world deal.filePath.val with
  | error e =>
    simp only [outcome, hfetch] at h
    cases h
  | ok json =>
    obtain ⟨_, _, fields, rfl, -, hread, -, hnames⟩ :=
      readFields_grammar (fetchFields_eq_ok.mp hfetch).2
    have hlength : fields.length = coreExtractionFields.length := by
      simpa using hnames.length_eq
    rw [outcome_of_read hfetch hread] at h
    split at h
    · cases h
    · rename_i rows' hrows
      obtain ⟨hrowsLength, hcount, -⟩ := fieldRows_rows hrows
      split at h
      · rename_i hfound
        cases h
        exact ⟨hrowsLength.trans hlength, hcount ▸ hfound⟩
      · cases h

-- ---------------------------------------------------------------------------
-- The recorded outcome
-- ---------------------------------------------------------------------------

variable {db db' : DealDb} {dealId tenantId : Uuid}

/-- The deal is EXTRACTED, with a new row for each of the six fields, of which three are found. -/
structure RecordedExtracted (db db' : DealDb) (deal : Deal) : Prop where
  row : db'.deal deal.id deal.tenantId = some (deal.setStatus .extracted)
  fields : ∃ rows, db'.extractedFields = db.extractedFields ++ rows ∧
    rows.length = coreExtractionFields.length ∧ (∀ row ∈ rows, row.dealId = deal.id) ∧
    3 ≤ rows.countP rowFound
  audit : ∃ entries, db'.dealAuditLog = db.dealAuditLog ++ entries ∧
    ∃ entry ∈ entries, entry.dealId = deal.id ∧ entry.action = "EXTRACTION_COMPLETED"

/-- The deal is FAILED and was retried once more. -/
structure RecordedFailed (db db' : DealDb) (deal : Deal) : Prop where
  row : db'.deal deal.id deal.tenantId =
    some { deal with status := .failed, retryCount := deal.retryCount + 1 }
  audit : ∃ entries, db'.dealAuditLog = db.dealAuditLog ++ entries ∧
    ∃ entry ∈ entries, entry.dealId = deal.id ∧ entry.action = "EXTRACTION_FAILED"

/-- The transaction commits, and what it commits is one of the two outcomes. -/
def Recorded (world : ExtractionWorld) (db : DealDb) (deal : Deal) : Prop :=
  ∃ result db', Session.transaction (extractDeal world deal.id deal.tenantId) db = (.ok result, db') ∧
    Xor (RecordedExtracted db db' deal) (RecordedFailed db db' deal)

theorem recorded_of_change {c : DealChange} (hdeal : db.deal deal.id deal.tenantId = some deal)
    (hstatus : deal.status = .uploaded ∨ deal.status = .failed)
    (hc : (outcome world deal).change deal = some c) : Recorded world db deal := by
  have hafter : (db.change deal.id c).deal deal.id deal.tenantId = some (c.update deal) := by
    rw [DealDb.deal_change, hdeal]
    simp
  have hfields := outcome_rows hc
  refine ⟨_, _, extractDeal_ok hdeal hstatus hc, ?_⟩
  cases houtcome : outcome world deal with
  | extracted rows foundCount overall =>
    rw [houtcome] at hc
    cases hc
    obtain ⟨hlength, hfound⟩ := outcome_extracted houtcome
    refine .inl ⟨⟨hafter, ⟨rows, rfl, hlength, fun row hrow => (hfields row hrow).1, hfound⟩,
      _, rfl, _, List.mem_cons_of_mem _ (List.mem_singleton_self _), rfl, rfl⟩, fun h => ?_⟩
    cases congrArg (Option.map Deal.status) (hafter.symm.trans h.row)
  | failed rows detail =>
    rw [houtcome] at hc
    cases hc
    refine .inr ⟨⟨hafter, _, rfl, _, List.mem_cons_of_mem _ (List.mem_singleton_self _), rfl, rfl⟩,
      fun h => ?_⟩
    cases congrArg (Option.map Deal.status) (hafter.symm.trans h.row)
  | refused =>
    rw [houtcome] at hc
    cases hc

/-- An extraction is recorded exactly when no response is accepted that has a value
    no text column can hold. -/
theorem extraction_recorded_iff (hdeal : db.deal deal.id deal.tenantId = some deal)
    (hstatus : deal.status = .uploaded ∨ deal.status = .failed) :
    Recorded world db deal ↔
      ∀ json, Received world deal.filePath.val json →
        LlmClient.Grammar LlmClient.truthy json → StorableValues json := by
  cases hc : (outcome world deal).change deal with
  | none =>
    obtain ⟨json, hreceived, hgrammar, hvalues⟩ := outcome_refused_iff.mp hc
    refine iff_of_false ?_ fun h => hvalues (h json hreceived hgrammar)
    rintro ⟨result, db', hrun, -⟩
    obtain ⟨x, hx⟩ := extractDeal_refused hdeal hstatus hc
    cases hx.symm.trans hrun
  | some c =>
    refine iff_of_true (recorded_of_change hdeal hstatus hc) fun json hreceived hgrammar => ?_
    by_contra hvalues
    have hnone := outcome_refused_iff.mpr ⟨json, hreceived, hgrammar, hvalues⟩
    cases hc.symm.trans hnone

end

/-- A database that holds the sample deal. -/
def uploadedDb : DealDb := { DealDb.empty with deals := [sampleDeal] }

/-- The PDF cannot be read. -/
def unreadableWorld : ExtractionWorld :=
  { sampleWorld with extractText := fun _ => .error (.pdfParseError (text "No text.")) }

theorem extraction_recorded_iff_unreadable :
    letI := asciiRuntime
    Recorded unreadableWorld uploadedDb sampleDeal := by
  let _ := asciiRuntime
  refine (extraction_recorded_iff (by decide) (.inl rfl)).mpr ?_
  rintro json ⟨rawText, _, _, htext, -⟩
  cases htext

def numberReplyField (name : String) : Str :=
  text "\x7b\"field_name\": \"" ++ text name ++
    text "\", \"field_value\": 1500, \"field_status\": \"FOUND\", \"confidence\": \"HIGH\"\x7d"

/-- The values are numbers, not strings of digits. -/
def numberWorld : ExtractionWorld :=
  { sampleWorld with
    reply := fun _ _ => .content (some (text "\x7b\"fields\": [" ++
      Str.join (text ", ") (coreExtractionFields.map numberReplyField) ++ text "]\x7d")) }

theorem number_values_lost :
    ¬ ∀ (_ : Runtime) (world : ExtractionWorld) (db : DealDb) (deal : Deal),
      db.deal deal.id deal.tenantId = some deal →
      deal.status = .uploaded ∨ deal.status = .failed → Recorded world db deal := by
  intro h
  have hlost : (Session.transaction (@extractDeal asciiRuntime numberWorld 1 2) uploadedDb).1.isOk =
      false := by decide +kernel
  obtain ⟨result, db', hrun, -⟩ :=
    h asciiRuntime numberWorld uploadedDb sampleDeal (by decide) (.inl rfl)
  change Session.transaction (@extractDeal asciiRuntime numberWorld 1 2) uploadedDb = _ at hrun
  rw [hrun] at hlost
  cases hlost

end ExtractionService
