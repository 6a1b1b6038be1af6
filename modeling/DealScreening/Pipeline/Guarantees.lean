-- SUMMARY: What holds of every deal in every serial run: a complete audit trail, rows that go with the status, and which transitions occur.
import DealScreening.Pipeline.System

namespace Pipeline

open Python Session Dossier ExtractionService ScoringService DealsApi CriteriaApi IngestionService
  UploadApi Handlers

-- ---------------------------------------------------------------------------
-- The audit trail
-- ---------------------------------------------------------------------------

/-- The audit rows of a deal lead from nothing over UPLOADED to its status, each beginning in
    the state the one before it ended in, and no row is about another deal than these. -/
structure AuditComplete (db : DealDb) : Prop where
  trail : ∀ deal ∈ db.deals, ∃ first rest, db.auditOf deal.id = first :: rest ∧
    first.beforeState = none ∧ first.afterState = some .uploaded ∧
    Chain (some .uploaded) rest (some deal.status)
  about : ∀ entry ∈ db.dealAuditLog, ∃ deal ∈ db.deals, deal.id = entry.dealId

/-- A transaction adds audit rows. One of them records the change of a deal's status if there
    is one, and no other row records a change. -/
def AuditsChanges (db db' : DealDb) : Prop :=
  ∀ id, ∃ entries, db'.auditOf id = db.auditOf id ++ entries ∧
    changes entries =
      if (db.dossier id).status = (db'.dossier id).status then []
      else [((db.dossier id).status, (db'.dossier id).status)]

theorem Inv.auditComplete {db : DealDb} (h : Inv db) : AuditComplete db where
  trail deal hdeal := by
    have haudited := h.audited deal.id
    have hlookup : (db.dossier deal.id).deal = some deal := Table.lookup_of_mem h.deals hdeal
    have hchain := haudited.chain
    have hfirst := haudited.first
    rw [hlookup] at hchain
    change Chain none (db.auditOf deal.id) (some deal.status) at hchain
    change ∀ entry ∈ (db.auditOf deal.id).head?, entry.afterState = some .uploaded at hfirst
    cases hentries : db.auditOf deal.id with
    | nil =>
      rw [hentries] at hchain
      cases hchain
    | cons first rest =>
      rw [hentries] at hchain hfirst
      have hafter := hfirst first rfl
      obtain ⟨hbefore, hrest⟩ := hchain
      rw [hafter] at hrest
      exact ⟨first, rest, rfl, hbefore, hafter, hrest⟩
  about entry hentry := by
    cases hdeal : db.dealById entry.dealId with
    | some deal => exact ⟨deal, Table.lookup_mem hdeal, Table.lookup_key hdeal⟩
    | none =>
      have hbare : db.auditOf entry.dealId = [] := (h.audited entry.dealId).bare hdeal
      have hmem : entry ∈ db.auditOf entry.dealId :=
        List.mem_filter.mpr ⟨hentry, decide_eq_true rfl⟩
      rw [hbare] at hmem
      cases hmem

theorem Moves.auditsChanges {x y : Dossier} (h : Moves x y) :
    ∃ entries, y.entries = x.entries ++ entries ∧
      changes entries = if x.status = y.status then [] else [(x.status, y.status)] := by
  rcases h with rfl | hstep
  · exact ⟨[], by simp, by simp [changes]⟩
  · exact hstep.changes

section
variable [Runtime]

theorem audit_trail_complete (settings : Settings) (disk : Disk) (acts : List Act) :
    Run.Always (step settings) (fun s => AuditComplete s.tables ∧
      ∀ a t, step settings s a = some t → AuditsChanges s.tables t.tables) (init disk) acts := by
  refine Run.always_of_invariant InOrder InOrder.step (fun {s} hs => ?_) (inOrder_init disk)
  refine ⟨hs.inv.auditComplete, fun a t h id => ?_⟩
  exact ((step_effect h).moves hs.inv id).auditsChanges

end

-- ---------------------------------------------------------------------------
-- The rows of a deal
-- ---------------------------------------------------------------------------

/-- The rows that go with a deal. -/
structure RowsInOrder (s : St) (deal : Deal) : Prop where
  once : ∀ run name, ((s.tables.fieldsOf deal.id).filter fun f =>
    f.extractionRun = run ∧ f.fieldName = name).length ≤ 1
  bound : ∀ f ∈ s.tables.fieldsOf deal.id, f.extractionRun ≤ deal.retryCount + 1
  six : ∀ f ∈ s.tables.fieldsOf deal.id, ∀ name ∈ coreExtractionFields,
    ∃ f' ∈ s.tables.fieldsOf deal.id,
      f'.extractionRun = f.extractionRun ∧ f'.fieldName.val = text name
  latest : deal.status = .extracted ∨ deal.status = .scored ∨ deal.status = .decided →
    3 ≤ (latestRun (s.tables.fieldsOf deal.id)).countP rowFound ∧
      s.lastSuccess deal.id = some (latestRun (s.tables.fieldsOf deal.id))
  scored : deal.status = .scored ∨ deal.status = .decided → ∃ score,
    s.tables.scoresOf deal.id = [score] ∧ 0 ≤ score.score ∧ score.score ≤ 100 ∧
      ∃ config ∈ s.tables.criteriaConfigs,
        config.id = score.criteriaConfigId ∧ config.tenantId = deal.tenantId
  unscored : ¬ (deal.status = .scored ∨ deal.status = .decided) → s.tables.scoresOf deal.id = []
  decided : deal.status = .decided → ∃ decision, s.tables.decisionsOf deal.id = [decision] ∧
    ∃ score ∈ s.tables.scoresOf deal.id, decision.scoreId = some score.id
  undecided : deal.status ≠ .decided → s.tables.decisionsOf deal.id = []

theorem length_filter_le_one {α : Type} {R : α → α → Prop} {p : α → Bool} {xs : List α}
    (h : xs.Pairwise R) (hp : ∀ x y, p x = true → p y = true → ¬ R x y) :
    (xs.filter p).length ≤ 1 := by
  have hpairs := h.filter p
  match hxs : xs.filter p with
  | [] => exact Nat.zero_le 1
  | [x] => exact Nat.le_refl 1
  | x :: y :: rest =>
    rw [hxs] at hpairs
    have hx : x ∈ xs.filter p := by simp [hxs]
    have hy : y ∈ xs.filter p := by simp [hxs]
    exact absurd (List.rel_of_pairwise_cons hpairs (List.mem_cons_self ..))
      (hp x y (List.mem_filter.mp hx).2 (List.mem_filter.mp hy).2)

section
variable {s : St} {deal : Deal}

theorem InOrder.score (h : InOrder s) (hdeal : s.tables.dealById deal.id = some deal)
    {score : DealScore} (hscore : score ∈ s.tables.scoresOf deal.id) :
    0 ≤ score.score ∧ score.score ≤ 100 ∧ ∃ config ∈ s.tables.criteriaConfigs,
      config.id = score.criteriaConfigId ∧ config.tenantId = deal.tenantId := by
  obtain ⟨hlow, hhigh⟩ := h.inv.range score (List.mem_filter.mp hscore).1
  obtain ⟨config, hconfig, htenant⟩ := h.inv.owned deal.id deal score hdeal hscore
  exact ⟨hlow, hhigh, config, Table.lookup_mem hconfig, Table.lookup_key hconfig, htenant⟩

theorem InOrder.rowsInOrder (h : InOrder s) (hdeal : deal ∈ s.tables.deals) :
    RowsInOrder s deal := by
  have hlookup : s.tables.dealById deal.id = some deal := Table.lookup_of_mem h.inv.deals hdeal
  have hnumbered := h.inv.numbered deal.id
  have hrecorded : Recorded deal.status (s.tables.scoresOf deal.id) (s.tables.decisionsOf deal.id) :=
    (h.inv.scored deal.id).recorded deal hlookup
  have hstatus : (s.tables.dossier deal.id).status = some deal.status := by
    rw [Dossier.status, DealDb.dossier, hlookup]
    rfl
  refine {
    once := fun run name => ?once
    bound := hnumbered.bound deal hlookup
    six := hnumbered.six
    latest := fun hextracted => ?latest
    scored := fun hscored => ?scored
    unscored := fun hnot => ?unscored
    decided := fun hdecided => ?decided
    undecided := fun hnot => ?undecided }
  case once =>
    refine length_filter_le_one hnumbered.unique fun f f' hf hf' hne => hne ?_
    obtain ⟨hrun, hname⟩ := of_decide_eq_true hf
    obtain ⟨hrun', hname'⟩ := of_decide_eq_true hf'
    exact ⟨hrun.trans hrun'.symm, hname.trans hname'.symm⟩
  case latest =>
    have hnot := not_extractable hextracted
    exact ⟨hnumbered.latest_found hlookup hnot, h.latest deal.id deal.status hstatus hnot⟩
  case scored =>
    have hone : ∃ score, s.tables.scoresOf deal.id = [score] := by
      rcases hrecorded.cases with ⟨hnot, -⟩ | ⟨-, hone, -⟩ | ⟨-, score, _, hone, -⟩
      · exact absurd hscored hnot
      · exact hone
      · exact ⟨score, hone⟩
    obtain ⟨score, hone⟩ := hone
    exact ⟨score, hone, h.score hlookup (by simp [hone])⟩
  case unscored =>
    rcases hrecorded.cases with ⟨-, hnone, -⟩ | ⟨hscored, -⟩ | ⟨hdecided, -⟩
    · exact hnone
    · exact absurd (.inl hscored) hnot
    · exact absurd (.inr hdecided) hnot
  case decided =>
    rcases hrecorded.cases with ⟨hnot, -⟩ | ⟨hscored, -⟩ | ⟨-, score, decision, hone, hdecision, hid⟩
    · exact absurd (.inr hdecided) hnot
    · cases hscored.symm.trans hdecided
    · exact ⟨decision, hdecision, score, by simp [hone], hid⟩
  case undecided =>
    rcases hrecorded.cases with ⟨-, -, hnone⟩ | ⟨-, -, hnone⟩ | ⟨hdecided, -⟩
    · exact hnone
    · exact hnone
    · exact absurd hdecided hnot

end

section
variable [Runtime]

/-- Every deal has the rows that go with its status, in every state of every run. -/
theorem pipeline_invariant (settings : Settings) (disk : Disk) (acts : List Act) :
    Run.Always (step settings) (fun s => ∀ deal ∈ s.tables.deals, RowsInOrder s deal) (init disk)
      acts :=
  Run.always_of_invariant InOrder InOrder.step (fun hs _ hdeal => hs.rowsInOrder hdeal)
    (inOrder_init disk)

end

-- ---------------------------------------------------------------------------
-- The transitions
-- ---------------------------------------------------------------------------

/-- The row of a deal is written, with a new status or with the one it had. -/
def Writes (db db' : DealDb) (deal deal' : Deal) : Prop :=
  db.dealById deal.id = some deal ∧ db'.dealById deal.id = some deal' ∧ deal' ≠ deal

section
variable [Runtime] {db db' : DealDb} {deal deal' : Deal}

theorem Inv.quiet_transition (h : Inv db) (hcommit : Commit db db') (hwrites : Writes db db' deal deal') :
    validateTransition deal.status deal'.status = .ok () := by
  obtain ⟨hbefore, hafter, hne⟩ := hwrites
  have hold : (db.dossier deal.id).status = some deal.status := congrArg (Option.map _) hbefore
  have hnew : (db'.dossier deal.id).status = some deal'.status := congrArg (Option.map _) hafter
  rcases h.quiet hcommit deal.id with hsame | ⟨-, ⟨hnone, -⟩ | ⟨hfrom, hto⟩ | ⟨hfrom, hto⟩⟩
  · have hdeal := congrArg Dossier.deal hsame
    cases hbefore.symm.trans (hdeal.symm.trans hafter)
    exact absurd rfl hne
  · cases hbefore.symm.trans hnone
  · rw [Option.some.inj (hold.symm.trans hfrom), Option.some.inj (hnew.symm.trans hto)]
    rfl
  · rw [Option.some.inj (hold.symm.trans hfrom), Option.some.inj (hnew.symm.trans hto)]
    rfl

omit [Runtime] in
/-- The deal that an extraction writes, and what it finds and leaves. -/
theorem Inv.extraction_transition (h : Inv db) {d : Deal} {c : DealChange}
    (hdeal : db.deal d.id d.tenantId = some d) (hwrites : Writes db (db.change d.id c) deal deal') :
    deal = d ∧ deal'.status = c.status := by
  obtain ⟨hbefore, hafter, hne⟩ := hwrites
  rw [DealDb.dealById_change] at hafter
  split at hafter
  · rename_i hid
    rw [hid, h.dealById hdeal] at hbefore
    cases hbefore
    rw [h.dealById hdeal] at hafter
    cases hafter
    exact ⟨rfl, rfl⟩
  · cases hbefore.symm.trans hafter
    exact absurd rfl hne

/-- Every write of a status is a transition of the table, but for an extraction that found
    the deal FAILED, which `_load_and_verify_deal` lets through. -/
theorem transitions_in_table (settings : Settings) (disk : Disk) (acts : List Act) :
    Run.Always (step settings) (fun s => ∀ a t deal deal', step settings s a = some t →
      Writes s.tables t.tables deal deal' →
      validateTransition deal.status deal'.status = .ok () ∨
        (∃ world job ctx, a = .extract world job ctx ∧ job.dealId = deal.id) ∧
          deal.status = .failed ∧ (deal'.status = .extracted ∨ deal'.status = .failed))
      (init disk) acts := by
  refine Run.always_of_invariant InOrder InOrder.step (fun {s} hs => ?_) (inOrder_init disk)
  intro a t deal deal' h hwrites
  cases step_effect h with
  | plain htables hsuccesses => exact .inl (hs.inv.quiet_transition htables hwrites)
  | failed hact hid hdeal hfrom hrun habout htables hsuccesses =>
    rw [htables] at hwrites
    obtain ⟨rfl, hto⟩ := hs.inv.extraction_transition hdeal hwrites
    rcases hfrom with hfrom | hfrom
    · exact .inl (by rw [hfrom, hto]; rfl)
    · exact .inr ⟨⟨_, _, _, hact, hid.symm⟩, hfrom, .inr hto⟩
  | extracted hact hid hdeal hfrom hrun hfound habout htables hsuccesses =>
    rw [htables] at hwrites
    obtain ⟨rfl, hto⟩ := hs.inv.extraction_transition hdeal hwrites
    rcases hfrom with hfrom | hfrom
    · exact .inl (by rw [hfrom, hto]; rfl)
    · exact .inr ⟨⟨_, _, _, hact, hid.symm⟩, hfrom, .inl hto⟩

end

def sampleSettings : Settings where
  config := sampleConfig
  validatePdf := .ok
  readUuid _ := none

/-- The job of the sample upload, and the context of its row. -/
def sampleJob : ExtractionJob := ⟨1, 2⟩

def sampleContext : JobContext := ⟨"a", "extraction", 1, none, some (Uuid.str 2)⟩

/-- The document cannot be read, and the worker dies before it marks the job. -/
def failedOnce : List Act :=
  [.upload none sampleDraw 2 sampleFile, .extract unreadableWorld sampleJob sampleContext]

/-- The second execution of the job finds the deal FAILED and extracts it. -/
theorem failed_deal_extracted :
    ¬ ∀ (_ : Runtime) (settings : Settings) (disk : Disk) (acts : List Act),
      Run.Always (step settings) (fun s => ∀ a t deal deal', step settings s a = some t →
        Writes s.tables t.tables deal deal' →
        validateTransition deal.status deal'.status = .ok ()) (init disk) acts := by
  intro h
  have hruns : (do
      let s ← Run.exec (@step asciiRuntime sampleSettings) (init ⟨[], []⟩) failedOnce
      let t ← @step asciiRuntime sampleSettings s (.extract sampleWorld sampleJob sampleContext)
      return (s.tables.dealById 1).map Deal.status = some .failed ∧
        (t.tables.dealById 1).map Deal.status = some .extracted : Option Bool) = some true := by
    decide +kernel
  obtain ⟨s, hs, hruns⟩ := Option.bind_eq_some_iff.mp hruns
  obtain ⟨t, ht, hstatus⟩ := Option.bind_eq_some_iff.mp hruns
  obtain ⟨hfailed, hextracted⟩ := of_decide_eq_true (Option.some.inj hstatus)
  obtain ⟨deal, hdeal, hfailed⟩ := Option.map_eq_some_iff.mp hfailed
  obtain ⟨deal', hdeal', hextracted⟩ := Option.map_eq_some_iff.mp hextracted
  have hid : deal.id = 1 := Table.lookup_key hdeal
  rw [← hid] at hdeal hdeal'
  have hlegal := (h asciiRuntime sampleSettings ⟨[], []⟩ failedOnce).last hs _ t deal deal' ht
    ⟨hdeal, hdeal', fun heq => by rw [heq, hfailed] at hextracted; cases hextracted⟩
  rw [hfailed, hextracted] at hlegal
  cases hlegal

end Pipeline
