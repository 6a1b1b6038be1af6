-- SUMMARY: The life of one deal: its rows, what the services may change of them and from which status, and what every life keeps.
import DealScreening.Api.Deals
import DealScreening.Services.ExtractionOutcome

/-!
# The life of a deal

All that the tables hold about one deal is its dossier. Each service reads the status,
checks it, and appends rows; nothing else ever touches a dossier. What the tables
promise about a deal follows from these steps alone: that runs are numbered after the
retries, that a score comes once, that the audit rows link up.
-/

open Python ExtractionService ScoringService DealsApi

namespace DealDb

def auditOf (db : DealDb) (dealId : Uuid) : List DealAuditLog :=
  db.dealAuditLog.filter fun entry => entry.dealId = dealId

end DealDb

structure Dossier where
  deal : Option Deal
  fields : List ExtractedField
  scores : List DealScore
  decisions : List DealDecision
  entries : List DealAuditLog
  deriving DecidableEq

/-- Every row of the change refers to the deal. -/
structure DealChange.About (c : DealChange) (dealId : Uuid) : Prop where
  fields : ∀ f ∈ c.fields, f.dealId = dealId
  scores : ∀ s ∈ c.scores, s.dealId = dealId
  decisions : ∀ d ∈ c.decisions, d.dealId = dealId
  entries : ∀ e ∈ c.entries, e.dealId = dealId

/-- The rows of a deal that `decide_deal` writes. -/
def decisionChange (deal : Deal) (decision : DealDecision) (userId : String)
    (body : DealDecisionRequest) : DealChange :=
  { status := .decided, retryCount := none, fields := [], scores := [], decisions := [decision],
    entries := [decisionAudit deal userId body] }

theorem extractedChange_about {deal : Deal} {rows : List ExtractedField}
    (h : ∀ row ∈ rows, row.dealId = deal.id) : (extractedChange deal rows).About deal.id where
  fields := h
  scores _ h := nomatch h
  decisions _ h := nomatch h
  entries := by simp [extractedChange, startedRow, auditRow]

theorem failedChange_about {deal : Deal} {rows : List ExtractedField} {detail : Str}
    (h : ∀ row ∈ rows, row.dealId = deal.id) : (failedChange deal rows detail).About deal.id where
  fields := h
  scores _ h := nomatch h
  decisions _ h := nomatch h
  entries := by simp [failedChange, startedRow, auditRow]

theorem scoreChange_about {deal : Deal} {score : DealScore} {ev : Evaluation}
    (h : score.dealId = deal.id) : (scoreChange deal score ev).About deal.id where
  fields _ h := nomatch h
  scores := by simpa [scoreChange] using h
  decisions _ h := nomatch h
  entries := by simp [scoreChange, scoringAudit]

theorem decisionChange_about {deal : Deal} {decision : DealDecision} {userId : String}
    {body : DealDecisionRequest} (h : decision.dealId = deal.id) :
    (decisionChange deal decision userId body).About deal.id where
  fields _ h := nomatch h
  scores _ h := nomatch h
  decisions := by simpa [decisionChange] using h
  entries := by simp [decisionChange, decisionAudit]

namespace Dossier

def empty : Dossier := ⟨none, [], [], [], []⟩

def apply (x : Dossier) (c : DealChange) : Dossier where
  deal := x.deal.map c.update
  fields := x.fields ++ c.fields
  scores := x.scores ++ c.scores
  decisions := x.decisions ++ c.decisions
  entries := x.entries ++ c.entries

end Dossier

def DealDb.dossier (db : DealDb) (dealId : Uuid) : Dossier where
  deal := db.dealById dealId
  fields := db.fieldsOf dealId
  scores := db.scoresOf dealId
  decisions := db.decisionsOf dealId
  entries := db.auditOf dealId

section
variable {db : DealDb} {id dealId : Uuid} {c : DealChange}

theorem filter_append_about {α : Type} {key : α → Uuid} {rows new : List α}
    (h : ∀ r ∈ new, key r = id) :
    (rows ++ new).filter (fun r => key r = dealId) =
      rows.filter (fun r => key r = dealId) ++ if dealId = id then new else [] := by
  rw [List.filter_append]
  congr 1
  split
  · rename_i heq
    exact List.filter_eq_self.mpr fun r hr => decide_eq_true ((h r hr).trans heq.symm)
  · rename_i hne
    exact List.filter_eq_nil_iff.mpr fun r hr heq =>
      hne ((of_decide_eq_true heq).symm.trans (h r hr))

/-- A change shows in the dossier of its deal, and in no other. -/
theorem dossier_change (h : c.About id) :
    (db.change id c).dossier dealId =
      if dealId = id then (db.dossier id).apply c else db.dossier dealId := by
  unfold DealDb.dossier DealDb.fieldsOf DealDb.scoresOf DealDb.decisionsOf DealDb.auditOf
  rw [DealDb.dealById_change]
  simp only [DealDb.change, filter_append_about h.fields, filter_append_about h.scores,
    filter_append_about h.decisions, filter_append_about h.entries]
  by_cases hid : dealId = id
  · subst hid
    simp [Dossier.apply]
  · simp [hid]

end

/-- So does an upload. -/
theorem dossier_upload {db : DealDb} {deal : Deal} {entry : DealAuditLog} {dealId : Uuid}
    (hnew : db.dealById deal.id = none) (habout : entry.dealId = deal.id) :
    DealDb.dossier { db with
        deals := db.deals ++ [deal], dealAuditLog := db.dealAuditLog ++ [entry] } dealId =
      if dealId = deal.id then
        { db.dossier deal.id with
          deal := some deal, entries := (db.dossier deal.id).entries ++ [entry] }
      else db.dossier dealId := by
  have hentries : ∀ e ∈ [entry], e.dealId = deal.id := by simpa using habout
  unfold DealDb.dossier DealDb.fieldsOf DealDb.scoresOf DealDb.decisionsOf DealDb.auditOf
    DealDb.dealById
  rw [Table.lookup_insert hnew]
  simp only [filter_append_about hentries]
  by_cases hid : dealId = deal.id
  · subst hid
    simp
  · simp [hid]

-- ---------------------------------------------------------------------------
-- Steps
-- ---------------------------------------------------------------------------

namespace Dossier

/-- The rows of one extraction run: the next one, with the six core fields. -/
structure IsRun (deal : Deal) (rows : List ExtractedField) : Prop where
  run : ∀ row ∈ rows, row.extractionRun = deal.retryCount + 1
  names : (rows.map fun row => row.fieldName.val).Perm (coreExtractionFields.map text)

/-- The statuses that `_load_and_verify_deal` lets through. -/
def Extractable (status : DealStatus) : Prop := status = .uploaded ∨ status = .failed

/-- What a service may write about the deal of a dossier. -/
inductive Change (x : Dossier) (deal : Deal) : DealChange → Prop where
  | extracted {rows : List ExtractedField} (hfrom : Extractable deal.status)
      (hrun : IsRun deal rows) (hfound : minFieldsForExtraction ≤ rows.countP rowFound) :
    Change x deal (extractedChange deal rows)
  | failed {rows : List ExtractedField} {detail : Str} (hfrom : Extractable deal.status)
      (hrun : rows = [] ∨ IsRun deal rows) :
    Change x deal (failedChange deal rows detail)
  | scored {score : DealScore} {ev : Evaluation} (hfrom : deal.status = .extracted) :
    Change x deal (scoreChange deal score ev)
  | decided {decision : DealDecision} {userId : String} {body : DealDecisionRequest}
      (hfrom : deal.status = .scored)
      (hscore : decision.scoreId = (Table.latest DealScore.createdAt x.scores).map DealScore.id) :
    Change x deal (decisionChange deal decision userId body)

/-- One step of a deal's life: its upload, or a change by one of the services. -/
inductive Step (x : Dossier) : Dossier → Prop where
  | uploaded {deal : Deal} {entry : DealAuditLog} (hnone : x.deal = none)
      (hstatus : deal.status = .uploaded) (hretry : deal.retryCount = 0)
      (hbefore : entry.beforeState = none) (hafter : entry.afterState = some .uploaded) :
    Step x { x with deal := some deal, entries := x.entries ++ [entry] }
  | changed {deal : Deal} {c : DealChange} (hdeal : x.deal = some deal) (hc : Change x deal c) :
    Step x (x.apply c)

-- ---------------------------------------------------------------------------
-- The audit rows
-- ---------------------------------------------------------------------------

/-- Each row begins in the state the one before it ended in. -/
def Chain : Option DealStatus → List DealAuditLog → Option DealStatus → Prop
  | s, [], t => s = t
  | s, entry :: entries, t => entry.beforeState = s ∧ Chain entry.afterState entries t

theorem Chain.append {s t u : Option DealStatus} {es es' : List DealAuditLog} (h : Chain s es t)
    (h' : Chain t es' u) : Chain s (es ++ es') u := by
  induction es generalizing s with
  | nil =>
    cases h
    exact h'
  | cons entry es ih => exact ⟨h.1, ih h.2⟩

/-- The rows lead from nothing over UPLOADED to the status of the deal. -/
structure Audited (x : Dossier) : Prop where
  bare : x.deal = none → x.entries = []
  chain : Chain none x.entries (x.deal.map Deal.status)
  first : ∀ entry ∈ x.entries.head?, entry.afterState = some .uploaded

theorem audited_empty : Audited empty := ⟨fun _ => rfl, rfl, fun _ h => nomatch h⟩

section
variable {x y : Dossier} {deal : Deal} {c : DealChange}

theorem apply_deal (hdeal : x.deal = some deal) : (x.apply c).deal = some (c.update deal) := by
  simp [apply, hdeal]

theorem Change.chain (h : Change x deal c) : Chain (some deal.status) c.entries (some c.status) := by
  cases h with
  | extracted hfrom hrun hfound => exact ⟨rfl, rfl, rfl⟩
  | failed hfrom hrun => exact ⟨rfl, rfl, rfl⟩
  | scored hfrom => exact ⟨rfl, rfl⟩
  | decided hfrom hscore => exact ⟨rfl, rfl⟩

theorem Audited.step (h : Audited x) (hstep : Step x y) : Audited y := by
  cases hstep with
  | @uploaded deal entry hnone hstatus hretry hbefore hafter =>
    refine ⟨fun h => (nomatch h), ?_, fun e he => ?_⟩
    · rw [h.bare hnone]
      exact ⟨hbefore, hafter.trans (congrArg some hstatus.symm)⟩
    · rw [h.bare hnone] at he
      cases he
      exact hafter
  | @changed deal c hdeal hc =>
    have hchain := h.chain
    rw [hdeal] at hchain
    refine ⟨fun hnone => ?_, ?_, fun e he => h.first e ?_⟩
    · rw [apply_deal hdeal] at hnone
      cases hnone
    · rw [apply_deal hdeal]
      exact hchain.append hc.chain
    · -- A deal that exists has its first row already.
      cases hentries : x.entries with
      | nil =>
        rw [hentries] at hchain
        cases hchain
      | cons first rest =>
        simp only [apply, hentries, List.cons_append, List.head?_cons] at he
        exact he

-- ---------------------------------------------------------------------------
-- The extraction runs
-- ---------------------------------------------------------------------------

/-- The runs of a deal are numbered after its retries, each has the six core fields once,
    and that of an extracted deal has found enough of them. -/
structure Numbered (x : Dossier) : Prop where
  bare : x.deal = none → x.fields = []
  bound : ∀ deal, x.deal = some deal → ∀ row ∈ x.fields, row.extractionRun ≤ deal.retryCount + 1
  pending : ∀ deal, x.deal = some deal → Extractable deal.status →
    ∀ row ∈ x.fields, row.extractionRun ≤ deal.retryCount
  unique : x.fields.Pairwise fun r r' =>
    ¬ (r.extractionRun = r'.extractionRun ∧ r.fieldName = r'.fieldName)
  six : ∀ row ∈ x.fields, ∀ name ∈ coreExtractionFields, ∃ row' ∈ x.fields,
    row'.extractionRun = row.extractionRun ∧ row'.fieldName.val = text name
  found : ∀ deal, x.deal = some deal → ¬ Extractable deal.status →
    minFieldsForExtraction ≤
      (x.fields.filter fun row => row.extractionRun = deal.retryCount + 1).countP rowFound

theorem numbered_empty : Numbered empty where
  bare _ := rfl
  bound _ h := nomatch h
  pending _ h := nomatch h
  unique := .nil
  six _ h := nomatch h
  found _ h := nomatch h

theorem core_nodup : (coreExtractionFields.map text).Nodup := by decide

theorem IsRun.unique {rows : List ExtractedField} (h : IsRun deal rows) :
    rows.Pairwise fun r r' =>
      ¬ (r.extractionRun = r'.extractionRun ∧ r.fieldName = r'.fieldName) := by
  have hnames : (rows.map fun row => row.fieldName.val).Pairwise (· ≠ ·) :=
    h.names.nodup_iff.mpr core_nodup
  refine (List.pairwise_map.mp hnames).imp fun hne hsame => hne ?_
  rw [hsame.2]

theorem IsRun.six {rows : List ExtractedField} (h : IsRun deal rows) {name : String}
    (hname : name ∈ coreExtractionFields) : ∃ row ∈ rows, row.fieldName.val = text name := by
  have hmem : text name ∈ rows.map fun row => row.fieldName.val :=
    h.names.mem_iff.mpr (List.mem_map_of_mem hname)
  obtain ⟨row, hrow, heq⟩ := List.mem_map.mp hmem
  exact ⟨row, hrow, heq⟩

/-- A run of its own number, appended to the earlier ones. -/
theorem Numbered.run {rows : List ExtractedField} (h : Numbered x) (hdeal : x.deal = some deal)
    (hfrom : Extractable deal.status) (hrun : IsRun deal rows) :
    ((x.fields ++ rows).Pairwise fun r r' =>
      ¬ (r.extractionRun = r'.extractionRun ∧ r.fieldName = r'.fieldName)) ∧
    (∀ row ∈ x.fields ++ rows, ∀ name ∈ coreExtractionFields, ∃ row' ∈ x.fields ++ rows,
      row'.extractionRun = row.extractionRun ∧ row'.fieldName.val = text name) ∧
    (∀ row ∈ x.fields ++ rows, row.extractionRun ≤ deal.retryCount + 1) ∧
    (x.fields ++ rows).filter (fun row => row.extractionRun = deal.retryCount + 1) = rows := by
  have hearlier := h.pending deal hdeal hfrom
  refine ⟨List.pairwise_append.mpr ⟨h.unique, hrun.unique, ?_⟩, ?_, ?_, ?_⟩
  · intro row hrow row' hrow' hsame
    have hle := hearlier row hrow
    have heq := hrun.run row' hrow'
    omega
  · intro row hrow name hname
    rcases List.mem_append.mp hrow with hold | hnew
    · obtain ⟨row', hrow', hsame⟩ := h.six row hold name hname
      exact ⟨row', List.mem_append_left _ hrow', hsame⟩
    · obtain ⟨row', hrow', hname'⟩ := hrun.six hname
      refine ⟨row', List.mem_append_right _ hrow', ?_, hname'⟩
      rw [hrun.run row' hrow', hrun.run row hnew]
  · intro row hrow
    rcases List.mem_append.mp hrow with hold | hnew
    · exact Nat.le_succ_of_le (hearlier row hold)
    · exact Nat.le_of_eq (hrun.run row hnew)
  · exact filter_run_append (fun row hrow => Nat.lt_succ_of_le (hearlier row hrow)) hrun.run

/-- The rows of the latest run, those that `_load_extracted_fields` reads. -/
def latestRun (rows : List ExtractedField) : List ExtractedField :=
  rows.filter fun row => row.extractionRun = (rows.map ExtractedField.extractionRun).foldl max 0

theorem latestRun_eq {rows : List ExtractedField} {n : Nat}
    (hle : ∀ row ∈ rows, row.extractionRun ≤ n) (hn : ∃ row ∈ rows, row.extractionRun = n) :
    latestRun rows = rows.filter fun row => row.extractionRun = n := by
  rw [latestRun, max_run_eq hle hn]

theorem IsRun.ne_nil {rows : List ExtractedField} (h : IsRun deal rows) : rows ≠ [] := by
  rintro rfl
  cases h.names.symm.eq_nil

/-- After an extraction its run is the latest. -/
theorem Numbered.latestRun {rows : List ExtractedField} (h : Numbered x) (hdeal : x.deal = some deal)
    (hfrom : Extractable deal.status) (hrun : IsRun deal rows) :
    Dossier.latestRun (x.fields ++ rows) = rows := by
  obtain ⟨-, -, hbound, hlatest⟩ := h.run hdeal hfrom hrun
  obtain ⟨row, hrow⟩ := List.exists_mem_of_ne_nil rows hrun.ne_nil
  rw [latestRun_eq hbound ⟨row, List.mem_append_right _ hrow, hrun.run row hrow⟩, hlatest]

/-- That of an extracted deal has found enough. -/
theorem Numbered.latest_found (h : Numbered x) (hdeal : x.deal = some deal)
    (hnot : ¬ Extractable deal.status) :
    minFieldsForExtraction ≤ (Dossier.latestRun x.fields).countP rowFound := by
  have hfound := h.found deal hdeal hnot
  have hpos : 0 < (x.fields.filter fun row => row.extractionRun = deal.retryCount + 1).countP
      rowFound := Nat.lt_of_lt_of_le (by decide) hfound
  obtain ⟨row, hrow, -⟩ := List.countP_pos_iff.mp hpos
  obtain ⟨hmem, heq⟩ := List.mem_filter.mp hrow
  rw [latestRun_eq (h.bound deal hdeal) ⟨row, hmem, of_decide_eq_true heq⟩]
  exact hfound

theorem not_extractable {status : DealStatus}
    (h : status = .extracted ∨ status = .scored ∨ status = .decided) : ¬ Extractable status := by
  rcases h with rfl | rfl | rfl <;> rintro (h | h) <;> cases h

/-- The fields stay, and the deal is past its extraction. -/
theorem Numbered.keep {d : Deal} (h : Numbered x) (hdeal : x.deal = some deal) (hy : y.deal = some d)
    (hretry : d.retryCount = deal.retryCount) (hfields : y.fields = x.fields)
    (hnot : ¬ Extractable deal.status) (hnot' : ¬ Extractable d.status) : Numbered y := by
  refine ⟨fun hnone => (nomatch hy.symm.trans hnone), ?_, ?_, ?_, ?_, ?_⟩
  · intro d' hd'
    cases hy.symm.trans hd'
    rw [hfields, hretry]
    exact h.bound deal hdeal
  · intro d' hd' hfrom
    cases hy.symm.trans hd'
    exact absurd hfrom hnot'
  · rw [hfields]
    exact h.unique
  · rw [hfields]
    exact h.six
  · intro d' hd' _
    cases hy.symm.trans hd'
    rw [hfields, hretry]
    exact h.found deal hdeal hnot

theorem Numbered.step (h : Numbered x) (hstep : Step x y) : Numbered y := by
  cases hstep with
  | @uploaded deal entry hnone hstatus hretry hbefore hafter =>
    have hfields := h.bare hnone
    refine ⟨fun _ => hfields, ?_, ?_, h.unique, h.six, ?_⟩
    · intro d _ row hrow
      rw [hfields] at hrow
      cases hrow
    · intro d _ _ row hrow
      rw [hfields] at hrow
      cases hrow
    · rintro d ⟨⟩ hnot
      exact absurd (.inl hstatus) hnot
  | @changed deal c hdeal hc =>
    have hafter := apply_deal (c := c) hdeal
    have hbare : (x.apply c).deal = none → (x.apply c).fields = [] := fun hnone =>
      nomatch hafter.symm.trans hnone
    cases hc with
    | @extracted rows hfrom hrun hfound =>
      obtain ⟨hunique, hsix, hbound, hlatest⟩ := h.run hdeal hfrom hrun
      refine ⟨hbare, ?_, ?_, hunique, hsix, ?_⟩
      · intro d hd
        cases hafter.symm.trans hd
        exact hbound
      · intro d hd hd'
        cases hafter.symm.trans hd
        rcases hd' with hd' | hd' <;> cases hd'
      · intro d hd _
        cases hafter.symm.trans hd
        exact hlatest.symm ▸ hfound
    | @failed rows detail hfrom hrun =>
      have hrows : (x.fields ++ rows).Pairwise (fun r r' =>
            ¬ (r.extractionRun = r'.extractionRun ∧ r.fieldName = r'.fieldName)) ∧
          (∀ row ∈ x.fields ++ rows, ∀ name ∈ coreExtractionFields, ∃ row' ∈ x.fields ++ rows,
            row'.extractionRun = row.extractionRun ∧ row'.fieldName.val = text name) ∧
          ∀ row ∈ x.fields ++ rows, row.extractionRun ≤ deal.retryCount + 1 := by
        rcases hrun with rfl | hrun
        · rw [List.append_nil]
          exact ⟨h.unique, h.six, h.bound deal hdeal⟩
        · obtain ⟨hunique, hsix, hbound, -⟩ := h.run hdeal hfrom hrun
          exact ⟨hunique, hsix, hbound⟩
      obtain ⟨hunique, hsix, hbound⟩ := hrows
      refine ⟨hbare, ?_, ?_, hunique, hsix, ?_⟩
      · intro d hd row hrow
        cases hafter.symm.trans hd
        exact Nat.le_succ_of_le (hbound row hrow)
      · intro d hd _
        cases hafter.symm.trans hd
        exact hbound
      · intro d hd hnot
        cases hafter.symm.trans hd
        exact absurd (.inr rfl) hnot
    | scored hfrom =>
      exact h.keep hdeal hafter rfl (List.append_nil _) (not_extractable (.inl hfrom))
        (not_extractable (.inr (.inl rfl)))
    | decided hfrom hscore =>
      exact h.keep hdeal hafter rfl (List.append_nil _) (not_extractable (.inr (.inl hfrom)))
        (not_extractable (.inr (.inr rfl)))

-- ---------------------------------------------------------------------------
-- Scores and decisions
-- ---------------------------------------------------------------------------

/-- The scores and decisions that go with a status. -/
def Recorded : DealStatus → List DealScore → List DealDecision → Prop
  | .uploaded, [], [] | .failed, [], [] | .extracted, [], [] | .scored, [_], [] => True
  | .decided, [score], [decision] => decision.scoreId = some score.id
  | _, _, _ => False

/-- One score from SCORED on, and one decision, on that score, once DECIDED. -/
structure Scored (x : Dossier) : Prop where
  bare : x.deal = none → x.scores = [] ∧ x.decisions = []
  recorded : ∀ deal, x.deal = some deal → Recorded deal.status x.scores x.decisions

theorem scored_empty : Scored empty := ⟨fun _ => ⟨rfl, rfl⟩, fun _ h => nomatch h⟩

theorem Recorded.unscored {status : DealStatus} {scores : List DealScore}
    {decisions : List DealDecision} (h : Recorded status scores decisions)
    (hstatus : Extractable status ∨ status = .extracted) : scores = [] ∧ decisions = [] := by
  rcases hstatus with (rfl | rfl) | rfl <;>
    cases scores <;> cases decisions <;> first | exact ⟨rfl, rfl⟩ | cases h

theorem Recorded.scored {scores : List DealScore} {decisions : List DealDecision}
    (h : Recorded .scored scores decisions) : ∃ score, scores = [score] ∧ decisions = [] := by
  match scores, decisions, h with
  | [score], [], _ => exact ⟨score, rfl, rfl⟩

/-- What the scores and decisions are, by the status. -/
theorem Recorded.cases {status : DealStatus} {scores : List DealScore}
    {decisions : List DealDecision} (h : Recorded status scores decisions) :
    (¬ (status = .scored ∨ status = .decided) ∧ scores = [] ∧ decisions = []) ∨
    (status = .scored ∧ (∃ score, scores = [score]) ∧ decisions = []) ∨
    (status = .decided ∧ ∃ score decision, scores = [score] ∧ decisions = [decision] ∧
      decision.scoreId = some score.id) := by
  match status, scores, decisions, h with
  | .uploaded, [], [], _ => exact .inl ⟨by decide, rfl, rfl⟩
  | .failed, [], [], _ => exact .inl ⟨by decide, rfl, rfl⟩
  | .extracted, [], [], _ => exact .inl ⟨by decide, rfl, rfl⟩
  | .scored, [score], [], _ => exact .inr (.inl ⟨rfl, ⟨score, rfl⟩, rfl⟩)
  | .decided, [score], [decision], h => exact .inr (.inr ⟨rfl, score, decision, rfl, rfl, h⟩)

theorem Scored.step (h : Scored x) (hstep : Step x y) : Scored y := by
  cases hstep with
  | @uploaded deal entry hnone hstatus hretry hbefore hafter =>
    obtain ⟨hscores, hdecisions⟩ := h.bare hnone
    refine ⟨fun h => (nomatch h), ?_⟩
    rintro d ⟨⟩
    show Recorded deal.status x.scores x.decisions
    rw [hstatus, hscores, hdecisions]
    trivial
  | @changed deal c hdeal hc =>
    have hafter := apply_deal (c := c) hdeal
    have hrecorded := h.recorded deal hdeal
    refine ⟨fun hnone => (nomatch hafter.symm.trans hnone), fun d hd => ?_⟩
    cases hafter.symm.trans hd
    cases hc with
    | extracted hfrom hrun hfound =>
      obtain ⟨hscores, hdecisions⟩ := hrecorded.unscored (.inl hfrom)
      simp [apply, extractedChange, hscores, hdecisions, Recorded]
    | failed hfrom hrun =>
      obtain ⟨hscores, hdecisions⟩ := hrecorded.unscored (.inl hfrom)
      simp [apply, failedChange, hscores, hdecisions, Recorded]
    | scored hfrom =>
      obtain ⟨hscores, hdecisions⟩ := hrecorded.unscored (.inr hfrom)
      simp [apply, scoreChange, hscores, hdecisions, Recorded]
    | decided hfrom hscore =>
      rw [hfrom] at hrecorded
      obtain ⟨score, hscores, hdecisions⟩ := hrecorded.scored
      rw [hscores] at hscore
      rw [Table.latest_singleton] at hscore
      simpa [apply, decisionChange, hscores, hdecisions, Recorded] using hscore

-- ---------------------------------------------------------------------------
-- What a step changes
-- ---------------------------------------------------------------------------

def status (x : Dossier) : Option DealStatus := x.deal.map Deal.status

/-- The state that an audit row records as changed, before and after. -/
def changes (entries : List DealAuditLog) : List (Option DealStatus × Option DealStatus) :=
  (entries.map fun entry => (entry.beforeState, entry.afterState)).filter fun p => p.1 ≠ p.2

/-- A step appends audit rows, of which one records the change of the status if there is
    one, and none records another. -/
theorem Step.changes (h : Step x y) :
    ∃ new, y.entries = x.entries ++ new ∧
      Dossier.changes new = if x.status = y.status then [] else [(x.status, y.status)] := by
  cases h with
  | @uploaded deal entry hnone hstatus hretry hbefore hafter =>
    refine ⟨[entry], rfl, ?_⟩
    simp [Dossier.changes, status, hnone, hbefore, hafter, hstatus]
  | @changed deal c hdeal hc =>
    refine ⟨c.entries, rfl, ?_⟩
    have hx : x.status = some deal.status := by rw [status, hdeal]; rfl
    have hy : (x.apply c).status = some c.status := by rw [status, apply_deal hdeal]; rfl
    rw [hx, hy]
    cases hc with
    | extracted hfrom hrun hfound =>
      rcases hfrom with hfrom | hfrom <;>
        simp [Dossier.changes, extractedChange, startedRow, auditRow, hfrom]
    | failed hfrom hrun =>
      rcases hfrom with hfrom | hfrom <;>
        simp [Dossier.changes, failedChange, startedRow, auditRow, hfrom]
    | scored hfrom => simp [Dossier.changes, scoreChange, scoringAudit, hfrom]
    | decided hfrom hscore => simp [Dossier.changes, decisionChange, decisionAudit, hfrom]

/-- Audit rows are added, and none of them ends an extraction. -/
def Quiet (entries entries' : List DealAuditLog) : Prop :=
  ∃ new, entries' = entries ++ new ∧
    ∀ entry ∈ new, entry.afterState ≠ some .extracted ∧ entry.afterState ≠ some .failed

theorem Quiet.refl (entries : List DealAuditLog) : Quiet entries entries :=
  ⟨[], (List.append_nil _).symm, fun _ h => nomatch h⟩

theorem Quiet.trans {es₁ es₂ es₃ : List DealAuditLog} (h : Quiet es₁ es₂) (h' : Quiet es₂ es₃) :
    Quiet es₁ es₃ := by
  obtain ⟨new, rfl, hnew⟩ := h
  obtain ⟨new', rfl, hnew'⟩ := h'
  refine ⟨new ++ new', List.append_assoc .., fun entry hentry => ?_⟩
  rcases List.mem_append.mp hentry with hmem | hmem
  · exact hnew entry hmem
  · exact hnew' entry hmem

theorem quiet_snoc {entries : List DealAuditLog} {entry : DealAuditLog}
    (h : entry.afterState ≠ some .extracted ∧ entry.afterState ≠ some .failed) :
    Quiet entries (entries ++ [entry]) :=
  ⟨[entry], rfl, fun _ hmem => List.mem_singleton.mp hmem ▸ h⟩

theorem Quiet.filter {es es' : List DealAuditLog} (h : Quiet es es') (p : DealAuditLog → Bool) :
    Quiet (es.filter p) (es'.filter p) := by
  obtain ⟨new, rfl, hnew⟩ := h
  exact ⟨new.filter p, List.filter_append .., fun entry hentry =>
    hnew entry (List.mem_filter.mp hentry).1⟩

/-- A step that ends no extraction writes no fields. It scores an extracted deal, decides a
    scored one, or uploads. -/
theorem Step.quiet (h : Step x y) (hquiet : Quiet x.entries y.entries) :
    y.fields = x.fields ∧
      ((x.deal = none ∧ y.status = some .uploaded) ∨
        (x.status = some .extracted ∧ y.status = some .scored) ∨
        (x.status = some .scored ∧ y.status = some .decided)) := by
  cases h with
  | @uploaded deal entry hnone hstatus hretry hbefore hafter =>
    exact ⟨rfl, .inl ⟨hnone, congrArg some hstatus⟩⟩
  | @changed deal c hdeal hc =>
    have hx : x.status = some deal.status := by rw [Dossier.status, hdeal]; rfl
    have hy : (x.apply c).status = some c.status := by rw [Dossier.status, apply_deal hdeal]; rfl
    obtain ⟨new, hnew, hends⟩ := hquiet
    cases List.append_cancel_left hnew
    rw [hx, hy]
    cases hc with
    | extracted hfrom hrun hfound =>
      exact absurd rfl (hends _ (List.mem_cons_of_mem _ (List.mem_cons_self ..))).1
    | failed hfrom hrun =>
      exact absurd rfl (hends _ (List.mem_cons_of_mem _ (List.mem_cons_self ..))).2
    | scored hfrom => exact ⟨List.append_nil _, .inr (.inl ⟨congrArg some hfrom, rfl⟩)⟩
    | decided hfrom hscore => exact ⟨List.append_nil _, .inr (.inr ⟨congrArg some hfrom, rfl⟩)⟩

end

end Dossier
