-- SUMMARY: What each transaction of the pipeline commits: a few kinds of events, and what they do to the dossier of every deal.
import DealScreening.Api.UploadOutcome
import DealScreening.Models.Ownership
import DealScreening.Pipeline.Lifecycle
import DealScreening.Services.ScoreRange
import Mathlib.Logic.Relation

/-!
# Transactions

A transaction that returns commits one event: a deal is uploaded, a service changes one,
or a config is added. Only the request that adds a config commits more, the scores of the
deals it finds EXTRACTED. For each single deal this is at most one step of its life.
-/

namespace Pipeline

open Python Session Dossier ExtractionService ScoringService DealsApi CriteriaApi IngestionService
  UploadApi

-- ---------------------------------------------------------------------------
-- Events
-- ---------------------------------------------------------------------------

section
variable [Runtime]

/-- The score of an evaluation of criteria of the tenant's active config. -/
def ScoredBy (db : DealDb) (deal : Deal) (score : DealScore) : Prop :=
  ∃ config fields ev, db.activeConfig deal.tenantId = some config ∧
    evaluate (db.criteriaOf config.id) fields = .ok ev ∧ score.score = ev.score ∧
    score.criteriaConfigId = config.id

/-- What a transaction may do to the tables. -/
inductive Event (db : DealDb) : DealDb → Prop where
  | uploaded {deal : Deal} {entry : DealAuditLog} (hnew : db.dealById deal.id = none)
      (hstatus : deal.status = .uploaded) (hretry : deal.retryCount = 0)
      (habout : entry.dealId = deal.id) (hbefore : entry.beforeState = none)
      (hafter : entry.afterState = some .uploaded) :
    Event db { db with deals := db.deals ++ [deal], dealAuditLog := db.dealAuditLog ++ [entry] }
  | changed {deal : Deal} {c : DealChange} (hdeal : db.deal deal.id deal.tenantId = some deal)
      (habout : c.About deal.id) (hc : Change (db.dossier deal.id) deal c)
      (hscores : ∀ score ∈ c.scores, ScoredBy db deal score) :
    Event db (db.change deal.id c)
  | configured {tenantId : Uuid} {config : CriteriaConfig} {criteria : List Criterion}
      (hnew : db.configById config.id = none)
      (hweights : ∀ c ∈ criteria, ¬ c.weight < 0.0 ∧ ¬ 1.0 < c.weight) :
    Event db { db with
      criteriaConfigs := (db.deactivateConfigs tenantId).criteriaConfigs ++ [config]
      criteria := db.criteria ++ criteria }

/-- An event that is no extraction, and logs none. -/
def PlainEvent (db db' : DealDb) : Prop :=
  Event db db' ∧ Quiet db.dealAuditLog db'.dealAuditLog

end

-- ---------------------------------------------------------------------------
-- The invariant
-- ---------------------------------------------------------------------------

/-- Ids are unique, weights are from 0 to 1, a score is a percentage and names a config of
    its deal's tenant, and the dossiers are in order. -/
structure Inv (db : DealDb) : Prop where
  deals : db.deals.Pairwise fun d d' => d.id ≠ d'.id
  configs : db.criteriaConfigs.Pairwise fun c c' => c.id ≠ c'.id
  weights : ∀ c ∈ db.criteria, ¬ c.weight < 0.0 ∧ ¬ 1.0 < c.weight
  range : ∀ score ∈ db.dealScores, 0 ≤ score.score ∧ score.score ≤ 100
  owned : ∀ id deal score, db.dealById id = some deal → score ∈ db.scoresOf id →
    ∃ config, db.configById score.criteriaConfigId = some config ∧ config.tenantId = deal.tenantId
  audited : ∀ id, Audited (db.dossier id)
  numbered : ∀ id, Numbered (db.dossier id)
  scored : ∀ id, Scored (db.dossier id)

theorem inv_empty : Inv DealDb.empty where
  deals := .nil
  configs := .nil
  weights _ h := nomatch h
  range _ h := nomatch h
  owned _ _ _ h := nomatch h
  audited _ := audited_empty
  numbered _ := numbered_empty
  scored _ := scored_empty

/-- A deal either stays as it is or makes a step of its life. -/
def Moves (x y : Dossier) : Prop := y = x ∨ Step x y

section
variable {db db' : DealDb} {id dealId tenantId : Uuid} {deal : Deal} {x y : Dossier}

theorem Inv.dealById (h : Inv db) (hdeal : db.deal dealId tenantId = some deal) :
    db.dealById deal.id = some deal :=
  Table.lookup_of_mem h.deals (List.mem_of_find?_eq_some hdeal)

theorem Moves.audited (h : Moves x y) (hx : Audited x) : Audited y := by
  rcases h with rfl | hstep
  · exact hx
  · exact hx.step hstep

theorem Moves.numbered (h : Moves x y) (hx : Numbered x) : Numbered y := by
  rcases h with rfl | hstep
  · exact hx
  · exact hx.step hstep

theorem Moves.scored (h : Moves x y) (hx : Scored x) : Scored y := by
  rcases h with rfl | hstep
  · exact hx
  · exact hx.step hstep

variable [Runtime]

/-- An event is at most one step in the life of each deal. -/
theorem Event.moves (h : Inv db) (hevent : Event db db') (id : Uuid) :
    Moves (db.dossier id) (db'.dossier id) := by
  cases hevent with
  | @uploaded deal entry hnew hstatus hretry habout hbefore hafter =>
    rw [dossier_upload hnew habout]
    split
    · rename_i hid
      subst hid
      exact .inr (.uploaded hnew hstatus hretry hbefore hafter)
    · exact .inl rfl
  | @changed deal c hdeal habout hc hscores =>
    rw [dossier_change habout]
    split
    · rename_i hid
      subst hid
      exact .inr (.changed (h.dealById hdeal) hc)
    · exact .inl rfl
  | configured hnew hweights => exact .inl rfl

omit [Runtime] in
theorem deactivate_id (c : CriteriaConfig) :
    (if c.tenantId = tenantId ∧ c.isActive then { c with isActive := false } else c).id = c.id := by
  split <;> rfl

omit [Runtime] in
/-- A new config leaves the others, but for their flag. -/
theorem configById_configured {config new : CriteriaConfig} {criteria : List Criterion}
    (h : db.configById id = some config) : ∃ config', DealDb.configById { db with
      criteriaConfigs := (db.deactivateConfigs tenantId).criteriaConfigs ++ [new]
      criteria } id = some config' ∧ config'.tenantId = config.tenantId := by
  unfold DealDb.configById DealDb.deactivateConfigs at *
  rw [Table.lookup_append, Table.lookup_map deactivate_id, h]
  refine ⟨_, rfl, ?_⟩
  dsimp only
  split <;> rfl

/-- Every event keeps the invariant. -/
theorem Inv.event (h : Inv db) (hevent : Event db db') : Inv db' := by
  have hmoves := hevent.moves h
  have haudited := fun id => (hmoves id).audited (h.audited id)
  have hnumbered := fun id => (hmoves id).numbered (h.numbered id)
  have hscored := fun id => (hmoves id).scored (h.scored id)
  cases hevent with
  | @uploaded deal entry hnew hstatus hretry habout hbefore hafter =>
    refine ⟨?_, h.configs, h.weights, h.range, ?_, haudited, hnumbered, hscored⟩
    · exact Table.pairwise_insert h.deals hnew
    · intro id d score hd hscore
      have hlookup := (Table.lookup_insert hnew).symm.trans hd
      split at hlookup
      · rename_i hid
        have hbare := ((h.scored deal.id).bare hnew).1
        rw [hid] at hscore
        change score ∈ (db.dossier deal.id).scores at hscore
        rw [hbare] at hscore
        cases hscore
      · exact h.owned id d score hlookup hscore
  | @changed deal c hdeal habout hc hscores =>
    refine ⟨?_, h.configs, h.weights, ?_, ?_, haudited, hnumbered, hscored⟩
    · exact Table.pairwise_map (fun d => by split <;> rfl) h.deals
    · intro score hscore
      rcases List.mem_append.mp hscore with hold | hnew
      · exact h.range score hold
      · obtain ⟨config, fields, ev, -, hev, heq, -⟩ := hscores score hnew
        rw [heq]
        refine evaluate_range (fun c hc => (h.weights c ?_).1) hev
        exact List.mem_of_mem_filter hc
    · intro id d score hd hscore
      have hdeal' := h.dealById hdeal
      rw [DealDb.dealById_change] at hd
      obtain ⟨hmem, hid⟩ := List.mem_filter.mp hscore
      have hid' : score.dealId = id := of_decide_eq_true hid
      obtain ⟨d₀, hd₀, htenant⟩ : ∃ d₀, db.dealById id = some d₀ ∧ d.tenantId = d₀.tenantId := by
        split at hd
        · rename_i heq
          obtain ⟨d₀, hd₀, rfl⟩ := Option.map_eq_some_iff.mp hd
          exact ⟨d₀, heq ▸ hd₀, rfl⟩
        · exact ⟨d, hd, rfl⟩
      rw [htenant]
      rcases List.mem_append.mp hmem with hold | hnew
      · exact h.owned id d₀ score hd₀ (List.mem_filter.mpr ⟨hold, decide_eq_true hid'⟩)
      · have hsame : d₀ = deal := by
          have hid'' : id = deal.id := hid'.symm.trans (habout.scores score hnew)
          rw [hid'', hdeal'] at hd₀
          exact (Option.some.inj hd₀).symm
        obtain ⟨config, _, _, hconfig, -, -, heq⟩ := hscores score hnew
        obtain ⟨hmem, htenant'⟩ := DealDb.activeConfig_mem hconfig
        refine ⟨config, ?_, htenant'.trans (congrArg Deal.tenantId hsame.symm)⟩
        rw [heq]
        exact Table.lookup_of_mem h.configs hmem
  | @configured tenantId config criteria hnew hweights =>
    refine ⟨h.deals, ?_, ?_, h.range, ?_, haudited, hnumbered, hscored⟩
    · refine Table.pairwise_insert (Table.pairwise_map deactivate_id h.configs) ?_
      exact (Table.lookup_map deactivate_id).trans (Option.map_eq_none_iff.mpr hnew)
    · intro c hc
      rcases List.mem_append.mp hc with hold | hnew
      · exact h.weights c hold
      · exact hweights c hnew
    · intro id d score hd hscore
      obtain ⟨config, hconfig, htenant⟩ := h.owned id d score hd hscore
      obtain ⟨config', hconfig', htenant'⟩ := configById_configured hconfig
      exact ⟨config', hconfig', htenant'.trans htenant⟩

end

-- ---------------------------------------------------------------------------
-- Extraction
-- ---------------------------------------------------------------------------

section
variable [Runtime] {world : ExtractionWorld} {db db' : DealDb} {dealId tenantId : Uuid} {deal : Deal}
  {c : DealChange} {x : Dossier}

theorem isRun_of_read {llmResult : Json} {fields : List LlmField} {rows : List ExtractedField}
    {overall : ConfidenceLevel} (hfetch : fetchFields world deal.filePath.val = .ok llmResult)
    (hread : readFields llmResult = .ok fields)
    (hrows : fieldRows deal.id (deal.retryCount + 1) overall fields = some rows) :
    IsRun deal rows := by
  obtain ⟨_, _, fields', rfl, -, hread', -, hnames⟩ :=
    readFields_grammar (fetchFields_eq_ok.mp hfetch).2
  cases hread.symm.trans hread'
  refine ⟨fun row hrow => ((fieldRows_rows hrows).2.2 row hrow).2, ?_⟩
  rw [fieldRows_names hrows]
  exact hnames

/-- The rows of an outcome are a run, or there are none. -/
def RunRows (deal : Deal) : Outcome → Prop
  | .extracted rows _ _ => IsRun deal rows ∧ minFieldsForExtraction ≤ rows.countP rowFound
  | .failed rows _ => rows = [] ∨ IsRun deal rows
  | .refused => True

theorem outcome_runRows : RunRows deal (outcome world deal) := by
  cases hfetch : fetchFields world deal.filePath.val with
  | error e =>
    simp only [outcome, hfetch]
    exact .inl rfl
  | ok json =>
    cases hread : readFields json with
    | error e =>
      simp only [outcome, hfetch, hread]
      exact .inl rfl
    | ok fields =>
      rw [outcome_of_read hfetch hread]
      cases hrows : fieldRows deal.id (deal.retryCount + 1)
          (computeOverallConfidence fields (fields.countP LlmField.isFound)) fields with
      | none => trivial
      | some rows =>
        have hrun := isRun_of_read hfetch hread hrows
        by_cases hfound : minFieldsForExtraction ≤ fields.countP LlmField.isFound
        · simp only [if_pos hfound]
          rw [← (fieldRows_rows hrows).2.1] at hfound
          exact ⟨hrun, hfound⟩
        · simp only [if_neg hfound]
          exact .inr hrun

/-- This is one of the changes a deal can take. -/
theorem outcome_change (hfrom : Extractable deal.status)
    (hc : (outcome world deal).change deal = some c) :
    Change x deal c ∧ c.About deal.id ∧ c.scores = [] := by
  have habout := fun row hrow => (outcome_rows hc row hrow).1
  have hrows : RunRows deal (outcome world deal) := outcome_runRows
  cases ho : outcome world deal with
  | extracted rows foundCount overall =>
    rw [ho] at hc hrows
    cases hc
    exact ⟨.extracted hfrom hrows.1 hrows.2, extractedChange_about habout, rfl⟩
  | failed rows detail =>
    rw [ho] at hc hrows
    cases hc
    exact ⟨.failed hfrom hrows, failedChange_about habout, rfl⟩
  | refused =>
    rw [ho] at hc
    cases hc

/-- An extraction is rolled back, or commits what its outcome says. -/
theorem extractDeal_commits (world : ExtractionWorld) (dealId tenantId : Uuid) (db : DealDb) :
    (∃ e, transaction (extractDeal world dealId tenantId) db = (.error e, db)) ∨
    ∃ deal c, db.deal dealId tenantId = some deal ∧ Extractable deal.status ∧
      (outcome world deal).change deal = some c ∧
      transaction (extractDeal world dealId tenantId) db =
        (.ok ((outcome world deal).result deal), db.change deal.id c) := by
  by_cases hready : ∃ deal, db.deal dealId tenantId = some deal ∧ Extractable deal.status
  · obtain ⟨deal, hdeal, hfrom⟩ := hready
    cases hc : (outcome world deal).change deal with
    | none => exact .inl (extractDeal_refused hdeal hfrom hc)
    | some c => exact .inr ⟨deal, c, hdeal, hfrom, hc, extractDeal_ok hdeal hfrom hc⟩
  · refine .inl (extractDeal_wrong_status fun deal hdeal => ?_)
    rw [← not_or]
    exact fun hfrom => hready ⟨deal, hdeal, hfrom⟩

theorem extractDeal_event (world : ExtractionWorld) (dealId tenantId : Uuid) (db : DealDb) :
    (transaction (extractDeal world dealId tenantId) db).2 = db ∨
      Event db (transaction (extractDeal world dealId tenantId) db).2 := by
  rcases extractDeal_commits world dealId tenantId db with ⟨e, hrun⟩ | ⟨deal, c, hdeal, hfrom, hc, hrun⟩
  · exact .inl (by rw [hrun])
  · obtain ⟨hchange, habout, hscores⟩ := outcome_change (x := db.dossier deal.id) hfrom hc
    rw [hrun]
    refine .inr (.changed ?_ habout hchange (by simp [hscores]))
    obtain ⟨rfl, rfl⟩ := DealDb.deal_key hdeal
    exact hdeal

end

-- ---------------------------------------------------------------------------
-- Scoring
-- ---------------------------------------------------------------------------

section
variable [Runtime] {draw : ScoreDraw} {db db' : DealDb} {dealId tenantId : Uuid}

/-- A deal of the tenant that is EXTRACTED is scored. -/
def Scores (tenantId : Uuid) (db db' : DealDb) : Prop :=
  ∃ draw deal config ev score, db.deal deal.id tenantId = some deal ∧ deal.status = .extracted ∧
    db.activeConfig tenantId = some config ∧
    evaluate (db.criteriaOf config.id) (latestFields (db.fieldsOf deal.id)) = .ok ev ∧
    scoreRow draw deal.id config.id ev = some score ∧ db' = scoredDb db deal score ev

theorem Scores.event (h : Scores tenantId db db') : PlainEvent db db' := by
  obtain ⟨draw, deal, config, ev, score, hdeal, hstatus, hconfig, hev, hrow, rfl⟩ := h
  refine ⟨?_, quiet_snoc ⟨(fun h => nomatch h), (fun h => nomatch h)⟩⟩
  obtain ⟨-, htenant⟩ := DealDb.deal_key hdeal
  obtain ⟨-, -, hid, hconfigId, -⟩ := scoreRow_eq_some hrow
  refine .changed (htenant.symm ▸ hdeal) (scoreChange_about hid) (.scored hstatus) fun s hs => ?_
  cases List.mem_singleton.mp hs
  refine ⟨config, _, ev, htenant.symm ▸ hconfig, hev, ?_, hconfigId⟩
  obtain ⟨rationale, -, hscore⟩ := Option.bind_eq_some_iff.mp hrow
  cases hscore
  rfl

omit [Runtime] in
theorem loadDeal_commits :
    Commits (loadDeal dealId tenantId) fun db deal db' =>
      db' = db ∧ db.deal dealId tenantId = some deal ∧ deal.status = .extracted := by
  refine Commits.bind commits_select fun found => ?_
  cases found with
  | none => exact commits_raise
  | some deal =>
    dsimp only
    split
    · exact commits_raise
    · rename_i hstatus
      refine commits_pure ?_
      rintro d₁ d ⟨hdeal, rfl⟩
      exact ⟨rfl, hdeal.symm, not_not.mp hstatus⟩

omit [Runtime] in
theorem loadDeal_aborts : Aborts (loadDeal dealId tenantId) fun db _ db' => db' = db := by
  refine aborts_select.bind commits_select fun found => ?_
  cases found with
  | none =>
    refine aborts_raise ?_
    rintro d d₀ ⟨-, rfl⟩
    rfl
  | some deal =>
    dsimp only
    split
    · refine aborts_raise ?_
      rintro d d₀ ⟨-, rfl⟩
      rfl
    · exact aborts_pure

omit [Runtime] in
theorem loadActiveConfig_commits :
    Commits (loadActiveConfig tenantId) fun db loaded db' => db' = db ∧
      loaded = (db.activeConfig tenantId).map fun config => (config, db.criteriaOf config.id) := by
  refine Commits.bind commits_select fun found => ?_
  cases found with
  | none =>
    refine commits_pure ?_
    rintro d₁ d ⟨hfound, rfl⟩
    exact ⟨rfl, by rw [← hfound]; rfl⟩
  | some config =>
    refine Commits.bind commits_select fun criteria => commits_pure ?_
    rintro d₂ d₁ ⟨rfl, rfl⟩ d ⟨hfound, rfl⟩
    exact ⟨rfl, by rw [← hfound]; rfl⟩

omit [Runtime] in
theorem loadActiveConfig_aborts {E : DealDb → Exn ServiceExn → DealDb → Prop} :
    Aborts (loadActiveConfig tenantId) E := by
  refine aborts_select.bind commits_select fun found => ?_
  cases found with
  | none => exact aborts_pure
  | some config => exact aborts_select.bind commits_select fun _ => aborts_pure

omit [Runtime] in
theorem loadExtractedFields_commits :
    Commits (loadExtractedFields dealId) fun db fields db' => db' = db ∧
      fields = latestFields (db.fieldsOf dealId) := by
  refine Commits.bind commits_select fun rows => commits_pure ?_
  rintro d₁ d ⟨rfl, rfl⟩
  exact ⟨rfl, rfl⟩

omit [Runtime] in
theorem loadExtractedFields_aborts {E : DealDb → Exn ServiceExn → DealDb → Prop} :
    Aborts (loadExtractedFields dealId) E :=
  aborts_select.bind commits_select fun _ => aborts_pure

/-- Scoring commits a score, or without a config nothing. -/
theorem scoreDeal_commits :
    Commits (scoreDeal draw dealId tenantId) fun db _ db' => db' = db ∨ Scores tenantId db db' := by
  refine loadDeal_commits.bind fun deal => loadActiveConfig_commits.bind fun loaded => ?_
  cases loaded with
  | none =>
    refine commits_pure ?_
    rintro d₂ d₁ ⟨rfl, -⟩ d ⟨rfl, -⟩
    exact .inl rfl
  | some loaded =>
    obtain ⟨config, criteria⟩ := loaded
    refine loadExtractedFields_commits.bind fun fields => commits_ofExcept.bind fun ev =>
      persistScore_commits.bind fun _ => commits_pure ?_
    rintro _ d ⟨score, hrow, -, rfl⟩ _ ⟨hev, rfl⟩ _ ⟨rfl, rfl⟩ _ ⟨rfl, hloaded⟩ _ ⟨rfl, hdeal, hstatus⟩
    obtain ⟨config', hconfig, heq⟩ := Option.map_eq_some_iff.mp hloaded.symm
    cases heq
    obtain ⟨hid, htenant⟩ := DealDb.deal_key hdeal
    refine .inr ⟨draw, deal, config, ev, score, hid.symm ▸ hdeal, hstatus, hconfig, ?_, hrow, rfl⟩
    rw [hid]
    exact Except.mapError_eq_ok.mp hev

/-- Scoring that raises leaves no write behind that could still be committed. -/
theorem scoreDeal_aborts :
    Aborts (scoreDeal draw dealId tenantId) fun db _ db' => db' = db := by
  refine loadDeal_aborts.bind loadDeal_commits fun deal =>
    loadActiveConfig_aborts.bind loadActiveConfig_commits fun loaded => ?_
  cases loaded with
  | none => exact aborts_pure
  | some loaded =>
    refine loadExtractedFields_aborts.bind loadExtractedFields_commits fun fields =>
      (aborts_ofExcept ?_).bind commits_ofExcept fun ev =>
        persistScore_aborts.bind persistScore_commits fun _ => aborts_pure
    rintro _ e - _ ⟨rfl, -⟩ _ ⟨rfl, -⟩ _ ⟨rfl, -⟩
    rfl

theorem scoreDeal_event (draw : ScoreDraw) (dealId tenantId : Uuid) (db : DealDb) :
    (transaction (scoreDeal draw dealId tenantId) db).2 = db ∨
      PlainEvent db (transaction (scoreDeal draw dealId tenantId) db).2 := by
  rcases scoreDeal_commits.commit db with hback | ⟨a, hsame | hscores⟩
  · exact .inl hback
  · exact .inl hsame
  · exact .inr hscores.event

end

-- ---------------------------------------------------------------------------
-- Decision
-- ---------------------------------------------------------------------------

section
variable [Runtime] {readUuid : String → Option Uuid} {now : Time} {db db' : DealDb}
  {dealId tenantId : Uuid} {userId : String} {body : DealDecisionRequest}

omit [Runtime] in
theorem insertDecision_eq_some {decision : DealDecision} (h : db.insertDecision decision = some db') :
    (db.dealById decision.dealId).isSome ∧
      db' = { db with dealDecisions := db.dealDecisions ++ [decision] } := by
  unfold DealDb.insertDecision at h
  split at h <;> cases h
  rename_i hok
  exact ⟨hok.1, rfl⟩

omit [Runtime] in
theorem getDealOr404_commits :
    Commits (getDealOr404 dealId tenantId) fun db deal db' =>
      db' = db ∧ db.deal dealId tenantId = some deal := by
  refine Commits.bind commits_select fun found => ?_
  cases found with
  | none => exact commits_raise
  | some deal =>
    refine commits_pure ?_
    rintro d₁ d ⟨hdeal, rfl⟩
    exact ⟨rfl, hdeal.symm⟩

omit [Runtime] in
theorem persistDecision_commits {deal : Deal} {latestScore : Option DealScore} :
    Commits (persistDecision readUuid now deal userId body latestScore) fun db _ db' =>
      ∃ decision, decision.dealId = deal.id ∧
        decision.scoreId = latestScore.map DealScore.id ∧
        db' = db.change deal.id (decisionChange deal decision userId body) := by
  refine commits_write.bind fun _ => commits_update.bind fun _ => commits_write.bind fun _ =>
    commits_flush.weaken ?_
  rintro _ _ _ rfl _ haudit _ rfl _ hinsert
  obtain ⟨decision, hrow, hinsert⟩ := Option.bind_eq_some_iff.mp hinsert
  obtain ⟨hid, hscore⟩ := decisionRow_eq_some hrow
  obtain ⟨-, rfl⟩ := insertDecision_eq_some hinsert
  obtain ⟨-, rfl⟩ := insertAudit_eq_some.mp haudit
  refine ⟨decision, hid, hscore, ?_⟩
  simp only [DealDb.change, decisionChange, List.append_nil]
  rfl

omit [Runtime] in
theorem decideDeal_commits :
    Commits (decideDeal readUuid now dealId tenantId userId body) fun db _ db' =>
      ∃ deal decision, db.deal dealId tenantId = some deal ∧ deal.status = .scored ∧
        decision.dealId = deal.id ∧
        decision.scoreId = (Table.latest DealScore.createdAt (db.scoresOf dealId)).map DealScore.id ∧
        db' = db.change deal.id (decisionChange deal decision userId body) := by
  refine getDealOr404_commits.bind fun deal => ?_
  split
  · exact commits_raise
  · rename_i hstatus
    refine Commits.bind commits_select fun latestScore => persistDecision_commits.bind fun _ =>
      commits_pure ?_
    rintro _ _ ⟨decision, hid, hscore, rfl⟩ _ ⟨rfl, rfl⟩ _ ⟨rfl, hdeal⟩
    exact ⟨deal, decision, hdeal, not_not.mp hstatus, hid, hscore, rfl⟩

theorem decideDeal_event (readUuid : String → Option Uuid) (now : Time) (dealId tenantId : Uuid)
    (userId : String) (body : DealDecisionRequest) (db : DealDb) :
    (transaction (decideDeal readUuid now dealId tenantId userId body) db).2 = db ∨
      PlainEvent db (transaction (decideDeal readUuid now dealId tenantId userId body) db).2 := by
  rcases decideDeal_commits.commit db with hback |
    ⟨_, deal, decision, hdeal, hstatus, hid, hscore, hdb⟩
  · exact .inl hback
  · obtain ⟨rfl, rfl⟩ := DealDb.deal_key hdeal
    rw [hdb]
    exact .inr ⟨.changed hdeal (decisionChange_about hid) (.decided hstatus hscore)
      fun _ h => (nomatch h), quiet_snoc ⟨(fun h => nomatch h), (fun h => nomatch h)⟩⟩

end

-- ---------------------------------------------------------------------------
-- Configuration
-- ---------------------------------------------------------------------------

section
variable [Runtime] {draw : ConfigDraw} {db db' : DealDb} {configId tenantId : Uuid}
  {body : CriteriaConfigCreateSchema}

theorem rescoreDeals_commits {i : Nat} {dealIds : List Uuid} :
    Commits (rescoreDeals draw tenantId i dealIds) fun db _ db' =>
      Relation.ReflTransGen (Scores tenantId) db db' := by
  induction dealIds generalizing i with
  | nil => exact commits_pure fun d => .refl
  | cons dealId dealIds ih =>
    have hscore : Commits (do
        let _ ← scoreDeal ⟨draw.scoreIds i, draw.now⟩ dealId tenantId
        return ()) fun db _ db' => db' = db ∨ Scores tenantId db db' := by
      refine scoreDeal_commits.bind fun _ => commits_pure ?_
      exact fun d' d h => h
    have hraised : Aborts (do
        let _ ← scoreDeal ⟨draw.scoreIds i, draw.now⟩ dealId tenantId
        return ()) fun db _ db' => db' = db :=
      scoreDeal_aborts.bind scoreDeal_commits fun _ => aborts_pure
    refine (hscore.catch hraised fun x => commits_pure ?_).bind fun _ => ih.weaken ?_
    · rintro d d₀ rfl
      exact .inl rfl
    · rintro d₁ _ d' hrest d (rfl | hfirst)
      · exact hrest
      · exact .head hfirst hrest

theorem rescoreExtractedDeals_commits :
    Commits (rescoreExtractedDeals draw tenantId) fun db _ db' =>
      Relation.ReflTransGen (Scores tenantId) db db' := by
  refine Commits.bind commits_select fun dealIds => rescoreDeals_commits.weaken ?_
  rintro d₁ _ d' hrest d ⟨-, rfl⟩
  exact hrest

omit [Runtime] in
theorem insertConfig_eq_some {config : CriteriaConfig}
    (h : (db.deactivateConfigs tenantId).insertConfig config = some db') :
    db.configById config.id = none ∧
      db' = { db with
        criteriaConfigs := (db.deactivateConfigs tenantId).criteriaConfigs ++ [config] } := by
  unfold DealDb.insertConfig at h
  split at h <;> cases h
  rename_i hok
  refine ⟨?_, rfl⟩
  have hnone := Option.isNone_iff_eq_none.mp hok.1
  exact Option.map_eq_none_iff.mp ((Table.lookup_map deactivate_id).symm.trans hnone)

/-- A request for a config commits the config with its criteria, and then scores. -/
theorem createCriteriaConfig_commits :
    Commits (createCriteriaConfig draw tenantId body) fun db _ db' =>
      ∃ db₁, PlainEvent db db₁ ∧ (∀ id, db₁.dossier id = db.dossier id) ∧
        Relation.ReflTransGen (Scores tenantId) db₁ db' := by
  refine (createCriteriaConfig_inserts rescoreExtractedDeals_commits).weaken fun db _ db' h => ?_
  obtain ⟨name, db₁, db₂, -, hinsert, hcriteria, hscores⟩ := h
  obtain ⟨hnew, rfl⟩ := insertConfig_eq_some hinsert
  obtain ⟨rows, hrows, rfl⟩ := applyAll_criteria hcriteria
  refine ⟨_, ⟨.configured hnew fun row hrow => ?_, .refl _⟩, fun id => rfl, hscores⟩
  obtain ⟨c, -, heq⟩ := Option.mapM_mem hrows hrow
  rw [criterionRow_weight heq]
  exact ⟨c.weight_ge, c.weight_le⟩

end

-- ---------------------------------------------------------------------------
-- Upload
-- ---------------------------------------------------------------------------

section
variable {config : IngestionConfig} {fault : Option Fault} {draw : IngestDraw}
  {tenantId dealId : Uuid} {filename : Str} {content : Bytes} {w w' : World}

/-- Nothing happens to the tables of the pipeline. -/
def SameTables (w w' : World) : Prop := w'.db.tables = w.db.tables

instance : IsPreorder World SameTables where
  refl _ := rfl
  trans _ _ _ h h' := Eq.trans h' h

theorem strike_same {here : Fault} : Respects SameTables (strike fault here) := by
  unfold strike
  split
  · exact respects_raise
  · exact respects_pure

theorem updateDisk_same {f : Disk → Disk} :
    Respects SameTables (update (World.updateDisk f) : IngestM Unit) :=
  respects_update fun _ => rfl

theorem mkdir_same {dir : Path} : Respects SameTables (mkdir fault dir) := by
  refine respects_inspect.bind fun missing => ?_
  split
  · refine updateDisk_same.bind fun _ => ?_
    split
    · exact respects_raise
    · exact respects_pure
  · exact updateDisk_same

theorem writeBytes_same {path : Path} : Respects SameTables (writeBytes config fault path content) := by
  unfold writeBytes
  split
  · exact respects_raise
  · refine strike_same.bind fun _ => ?_
    split
    · exact updateDisk_same.bind fun _ => respects_raise
    · exact updateDisk_same

theorem storeFile_same :
    Respects SameTables (storeFile config fault dealId filename content) :=
  mkdir_same.bind fun _ => writeBytes_same.bind fun _ => respects_pure

theorem enqueueJob_same {jobType : String} {payload : ExtractionJob} {key : String} :
    Respects SameTables (enqueueJob fault draw jobType payload key tenantId) := by
  refine strike_same.bind fun _ => ?_
  split
  · exact respects_raise
  · refine respects_select.bind fun existing => ?_
    split
    · exact respects_pure
    · refine (respects_write fun w w' h => ?_).bind fun _ => respects_flush.bind fun _ => respects_pure
      unfold World.insertJob at h
      split at h <;> cases h
      rfl

theorem insert_eq_some {f : DealDb → Option DealDb} (h : World.insert f w = some w') :
    f w.db.tables = some w'.db.tables := by
  obtain ⟨tables, htables, rfl⟩ := Option.map_eq_some_iff.mp h
  exact htables

theorem insertDeal_eq_some {db db' : DealDb} {deal : Deal} (h : db.insertDeal deal = some db') :
    db.dealById deal.id = none ∧ db' = { db with deals := db.deals ++ [deal] } := by
  unfold DealDb.insertDeal at h
  split at h <;> cases h
  rename_i hok
  exact ⟨Option.isNone_iff_eq_none.mp hok.1, rfl⟩

theorem dealRow_new {contentHash : String} {filePath : Path} {size : Nat} {channel : Str}
    {sender : Option Str} {deal : Deal}
    (h : dealRow draw tenantId filename contentHash filePath size channel sender = some deal) :
    deal.id = draw.dealId ∧ deal.status = .uploaded ∧ deal.retryCount = 0 := by
  unfold dealRow at h
  obtain ⟨filename, -, h⟩ := Option.bind_eq_some_iff.mp h
  obtain ⟨filePath, -, h⟩ := Option.bind_eq_some_iff.mp h
  obtain ⟨channel, -, h⟩ := Option.bind_eq_some_iff.mp h
  obtain ⟨sender, -, h⟩ := Option.bind_eq_some_iff.mp h
  split at h <;> cases h
  exact ⟨rfl, rfl, rfl⟩

variable [Runtime]

/-- An event that writes deals and audit rows, and leaves the other tables. -/
def Uploads (db db' : DealDb) : Prop :=
  PlainEvent db db' ∧ ∃ deals dealAuditLog, db' = { db with deals, dealAuditLog }

theorem ingestNew_commits {contentHash : String} {channel : Str} {sender : Option Str} :
    Commits (ingestNew config fault draw tenantId filename content contentHash channel sender)
      fun w _ w' => Uploads w.db.tables w'.db.tables := by
  refine storeFile_same.commits.bind fun filePath => commits_write.bind fun _ =>
    commits_write.bind fun _ => strike_same.commits.bind fun _ => commits_flush.bind fun _ =>
      enqueueJob_same.commits.bind fun _ => commits_pure ?_
  rintro w₆ w₅ henqueued w₄ rfl w₃ hstruck w₂ haudit w₁ hdeal w hstored
  obtain ⟨deal, hrow, hinsert⟩ := Option.bind_eq_some_iff.mp (insert_eq_some hdeal)
  obtain ⟨hid, hstatus, hretry⟩ := dealRow_new hrow
  obtain ⟨hnew, htables⟩ := insertDeal_eq_some hinsert
  obtain ⟨-, hentry⟩ := insertAudit_eq_some.mp (insert_eq_some haudit)
  have hafter : w₆.db.tables = { w.db.tables with
      deals := w.db.tables.deals ++ [deal]
      dealAuditLog := w.db.tables.dealAuditLog ++
        [uploadAudit draw.dealId tenantId filename content.length channel] } := by
    rw [henqueued, hstruck, hentry, htables, hstored]
  rw [hafter]
  rw [hstored] at hnew
  exact ⟨⟨.uploaded hnew hstatus hretry hid.symm rfl rfl,
    quiet_snoc ⟨(fun h => nomatch h), (fun h => nomatch h)⟩⟩, _, _, rfl⟩

theorem ingestDeal_commits {contentType : Option Str} {channel : Str} {sender : Option Str} :
    Commits (ingestDeal config fault draw tenantId filename content contentType channel sender)
      fun w _ w' => w'.db.tables = w.db.tables ∨ Uploads w.db.tables w'.db.tables := by
  refine commits_ofExcept.bind fun _ => commits_ofExcept.bind fun _ =>
    Respects.commits (R := SameTables) (strike_same.bind fun _ => respects_select) |>.bind fun found => ?_
  cases found with
  | some existing =>
    refine commits_pure ?_
    rintro w₃ w₂ hchecked w₁ ⟨-, rfl⟩ w ⟨-, rfl⟩
    exact .inl hchecked
  | none =>
    refine ingestNew_commits.weaken ?_
    rintro w₃ _ w' hevent w₂ hchecked w₁ ⟨-, rfl⟩ w ⟨-, rfl⟩
    exact .inr (hchecked ▸ hevent)

theorem uploadDeal_commits {validatePdf : PdfValidator} {file : UploadFile} :
    Commits (getDb fault (uploadDeal config validatePdf fault draw tenantId file))
      fun w _ w' => w'.db.tables = w.db.tables ∨ Uploads w.db.tables w'.db.tables := by
  have hbody : Commits (uploadDeal config validatePdf fault draw tenantId file)
      fun w _ w' => w'.db.tables = w.db.tables ∨ Uploads w.db.tables w'.db.tables := by
    refine commits_ofExcept.bind fun fileCheck => commits_ofExcept.bind fun _ =>
      (ingestDeal_commits.tryCatch fun x s => ?_).weaken ?_
    · obtain ⟨y, hy⟩ := exceptIngestionError_raises x s
      exact ⟨y, s, hy⟩
    · rintro w₂ _ w' hingested w₁ ⟨-, rfl⟩ w ⟨-, rfl⟩
      exact hingested
  refine hbody.bind fun result => strike_same.commits.bind fun _ => commits_flush.bind fun _ =>
    commits_pure ?_
  rintro w₃ w₂ rfl w₁ hstruck w hingested
  change w₃.db.tables = w₁.db.tables at hstruck
  rwa [hstruck]

/-- An upload leaves the tables, or uploads one deal. -/
theorem upload_uploads (config : IngestionConfig) (validatePdf : PdfValidator) (fault : Option Fault)
    (draw : IngestDraw) (tenantId : Uuid) (file : UploadFile) (w : World) :
    (upload config validatePdf fault draw tenantId file w).2.db.tables = w.db.tables ∨
      Uploads w.db.tables (upload config validatePdf fault draw tenantId file w).2.db.tables := by
  rcases @Commits.commitWith _ _ _ _ _ rollBack uploadDeal_commits w with ⟨v, hback⟩ | ⟨result, hdone⟩
  · exact .inl (by rw [upload, hback]; rfl)
  · exact hdone

theorem upload_event (config : IngestionConfig) (validatePdf : PdfValidator) (fault : Option Fault)
    (draw : IngestDraw) (tenantId : Uuid) (file : UploadFile) (w : World) :
    (upload config validatePdf fault draw tenantId file w).2.db.tables = w.db.tables ∨
      PlainEvent w.db.tables (upload config validatePdf fault draw tenantId file w).2.db.tables :=
  (upload_uploads config validatePdf fault draw tenantId file w).imp_right And.left

end

-- ---------------------------------------------------------------------------
-- One transaction
-- ---------------------------------------------------------------------------

section
variable [Runtime] {db db₁ db' : DealDb} {tenantId id : Uuid}

/-- What a transaction other than an extraction does to the tables: nothing, an event, or
    a config and scores. -/
def Commit (db db' : DealDb) : Prop :=
  db' = db ∨ PlainEvent db db' ∨
    ∃ tenantId db₁, PlainEvent db db₁ ∧ (∀ id, db₁.dossier id = db.dossier id) ∧
      Relation.ReflTransGen (Scores tenantId) db₁ db'

theorem commit_of_event (h : db' = db ∨ PlainEvent db db') : Commit db db' := h.imp_right .inl

theorem createCriteriaConfig_commit (draw : ConfigDraw) (tenantId : Uuid)
    (body : CriteriaConfigCreateSchema) (db : DealDb) :
    Commit db (transaction (createCriteriaConfig draw tenantId body) db).2 := by
  rcases createCriteriaConfig_commits.commit db with hback | ⟨_, db₁, hevent, hsame, hscores⟩
  · exact .inl hback
  · exact .inr (.inr ⟨tenantId, db₁, hevent, hsame, hscores⟩)

theorem Inv.scores (h : Inv db) (hscores : Relation.ReflTransGen (Scores tenantId) db db') :
    Inv db' := by
  induction hscores with
  | refl => exact h
  | tail _ hlast ih => exact ih.event hlast.event.1

theorem Inv.commit (h : Inv db) (hcommit : Commit db db') : Inv db' := by
  rcases hcommit with rfl | hevent | ⟨tenantId, db₁, hevent, -, hscores⟩
  · exact h
  · exact h.event hevent.1
  · exact (h.event hevent.1).scores hscores

/-- A score moves its deal from EXTRACTED to SCORED. -/
theorem Inv.scores_moves (h : Inv db) (hscores : Scores tenantId db db') (id : Uuid) :
    db'.dossier id = db.dossier id ∨
      ((db.dossier id).status = some .extracted ∧ Step (db.dossier id) (db'.dossier id) ∧
        (db'.dossier id).status = some .scored) := by
  obtain ⟨draw, deal, config, ev, score, hdeal, hstatus, -, -, hrow, rfl⟩ := hscores
  have hfound := h.dealById hdeal
  have hid := (scoreRow_eq_some hrow).2.2.1
  rw [scoredDb, dossier_change (scoreChange_about hid)]
  split
  · rename_i heq
    subst heq
    refine .inr ⟨by rw [status, DealDb.dossier, hfound]; exact congrArg some hstatus,
      .changed hfound (.scored hstatus), ?_⟩
    rw [status, apply_deal hfound]
    rfl
  · exact .inl rfl

/-- Of a sequence of scores each deal gets at most one. -/
theorem Inv.moves_scores (h : Inv db) (hscores : Relation.ReflTransGen (Scores tenantId) db db')
    (id : Uuid) : db'.dossier id = db.dossier id ∨
      (Step (db.dossier id) (db'.dossier id) ∧ (db'.dossier id).status = some .scored) := by
  induction hscores with
  | refl => exact .inl rfl
  | @tail db₁ db₂ hfirst hlast ih =>
    rcases (h.scores hfirst).scores_moves hlast id with hsame | ⟨hbefore, hstep, hafter⟩
    · rw [hsame]
      exact ih
    · rcases ih with hsame | ⟨-, hscored⟩
      · rw [← hsame]
        exact .inr ⟨hstep, hafter⟩
      · rw [hbefore] at hscored
        cases hscored

/-- A transaction is at most one step in the life of each deal. -/
theorem Inv.moves (h : Inv db) (hcommit : Commit db db') (id : Uuid) :
    Moves (db.dossier id) (db'.dossier id) := by
  rcases hcommit with rfl | hevent | ⟨tenantId, db₁, hevent, hsame, hscores⟩
  · exact .inl rfl
  · exact hevent.1.moves h id
  · rw [← hsame id]
    rcases (h.event hevent.1).moves_scores hscores id with hback | ⟨hstep, -⟩
    · exact .inl hback
    · exact .inr hstep

theorem quiet_scores (hscores : Relation.ReflTransGen (Scores tenantId) db db') :
    Quiet db.dealAuditLog db'.dealAuditLog := by
  induction hscores with
  | refl => exact .refl _
  | tail _ hlast ih => exact ih.trans hlast.event.2

/-- Only extractions log that they end. -/
theorem Commit.quiet (hcommit : Commit db db') : Quiet db.dealAuditLog db'.dealAuditLog := by
  rcases hcommit with rfl | hevent | ⟨tenantId, db₁, hevent, -, hscores⟩
  · exact .refl _
  · exact hevent.2
  · exact hevent.2.trans (quiet_scores hscores)

/-- What a transaction that is no extraction does to a dossier. -/
theorem Inv.quiet (h : Inv db) (hcommit : Commit db db') (id : Uuid) :
    db'.dossier id = db.dossier id ∨
    ((db'.dossier id).fields = (db.dossier id).fields ∧
      (((db.dossier id).deal = none ∧ (db'.dossier id).status = some .uploaded) ∨
        ((db.dossier id).status = some .extracted ∧ (db'.dossier id).status = some .scored) ∨
        ((db.dossier id).status = some .scored ∧ (db'.dossier id).status = some .decided))) := by
  rcases h.moves hcommit id with hsame | hstep
  · exact .inl hsame
  · exact .inr (hstep.quiet (hcommit.quiet.filter _))

end

end Pipeline
