-- SUMMARY: What a new config touches: the config with its criteria, and the deals of the tenant that wait for a score.
import DealScreening.Api.ConfigRace
import DealScreening.Pipeline.Transactions
import DealScreening.Services.Confidence
import DealScreening.Services.Scorable

/-!
# Re-scoring

A new config is committed together with the scores of the deals that were EXTRACTED. The
exception of one deal is caught inside the loop, and where a criterion raised nothing has
been written, so the next deal finds the session as it was. A score that the database
refuses is caught too, but has failed the flush of the session, and then all is lost: the
other scores and the config.
-/

namespace Rescoring

open Python Session ScoringService CriteriaApi Pipeline

-- ---------------------------------------------------------------------------
-- What a new config touches
-- ---------------------------------------------------------------------------

/-- The tables with the config and its criteria, if the database takes them. -/
def configured (draw : ConfigDraw) (tenantId : Uuid) (body : CriteriaConfigCreateSchema)
    (db : DealDb) : Option DealDb := do
  let name ← PgText.ofStr (text body.name)
  let db₁ ← (db.deactivateConfigs tenantId).insertConfig
    { id := draw.configId, tenantId, version := ConfigRace.latestVersion db tenantId + 1,
      isActive := true, name }
  applyAll (body.criteria.map fun c db => (criterionRow draw.configId c).bind db.insertCriterion) db₁

/-- The deals that wait for a score. -/
def waiting (db : DealDb) (tenantId : Uuid) : List Deal :=
  db.deals.filter fun d => d.tenantId = tenantId ∧ d.status = .extracted

def fieldsFor (db : DealDb) (deal : Deal) : FieldsMap := latestFields (db.fieldsOf deal.id)

section
variable [Runtime]

/-- Each criterion gives a result that can be stored. -/
def Scorable (criteria : List Criterion) (fields : FieldsMap) : Prop :=
  ∀ c ∈ criteria, CriterionScorable fields c

/-- The criteria give a score, and the database does not take it. -/
def Refused (criteria : List Criterion) (fields : FieldsMap) : Prop :=
  (∃ ev, evaluate criteria fields = .ok ev) ∧ ¬ Scorable criteria fields

/-- A deal is SCORED with one new score and one audit row, or it is as it was because its
    evaluation raised. -/
inductive Settled (criteria : List Criterion) (configId : Uuid) (db db' : DealDb) (deal : Deal) :
    Prop where
  | scored {score : DealScore} {ev : Evaluation}
      (hev : evaluate criteria (fieldsFor db deal) = .ok ev) (habout : score.dealId = deal.id)
      (hconfig : score.criteriaConfigId = configId)
      (hdossier : db'.dossier deal.id = (db.dossier deal.id).apply (scoreChange deal score ev))
  | raised {e : Error} (hev : evaluate criteria (fieldsFor db deal) = .error e)
      (hsame : db'.dossier deal.id = db.dossier deal.id)

/-- These deals are settled, and all else is as it was. -/
structure Rescored (rows : List Criterion) (configId : Uuid) (deals : List Deal)
    (db db' : DealDb) : Prop where
  configs : db'.criteriaConfigs = db.criteriaConfigs
  criteria : db'.criteria = db.criteria
  fields : db'.extractedFields = db.extractedFields
  decisions : db'.dealDecisions = db.dealDecisions
  scores : db.dealScores <+: db'.dealScores
  audit : db.dealAuditLog <+: db'.dealAuditLog
  others : ∀ id, id ∉ deals.map Deal.id → db'.dossier id = db.dossier id
  settled : ∀ deal ∈ deals, Settled rows configId db db' deal

/-- The config holds the criteria of the body, the tenant's other configs are inactive, and
    the deals that waited are settled. -/
def TouchesOnly (draw : ConfigDraw) (tenantId : Uuid) (body : CriteriaConfigCreateSchema)
    (db db' : DealDb) : Prop :=
  ∃ config rows, config.id = draw.configId ∧ config.tenantId = tenantId ∧ config.isActive = true ∧
    db.configById config.id = none ∧ body.criteria.mapM (criterionRow config.id) = some rows ∧
    db'.criteriaOf config.id = rows ∧
    Rescored rows config.id (waiting db tenantId)
      { db with
        criteriaConfigs := (db.deactivateConfigs tenantId).criteriaConfigs ++ [config]
        criteria := db.criteria ++ rows } db'

/-- With a config that the database takes, each waiting deal that its criteria can score is
    SCORED, whatever the other deals are like. -/
def Isolated (draw : ConfigDraw) (tenantId : Uuid) (body : CriteriaConfigCreateSchema)
    (db db' : DealDb) : Prop :=
  ∀ db₁, configured draw tenantId body db = some db₁ → ∀ deal ∈ waiting db tenantId,
    Scorable (db₁.criteriaOf draw.configId) (fieldsFor db deal) →
      ∃ deal', db'.dealById deal.id = some deal' ∧ deal'.status = .scored

end

-- ---------------------------------------------------------------------------
-- One deal after the other
-- ---------------------------------------------------------------------------

section
variable [Runtime] {rows : List Criterion} {configId : Uuid} {deals deals' : List Deal}
  {db db₁ db' : DealDb} {deal : Deal} {score : DealScore} {ev : Evaluation} {e : Error}

omit [Runtime] in
theorem fieldsFor_scoredDb {d : Deal} : fieldsFor (scoredDb db deal score ev) d = fieldsFor db d := by
  simp [scoredDb, DealDb.change, scoreChange, fieldsFor, DealDb.fieldsOf]

theorem Rescored.refl : Rescored rows configId [] db db where
  configs := rfl
  criteria := rfl
  fields := rfl
  decisions := rfl
  scores := List.prefix_refl _
  audit := List.prefix_refl _
  others _ _ := rfl
  settled _ h := nomatch h

theorem Rescored.fieldsFor (h : Rescored rows configId deals db db') :
    fieldsFor db' deal = fieldsFor db deal := by
  unfold Rescoring.fieldsFor DealDb.fieldsOf
  rw [h.fields]

/-- Deals with other ids are settled afterwards. -/
theorem Rescored.append (h : Rescored rows configId deals db db₁)
    (h' : Rescored rows configId deals' db₁ db')
    (hdisjoint : ∀ d ∈ deals, d.id ∉ deals'.map Deal.id)
    (hdisjoint' : ∀ d ∈ deals', d.id ∉ deals.map Deal.id) :
    Rescored rows configId (deals ++ deals') db db' where
  configs := h'.configs.trans h.configs
  criteria := h'.criteria.trans h.criteria
  fields := h'.fields.trans h.fields
  decisions := h'.decisions.trans h.decisions
  scores := h.scores.trans h'.scores
  audit := h.audit.trans h'.audit
  others id hid := by
    rw [List.map_append, List.mem_append, not_or] at hid
    rw [h'.others id hid.2, h.others id hid.1]
  settled d hd := by
    rcases List.mem_append.mp hd with hd | hd
    · have hlater := h'.others d.id (hdisjoint d hd)
      cases h.settled d hd with
      | scored hev habout hconfig hdossier =>
        exact .scored hev habout hconfig (hlater.trans hdossier)
      | raised hev hsame => exact .raised hev (hlater.trans hsame)
    · have hearlier := h.others d.id (hdisjoint' d hd)
      cases h'.settled d hd with
      | scored hev habout hconfig hdossier =>
        rw [h.fieldsFor] at hev
        rw [hearlier] at hdossier
        exact .scored hev habout hconfig hdossier
      | raised hev hsame =>
        rw [h.fieldsFor] at hev
        exact .raised hev (hsame.trans hearlier)

theorem Rescored.scored (hev : evaluate rows (Rescoring.fieldsFor db deal) = .ok ev)
    (habout : score.dealId = deal.id) (hconfig : score.criteriaConfigId = configId) :
    Rescored rows configId [deal] db (scoredDb db deal score ev) where
  configs := rfl
  criteria := rfl
  fields := List.append_nil _
  decisions := List.append_nil _
  scores := List.prefix_append _ _
  audit := List.prefix_append _ _
  others id hid := by
    rw [scoredDb, dossier_change (scoreChange_about habout), if_neg (by simpa using hid)]
  settled d hd := by
    cases List.mem_singleton.mp hd
    refine .scored hev habout hconfig ?_
    rw [scoredDb, dossier_change (scoreChange_about habout), if_pos rfl]

theorem Rescored.raised (hev : evaluate rows (Rescoring.fieldsFor db deal) = .error e) :
    Rescored rows configId [deal] db db where
  configs := rfl
  criteria := rfl
  fields := rfl
  decisions := rfl
  scores := List.prefix_refl _
  audit := List.prefix_refl _
  others _ _ := rfl
  settled d hd := by
    cases List.mem_singleton.mp hd
    exact .raised hev rfl

end

-- ---------------------------------------------------------------------------
-- The loop
-- ---------------------------------------------------------------------------

/-- The tables before the loop comes to these deals. -/
structure Ready (draw : ConfigDraw) (tenantId : Uuid) (config : CriteriaConfig)
    (rows : List Criterion) (i : Nat) (deals : List Deal) (db : DealDb) : Prop where
  active : db.activeConfig tenantId = some config
  criteria : db.criteriaOf config.id = rows
  weights : ∀ c ∈ rows, (toRat c.weight).isSome ↔ c.weight.isNaN = false
  found : ∀ deal ∈ deals, db.deal deal.id tenantId = some deal ∧ deal.status = .extracted
  distinct : deals.Pairwise fun d d' => d.id ≠ d'.id
  fresh : ∀ j, i ≤ j → db.scoreById (draw.scoreIds j) = none

section
variable [Runtime] {draw : ConfigDraw} {tenantId : Uuid} {config : CriteriaConfig}
  {rows : List Criterion} {i : Nat} {deal : Deal} {deals : List Deal} {db : DealDb}
  {score : DealScore} {ev : Evaluation}

omit [Runtime] in
theorem Ready.skip (h : Ready draw tenantId config rows i (deal :: deals) db) :
    Ready draw tenantId config rows (i + 1) deals db where
  active := h.active
  criteria := h.criteria
  weights := h.weights
  found d hd := h.found d (List.mem_cons_of_mem deal hd)
  distinct := (List.pairwise_cons.mp h.distinct).2
  fresh j hj := h.fresh j (Nat.le_of_succ_le hj)

omit [Runtime] in
theorem Ready.scored (h : Ready draw tenantId config rows i (deal :: deals) db)
    (hids : Function.Injective draw.scoreIds) (hid : score.id = draw.scoreIds i) :
    Ready draw tenantId config rows (i + 1) deals (scoredDb db deal score ev) where
  active := h.active
  criteria := h.criteria
  weights := h.weights
  found d hd := by
    obtain ⟨hfound, hstatus⟩ := h.skip.found d hd
    have hne : d.id ≠ deal.id := Ne.symm ((List.pairwise_cons.mp h.distinct).1 d hd)
    refine ⟨?_, hstatus⟩
    rw [scoredDb, DealDb.deal_change, hfound, Option.map_some, if_neg hne]
  distinct := h.skip.distinct
  fresh j hj := by
    have hne : draw.scoreIds j ≠ score.id := fun heq =>
      Nat.ne_of_gt hj (hids (heq.trans hid))
    refine (Table.lookup_insert ?_).trans ((if_neg hne).trans (h.skip.fresh j hj))
    rw [hid]
    exact h.fresh i (Nat.le_refl i)

theorem Ready.recordable_iff (h : Ready draw tenantId config rows i deals db) (hdeal : deal ∈ deals) :
    (∃ ev score, evaluate rows (fieldsFor db deal) = .ok ev ∧
        scoreRow ⟨draw.scoreIds i, draw.now⟩ deal.id config.id ev = some score ∧
        Insertable db score) ↔ Scorable rows (fieldsFor db deal) :=
  ScoringService.recordable_iff (fieldsFor db deal) h.weights (h.fresh i (Nat.le_refl i))
    (DealDb.dealById_isSome (h.found deal hdeal).1) (configById_activeConfig h.active)

/-- The three ways to score the next deal. -/
theorem Ready.next (h : Ready draw tenantId config rows i (deal :: deals) db) :
    (∃ ev score, evaluate rows (fieldsFor db deal) = .ok ev ∧ Scorable rows (fieldsFor db deal) ∧
      score.id = draw.scoreIds i ∧ score.dealId = deal.id ∧ score.criteriaConfigId = config.id ∧
      scoreDeal ⟨draw.scoreIds i, draw.now⟩ deal.id tenantId ⟨db, false, false⟩ =
        (.ok (scoredResult deal.id ev), ⟨scoredDb db deal score ev, false, false⟩)) ∨
    (∃ e x, evaluate rows (fieldsFor db deal) = .error e ∧
      scoreDeal ⟨draw.scoreIds i, draw.now⟩ deal.id tenantId ⟨db, false, false⟩ =
        (.error x, ⟨db, false, false⟩)) ∨
    (Refused rows (fieldsFor db deal) ∧
      ∃ x s, scoreDeal ⟨draw.scoreIds i, draw.now⟩ deal.id tenantId ⟨db, false, false⟩ =
        (.error x, s) ∧ s.failed = true) := by
  have hmem : deal ∈ deal :: deals := List.mem_cons_self ..
  have hrecordable := h.recordable_iff hmem
  obtain ⟨hdeal, hstatus⟩ := h.found deal hmem
  have hconfig := h.active
  have hcriteria := h.criteria
  subst hcriteria
  cases hev : evaluate (db.criteriaOf config.id) (fieldsFor db deal) with
  | error e => exact .inr (.inl ⟨e, _, rfl, scoreDeal_raised hdeal hstatus hconfig hev⟩)
  | ok ev =>
    by_cases hscorable : Scorable (db.criteriaOf config.id) (fieldsFor db deal)
    · obtain ⟨ev', score, hev', hrow, hinsert⟩ := hrecordable.mpr hscorable
      cases hev.symm.trans hev'
      obtain ⟨-, hid, habout, hconfigId, -⟩ := scoreRow_eq_some hrow
      exact .inl ⟨ev, score, rfl, hscorable, hid, habout, hconfigId,
        scoreDeal_recorded hdeal hstatus hconfig hev hrow hinsert⟩
    · refine .inr (.inr ⟨⟨⟨ev, hev⟩, hscorable⟩, ?_⟩)
      refine scoreDeal_refused hdeal hstatus hconfig hev fun score hrow hinsert => ?_
      exact hscorable (hrecordable.mp ⟨ev, score, hev, hrow, hinsert⟩)

/-- Whatever comes of the first deal, the loop goes on with the session that it leaves. -/
theorem rescoreDeals_cons {dealId : Uuid} {dealIds : List Uuid} {s s' : SessionState DealDb}
    {r : Except (Exn ServiceExn) ScoringResult}
    (h : scoreDeal ⟨draw.scoreIds i, draw.now⟩ dealId tenantId s = (r, s')) :
    rescoreDeals draw tenantId i (dealId :: dealIds) s =
      rescoreDeals draw tenantId (i + 1) dealIds s' := by
  cases r <;> simp [rescoreDeals, Session.tryCatch, Session.pure, h]

theorem rescoreDeals_failed {dealIds : List Uuid} {s : SessionState DealDb} (h : s.failed = true) :
    rescoreDeals draw tenantId i dealIds s = (.ok (), s) := by
  induction dealIds generalizing i with
  | nil => rfl
  | cons dealId dealIds ih =>
    have hraises : scoreDeal ⟨draw.scoreIds i, draw.now⟩ dealId tenantId s =
        (.error .pendingRollback, s) := by
      simp [scoreDeal, loadDeal, run_select_failed h]
    exact (rescoreDeals_cons hraises).trans ih

/-- Without a refused score every deal is settled. -/
theorem Ready.run (h : Ready draw tenantId config rows i deals db)
    (hids : Function.Injective draw.scoreIds)
    (hnone : ∀ deal ∈ deals, ¬ Refused rows (fieldsFor db deal)) :
    ∃ db', rescoreDeals draw tenantId i (deals.map Deal.id) ⟨db, false, false⟩ =
        (.ok (), ⟨db', false, false⟩) ∧ Rescored rows config.id deals db db' := by
  induction deals generalizing i db with
  | nil => exact ⟨db, rfl, .refl⟩
  | cons deal deals ih =>
    have hother : ∀ d ∈ deals, d.id ≠ deal.id := fun d hd =>
      Ne.symm ((List.pairwise_cons.mp h.distinct).1 d hd)
    have hhead : ∀ d ∈ [deal], d.id ∉ deals.map Deal.id := by
      intro d hd hmem
      cases List.mem_singleton.mp hd
      obtain ⟨d', hd', heq⟩ := List.mem_map.mp hmem
      exact hother d' hd' heq
    have htail : ∀ d ∈ deals, d.id ∉ [deal].map Deal.id := fun d hd hmem =>
      hother d hd (List.mem_singleton.mp hmem)
    rcases h.next with ⟨ev, score, hev, -, hid, habout, hconfig, hrun⟩ | ⟨e, x, hev, hrun⟩ |
      ⟨hrefused, -⟩
    · have hfirst := Rescored.scored hev habout hconfig
      obtain ⟨db', hrest, hsettled⟩ := ih (h.scored hids hid) fun d hd => by
        rw [hfirst.fieldsFor]
        exact hnone d (List.mem_cons_of_mem deal hd)
      exact ⟨db', (rescoreDeals_cons hrun).trans hrest, hfirst.append hsettled hhead htail⟩
    · obtain ⟨db', hrest, hsettled⟩ := ih h.skip fun d hd => hnone d (List.mem_cons_of_mem deal hd)
      exact ⟨db', (rescoreDeals_cons hrun).trans hrest,
        (Rescored.raised hev).append hsettled hhead htail⟩
    · exact absurd hrefused (hnone deal (List.mem_cons_self ..))

/-- With one refused score the session is lost. -/
theorem Ready.lost (h : Ready draw tenantId config rows i deals db)
    (hids : Function.Injective draw.scoreIds)
    (hsome : ∃ deal ∈ deals, Refused rows (fieldsFor db deal)) :
    ∃ s, rescoreDeals draw tenantId i (deals.map Deal.id) ⟨db, false, false⟩ = (.ok (), s) ∧
      s.failed = true := by
  induction deals generalizing i db with
  | nil =>
    obtain ⟨d, hd, -⟩ := hsome
    cases hd
  | cons deal deals ih =>
    obtain ⟨d, hd, hrefused⟩ := hsome
    rcases h.next with ⟨ev, score, hev, hscorable, hid, habout, hconfig, hrun⟩ |
      ⟨e, x, hev, hrun⟩ | ⟨-, x, s, hrun, hfailed⟩
    · have hlater : d ∈ deals := by
        rcases List.mem_cons.mp hd with rfl | hlater
        · exact absurd hscorable hrefused.2
        · exact hlater
      have hsame : fieldsFor (scoredDb db deal score ev) d = fieldsFor db d := fieldsFor_scoredDb
      rw [← hsame] at hrefused
      obtain ⟨s, hrest, hfailed⟩ := ih (h.scored hids hid) ⟨d, hlater, hrefused⟩
      exact ⟨s, (rescoreDeals_cons hrun).trans hrest, hfailed⟩
    · have hlater : d ∈ deals := by
        rcases List.mem_cons.mp hd with rfl | hlater
        · obtain ⟨ev, hev'⟩ := hrefused.1
          cases hev.symm.trans hev'
        · exact hlater
      obtain ⟨s, hrest, hfailed⟩ := ih h.skip ⟨d, hlater, hrefused⟩
      exact ⟨s, (rescoreDeals_cons hrun).trans hrest, hfailed⟩
    · exact ⟨s, (rescoreDeals_cons hrun).trans (rescoreDeals_failed hfailed), hfailed⟩

end

-- ---------------------------------------------------------------------------
-- The request
-- ---------------------------------------------------------------------------

section
variable {draw : ConfigDraw} {tenantId : Uuid} {body : CriteriaConfigCreateSchema}
  {config : CriteriaConfig} {rows : List Criterion} {db db₁ db' : DealDb}
  {response : CriteriaConfig × List Criterion}

/-- The config is the tenant's only active one. -/
theorem activeConfig_inserted (htenant : config.tenantId = tenantId) (hactive : config.isActive = true)
    (hconfigs : db₁.criteriaConfigs = (db.deactivateConfigs tenantId).criteriaConfigs ++ [config]) :
    db₁.activeConfig tenantId = some config := by
  have hothers : ((db.deactivateConfigs tenantId).configsOf tenantId).filter CriteriaConfig.isActive =
      [] := by
    refine List.filter_eq_nil_iff.mpr fun c hc => ?_
    obtain ⟨hmem, hother⟩ := List.mem_filter.mp hc
    obtain ⟨c', -, rfl⟩ := List.mem_map.mp hmem
    split
    · exact Bool.false_ne_true
    · rename_i hnot
      rw [if_neg hnot] at hother
      exact fun h => hnot ⟨of_decide_eq_true hother, h⟩
  unfold DealDb.activeConfig
  rw [DealDb.configsOf, hconfigs, List.filter_append, List.filter_append]
  change Table.latest _ (((db.deactivateConfigs tenantId).configsOf tenantId).filter _ ++ _) = _
  rw [hothers]
  simp [htenant, hactive, Table.latest_singleton]

theorem configured_eq_some (h : configured draw tenantId body db = some db₁) :
    ∃ config rows, config.id = draw.configId ∧ config.tenantId = tenantId ∧
      config.isActive = true ∧ db.configById config.id = none ∧
      body.criteria.mapM (criterionRow config.id) = some rows ∧
      db₁ = { db with
        criteriaConfigs := (db.deactivateConfigs tenantId).criteriaConfigs ++ [config]
        criteria := db.criteria ++ rows } := by
  obtain ⟨name, -, h⟩ := Option.bind_eq_some_iff.mp h
  obtain ⟨db₂, hinsert, hcriteria⟩ := Option.bind_eq_some_iff.mp h
  obtain ⟨hnew, rfl⟩ := insertConfig_eq_some hinsert
  obtain ⟨rows, hrows, rfl⟩ := applyAll_criteria hcriteria
  exact ⟨_, rows, rfl, rfl, rfl, hnew, hrows, rfl⟩

/-- The criteria of a new config are those of the body. -/
theorem criteriaOf_inserted (hsound : db.Sound) (hnew : db.configById config.id = none)
    (hrows : body.criteria.mapM (criterionRow config.id) = some rows)
    (hcriteria : db₁.criteria = db.criteria ++ rows) : db₁.criteriaOf config.id = rows := by
  have hold : db.criteria.filter (fun c => c.configId = config.id) = [] := by
    refine List.filter_eq_nil_iff.mpr fun c hc heq => ?_
    obtain ⟨other, hother, hid⟩ := hsound.criteria c hc
    exact Table.lookup_eq_none.mp hnew other hother (hid.trans (of_decide_eq_true heq))
  have hall : rows.filter (fun c => c.configId = config.id) = rows := by
    refine List.filter_eq_self.mpr fun c hc => ?_
    obtain ⟨schema, -, hrow⟩ := Option.mapM_mem hrows hc
    exact decide_eq_true (criterionRow_configId hrow)
  rw [DealDb.criteriaOf, hcriteria, List.filter_append, hold, hall, List.nil_append]

/-- The loop starts with the new config and all waiting deals. -/
theorem ready_configured (hsound : db.Sound) (hfresh : ∀ i, db.scoreById (draw.scoreIds i) = none)
    (htenant : config.tenantId = tenantId) (hactive : config.isActive = true)
    (hnew : db.configById config.id = none)
    (hrows : body.criteria.mapM (criterionRow config.id) = some rows) :
    Ready draw tenantId config rows 0 (waiting db tenantId)
      { db with
        criteriaConfigs := (db.deactivateConfigs tenantId).criteriaConfigs ++ [config]
        criteria := db.criteria ++ rows } where
  active := activeConfig_inserted htenant hactive rfl
  criteria := criteriaOf_inserted hsound hnew hrows rfl
  weights := stored_weight hrows
  found deal hdeal := by
    obtain ⟨hmem, hwaits⟩ := List.mem_filter.mp hdeal
    obtain ⟨htenant, hstatus⟩ := of_decide_eq_true hwaits
    exact ⟨htenant ▸ DealDb.deal_of_mem hsound.deals hmem, hstatus⟩
  distinct := hsound.deals.sublist List.filter_sublist
  fresh i _ := hfresh i

variable [Runtime]

/-- A request that returns has had its config taken. -/
theorem createCriteriaConfig_configured :
    Commits (createCriteriaConfig draw tenantId body) fun db _ _ =>
      ∃ db₁, configured draw tenantId body db = some db₁ := by
  refine (createCriteriaConfig_inserts rescoreExtractedDeals_commits).weaken fun db _ db' h => ?_
  obtain ⟨name, db₁, db₂, hname, hinsert, hcriteria, -⟩ := h
  exact ⟨db₂, Option.bind_eq_some_iff.mpr ⟨name, hname,
    Option.bind_eq_some_iff.mpr ⟨db₁, hinsert, hcriteria⟩⟩⟩

omit [Runtime] in
/-- The writes of a config that is taken go through. -/
theorem configured_writes (h : configured draw tenantId body db = some db₁) :
    ∃ db₂, (write (fun d => do
        let name ← PgText.ofStr (text body.name)
        d.insertConfig
          { id := draw.configId, tenantId, isActive := true, name,
            version := ((Table.latest CriteriaConfig.version (db.configsOf tenantId)).map
              (·.version)).getD 0 + 1 }) : ServiceM Unit) ⟨db.deactivateConfigs tenantId, false, false⟩ =
        (.ok (), ⟨db₂, false, false⟩) ∧
      (writeAll (body.criteria.map fun c db =>
        (criterionRow draw.configId c).bind (DealDb.insertCriterion db)) : ServiceM Unit)
          ⟨db₂, false, false⟩ = (.ok (), ⟨db₁, false, false⟩) := by
  obtain ⟨name, hname, h⟩ := Option.bind_eq_some_iff.mp h
  obtain ⟨db₂, hinsert, hcriteria⟩ := Option.bind_eq_some_iff.mp h
  exact ⟨db₂, run_write (Option.bind_eq_some_iff.mpr ⟨name, hname, hinsert⟩), run_writeAll hcriteria⟩

/-- With a config that is taken, the request commits what its loop leaves. -/
theorem createCriteriaConfig_settled (h : configured draw tenantId body db = some db₁)
    (hloop : rescoreDeals draw tenantId 0 ((waiting db₁ tenantId).map Deal.id) ⟨db₁, false, false⟩ =
      (.ok (), ⟨db', false, false⟩)) (hconfig : (db'.configById draw.configId).isSome = true) :
    ∃ response, transaction (createCriteriaConfig draw tenantId body) db = (.ok response, db') := by
  obtain ⟨config, hconfig⟩ := Option.isSome_iff_exists.mp hconfig
  obtain ⟨db₂, hinsert, hcriteria⟩ := configured_writes h
  have hids : db₁.dealIds tenantId .extracted = (waiting db₁ tenantId).map Deal.id := rfl
  refine ⟨(config, db'.criteriaOf config.id), transaction_ok ?_⟩
  unfold createCriteriaConfig getLatestVersion rescoreExtractedDeals
  simp only [run_bind, run_select, run_update, hinsert, run_flush, hcriteria, hids, hloop, hconfig,
    run_pure]

/-- With a session that its loop has lost, it raises. -/
theorem createCriteriaConfig_lost {s : SessionState DealDb}
    (h : configured draw tenantId body db = some db₁)
    (hloop : rescoreDeals draw tenantId 0 ((waiting db₁ tenantId).map Deal.id) ⟨db₁, false, false⟩ =
      (.ok (), s)) (hfailed : s.failed = true) :
    ∃ x, transaction (createCriteriaConfig draw tenantId body) db = (.error x, db) := by
  obtain ⟨db₂, hinsert, hcriteria⟩ := configured_writes h
  have hids : db₁.dealIds tenantId .extracted = (waiting db₁ tenantId).map Deal.id := rfl
  refine ⟨.pendingRollback, transaction_error (s := s) ?_⟩
  unfold createCriteriaConfig getLatestVersion rescoreExtractedDeals
  simp only [run_bind, run_select, run_update, hinsert, run_flush, hcriteria, hids, hloop,
    run_select_failed hfailed]

/-- A waiting deal that can be scored has been when all are settled. -/
theorem Ready.scored_of_settled {deal : Deal}
    (hready : Ready draw tenantId config rows 0 (waiting db tenantId) db₁)
    (hsettled : Rescored rows config.id (waiting db tenantId) db₁ db')
    (hdeal : deal ∈ waiting db tenantId) (hscorable : Scorable rows (fieldsFor db₁ deal)) :
    ∃ deal', db'.dealById deal.id = some deal' ∧ deal'.status = .scored := by
  obtain ⟨ev, -, hok, -, -⟩ := (hready.recordable_iff hdeal).mpr hscorable
  cases hsettled.settled deal hdeal with
  | @scored score ev' hev habout hconfig hdossier =>
    have hsome := DealDb.dealById_isSome (hready.found deal hdeal).1
    obtain ⟨d, hd⟩ := Option.isSome_iff_exists.mp hsome
    refine ⟨(scoreChange deal score ev').update d, ?_, rfl⟩
    exact (congrArg Dossier.deal hdossier).trans (Dossier.apply_deal hd)
  | raised hev hsame => cases hok.symm.trans hev

/-- A request whose config is taken settles all waiting deals or, where a score is refused,
    changes nothing. -/
theorem createCriteriaConfig_cases (hsound : db.Sound)
    (hfresh : ∀ i, db.scoreById (draw.scoreIds i) = none) (hids : Function.Injective draw.scoreIds)
    (h : configured draw tenantId body db = some db₁) :
    ((∀ deal ∈ waiting db tenantId, ¬ Refused (db₁.criteriaOf draw.configId) (fieldsFor db deal)) ∧
      ∃ response db', transaction (createCriteriaConfig draw tenantId body) db = (.ok response, db') ∧
        TouchesOnly draw tenantId body db db' ∧ Isolated draw tenantId body db db') ∨
    ((∃ deal ∈ waiting db tenantId, Refused (db₁.criteriaOf draw.configId) (fieldsFor db deal)) ∧
      ∃ x, transaction (createCriteriaConfig draw tenantId body) db = (.error x, db)) := by
  obtain ⟨config, rows, hid, htenant, hactive, hnew, hrows, hdb₁⟩ := configured_eq_some h
  have hready := ready_configured hsound hfresh htenant hactive hnew hrows
  rw [← hdb₁] at hready
  have hcriteria : db₁.criteriaOf draw.configId = rows := hid ▸ hready.criteria
  have hwaiting : waiting db₁ tenantId = waiting db tenantId := by rw [hdb₁]; rfl
  have hfields : ∀ deal, fieldsFor db₁ deal = fieldsFor db deal := fun deal => by rw [hdb₁]; rfl
  simp only [hcriteria, ← hfields]
  by_cases hrefused : ∃ deal ∈ waiting db tenantId, Refused rows (fieldsFor db₁ deal)
  · obtain ⟨s, hloop, hfailed⟩ := hready.lost hids hrefused
    rw [← hwaiting] at hloop
    exact .inr ⟨hrefused, createCriteriaConfig_lost h hloop hfailed⟩
  · have hnone : ∀ deal ∈ waiting db tenantId, ¬ Refused rows (fieldsFor db₁ deal) :=
      fun deal hdeal hbad => hrefused ⟨deal, hdeal, hbad⟩
    obtain ⟨db', hloop, hsettled⟩ := hready.run hids hnone
    rw [← hwaiting] at hloop
    have hconfig : (db'.configById draw.configId).isSome = true := by
      rw [← hid, DealDb.configById, hsettled.configs]
      exact configById_activeConfig hready.active
    obtain ⟨response, hrun⟩ := createCriteriaConfig_settled h hloop hconfig
    refine .inl ⟨hnone, response, db', hrun, ?_, ?_⟩
    · have hafter : db'.criteriaOf config.id = rows := by
        rw [DealDb.criteriaOf, hsettled.criteria]
        exact hready.criteria
      exact ⟨config, rows, hid, htenant, hactive, hnew, hrows, hafter, hdb₁ ▸ hsettled⟩
    · intro db₂ h₂ deal hdeal hscorable
      cases h.symm.trans h₂
      rw [hcriteria, ← hfields] at hscorable
      exact hready.scored_of_settled hsettled hdeal hscorable

/-- A request that commits touches the config, its criteria and the waiting deals, and no
    deal keeps another from its score as long as no score is refused. -/
theorem config_isolated_iff (hsound : db.Sound)
    (hfresh : ∀ i, db.scoreById (draw.scoreIds i) = none) (hids : Function.Injective draw.scoreIds) :
    ((∀ response db', transaction (createCriteriaConfig draw tenantId body) db = (.ok response, db') →
        TouchesOnly draw tenantId body db db') ∧
      Isolated draw tenantId body db (transaction (createCriteriaConfig draw tenantId body) db).2) ↔
    ∀ db₁, configured draw tenantId body db = some db₁ →
      (∀ deal ∈ waiting db tenantId,
        ¬ Refused (db₁.criteriaOf draw.configId) (fieldsFor db deal)) ∨
      ∀ deal ∈ waiting db tenantId,
        ¬ Scorable (db₁.criteriaOf draw.configId) (fieldsFor db deal) := by
  constructor
  · rintro ⟨-, hisolated⟩ db₁ h
    rcases createCriteriaConfig_cases hsound hfresh hids h with ⟨hnone, -⟩ | ⟨-, x, hrun⟩
    · exact .inl hnone
    · refine .inr fun deal hdeal hscorable => ?_
      rw [hrun] at hisolated
      obtain ⟨deal', hdeal', hstatus⟩ := hisolated db₁ h deal hdeal hscorable
      -- Nothing is committed, so the deal still waits.
      obtain ⟨hmem, hwaits⟩ := List.mem_filter.mp hdeal
      cases (Table.lookup_of_mem hsound.deals hmem).symm.trans hdeal'
      rw [(of_decide_eq_true hwaits).2] at hstatus
      cases hstatus
  · intro hcondition
    refine ⟨fun response db' hrun => ?_, fun db₁ h deal hdeal hscorable => ?_⟩
    · obtain ⟨db₁, h⟩ := createCriteriaConfig_configured.transaction hrun
      rcases createCriteriaConfig_cases hsound hfresh hids h with
        ⟨-, response', db'', hrun', htouches, -⟩ | ⟨-, x, hrun'⟩
      · cases hrun'.symm.trans hrun
        exact htouches
      · cases hrun'.symm.trans hrun
    · rcases createCriteriaConfig_cases hsound hfresh hids h with
        ⟨-, response', db'', hrun', -, hisolated⟩ | ⟨⟨other, hother, hrefused⟩, -⟩
      · rw [hrun']
        exact hisolated db₁ h deal hdeal hscorable
      · rcases hcondition db₁ h with hnone | hunscorable
        · exact absurd hrefused (hnone other hother)
        · exact absurd hscorable (hunscorable deal hdeal)

end

-- ---------------------------------------------------------------------------
-- Two deals
-- ---------------------------------------------------------------------------

def otherDeal : Deal := { ExtractionService.sampleDeal with id := 4, contentHash := "01" }

/-- Two deals of tenant 2 are extracted. The document of the second does not give the
    revenue. -/
def waitingDb : DealDb :=
  letI := asciiRuntime
  let found : String × String := ("FOUND", "HIGH")
  let uploaded := { DealDb.empty with deals := [ExtractionService.sampleDeal, otherDeal] }
  let first := (transaction (ExtractionService.processExtractionResult ExtractionService.sampleDeal
    (sampleResponse [found, found, found, found, found, found])) uploaded).2
  (transaction (ExtractionService.processExtractionResult otherDeal
    (sampleResponse [found, ("MISSING", "LOW"), found, found, found, found])) first).2

theorem sound_waitingDb : waitingDb.Sound where
  deals := by decide +kernel
  configs := by decide +kernel
  fields := by decide +kernel
  scores := by decide +kernel
  decisions := by decide +kernel
  audit := by decide +kernel
  criteria := by decide +kernel

def sampleConfigDraw : ConfigDraw := ⟨9, fun i => i, 0⟩

theorem fresh_waitingDb (i : Nat) : waitingDb.scoreById (sampleConfigDraw.scoreIds i) = none := by
  have hnone : waitingDb.dealScores = [] := by decide +kernel
  rw [DealDb.scoreById, hnone]
  rfl

/-- The criterion on the revenue, as a row of the new config. -/
def revenueRow (operator target : PgText) : Criterion :=
  { revenueCriterion with configId := 9, operator, targetValue := target }

/-- The criteria of the new config. -/
def newCriteria (body : CriteriaConfigCreateSchema) : Option (List Criterion) :=
  (configured sampleConfigDraw 2 body waitingDb).map fun db₁ => db₁.criteriaOf 9

theorem config_isolated_iff_number :
    letI := asciiRuntime
    Isolated sampleConfigDraw 2 (sampleBody "1000") waitingDb
      (transaction (createCriteriaConfig sampleConfigDraw 2 (sampleBody "1000")) waitingDb).2 := by
  let _ := asciiRuntime
  have hcriteria : newCriteria (sampleBody "1000") =
      some [revenueRow (.ofLiteral "gt" (by decide)) (.ofLiteral "1000" (by decide))] := by
    decide +kernel
  have hsound := sound_waitingDb
  have hfresh := fresh_waitingDb
  unfold newCriteria at hcriteria
  generalize waitingDb = db at *
  refine ((config_isolated_iff hsound hfresh fun _ _ h => h).mpr fun db₁ h => .inl ?_).2
  intro deal hdeal hrefused
  rw [h, Option.map_some] at hcriteria
  have hrows : db₁.criteriaOf sampleConfigDraw.configId = _ := Option.some.inj hcriteria
  refine hrefused.2 ?_
  rw [hrows, Scorable, List.forall_mem_singleton]
  refine ⟨by decide, fun value _ => ⟨.int 1000, rfl, ?_, Nat.zero_le _, nofun⟩⟩
  rintro - - n ⟨⟩
  decide

/-- The revenue is to be a NUL. -/
def nulBody : CriteriaConfigCreateSchema :=
  { sampleBody "\"\\u0000\"" with
    criteria := (sampleBody "\"\\u0000\"").criteria.map fun c =>
      { c with operator := "eq", operator_valid := by decide }
    criteria_length := by simp [sampleBody] }

/-- The database does not take the score of the first deal, and with it the score of the
    second and the config are lost. -/
theorem refused_score_stops_others :
    ¬ ∀ (_ : Runtime) (draw : ConfigDraw) (tenantId : Uuid) (body : CriteriaConfigCreateSchema)
        (db : DealDb),
      db.Sound → (∀ i, db.scoreById (draw.scoreIds i) = none) → Function.Injective draw.scoreIds →
      (∀ response db', transaction (createCriteriaConfig draw tenantId body) db = (.ok response, db') →
          TouchesOnly draw tenantId body db db') ∧
        Isolated draw tenantId body db
          (transaction (createCriteriaConfig draw tenantId body) db).2 := by
  intro h
  let _ := asciiRuntime
  obtain ⟨hcriteria, hwaits, hmissing, hafter⟩ :
      newCriteria nulBody = some [revenueRow (.ofLiteral "eq" (by decide))
          (.ofLiteral "\"\\u0000\"" (by decide))] ∧
      otherDeal.setStatus .extracted ∈ waiting waitingDb 2 ∧
      evaluatedValue (fieldsFor waitingDb otherDeal) revenueCriterion = none ∧
      ((transaction (createCriteriaConfig sampleConfigDraw 2 nulBody) waitingDb).2.dealById 4).map
        Deal.status = some .extracted := by
    decide +kernel
  have hsound := sound_waitingDb
  have hfresh := fresh_waitingDb
  unfold newCriteria at hcriteria
  generalize waitingDb = db at *
  obtain ⟨-, hisolated⟩ := h asciiRuntime sampleConfigDraw 2 nulBody db hsound hfresh fun _ _ h => h
  obtain ⟨db₁, hconfigured, hcriteria⟩ := Option.map_eq_some_iff.mp hcriteria
  have hrows : db₁.criteriaOf sampleConfigDraw.configId = _ := hcriteria
  have hscorable : Scorable (db₁.criteriaOf sampleConfigDraw.configId) (fieldsFor db otherDeal) := by
    rw [hrows, Scorable, List.forall_mem_singleton]
    refine ⟨by decide, fun value hvalue => ?_⟩
    cases hmissing.symm.trans hvalue
  obtain ⟨deal', hdeal', hscored⟩ := hisolated db₁ hconfigured _ hwaits hscorable
  obtain ⟨deal, hdeal, hextracted⟩ := Option.map_eq_some_iff.mp hafter
  cases hdeal.symm.trans hdeal'
  cases hscored.symm.trans hextracted

end Rescoring
