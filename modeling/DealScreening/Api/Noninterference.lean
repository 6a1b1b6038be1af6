-- SUMMARY: What a tenant's requests answer and leave depends on the tenant's rows alone, and no other row changes.
import DealScreening.Api.Criteria
import DealScreening.Api.DealCards
import DealScreening.Api.UploadOutcome
import DealScreening.Lib.Relational
import DealScreening.Models.Ownership

/-!
# Noninterference

Every request of a tenant runs on the whole database as it would on the tenant's
rows alone. So databases that agree on these rows give the same answers.
-/

namespace Noninterference

open Python Session DealDb

section
variable {tenantId : Uuid} {theirs : DealDb} {ε α : Type}

/-- The body does on the tenant's rows what it does on all. -/
abbrev Local (tenantId : Uuid) (theirs : DealDb) (m : Session DealDb ε α)
    (Q : α → DealDb → DealDb → Prop) : Prop :=
  Together (Part tenantId theirs) m m Q (Part tenantId theirs)

/-- It returns a value with a property. -/
abbrev Returns (tenantId : Uuid) (theirs : DealDb) (m : Session DealDb ε α) (P : α → Prop) : Prop :=
  Local tenantId theirs m fun a d d' => Part tenantId theirs d d' ∧ P a

theorem local_select {q : DealDb → α} (hq : ∀ d d', Part tenantId theirs d d' → q d' = q d)
    {P : α → Prop} (hP : ∀ d d', Part tenantId theirs d d' → P (q d)) :
    Returns tenantId theirs (select q : Session DealDb ε α) P :=
  (together_select hq fun _ _ h => h).weaken (fun _ _ h => h)
    (fun _ d d' h => ⟨h.1, h.2 ▸ hP d d' h.1⟩) fun _ _ h => h

theorem local_write {w : DealDb → Option DealDb}
    (h : ∀ d d', Part tenantId theirs d d' → InStep tenantId theirs d d' w) :
    Local tenantId theirs (write w : Session DealDb ε Unit) fun _ => Part tenantId theirs :=
  together_write h

/-- What follows a value with a property. -/
theorem Returns.bind {β : Type} {m : Session DealDb ε α} {f : α → Session DealDb ε β} {P : α → Prop}
    {Q : β → DealDb → DealDb → Prop} (h : Returns tenantId theirs m P)
    (hf : ∀ a, P a → Local tenantId theirs (f a) Q) : Local tenantId theirs (m >>= f) Q := by
  refine Together.bind h fun a s s' hpre hrefused hfailed => ?_
  exact hf a hpre.2 s s' hpre.1 hrefused hfailed

theorem returns_pure {a : α} {P : α → Prop} (h : P a) :
    Returns tenantId theirs (Pure.pure a : Session DealDb ε α) P :=
  together_pure fun _ _ hpart => ⟨hpart, h⟩

end

-- ---------------------------------------------------------------------------
-- Scoring
-- ---------------------------------------------------------------------------

section
open ScoringService CriteriaApi DealsApi
variable {tenantId dealId : Uuid} {theirs : DealDb}

/-- A deal of the tenant, under an id that no other tenant has. -/
def Own (tenantId : Uuid) (theirs : DealDb) (dealId : Uuid) (deal : Deal) : Prop :=
  deal.id = dealId ∧ deal.tenantId = tenantId ∧ theirs.NoDeal deal.id

theorem select_deal {P : Option Deal → Prop} (hnone : P none)
    (hsome : ∀ deal, Own tenantId theirs dealId deal → P (some deal)) :
    Returns tenantId theirs (select fun db => db.deal dealId tenantId : ServiceM (Option Deal)) P := by
  refine local_select (fun d d' h => h.part ▸ deal_rowsOf) fun d d' h => ?_
  cases hdeal : d.deal dealId tenantId with
  | none => exact hnone
  | some deal =>
    obtain ⟨hid, htenant⟩ := deal_key hdeal
    exact hsome deal ⟨hid, htenant, h.noDeal (List.mem_of_find?_eq_some hdeal) htenant⟩

theorem loadDeal_returns :
    Returns tenantId theirs (loadDeal dealId tenantId) (Own tenantId theirs dealId) := by
  unfold loadDeal
  refine (select_deal (P := fun o => ∀ deal, o = some deal → Own tenantId theirs dealId deal) nofun
    fun deal hown _ heq => Option.some.inj heq ▸ hown).bind fun o hown => ?_
  cases o with
  | none => exact together_raise fun _ _ h => h
  | some deal =>
    by_cases hstatus : deal.status = .extracted
    · simp only [hstatus, ne_eq, not_true_eq_false, if_false]
      exact returns_pure (hown deal rfl)
    · simp only [ne_eq, hstatus, not_false_eq_true, if_true]
      exact together_raise fun _ _ h => h

/-- The active config is the tenant's. -/
theorem select_activeConfig :
    Returns tenantId theirs
      (select fun db => db.activeConfig tenantId : ServiceM (Option CriteriaConfig))
      fun o => ∀ config, o = some config → theirs.NoConfig config.id := by
  refine local_select (fun d d' h => h.part ▸ activeConfig_rowsOf) fun d d' h config heq => ?_
  obtain ⟨hmem, htenant⟩ := activeConfig_mem heq
  exact h.noConfig hmem htenant

theorem select_criteria {configId : Uuid} (hno : theirs.NoConfig configId) :
    Returns tenantId theirs (select fun db => db.criteriaOf configId : ServiceM (List Criterion))
      fun _ => True :=
  local_select (fun _ _ h => h.criteriaOf hno) fun _ _ _ => trivial

theorem loadActiveConfig_returns :
    Returns tenantId theirs (loadActiveConfig tenantId)
      fun o => ∀ config criteria, o = some (config, criteria) → theirs.NoConfig config.id := by
  unfold loadActiveConfig
  refine select_activeConfig.bind fun o hno => ?_
  cases o with
  | none => exact returns_pure nofun
  | some config =>
    refine (select_criteria (hno config rfl)).bind fun criteria _ => returns_pure ?_
    rintro _ _ ⟨⟩
    exact hno config rfl

theorem loadExtractedFields_returns (hno : theirs.NoDeal dealId) :
    Returns tenantId theirs (loadExtractedFields dealId) fun _ => True := by
  unfold loadExtractedFields
  have hrows : Returns tenantId theirs
      (select fun db => db.fieldsOf dealId : ServiceM (List ExtractedField)) fun _ => True :=
    local_select (fun _ _ h => h.fieldsOf hno) fun _ _ _ => trivial
  exact hrows.bind fun rows _ => returns_pure trivial

/-- No row of another tenant has the id of a score. -/
def NoScore (theirs : DealDb) (scoreId : Uuid) : Prop := ∀ s ∈ theirs.dealScores, s.id ≠ scoreId

theorem setStatus_local {deal : Deal} {status : DealStatus} (hno : theirs.NoDeal deal.id) :
    Local tenantId theirs
      (update fun db => db.updateDeal deal.id (Deal.setStatus status) : ServiceM Unit)
      fun _ => Part tenantId theirs :=
  together_update fun _ _ h => h.updateDeal hno (Deal.setStatus_id status) fun _ => rfl

theorem persistScore_local {draw : ScoreDraw} {deal : Deal} {configId : Uuid} {ev : Evaluation}
    (hno : theirs.NoDeal deal.id) (hconfig : theirs.NoConfig configId)
    (hscore : NoScore theirs draw.scoreId) :
    Local tenantId theirs (persistScore draw deal configId ev) fun _ => Part tenantId theirs := by
  unfold persistScore
  have hinsert : Local tenantId theirs
      (write fun db => (scoreRow draw deal.id configId ev).bind db.insertScore : ServiceM Unit)
      fun _ => Part tenantId theirs := by
    refine local_write fun d d' h => ?_
    cases hrow : scoreRow draw deal.id configId ev with
    | none => exact .inr ⟨rfl, rfl, h⟩
    | some score =>
      obtain ⟨-, hid, hdeal, hconfigId, -⟩ := scoreRow_eq_some hrow
      exact h.insertScore (hdeal ▸ hno) (hconfigId ▸ hconfig) (hid ▸ hscore)
  refine hinsert.bind fun _ => (setStatus_local hno).bind fun _ => ?_
  refine Together.bind (local_write fun d d' h => h.insertAudit hno) fun _ => ?_
  exact together_flush fun _ _ h => h

theorem scoreDeal_local [Runtime] {draw : ScoreDraw} (hscore : NoScore theirs draw.scoreId) :
    Returns tenantId theirs (scoreDeal draw dealId tenantId) fun _ => True := by
  unfold scoreDeal
  refine loadDeal_returns.bind fun deal hown => ?_
  refine loadActiveConfig_returns.bind fun o hconfig => ?_
  cases o with
  | none => exact returns_pure trivial
  | some found =>
    obtain ⟨config, criteria⟩ := found
    obtain ⟨rfl, -, hno⟩ := hown
    refine (loadExtractedFields_returns hno).bind fun fields _ => ?_
    refine Together.bind (together_ofExcept (fun _ _ _ _ h => h) fun _ _ h => h) fun ev => ?_
    refine Together.bind (persistScore_local hno (hconfig config criteria rfl) hscore) fun _ => ?_
    exact returns_pure trivial

-- ---------------------------------------------------------------------------
-- Configs
-- ---------------------------------------------------------------------------

theorem rescoreDeals_local [Runtime] {draw : ConfigDraw} (hscores : ∀ i, NoScore theirs (draw.scoreIds i))
    (i : Nat) (dealIds : List Uuid) :
    Local tenantId theirs (rescoreDeals draw tenantId i dealIds) fun _ => Part tenantId theirs := by
  induction dealIds generalizing i with
  | nil => exact together_pure fun _ _ h => h
  | cons dealId dealIds ih =>
    unfold rescoreDeals
    refine Together.bind (Q := fun _ => Part tenantId theirs) ?_ fun _ => ih (i + 1)
    refine Together.tryCatch (E := Part tenantId theirs) ?_ fun _ => together_pure fun _ _ h => h
    exact (scoreDeal_local (hscores i)).bind fun _ _ => together_pure fun _ _ h => h

theorem createCriteriaConfig_local [Runtime] {draw : ConfigDraw} {body : CriteriaConfigCreateSchema}
    (hconfig : theirs.NoConfig draw.configId) (hscores : ∀ i, NoScore theirs (draw.scoreIds i)) :
    Returns tenantId theirs (createCriteriaConfig draw tenantId body) fun _ => True := by
  unfold createCriteriaConfig
  have hversion : Returns tenantId theirs (getLatestVersion tenantId) fun _ => True :=
    local_select (fun d d' h => by rw [h.part, configsOf_rowsOf]) fun _ _ _ => trivial
  refine hversion.bind fun latestVersion _ => ?_
  refine Together.bind (together_update fun _ _ h => h.deactivateConfigs) fun _ => ?_
  refine Together.bind (local_write fun d d' h => ?_) fun _ => ?_
  · cases hname : PgText.ofStr (text body.name) with
    | none => exact .inr ⟨rfl, rfl, h⟩
    | some name => exact h.insertConfig rfl hconfig
  refine Together.bind (together_flush fun _ _ h => h) fun _ => ?_
  refine Together.bind (together_writeAll fun c _ d d' h => ?_) fun _ => ?_
  · cases hrow : criterionRow draw.configId c with
    | none => exact .inr ⟨rfl, rfl⟩
    | some criterion =>
      have hno : theirs.NoConfig criterion.configId := (criterionRow_configId hrow).symm ▸ hconfig
      exact (h.insertCriterion hno).imp id fun hnone => ⟨hnone.1, hnone.2.1⟩
  refine Together.bind (together_flush fun _ _ h => h) fun _ => ?_
  refine Together.bind (Q := fun _ => Part tenantId theirs) ?_ fun _ => ?_
  · have hids : Returns tenantId theirs
        (select fun db => db.dealIds tenantId .extracted : ServiceM (List Uuid)) fun _ => True :=
      local_select (fun d d' h => h.part ▸ dealIds_rowsOf) fun _ _ _ => trivial
    exact hids.bind fun dealIds _ => rescoreDeals_local hscores 0 dealIds
  have hreload : Returns tenantId theirs
      (select fun db => db.configById draw.configId : ServiceM (Option CriteriaConfig))
      fun o => ∀ config, o = some config → theirs.NoConfig config.id := by
    refine local_select (fun d d' h => h.configById hconfig) fun d d' h config heq => ?_
    exact (Table.lookup_key heq).symm ▸ hconfig
  refine hreload.bind fun o hno => ?_
  cases o with
  | none => exact together_raise fun _ _ h => h
  | some config =>
    exact (select_criteria (hno config rfl)).bind fun criteria _ => returns_pure trivial

theorem getActiveConfig_local :
    Returns tenantId theirs (getActiveConfig tenantId) fun _ => True := by
  unfold getActiveConfig
  refine select_activeConfig.bind fun o hno => ?_
  cases o with
  | none => exact together_raise fun _ _ h => h
  | some config =>
    exact (select_criteria (hno config rfl)).bind fun criteria _ => returns_pure trivial

theorem configResponses_local {configs : List CriteriaConfig}
    (hno : ∀ config ∈ configs, theirs.NoConfig config.id) :
    Returns tenantId theirs (configResponses configs) fun _ => True := by
  induction configs with
  | nil => exact returns_pure trivial
  | cons config configs ih =>
    unfold configResponses
    refine (select_criteria (hno config (List.mem_cons_self ..))).bind fun criteria _ => ?_
    refine (ih fun c hc => hno c (List.mem_cons_of_mem config hc)).bind fun responses _ => ?_
    exact returns_pure trivial

theorem getConfigHistory_local {order : Table.RowOrder} :
    Returns tenantId theirs (getConfigHistory order tenantId) fun _ => True := by
  unfold getConfigHistory
  have hconfigs : Returns tenantId theirs
      (select fun db => Table.orderBy order (fun c c' => c'.version ≤ c.version)
        (db.configsOf tenantId) : ServiceM (List CriteriaConfig))
      fun configs => ∀ config ∈ configs, theirs.NoConfig config.id := by
    refine local_select (fun d d' h => by rw [h.part, configsOf_rowsOf]) fun d d' h config hmem => ?_
    obtain ⟨hmem, htenant⟩ := List.mem_filter.mp (Table.orderBy_perm.mem_iff.mp hmem)
    exact h.noConfig hmem (of_decide_eq_true htenant)
  exact hconfigs.bind fun configs hno => configResponses_local hno

-- ---------------------------------------------------------------------------
-- Deals
-- ---------------------------------------------------------------------------

theorem getDealOr404_returns :
    Returns tenantId theirs (getDealOr404 dealId tenantId) (Own tenantId theirs dealId) := by
  unfold getDealOr404
  refine (select_deal (P := fun o => ∀ deal, o = some deal → Own tenantId theirs dealId deal) nofun
    fun deal hown _ heq => Option.some.inj heq ▸ hown).bind fun o hown => ?_
  cases o with
  | none => exact together_raise fun _ _ h => h
  | some deal => exact returns_pure (hown deal rfl)

theorem buildDealCard_local {order : Table.RowOrder} {deal : Deal} (hno : theirs.NoDeal deal.id) :
    Returns tenantId theirs (buildDealCard order deal) fun _ => True := by
  unfold buildDealCard getLatestExtractedFields
  have hfields : Returns tenantId theirs
      (select fun db => Table.orderBy order (fun f g => g.extractionRun ≤ f.extractionRun)
        (db.fieldsOf deal.id) : ServiceM (List ExtractedField)) fun _ => True :=
    local_select (fun _ _ h => by rw [h.fieldsOf hno]) fun _ _ _ => trivial
  have hscore : Returns tenantId theirs (getLatestScore deal.id) fun _ => True :=
    local_select (fun _ _ h => by rw [h.scoresOf hno]) fun _ _ _ => trivial
  have hdecision : Returns tenantId theirs (getLatestDecision deal.id) fun _ => True :=
    local_select (fun _ _ h => by rw [h.decisionsOf hno]) fun _ _ _ => trivial
  refine Returns.bind (P := fun _ => True) (hfields.bind fun rows _ => returns_pure trivial)
    fun fields _ => ?_
  exact hscore.bind fun latestScore _ => hdecision.bind fun latestDecision _ => returns_pure trivial

theorem getDeal_local {order : Table.RowOrder} :
    Returns tenantId theirs (getDeal order dealId tenantId) fun _ => True :=
  getDealOr404_returns.bind fun _ hown => buildDealCard_local hown.2.2

theorem buildDealCards_local {order : Table.RowOrder} {deals : List Deal}
    (hno : ∀ deal ∈ deals, theirs.NoDeal deal.id) :
    Returns tenantId theirs (buildDealCards order deals) fun _ => True := by
  induction deals with
  | nil => exact returns_pure trivial
  | cons deal deals ih =>
    unfold buildDealCards
    refine (buildDealCard_local (hno deal (List.mem_cons_self ..))).bind fun card _ => ?_
    refine (ih fun d hd => hno d (List.mem_cons_of_mem deal hd)).bind fun cards _ => ?_
    exact returns_pure trivial

/-- The sort key of a tenant's deal does not depend on the scores of other tenants. -/
theorem sortedDeals_part {order : Table.RowOrder} {query : ListQuery} {d d' : DealDb}
    (h : Part tenantId theirs d d') :
    sortedDeals order tenantId query d' = sortedDeals order tenantId query d := by
  have hkey : ∀ deal ∈ d.deals, deal.tenantId = tenantId →
      sortKey d' query deal = sortKey d query deal := by
    intro deal hdeal htenant
    unfold sortKey maxScore
    rw [h.scoresOf (h.noDeal hdeal htenant)]
  have hselected : d'.deals.filter (fun x =>
        x.tenantId = tenantId ∧ query.status.all fun status => x.status = status) =
      d.deals.filter fun x =>
        x.tenantId = tenantId ∧ query.status.all fun status => x.status = status := by
    simp only [h.part, rowsOf, restrict, List.filter_filter]
    refine List.filter_congr fun x _ => ?_
    by_cases htenant : x.tenantId = tenantId <;> simp [htenant]
  unfold sortedDeals joinedDeals
  rw [hselected]
  refine congrArg (fun rows => (Table.orderBy order _ rows).map Prod.fst)
    (List.map_congr_left fun deal hdeal => ?_)
  obtain ⟨hdeal, hwhere⟩ := List.mem_filter.mp hdeal
  rw [hkey deal hdeal (of_decide_eq_true hwhere).1]

theorem listDeals_local {order : Table.RowOrder} {query : ListQuery} :
    Returns tenantId theirs (listDeals order tenantId query) fun _ => True := by
  unfold listDeals
  have hdeals : Returns tenantId theirs
      (select fun db => ((sortedDeals order tenantId query db).drop query.offset).take query.limit :
        ServiceM (List Deal)) fun deals => ∀ deal ∈ deals, theirs.NoDeal deal.id := by
    refine local_select (fun d d' h => by rw [sortedDeals_part h]) fun d d' h deal hmem => ?_
    obtain ⟨row, hrow, rfl⟩ := List.mem_map.mp (List.mem_of_mem_drop (List.mem_of_mem_take hmem))
    obtain ⟨deal, hdeal, rfl⟩ := List.mem_map.mp (Table.orderBy_perm.mem_iff.mp hrow)
    obtain ⟨hdeal, hwhere⟩ := List.mem_filter.mp hdeal
    exact h.noDeal hdeal (of_decide_eq_true hwhere).1
  exact hdeals.bind fun deals hno => buildDealCards_local hno

theorem decideDeal_local {readUuid : String → Option Uuid} {now : Time} {userId : String}
    {body : DealDecisionRequest} :
    Returns tenantId theirs (decideDeal readUuid now dealId tenantId userId body) fun _ => True := by
  unfold decideDeal
  refine getDealOr404_returns.bind fun deal hown => ?_
  obtain ⟨rfl, -, hno⟩ := hown
  split
  · exact together_raise fun _ _ h => h
  have hlatest : Together (Part tenantId theirs) (getLatestScore deal.id) (getLatestScore deal.id)
      (fun o d d' => Part tenantId theirs d d' ∧ ∀ score, o = some score → score ∈ d.scoresOf deal.id)
      (Part tenantId theirs) := by
    refine (together_select (fun _ _ h => by rw [h.scoresOf hno]) fun _ _ h => h).weaken
      (fun _ _ h => h) (fun o d d' h => ⟨h.1, fun score heq => ?_⟩) fun _ _ h => h
    exact Table.latest_mem (h.2.symm.trans heq)
  refine Together.bind hlatest fun latestScore => ?_
  refine Together.bind (Q := fun _ => Part tenantId theirs) ?_ fun _ => returns_pure trivial
  unfold persistDecision
  refine Together.bind (Q := fun _ => Part tenantId theirs) (together_write fun d d' h => ?_) fun _ => ?_
  · cases hrow : decisionRow readUuid now deal.id userId body latestScore with
    | none => exact .inr ⟨rfl, rfl, h.1⟩
    | some decision =>
      obtain ⟨hid, hscoreId⟩ := decisionRow_eq_some hrow
      refine h.1.insertDecision (hid.symm ▸ hno) fun id heq => ?_
      rw [hscoreId, Option.map_eq_some_iff] at heq
      obtain ⟨score, hscore, rfl⟩ := heq
      exact ⟨score, hid.symm ▸ h.2 score hscore, rfl⟩
  refine Together.bind (setStatus_local hno) fun _ => ?_
  refine Together.bind (local_write fun d d' h => h.insertAudit hno) fun _ => ?_
  exact together_flush fun _ _ h => h

end

-- ---------------------------------------------------------------------------
-- Uploads
-- ---------------------------------------------------------------------------

/-- The tenant's jobs. -/
def jobsOf (tenantId : Uuid) (jobs : Queue.Jobs ExtractionJob) : Queue.Jobs ExtractionJob :=
  jobs.filter fun job => job.tenantId = some (Uuid.str tenantId)

def jobsOfOthers (tenantId : Uuid) (jobs : Queue.Jobs ExtractionJob) : Queue.Jobs ExtractionJob :=
  jobs.filter fun job => job.tenantId ≠ some (Uuid.str tenantId)

/-- `w'` holds the tenant's rows and jobs in `w`. The disks may differ. -/
structure WorldPart (tenantId : Uuid) (theirs : DealDb) (theirJobs : Queue.Jobs ExtractionJob)
    (w w' : World) : Prop where
  tables : Part tenantId theirs w.db.tables w'.db.tables
  others : jobsOfOthers tenantId w.db.jobs = theirJobs
  jobs : w'.db.jobs = jobsOf tenantId w.db.jobs

section
open IngestionService UploadApi
variable {tenantId : Uuid} {theirs : DealDb} {theirJobs : Queue.Jobs ExtractionJob}
  {config : IngestionConfig} {draw : IngestDraw}

/-- The body does on the tenant's part of the world what it does on all. -/
abbrev LocalWorld {α : Type} (tenantId : Uuid) (theirs : DealDb)
    (theirJobs : Queue.Jobs ExtractionJob) (m : IngestM α) : Prop :=
  Together (WorldPart tenantId theirs theirJobs) m m (fun _ => WorldPart tenantId theirs theirJobs)
    (WorldPart tenantId theirs theirJobs)

/-- Nothing strikes. -/
theorem strike_local {here : Fault} : LocalWorld tenantId theirs theirJobs (strike none here) := by
  have hnone : strike none here = Session.pure () := if_neg (Option.some_ne_none here).symm
  rw [hnone]
  exact together_pure fun _ _ h => h

/-- What is done to the disk is done on both sides, each with its own directories. -/
theorem mkdir_local {dir : Path} : LocalWorld tenantId theirs theirJobs (mkdir none dir) :=
  fun s s' hpart hrefused hfailed =>
    ⟨.ok (), { s with view := _ }, { s' with view := _ }, rfl, rfl, hrefused, hfailed,
      ⟨hpart.tables, hpart.others, hpart.jobs⟩⟩

theorem storeFile_local {dealId : Uuid} {filename : Str} {content : Bytes} :
    LocalWorld tenantId theirs theirJobs (storeFile config none dealId filename content) := by
  unfold storeFile writeBytes
  refine Together.bind mkdir_local fun _ => ?_
  refine Together.bind (Q := fun _ => WorldPart tenantId theirs theirJobs) ?_ fun _ =>
    together_pure fun _ _ h => h
  split
  · exact together_raise fun _ _ h => h
  · refine Together.bind strike_local fun _ => ?_
    exact together_update fun _ _ h => ⟨h.tables, h.others, h.jobs⟩

/-- A write to the tables. -/
theorem insert_local {f : DealDb → Option DealDb}
    (h : ∀ d d', Part tenantId theirs d d' → InStep tenantId theirs d d' f) :
    LocalWorld tenantId theirs theirJobs (write (World.insert f)) := by
  refine together_write fun w w' hpart => ?_
  rcases h _ _ hpart.tables with ⟨e, e', he, he', hstep⟩ | ⟨hnone, hnone', -⟩
  · exact .inl ⟨{ w with db := { w.db with tables := e } }, { w' with db := { w'.db with tables := e' } },
      by simp only [World.insert, he, Option.map_some],
      by simp only [World.insert, he', Option.map_some], hstep, hpart.others, hpart.jobs⟩
  · exact .inr ⟨by simp only [World.insert, hnone, Option.map_none],
      by simp only [World.insert, hnone', Option.map_none], hpart⟩

/-- A job under an id that no other tenant's job has. -/
theorem insertJob_inStep {job : BackgroundJob ExtractionJob} {w w' : World}
    (h : WorldPart tenantId theirs theirJobs w w') (htenant : job.tenantId = some (Uuid.str tenantId))
    (hfresh : ∀ j ∈ theirJobs, j.jobId ≠ job.jobId) :
    (∃ v v', World.insertJob job w = some v ∧ World.insertJob job w' = some v' ∧
      WorldPart tenantId theirs theirJobs v v') ∨
    (World.insertJob job w = none ∧ World.insertJob job w' = none ∧
      WorldPart tenantId theirs theirJobs w w') := by
  obtain ⟨htables, rfl, hjobs⟩ := h
  have hsame : Queue.find w'.db.jobs job.jobId = Queue.find w.db.jobs job.jobId := by
    rw [hjobs]
    refine lookup_filter fun j hj => hfresh j ?_
    simpa [jobsOfOthers] using hj
  unfold World.insertJob
  rw [hsame]
  by_cases hfree : (Queue.find w.db.jobs job.jobId).isNone = true
  · simp only [hfree, if_true]
    refine .inl ⟨_, _, rfl, rfl, htables, ?_, ?_⟩
    · exact filter_snoc_neg (by simp [htenant])
    · refine (congrArg (· ++ [job]) hjobs).trans ?_
      exact (filter_snoc_pos (p := fun j : BackgroundJob ExtractionJob =>
        j.tenantId = some (Uuid.str tenantId)) (decide_eq_true htenant)).symm
  · simp only [hfree]
    exact .inr ⟨rfl, rfl, htables, rfl, hjobs⟩

theorem enqueueJob_local
    (hjobs : ∀ job ∈ theirJobs, job.jobId ≠ draw.jobId ∧
      job.idempotencyKey ≠ some (idempotencyKey draw.dealId)) :
    LocalWorld tenantId theirs theirJobs (enqueueJob none draw "extraction" ⟨draw.dealId, tenantId⟩
      (idempotencyKey draw.dealId) tenantId) := by
  unfold enqueueJob
  refine Together.bind strike_local fun _ => ?_
  rw [enqueue_job]
  have hhit : Together (WorldPart tenantId theirs theirJobs)
      (select fun w : World => Queue.idempotentHit w.db.jobs "extraction"
        (some (idempotencyKey draw.dealId)) : IngestM (Option (BackgroundJob ExtractionJob)))
      (select fun w : World => Queue.idempotentHit w.db.jobs "extraction"
        (some (idempotencyKey draw.dealId))) (fun _ => WorldPart tenantId theirs theirJobs)
      (WorldPart tenantId theirs theirJobs) := by
    refine (together_select (fun w w' h => ?_) fun _ _ h => h).weaken (fun _ _ h => h)
      (fun _ _ _ h => h.1) fun _ _ h => h
    have hothers := h.others
    simp only [Queue.idempotentHit, Option.bind_some, h.jobs]
    refine find?_filter_of_dropped fun job hjob => ?_
    have hne := (hjobs job (hothers ▸ by simpa [jobsOfOthers] using hjob)).2
    simp [hne]
  refine Together.bind hhit fun o => ?_
  cases o with
  | some existing => exact together_pure fun _ _ h => h
  | none =>
    refine Together.bind (Q := fun _ => WorldPart tenantId theirs theirJobs)
      (together_write fun w w' h => insertJob_inStep h rfl fun job hjob => (hjobs job hjob).1) fun _ => ?_
    exact Together.bind (together_flush fun _ _ h => h) fun _ => together_pure fun _ _ h => h

theorem ingestDeal_local [Runtime] {filename : Str} {content : Bytes} {contentType : Option Str}
    {sourceChannel : Str} {sourceSender : Option Str} (hno : theirs.NoDeal draw.dealId)
    (hjobs : ∀ job ∈ theirJobs, job.jobId ≠ draw.jobId ∧
      job.idempotencyKey ≠ some (idempotencyKey draw.dealId)) :
    LocalWorld tenantId theirs theirJobs (ingestDeal config none draw tenantId filename content
      contentType sourceChannel sourceSender) := by
  unfold ingestDeal checkDuplicate
  refine Together.bind (together_ofExcept (fun _ _ _ _ h => h) fun _ _ h => h) fun _ => ?_
  refine Together.bind (together_ofExcept (fun _ _ _ _ h => h) fun _ _ h => h) fun _ => ?_
  refine Together.bind (Q := fun _ => WorldPart tenantId theirs theirJobs) ?_ fun o => ?_
  · refine Together.bind strike_local fun _ => ?_
    refine (together_select (fun w w' h => ?_) fun _ _ h => h).weaken (fun _ _ h => h)
      (fun _ _ _ h => h.1) fun _ _ h => h
    rw [h.tables.part]
    exact dealByHash_rowsOf
  cases o with
  | some existing => exact together_pure fun _ _ h => h
  | none =>
    unfold ingestNew
    refine Together.bind storeFile_local fun filePath => ?_
    refine Together.bind (insert_local fun d d' h => ?_) fun _ => ?_
    · cases hrow : dealRow draw tenantId filename (Hashlib.sha256 content) filePath content.length
          sourceChannel sourceSender with
      | none => exact .inr ⟨rfl, rfl, h⟩
      | some deal =>
        obtain ⟨hid, htenant, -⟩ := dealRow_eq_some hrow
        exact h.insertDeal htenant (hid.symm ▸ hno)
    refine Together.bind (insert_local fun d d' h => h.insertAudit hno) fun _ => ?_
    refine Together.bind strike_local fun _ => Together.bind (together_flush fun _ _ h => h) fun _ => ?_
    exact Together.bind (enqueueJob_local hjobs) fun _ => together_pure fun _ _ h => h

theorem upload_local [Runtime] {validatePdf : PdfValidator} {file : UploadFile} {w w' : World}
    (hno : theirs.NoDeal draw.dealId)
    (hjobs : ∀ job ∈ theirJobs, job.jobId ≠ draw.jobId ∧
      job.idempotencyKey ≠ some (idempotencyKey draw.dealId))
    (hpart : WorldPart tenantId theirs theirJobs w w') :
    (upload config validatePdf none draw tenantId file w).1 =
        (upload config validatePdf none draw tenantId file w').1 ∧
      WorldPart tenantId theirs theirJobs (upload config validatePdf none draw tenantId file w).2
        (upload config validatePdf none draw tenantId file w').2 := by
  refine Together.transactionWith (E := WorldPart tenantId theirs theirJobs) ?_ hpart
    fun d d' => ⟨hpart.tables, hpart.others, hpart.jobs⟩
  refine Together.bind (Q := fun _ => WorldPart tenantId theirs theirJobs) ?_ fun _ =>
    Together.bind strike_local fun _ => Together.bind (together_flush fun _ _ h => h) fun _ =>
      together_pure fun _ _ h => h
  unfold uploadDeal
  refine Together.bind (together_ofExcept (fun _ _ _ _ h => h) fun _ _ h => h) fun fileCheck => ?_
  refine Together.bind (together_ofExcept (fun _ _ _ _ h => h) fun _ _ h => h) fun _ => ?_
  refine Together.tryCatch (ingestDeal_local hno hjobs) fun x => ?_
  unfold exceptIngestionError
  split
  · exact together_raise fun _ _ h => h
  · exact together_throw fun _ _ h => h

end

-- ---------------------------------------------------------------------------
-- Requests
-- ---------------------------------------------------------------------------

section
open IngestionService UploadApi DealsApi CriteriaApi ScoringService

/-- The requests of the pipeline, with the ids that they draw and their time. -/
inductive Operation where
  | upload (draw : IngestDraw) (file : UploadFile)
  | listDeals (query : ListQuery)
  | getDeal (dealId : Uuid)
  | decideDeal (now : Time) (dealId : Uuid) (body : DealDecisionRequest)
  | createCriteriaConfig (draw : ConfigDraw) (body : CriteriaConfigCreateSchema)
  | getActiveConfig
  | getConfigHistory

/-- What a request returns or raises. -/
inductive Response where
  | uploaded (r : Except (Exn UploadExn) IngestionResult)
  | cards (r : Except (Exn ServiceExn) (List DealCardSchema))
  | card (r : Except (Exn ServiceExn) DealCardSchema)
  | decision (r : Except (Exn ServiceExn) DecisionType)
  | config (r : Except (Exn ServiceExn) (CriteriaConfig × List Criterion))
  | configs (r : Except (Exn ServiceExn) (List (CriteriaConfig × List Criterion)))

/-- What is outside the program and the same for all requests. -/
structure Environment where
  config : IngestionConfig
  validatePdf : PdfValidator
  readUuid : String → Option Uuid
  order : Table.RowOrder

/-- The caller, as `require_auth` returns it. -/
structure Caller where
  tenantId : Uuid
  userId : String

/-- A request that is one transaction on the tables. -/
def onTables {α : Type} (response : Except (Exn ServiceExn) α → Response) (m : ServiceM α)
    (w : World) : Response × World :=
  (response (transaction m w.db.tables).1,
    { w with db := { w.db with tables := (transaction m w.db.tables).2 } })

/-- The response to a request, and the world after it. -/
def serve [Runtime] (env : Environment) (caller : Caller) (op : Operation) (w : World) :
    Response × World :=
  match op with
  | .upload draw file =>
    let r := UploadApi.upload env.config env.validatePdf none draw caller.tenantId file w
    (.uploaded r.1, r.2)
  | .listDeals query => onTables .cards (DealsApi.listDeals env.order caller.tenantId query) w
  | .getDeal dealId => onTables .card (DealsApi.getDeal env.order dealId caller.tenantId) w
  | .decideDeal now dealId body =>
    onTables .decision
      (DealsApi.decideDeal env.readUuid now dealId caller.tenantId caller.userId body) w
  | .createCriteriaConfig draw body =>
    onTables .config (CriteriaApi.createCriteriaConfig draw caller.tenantId body) w
  | .getActiveConfig => onTables .config (CriteriaApi.getActiveConfig caller.tenantId) w
  | .getConfigHistory =>
    onTables .configs (CriteriaApi.getConfigHistory env.order caller.tenantId) w

/-- Nothing uses the ids that a request draws. -/
def FreshIds (w : World) : Operation → Prop
  | .upload draw _ => w.db.tables.NoDeal draw.dealId ∧
    ∀ job ∈ w.db.jobs, job.jobId ≠ draw.jobId ∧
      job.idempotencyKey ≠ some (idempotencyKey draw.dealId)
  | .createCriteriaConfig draw _ =>
    w.db.tables.NoConfig draw.configId ∧ ∀ i, ∀ s ∈ w.db.tables.dealScores, s.id ≠ draw.scoreIds i
  | _ => True

/-- The worlds agree on the tenant's rows and jobs. -/
def Agree (tenantId : Uuid) (w w' : World) : Prop :=
  w.db.tables.rowsOf tenantId = w'.db.tables.rowsOf tenantId ∧
    jobsOf tenantId w.db.jobs = jobsOf tenantId w'.db.jobs

/-- No row or job of another tenant has changed. -/
def Spared (tenantId : Uuid) (w w' : World) : Prop :=
  w'.db.tables.rowsOfOthers tenantId = w.db.tables.rowsOfOthers tenantId ∧
    jobsOfOthers tenantId w'.db.jobs = jobsOfOthers tenantId w.db.jobs

/-- The tenant's rows and jobs alone, on an empty disk. -/
def alone (tenantId : Uuid) (w : World) : World :=
  ⟨⟨w.db.tables.rowsOf tenantId, jobsOf tenantId w.db.jobs⟩, ⟨[], []⟩⟩

variable [Runtime] {env : Environment} {caller : Caller} {op : Operation} {w w' w₁ w₂ : World}
  {theirs : DealDb} {theirJobs : Queue.Jobs ExtractionJob}

omit [Runtime] in
theorem onTables_local {α : Type} {response : Except (Exn ServiceExn) α → Response} {m : ServiceM α}
    {tenantId : Uuid} (h : Returns tenantId theirs m fun _ => True)
    (hpart : WorldPart tenantId theirs theirJobs w w') :
    (onTables response m w).1 = (onTables response m w').1 ∧
      WorldPart tenantId theirs theirJobs (onTables response m w).2 (onTables response m w').2 := by
  have hm : Local tenantId theirs m fun _ => Part tenantId theirs :=
    h.weaken (fun _ _ h => h) (fun _ _ _ h => h.1) fun _ _ h => h
  obtain ⟨hresult, htables⟩ := hm.transaction hpart.tables
  exact ⟨congrArg response hresult, htables, hpart.others, hpart.jobs⟩

omit [Runtime] in
theorem worldPart_alone (caller : Caller) (hsound : w.db.tables.Sound) :
    WorldPart caller.tenantId (w.db.tables.rowsOfOthers caller.tenantId)
      (jobsOfOthers caller.tenantId w.db.jobs) w (alone caller.tenantId w) :=
  ⟨⟨hsound, rfl, rfl⟩, rfl, rfl⟩

/-- A request of the tenant does on the tenant's part what it does on the whole. -/
theorem serve_local (env : Environment) (hfresh : FreshIds w op)
    (hpart : WorldPart caller.tenantId theirs theirJobs w w') :
    (serve env caller op w).1 = (serve env caller op w').1 ∧
      WorldPart caller.tenantId theirs theirJobs (serve env caller op w).2
        (serve env caller op w').2 := by
  obtain ⟨⟨-, rfl, -⟩, rfl, -⟩ := id hpart
  cases op with
  | upload draw file =>
    obtain ⟨hno, hjobs⟩ := hfresh
    obtain ⟨hresult, hworld⟩ := upload_local
      (fun d hd => hno d (List.mem_filter.mp hd).1)
      (fun job hjob => hjobs job (List.mem_filter.mp hjob).1) hpart
    exact ⟨congrArg Response.uploaded hresult, hworld⟩
  | listDeals query => exact onTables_local listDeals_local hpart
  | getDeal dealId => exact onTables_local getDeal_local hpart
  | decideDeal now dealId body => exact onTables_local decideDeal_local hpart
  | createCriteriaConfig draw body =>
    obtain ⟨hno, hscores⟩ := hfresh
    exact onTables_local (createCriteriaConfig_local
      (fun c hc => hno c (List.mem_filter.mp hc).1)
      fun i s hs => hscores i s (List.mem_filter.mp hs).1) hpart
  | getActiveConfig => exact onTables_local getActiveConfig_local hpart
  | getConfigHistory => exact onTables_local getConfigHistory_local hpart

/-- So it does when nothing else is there. -/
theorem serve_alone (env : Environment) (caller : Caller) (hsound : w.db.tables.Sound) (hfresh : FreshIds w op) :
    (serve env caller op w).1 = (serve env caller op (alone caller.tenantId w)).1 ∧
      WorldPart caller.tenantId (w.db.tables.rowsOfOthers caller.tenantId)
        (jobsOfOthers caller.tenantId w.db.jobs) (serve env caller op w).2
        (serve env caller op (alone caller.tenantId w)).2 :=
  serve_local env hfresh (worldPart_alone caller hsound)

/-- Nothing of other tenants shows in the answer or in the tenant's rows after a
    request, and nothing of theirs changes. -/
theorem noninterference (hsound₁ : w₁.db.tables.Sound) (hsound₂ : w₂.db.tables.Sound)
    (hfresh₁ : FreshIds w₁ op) (hfresh₂ : FreshIds w₂ op) (hagree : Agree caller.tenantId w₁ w₂) :
    (serve env caller op w₁).1 = (serve env caller op w₂).1 ∧
      Agree caller.tenantId (serve env caller op w₁).2 (serve env caller op w₂).2 ∧
      Spared caller.tenantId w₁ (serve env caller op w₁).2 ∧
      Spared caller.tenantId w₂ (serve env caller op w₂).2 ∧
      (serve env caller op w₁).2.db.tables.Sound ∧ (serve env caller op w₂).2.db.tables.Sound := by
  have halone : alone caller.tenantId w₁ = alone caller.tenantId w₂ := by
    unfold alone
    rw [hagree.1, hagree.2]
  obtain ⟨hresponse₁, hpart₁⟩ := serve_alone env caller hsound₁ hfresh₁
  obtain ⟨hresponse₂, hpart₂⟩ := serve_alone env caller hsound₂ hfresh₂
  rw [halone] at hresponse₁ hpart₁
  refine ⟨hresponse₁.trans hresponse₂.symm, ⟨?_, ?_⟩, ⟨hpart₁.tables.others, hpart₁.others⟩,
    ⟨hpart₂.tables.others, hpart₂.others⟩, hpart₁.tables.sound, hpart₂.tables.sound⟩
  · rw [← hpart₁.tables.part, ← hpart₂.tables.part]
  · rw [← hpart₁.jobs, ← hpart₂.jobs]

end

-- ---------------------------------------------------------------------------
-- Two tenants
-- ---------------------------------------------------------------------------

section
open UploadApi

def sampleEnvironment : Environment where
  config := sampleConfig
  validatePdf := .ok
  readUuid _ := none
  order := ⟨fun rows => rows, fun _ => .refl _⟩

/-- Another tenant has uploaded a document. -/
def otherWorld : World :=
  letI := asciiRuntime
  (serve sampleEnvironment ⟨2, "usr_1"⟩ (.upload sampleDraw sampleFile) emptyWorld).2

/-- The same document, uploaded by a tenant that has nothing yet. -/
def sampleUpload : Operation := .upload ⟨3, "b", 0⟩ sampleFile

theorem sound_empty : emptyWorld.db.tables.Sound where
  deals := List.Pairwise.nil
  configs := List.Pairwise.nil
  fields _ h := absurd h List.not_mem_nil
  scores _ h := absurd h List.not_mem_nil
  decisions _ h := absurd h List.not_mem_nil
  audit _ h := absurd h List.not_mem_nil
  criteria _ h := absurd h List.not_mem_nil

theorem fresh_empty (op : Operation) : FreshIds emptyWorld op := by
  cases op with
  | upload => exact ⟨fun _ h => absurd h List.not_mem_nil, fun _ h => absurd h List.not_mem_nil⟩
  | createCriteriaConfig =>
    exact ⟨fun _ h => absurd h List.not_mem_nil, fun _ _ h => absurd h List.not_mem_nil⟩
  | _ => trivial

theorem sound_otherWorld : otherWorld.db.tables.Sound :=
  (@serve_alone asciiRuntime (.upload sampleDraw sampleFile) emptyWorld sampleEnvironment ⟨2, "usr_1"⟩
    sound_empty (fresh_empty _)).2.tables.sound

theorem noninterference_upload :
    letI := asciiRuntime
    let caller : Caller := ⟨9, "usr_2"⟩
    (serve sampleEnvironment caller sampleUpload emptyWorld).1 =
        (serve sampleEnvironment caller sampleUpload otherWorld).1 ∧
      Spared caller.tenantId otherWorld (serve sampleEnvironment caller sampleUpload otherWorld).2 := by
  have hfresh : (∀ deal ∈ otherWorld.db.tables.deals, deal.id ≠ 3) ∧
      ∀ job ∈ otherWorld.db.jobs, job.jobId ≠ "b" ∧
        job.idempotencyKey ≠ some (IngestionService.idempotencyKey 3) := by
    decide +kernel
  have hagree : emptyWorld.db.tables.rowsOf 9 = otherWorld.db.tables.rowsOf 9 ∧
      jobsOf 9 emptyWorld.db.jobs = jobsOf 9 otherWorld.db.jobs := by
    decide +kernel
  obtain ⟨hsame, -, -, hspared, -⟩ := @noninterference asciiRuntime sampleEnvironment ⟨9, "usr_2"⟩
    sampleUpload emptyWorld otherWorld sound_empty sound_otherWorld (fresh_empty _) hfresh hagree
  exact ⟨hsame, hspared⟩

end

end Noninterference
