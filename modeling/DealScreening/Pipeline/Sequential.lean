-- SUMMARY: Run one after the other, the statements of extractions and of requests for configs commit what the transactions commit.
import DealScreening.BackgroundJobs.Handlers
import DealScreening.Pipeline.Handover

/-!
# Statements in sequence

The statements of `Handover` are those of `handle_extraction` and `create_criteria_config`:
with nothing between them they leave the tables as the functions do.
-/

namespace Handover

open Python Session Dossier ExtractionService ScoringService CriteriaApi Pipeline

-- ---------------------------------------------------------------------------
-- An execution
-- ---------------------------------------------------------------------------

/-- The statements of an execution. -/
def executionActs (i : Nat) (dealId : Uuid) (world : ExtractionWorld) (draw : ScoreDraw) : List Act :=
  [.handle dealId, .selectDeal i, .extract i world, .commit i, .selectDeal i, .selectConfig i,
    .selectFields i, .flush i draw, .commit i]

section
variable {s : St} {dealId : Uuid} {e e' : Execution} {db : DealDb}

/-- The execution that began last. -/
def withExecution (s : St) (db : DealDb) (e : Execution) : St :=
  { s.setDb db with executions := s.executions ++ [e] }

@[simp] theorem withExecution_getElem? :
    (withExecution s db e).executions[s.executions.length]? = some e := by
  simp [withExecution]

@[simp] theorem setExecution_withExecution :
    (withExecution s db e).setExecution s.executions.length e' = withExecution s db e' := by
  simp [withExecution, St.setExecution]

@[simp] theorem setDb_withExecution {db' : DealDb} :
    (withExecution s db e).setDb db' = withExecution s db' e := rfl

@[simp] theorem db_withExecution : (withExecution s db e).db = db := rfl

theorem locked_withExecution (hidle : s.locked dealId = false) (he : e.locks dealId = false) :
    (withExecution s db e).locked dealId = false := by
  simp_all [St.locked, withExecution, St.setDb]

end

section
variable [Runtime] {world : ExtractionWorld} {draw : ScoreDraw} {dealId tenantId : Uuid}
  {ctx : JobContext} {s : St} {db db' : DealDb}

/-- The first transaction. -/
theorem extraction_alone {deal : Deal} {c : DealChange} (hidle : ∀ id, s.locked id = false)
    (hdeal : s.db.deal dealId tenantId = some deal) (hfrom : Extractable deal.status)
    (hc : (outcome world deal).change deal = some c) :
    Run.exec (step tenantId) s [.handle dealId, .selectDeal s.executions.length,
        .extract s.executions.length world, .commit s.executions.length] =
      some (withExecution s (s.db.change deal.id c)
        (if c.status = .extracted then .scoring dealId else .done)) := by
  obtain ⟨rfl, -⟩ := DealDb.deal_key hdeal
  have hload : loadExtractable s.db deal.id tenantId = some deal := by
    rw [loadExtractable, hdeal]
    exact Option.filter_eq_some_iff.mpr ⟨rfl, decide_eq_true hfrom⟩
  have hbegun : step tenantId s (.handle deal.id) =
      some (withExecution s s.db (.begun deal.id)) := rfl
  have hfree : (withExecution s s.db (.loaded deal)).locked deal.id = false :=
    locked_withExecution (hidle deal.id) rfl
  refine Run.exec_cons_eq_some.mpr ⟨_, hbegun, ?_⟩
  simp [Run.exec_cons, step, hload, hfree, hc]

/-- The second one, if there is a config. -/
theorem scoring_alone {deal : Deal} {config : CriteriaConfig} {criteria : List Criterion}
    {ev : Evaluation} {c : DealChange} (hidle : ∀ id, s.locked id = false)
    (hload : Statements.loadDeal db dealId tenantId = some deal)
    (hconfig : Statements.loadConfig db tenantId = some (config, criteria))
    (hev : Statements.evaluation db deal criteria = some ev)
    (hflush : Statements.flushScore db draw deal config ev = some c) :
    Run.exec (step tenantId) (withExecution s db (.scoring dealId))
        [.selectDeal s.executions.length, .selectConfig s.executions.length,
          .selectFields s.executions.length, .flush s.executions.length draw,
          .commit s.executions.length] =
      some (withExecution s (db.change deal.id c) .done) := by
  have hfree : (withExecution s db (.evaluated deal config ev)).locked deal.id = false :=
    locked_withExecution (hidle deal.id) rfl
  simp [Run.exec_cons, step, hload, hconfig, hev, hfree, hflush]

theorem unscored_alone {deal : Deal} (hload : Statements.loadDeal db dealId tenantId = some deal)
    (hnone : Statements.loadConfig db tenantId = none) :
    Run.exec (step tenantId) (withExecution s db (.scoring dealId))
        [.selectDeal s.executions.length, .selectConfig s.executions.length] =
      some (withExecution s db .done) := by
  simp [Run.exec_cons, step, hload, hnone]

/-- With nothing between them, the statements of an execution that raises nothing commit what
    `handle_extraction` does. They end early where that returns early. -/
theorem execution_alone (hidle : ∀ id, s.locked id = false)
    (h : Handlers.handleExtraction world draw ⟨dealId, tenantId⟩ ctx s.db = (.ok (), db')) :
    ∃ acts, acts <+: executionActs s.executions.length dealId world draw ∧
      Run.exec (step tenantId) s acts = some (withExecution s db' .done) := by
  rcases Handlers.extraction_cases world ⟨dealId, tenantId⟩ ctx s.db with ⟨e, hraised⟩ |
    ⟨result, db₁, -, hrun, hprogress⟩
  · rw [Handlers.handleExtraction, hraised] at h
    cases h
  · rcases extractDeal_commits world dealId tenantId s.db with ⟨x, hx⟩ |
      ⟨deal, c, hdeal, hfrom, hc, hcommit⟩
    · cases hx.symm.trans hrun
    · cases hcommit.symm.trans hrun
      have hextracted := extraction_alone hidle hdeal hfrom hc
      rw [Handlers.handleExtraction, hprogress] at h
      cases ho : outcome world deal with
      | refused =>
        rw [ho] at hc
        cases hc
      | failed rows detail =>
        rw [ho] at hc h
        cases hc
        cases h
        exact ⟨_, ⟨_, rfl⟩, hextracted⟩
      | extracted rows foundCount overall =>
        rw [ho] at hc h
        cases hc
        change Handlers.scoring draw ⟨dealId, tenantId⟩ _ = _ at h
        rw [Handlers.scoring] at h
        split at h
        · cases h
        · rename_i hscored
          cases h
          obtain ⟨deal', hload, ⟨hnone, rfl⟩ | ⟨config, criteria, ev, c, hconfig, hev, hflush, rfl⟩⟩ :=
            Statements.scoreDeal_returns hscored
          · refine ⟨_, List.take_prefix 6 _, ?_⟩
            exact Run.exec_append_eq_some.mpr ⟨_, hextracted, unscored_alone hload hnone⟩
          · refine ⟨_, List.prefix_refl _, ?_⟩
            exact Run.exec_append_eq_some.mpr
              ⟨_, hextracted, scoring_alone hidle hload hconfig hev hflush⟩

end

-- ---------------------------------------------------------------------------
-- A request
-- ---------------------------------------------------------------------------

/-- The statements of the loop over the deals. -/
def loopActs (draw : ConfigDraw) : Nat → Nat → List Act
  | _, 0 => []
  | i, n + 1 => [.loadNext 0, .evaluateNext 0, .flushNext 0 ⟨draw.scoreIds i, draw.now⟩] ++
      loopActs draw (i + 1) n

/-- The statements of a request. -/
def requestActs (draw : ConfigDraw) (tenantId : Uuid) (body : CriteriaConfigCreateSchema)
    (db : DealDb) : List Act :=
  .create draw.configId body :: (ConfigRace.untilInsert db tenantId).map .configStatement ++
    [.insertCriteria 0, .listDeals 0] ++
    loopActs draw 0 (Rescoring.waiting db tenantId).length ++ [.finish 0]

/-- Nothing is in flight but a request that has inserted its config. -/
def looping (db : DealDb) (locked : List Uuid) (config : CriteriaConfig) (l : Loop) : St :=
  ⟨⟨db, [.inserted locked config]⟩, [l], []⟩

section
variable [Runtime] {draw : ConfigDraw} {tenantId : Uuid} {body : CriteriaConfigCreateSchema}
  {config : CriteriaConfig} {rows : List Criterion} {locked : List Uuid} {i : Nat}
  {deals : List Deal} {flushed : List (Uuid × DealChange)} {base db db' : DealDb}
  {response : CriteriaConfig × List Criterion}

/-- The statements on `criteria_configs` go as they go without the rest. -/
theorem exec_configStatements {s : St} {configs : ConfigRace.St} {as : List ConfigRace.Act}
    (has : ∀ a ∈ as, isStatement a = true)
    (h : Run.exec (ConfigRace.step tenantId) s.configs as = some configs) :
    Run.exec (step tenantId) s (as.map .configStatement) = some { s with configs } := by
  induction as generalizing s with
  | nil =>
    cases h
    rfl
  | cons a as ih =>
    obtain ⟨c, hc, hrest⟩ := Run.exec_cons_eq_some.mp h
    refine Run.exec_cons_eq_some.mpr ⟨{ s with configs := c }, ?_, ?_⟩
    · simp [step, has a (List.mem_cons_self ..), hc]
    · exact ih (fun b hb => has b (List.mem_cons_of_mem a hb)) hrest

omit [Runtime] in
theorem untilInsert_statements : ∀ a ∈ ConfigRace.untilInsert db tenantId, isStatement a = true := by
  intro a ha
  simp only [ConfigRace.untilInsert, List.mem_append, List.mem_cons, List.mem_replicate,
    List.not_mem_nil, or_false] at ha
  rcases ha with ((rfl | rfl) | ⟨-, rfl⟩) | rfl <;> rfl

omit [Runtime] in
theorem applied_snoc {deal : Deal} {score : DealScore} {ev : Evaluation} :
    applied base rows (flushed ++ [(deal.id, scoreChange deal score ev)]) =
      scoredDb (applied base rows flushed) deal score ev := by
  simp [applied, scoredDb, List.foldl_append]

/-- The statements for one deal. -/
theorem turn_alone {draw : ScoreDraw} {pending : List Uuid} {deal : Deal} {ev : Evaluation}
    {c : DealChange} (hload : Statements.loadDeal db deal.id tenantId = some deal)
    (hev : Statements.evaluation db deal rows = some ev)
    (hflush : Statements.flushScore db draw deal config ev = some c)
    (hunlocked : deal.id ∉ flushed.map Prod.fst) :
    Run.exec (step tenantId)
        (looping db locked config (.rescoring rows (deal.id :: pending) flushed .next))
        [.loadNext 0, .evaluateNext 0, .flushNext 0 draw] =
      some (looping db locked config
        (.rescoring rows pending (flushed ++ [(deal.id, c)]) .next)) := by
  let st : List Uuid → Turn → St := fun pending turn =>
    looping db locked config (.rescoring rows pending flushed turn)
  have hloaded : step tenantId (st (deal.id :: pending) .next) (.loadNext 0) =
      some (st pending (.loaded deal)) := by
    simp [st, step, looping, St.db, hload, St.setLoop]
  have hevaluated : step tenantId (st pending (.loaded deal)) (.evaluateNext 0) =
      some (st pending (.evaluated deal ev)) := by
    simp [st, step, looping, St.db, hev, St.setLoop]
  have hfree : (st pending (.evaluated deal ev)).locked deal.id = false := by
    simp only [st, St.locked, looping, List.any_nil, List.any_cons, Loop.locks, Bool.or_false,
      Bool.false_or]
    refine List.any_eq_false.mpr fun entry hentry heq => hunlocked ?_
    exact List.mem_map.mpr ⟨entry, hentry, of_decide_eq_true heq⟩
  have hflushed : step tenantId (st pending (.evaluated deal ev)) (.flushNext 0 draw) =
      some (looping db locked config
        (.rescoring rows pending (flushed ++ [(deal.id, c)]) .next)) := by
    have hdb : (st pending (.evaluated deal ev)).db = db := rfl
    simp only [step, st, looping, List.getElem?_cons_zero] at hdb hfree ⊢
    simp [hfree, hdb, hflush, St.setLoop]
  exact Run.exec_cons_eq_some.mpr ⟨_, hloaded, Run.exec_cons_eq_some.mpr ⟨_, hevaluated,
    Run.exec_cons_eq_some.mpr ⟨_, hflushed, rfl⟩⟩⟩

/-- Where every deal can be scored, the loop scores the deals in the session as its statements
    do. -/
theorem loop_alone
    (hready : Rescoring.Ready draw tenantId config rows i deals (applied base rows flushed))
    (hids : Function.Injective draw.scoreIds)
    (hscorable : ∀ deal ∈ deals,
      Rescoring.Scorable rows (Rescoring.fieldsFor (applied base rows flushed) deal))
    (hfields : (applied base rows flushed).extractedFields = db.extractedFields)
    (hfound : ∀ deal ∈ deals, db.deal deal.id tenantId = some deal)
    (hfresh : ∀ j, db.scoreById (draw.scoreIds j) = none)
    (hunlocked : ∀ deal ∈ deals, deal.id ∉ flushed.map Prod.fst) :
    ∃ flushed', rescoreDeals draw tenantId i (deals.map Deal.id) ⟨applied base rows flushed, false, false⟩ =
        (.ok (), ⟨applied base rows flushed', false, false⟩) ∧
      Run.exec (step tenantId)
          (looping db locked config (.rescoring rows (deals.map Deal.id) flushed .next))
          (loopActs draw i deals.length) =
        some (looping db locked config (.rescoring rows [] flushed' .next)) := by
  induction deals generalizing i flushed with
  | nil => exact ⟨flushed, rfl, rfl⟩
  | cons deal deals ih =>
    have hmem : deal ∈ deal :: deals := List.mem_cons_self ..
    obtain ⟨ev, score, hev, hrow, hinsert⟩ := (hready.recordable_iff hmem).mpr (hscorable deal hmem)
    obtain ⟨hdeal, hstatus⟩ := hready.found deal hmem
    obtain ⟨-, hid, -, -, -⟩ := scoreRow_eq_some hrow
    -- The session scores the deal in what it sees.
    have hcriteria := hready.criteria
    have hrun := scoreDeal_recorded hdeal hstatus hready.active (hcriteria.symm ▸ hev) hrow hinsert
    -- The statements see the same of it in what is committed.
    have hload : Statements.loadDeal db deal.id tenantId = some deal :=
      Statements.loadDeal_eq_some.mpr ⟨hfound deal hmem, hstatus⟩
    have hsame : db.fieldsOf deal.id = (applied base rows flushed).fieldsOf deal.id := by
      rw [DealDb.fieldsOf, ← hfields]
      rfl
    have hevaluation : Statements.evaluation db deal rows = some ev := by
      rw [Statements.evaluation_eq_some, hsame]
      exact hev
    have hflush : Statements.flushScore db ⟨draw.scoreIds i, draw.now⟩ deal config ev =
        some (scoreChange deal score ev) := by
      rw [Statements.flushScore, hrow]
      refine if_pos ⟨?_, hinsert.2.2.2⟩
      rw [hid, hfresh i]
      rfl
    have hother : ∀ d ∈ deals, d.id ≠ deal.id := fun d hd =>
      Ne.symm ((List.pairwise_cons.mp hready.distinct).1 d hd)
    obtain ⟨flushed', hrest, hexec⟩ := @ih (i + 1) (flushed ++ [(deal.id, scoreChange deal score ev)])
      (applied_snoc ▸ hready.scored hids hid)
      (fun d hd => by
        rw [applied_snoc, Rescoring.fieldsFor_scoredDb]
        exact hscorable d (List.mem_cons_of_mem deal hd))
      (by rw [applied_snoc]; exact (List.append_nil _).trans hfields)
      (fun d hd => hfound d (List.mem_cons_of_mem deal hd))
      (fun d hd => by
        rw [List.map_append, List.mem_append, not_or]
        exact ⟨hunlocked d (List.mem_cons_of_mem deal hd), by simpa using hother d hd⟩)
    rw [applied_snoc] at hrest
    refine ⟨flushed', (Rescoring.rescoreDeals_cons hrun).trans hrest, ?_⟩
    exact Run.exec_append_eq_some.mpr
      ⟨_, turn_alone hload hevaluation hflush (hunlocked deal hmem), hexec⟩

/-- The statements before the loop. -/
theorem configured_alone {name : PgText} (hname : PgText.ofStr (text body.name) = some name)
    (hconfig : config = { id := draw.configId, tenantId, isActive := true, name,
                          version := ConfigRace.latestVersion db tenantId + 1 })
    (hinsert : ∃ db₁, db.insertConfig config = some db₁)
    (hrows : body.criteria.mapM (criterionRow config.id) = some rows) :
    Run.exec (step tenantId) (init db) (.create draw.configId body ::
        (ConfigRace.untilInsert db tenantId).map .configStatement ++ [.insertCriteria 0, .listDeals 0]) =
      some (looping db (ConfigRace.activeIds db tenantId) config
        (.rescoring rows ((Rescoring.waiting db tenantId).map Deal.id) [] .next)) := by
  let request : ConfigRace.Request := ⟨draw.configId, body.name⟩
  let locked := ConfigRace.activeIds db tenantId
  have hcreated : step tenantId (init db) (.create draw.configId body) =
      some ⟨⟨db, [.begun request]⟩, [.configuring body.criteria], []⟩ := rfl
  have hconfigs : Run.exec (ConfigRace.step tenantId) ⟨db, [.begun request]⟩
      (ConfigRace.untilInsert db tenantId) = some ⟨db, [.inserted locked config]⟩ :=
    ConfigRace.exec_untilInsert hname hconfig hinsert
  have hinserted := exec_configStatements
    (s := ⟨⟨db, [.begun request]⟩, [.configuring body.criteria], []⟩) untilInsert_statements hconfigs
  have hlisted : Run.exec (step tenantId) (looping db locked config (.configuring body.criteria))
      [.insertCriteria 0, .listDeals 0] = some (looping db locked config
        (.rescoring rows ((Rescoring.waiting db tenantId).map Deal.id) [] .next)) := by
    simp [Run.exec_cons, step, looping, hrows, St.setLoop]
    rfl
  refine Run.exec_append_eq_some.mpr ⟨_, ?_, hlisted⟩
  exact Run.exec_cons_eq_some.mpr ⟨_, hcreated, hinserted⟩

/-- With nothing between them, the statements of a request commit what `create_criteria_config`
    does, when its criteria can score every deal that waits. -/
theorem request_alone (hsound : db.Sound) (hfresh : ∀ i, db.scoreById (draw.scoreIds i) = none)
    (hids : Function.Injective draw.scoreIds)
    (hscorable : ∀ db₁, Rescoring.configured draw tenantId body db = some db₁ →
      ∀ deal ∈ Rescoring.waiting db tenantId,
        Rescoring.Scorable (db₁.criteriaOf draw.configId) (Rescoring.fieldsFor db deal))
    (h : transaction (createCriteriaConfig draw tenantId body) db = (.ok response, db')) :
    ∃ t, Run.exec (step tenantId) (init db) (requestActs draw tenantId body db) = some t ∧
      t.db = db' := by
  obtain ⟨db₁, hconfigured⟩ := Rescoring.createCriteriaConfig_configured.transaction h
  have hscorable := hscorable db₁ hconfigured
  obtain ⟨name, hname, hrest⟩ := Option.bind_eq_some_iff.mp hconfigured
  obtain ⟨db₂, hinsert, hcriteria⟩ := Option.bind_eq_some_iff.mp hrest
  obtain ⟨rows, hrows, hdb₁⟩ := applyAll_criteria hcriteria
  obtain ⟨hnew, hdb₂⟩ := insertConfig_eq_some hinsert
  let config : CriteriaConfig :=
    { id := draw.configId, tenantId, version := ConfigRace.latestVersion db tenantId + 1,
      isActive := true, name }
  let locked := ConfigRace.activeIds db tenantId
  let base := ConfigRace.commitDb db locked config
  have hbase : applied base rows [] = db₁ := by
    have hconfigs : base.criteriaConfigs = (db.deactivateConfigs tenantId).criteriaConfigs ++ [config] :=
      ConfigRace.commitDb_configs hsound.configs
    rw [hdb₁, hdb₂]
    change { db with criteriaConfigs := base.criteriaConfigs, criteria := db.criteria ++ rows } = _
    rw [hconfigs]
  have hready : Rescoring.Ready draw tenantId config rows 0 (Rescoring.waiting db tenantId) db₁ := by
    rw [hdb₁, hdb₂]
    exact Rescoring.ready_configured hsound hfresh rfl rfl hnew hrows
  have hwaiting : Rescoring.waiting db₁ tenantId = Rescoring.waiting db tenantId := by
    rw [hdb₁, hdb₂]
    rfl
  rw [hready.criteria] at hscorable
  have hfound : ∀ deal ∈ Rescoring.waiting db tenantId, db.deal deal.id tenantId = some deal := by
    intro deal hdeal
    obtain ⟨hmem, hwaits⟩ := List.mem_filter.mp hdeal
    exact (of_decide_eq_true hwaits).1 ▸ DealDb.deal_of_mem hsound.deals hmem
  -- The loop, in the session and statement by statement.
  obtain ⟨flushed, hloop, hexec⟩ := @loop_alone _ draw tenantId config rows locked 0 _ [] base db
    (hbase ▸ hready) hids hscorable rfl hfound hfresh (fun _ _ => List.not_mem_nil)
  rw [hbase, ← hwaiting] at hloop
  have hconfig : ((applied base rows flushed).configById draw.configId).isSome = true := by
    have hstart := configById_activeConfig hready.active
    rw [← hbase] at hstart
    rw [DealDb.configById, criteriaConfigs_applied] at hstart ⊢
    exact hstart
  obtain ⟨response', hrun⟩ := Rescoring.createCriteriaConfig_settled hconfigured hloop hconfig
  cases hrun.symm.trans h
  -- The statements before and after it.
  have hbefore := configured_alone hname rfl (ConfigRace.insertConfig_deactivated hinsert).1 hrows
  have hfinished : Run.exec (step tenantId)
      (looping db locked config (.rescoring rows [] flushed .next)) [.finish 0] =
        some ⟨⟨applied base rows flushed, [.done]⟩, [.ended], []⟩ := by
    simp [Run.exec_cons, step, looping, ConfigRace.step, ConfigRace.St.setTx, St.setLoop, St.setDb, base]
  refine ⟨⟨⟨applied base rows flushed, [.done]⟩, [.ended], []⟩, ?_, rfl⟩
  refine Run.exec_append_eq_some.mpr ⟨_, ?_, hfinished⟩
  exact Run.exec_append_eq_some.mpr ⟨_, hbefore, hexec⟩

end

end Handover
