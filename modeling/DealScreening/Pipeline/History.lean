-- SUMMARY: What the pipeline keeps of its past: between any two moments of a serial run rows are only added, and the audit rows added tell what became of each deal.
import DealScreening.Lib.Growth
import DealScreening.Pipeline.Guarantees

/-!
# The past is kept

Nothing in the pipeline deletes a row, and few columns are ever updated: the status and the
retries of a deal, and whether a config is active. So what a reader of the tables saw at one
moment can be found in them at every later one.
-/

/-- The row of a deal, later on. -/
def Deal.Later (d d' : Deal) : Prop :=
  d' = { d with status := d'.status, retryCount := d'.retryCount } ∧ d.retryCount ≤ d'.retryCount

/-- The row of a config, later on. It is not activated again. -/
def CriteriaConfig.Later (c c' : CriteriaConfig) : Prop :=
  c' = { c with isActive := c'.isActive } ∧ (c'.isActive → c.isActive)

instance : IsPreorder Deal Deal.Later where
  refl _ := ⟨rfl, Nat.le_refl _⟩
  trans := by
    rintro ⟨⟩ ⟨⟩ ⟨⟩ ⟨heq, hle⟩ ⟨heq', hle'⟩
    cases heq
    cases heq'
    exact ⟨rfl, Nat.le_trans hle hle'⟩

instance : IsPreorder CriteriaConfig CriteriaConfig.Later where
  refl _ := ⟨rfl, id⟩
  trans := by
    rintro ⟨⟩ ⟨⟩ ⟨⟩ ⟨heq, hactive⟩ ⟨heq', hactive'⟩
    cases heq
    cases heq'
    exact ⟨rfl, fun h => hactive (hactive' h)⟩

theorem Deal.Later.id_eq {d d' : Deal} (h : d.Later d') : d'.id = d.id := by rw [h.1]

theorem CriteriaConfig.Later.id_eq {c c' : CriteriaConfig} (h : c.Later c') : c'.id = c.id := by rw [h.1]

theorem DealChange.later {c : DealChange} {d : Deal} (h : ∀ n, c.retryCount = some n → d.retryCount ≤ n) :
    d.Later (c.update d) := by
  refine ⟨rfl, ?_⟩
  rw [DealChange.update]
  cases hretry : c.retryCount with
  | none => exact Nat.le_refl _
  | some n => exact h n hretry

namespace Dossier

/-- A chain that goes on after another goes on from where that one ends. -/
theorem Chain.rest {s t u : Option DealStatus} {es es' : List DealAuditLog} (h : Chain s es t)
    (h' : Chain s (es ++ es') u) : Chain t es' u := by
  induction es generalizing s with
  | nil =>
    cases h
    exact h'
  | cons entry es ih => exact ih h.2 h'.2

variable {x : Dossier} {deal : Deal} {c : DealChange}

theorem Change.later (h : Change x deal c) : deal.Later (c.update deal) := by
  refine DealChange.later fun n hn => ?_
  cases h with
  | failed hfrom hrun =>
    cases hn
    exact Nat.le_succ _
  | _ => cases hn

/-- The fields that a change adds are of a later run than those that are there. -/
theorem Change.new_run (h : Change x deal c) (hnumbered : Numbered x) (hdeal : x.deal = some deal) :
    ∀ row ∈ x.fields, ∀ row' ∈ c.fields, row.extractionRun < row'.extractionRun := by
  have hrun : ∀ {rows : List ExtractedField}, Extractable deal.status → IsRun deal rows →
      ∀ row ∈ x.fields, ∀ row' ∈ rows, row.extractionRun < row'.extractionRun := by
    intro rows hfrom hrun row hrow row' hrow'
    rw [hrun.run row' hrow']
    exact Nat.lt_succ_of_le (hnumbered.pending deal hdeal hfrom row hrow)
  cases h with
  | extracted hfrom hisRun hfound => exact hrun hfrom hisRun
  | failed hfrom hisRun =>
    rcases hisRun with rfl | hisRun
    · exact fun _ _ _ h => nomatch h
    · exact hrun hfrom hisRun
  | scored hfrom => exact fun _ _ _ h => nomatch h
  | decided hfrom hscore => exact fun _ _ _ h => nomatch h

end Dossier

namespace Pipeline

open Python Session Dossier ExtractionService ScoringService DealsApi CriteriaApi IngestionService
  UploadApi Handlers

-- ---------------------------------------------------------------------------
-- Tables that grow
-- ---------------------------------------------------------------------------

/-- The criteria of the configs that are there stay as they are. -/
def SameCriteria (db db' : DealDb) : Prop :=
  ∀ config ∈ db.criteriaConfigs, db'.criteriaOf config.id = db.criteriaOf config.id

/-- The tables, later on. -/
structure Grows (db db' : DealDb) : Prop where
  deals : Table.Grows Deal.Later db.deals db'.deals
  /-- Fields are added in runs of their own: no run that is there gains a row. -/
  fields : ∀ id, ∃ new, db'.fieldsOf id = db.fieldsOf id ++ new ∧
    ∀ row ∈ db.fieldsOf id, ∀ row' ∈ new, row.extractionRun < row'.extractionRun
  scores : db.dealScores <+: db'.dealScores
  decisions : db.dealDecisions <+: db'.dealDecisions
  entries : db.dealAuditLog <+: db'.dealAuditLog
  configs : Table.Grows CriteriaConfig.Later db.criteriaConfigs db'.criteriaConfigs
  criteria : SameCriteria db db'

theorem Grows.refl (db : DealDb) : Grows db db where
  deals := refl_of (Table.Grows Deal.Later) _
  fields _ := ⟨[], (List.append_nil _).symm, fun _ _ _ h => nomatch h⟩
  scores := List.prefix_refl _
  decisions := List.prefix_refl _
  entries := List.prefix_refl _
  configs := refl_of (Table.Grows CriteriaConfig.Later) _
  criteria _ _ := rfl

theorem Grows.trans {db₁ db₂ db₃ : DealDb} (h : Grows db₁ db₂) (h' : Grows db₂ db₃) : Grows db₁ db₃ where
  deals := trans_of (Table.Grows Deal.Later) h.deals h'.deals
  fields id := by
    obtain ⟨new, heq, hlater⟩ := h.fields id
    obtain ⟨new', heq', hlater'⟩ := h'.fields id
    refine ⟨new ++ new', by rw [heq', heq, List.append_assoc], fun row hrow row' hrow' => ?_⟩
    rcases List.mem_append.mp hrow' with hmem | hmem
    · exact hlater row hrow row' hmem
    · exact hlater' row (heq ▸ List.mem_append_left _ hrow) row' hmem
  scores := h.scores.trans h'.scores
  decisions := h.decisions.trans h'.decisions
  entries := h.entries.trans h'.entries
  configs := trans_of (Table.Grows CriteriaConfig.Later) h.configs h'.configs
  criteria config hconfig := by
    obtain ⟨config', hconfig', hlater⟩ := h.configs.mem hconfig
    have hrest := h'.criteria config' hconfig'
    rw [hlater.id_eq] at hrest
    exact hrest.trans (h.criteria config hconfig)

section
variable [Runtime] {db db' : DealDb} {tenantId : Uuid}

/-- The tables grow in an event that leaves the criteria. -/
theorem Event.grows (h : Event db db') (hinv : Inv db) (hcriteria : SameCriteria db db') :
    Grows db db' := by
  cases h with
  | uploaded hnew hstatus hretry habout hbefore hafter =>
    exact { Grows.refl db with
      deals := Table.grows_append
      entries := List.prefix_append _ _ }
  | @changed deal c hdeal habout hc hscores =>
    refine { deals := ?deals, fields := fun id => ?fields, scores := List.prefix_append _ _,
             decisions := List.prefix_append _ _, entries := List.prefix_append _ _,
             configs := refl_of (Table.Grows CriteriaConfig.Later) _, criteria := hcriteria }
    case deals =>
      have hrows : Table.Grows Deal.Later db.deals
          ((db.deals.map fun d => if d.id = deal.id then c.update d else d) ++ []) := by
        refine Table.grows_map_append fun d hd => ?_
        split
        · rename_i hid
          have hsame : d = deal := by
            have hfound := Table.lookup_of_mem hinv.deals hd
            rw [hid] at hfound
            exact Option.some.inj (hfound.symm.trans (hinv.dealById hdeal))
          exact hsame ▸ hc.later
        · exact refl_of Deal.Later d
      rwa [List.append_nil] at hrows
    case fields =>
      have hfieldsOf : (db.change deal.id c).fieldsOf id =
          db.fieldsOf id ++ if id = deal.id then c.fields else [] := filter_append_about habout.fields
      refine ⟨_, hfieldsOf, ?_⟩
      split
      · rename_i hid
        rw [hid]
        exact hc.new_run (hinv.numbered deal.id) (hinv.dealById hdeal)
      · exact fun _ _ _ h => nomatch h
  | configured hnew hweights =>
    refine { Grows.refl db with
      configs := Table.grows_map_append fun config _ => ?_
      criteria := hcriteria }
    split
    · exact ⟨rfl, fun h => nomatch h⟩
    · exact refl_of CriteriaConfig.Later config

-- ---------------------------------------------------------------------------
-- Edits
-- ---------------------------------------------------------------------------

/-- An event that uploads no deal, and leaves the criteria. -/
structure Edit (db db' : DealDb) : Prop where
  event : Event db db'
  deals : db'.deals.length = db.deals.length
  criteria : SameCriteria db db'

/-- What any number of edits makes of the tables. -/
abbrev Edits : DealDb → DealDb → Prop := Relation.ReflTransGen Edit

theorem Edits.inv (h : Edits db db') (hinv : Inv db) : Inv db' := by
  induction h with
  | refl => exact hinv
  | tail _ hlast ih => exact ih.event hlast.event

theorem Edits.grows (h : Edits db db') (hinv : Inv db) :
    Grows db db' ∧ db'.deals.length = db.deals.length := by
  induction h with
  | refl => exact ⟨.refl db, rfl⟩
  | tail hfirst hlast ih =>
    obtain ⟨hgrows, hlength⟩ := ih
    exact ⟨hgrows.trans (hlast.event.grows (Edits.inv hfirst hinv) hlast.criteria),
      hlast.deals.trans hlength⟩

theorem change_edit {deal : Deal} {c : DealChange} (h : Event db (db.change deal.id c)) :
    Edit db (db.change deal.id c) where
  event := h
  deals := List.length_map _
  criteria _ _ := rfl

theorem Scores.edit (h : Scores tenantId db db') : Edit db db' := by
  have hevent := h.event.1
  obtain ⟨draw, deal, config, ev, score, -, -, -, -, -, rfl⟩ := h
  exact change_edit hevent

theorem edits_of_scores (h : Relation.ReflTransGen (Scores tenantId) db db') : Edits db db' :=
  Relation.ReflTransGen.mono (fun _ _ hscores => Scores.edit hscores) _ _ h

theorem extraction_edits (world : ExtractionWorld) (job : ExtractionJob) (ctx : JobContext)
    (db : DealDb) : Edits db (extraction world job ctx db).2 := by
  rcases extraction_cases world job ctx db with ⟨e, hended⟩ | ⟨result, tables, -, hrun, hended⟩
  · rw [hended]
  · rw [hended]
    rcases extractDeal_commits world job.dealId job.tenantId db with
      ⟨e, hback⟩ | ⟨deal, c, hdeal, hfrom, hc, hcommits⟩
    · rw [hback] at hrun
      cases hrun
    · rw [hcommits] at hrun
      cases hrun
      obtain ⟨hchange, habout, hscores⟩ := outcome_change (x := db.dossier deal.id) hfrom hc
      obtain ⟨hid, htenant⟩ := DealDb.deal_key hdeal
      rw [← hid, ← htenant] at hdeal
      exact .single (change_edit (change_event hdeal habout hchange hscores))

theorem scoring_edits (draw : ScoreDraw) (job : ExtractionJob) (db : DealDb) :
    Edits db (scoring draw job db).2 := by
  rw [scoring_tables]
  rcases scoreDeal_commits.commit db with hback | ⟨_, hsame | hscores⟩
  · rw [hback]
  · rw [hsame]
  · exact .single hscores.edit

/-- The criteria that are added with a config are its own. -/
theorem createCriteriaConfig_edits (draw : ConfigDraw) (tenantId : Uuid)
    (body : CriteriaConfigCreateSchema) (db : DealDb) :
    Edits db (transaction (createCriteriaConfig draw tenantId body) db).2 := by
  rcases (createCriteriaConfig_inserts rescoreExtractedDeals_commits).commit db with
    hback | ⟨_, name, db₁, db₂, -, hinsert, hcriteria, hscores⟩
  · rw [hback]
  · obtain ⟨hnew, rfl⟩ := insertConfig_eq_some hinsert
    obtain ⟨rows, hrows, rfl⟩ := applyAll_criteria hcriteria
    have hrow : ∀ row ∈ rows, row.configId = draw.configId ∧ ¬ row.weight < 0.0 ∧ ¬ 1.0 < row.weight := by
      intro row hrow
      obtain ⟨c, -, heq⟩ := Option.mapM_mem hrows hrow
      rw [criterionRow_weight heq]
      exact ⟨criterionRow_configId heq, c.weight_ge, c.weight_le⟩
    refine (edits_of_scores hscores).head ?_
    refine ⟨.configured hnew fun row hmem => (hrow row hmem).2, rfl, fun config hconfig => ?_⟩
    have hne : config.id ≠ draw.configId := Table.lookup_eq_none.mp hnew config hconfig
    have hrest : rows.filter (fun row => row.configId = config.id) = [] :=
      List.filter_eq_nil_iff.mpr fun row hmem heq =>
        hne ((of_decide_eq_true heq).symm.trans (hrow row hmem).1)
    rw [DealDb.criteriaOf, List.filter_append, hrest, List.append_nil]
    rfl

theorem decideDeal_edits (readUuid : String → Option Uuid) (now : Time) (dealId tenantId : Uuid)
    (userId : String) (body : DealDecisionRequest) (db : DealDb) :
    Edits db (transaction (decideDeal readUuid now dealId tenantId userId body) db).2 := by
  rcases decideDeal_commits.commit db with hback |
    ⟨_, deal, decision, hdeal, hstatus, hid, hscore, hdb⟩
  · rw [hback]
  · obtain ⟨rfl, rfl⟩ := DealDb.deal_key hdeal
    rw [hdb]
    exact .single (change_edit (.changed hdeal (decisionChange_about hid) (.decided hstatus hscore)
      fun _ h => nomatch h))

end

-- ---------------------------------------------------------------------------
-- What an upload leaves
-- ---------------------------------------------------------------------------

section
variable {config : IngestionConfig} {fault : Option Fault} {draw : IngestDraw} {tenantId dealId : Uuid}
  {filename : Str} {content : Bytes} {R : World → World → Prop}

/-- What an upload of a file under a name does to the world, one write at a time. -/
structure Written (config : IngestionConfig) (dealId : Uuid) (filename : Str) (R : World → World → Prop) :
    Prop where
  dirs : ∀ w dirs, R w (w.updateDisk fun disk => disk.addDirs dirs)
  file : ∀ w content, R w (w.updateDisk fun disk => disk.put (storedPath config dealId filename) content)
  tables : ∀ w tables, R w { w with db := { w.db with tables } }
  job : ∀ w job, R w { w with db := { w.db with jobs := w.db.jobs ++ [job] } }

variable [IsPreorder World R]

theorem strike_leaves {here : Fault} : Leaves R (strike fault here) := by
  unfold strike
  split
  · exact leaves_raise
  · exact leaves_pure

theorem mkdir_leaves {dir : Path} (h : Written config dealId filename R) : Leaves R (mkdir fault dir) := by
  refine leaves_inspect.bind fun missing => ?_
  split
  · refine (leaves_update fun w => h.dirs w _).bind fun _ => ?_
    split
    · exact leaves_raise
    · exact leaves_pure
  · exact leaves_update fun w => h.dirs w _

theorem storeFile_leaves (h : Written config dealId filename R) :
    Leaves R (storeFile config fault dealId filename content) := by
  refine (mkdir_leaves h).bind fun _ => Leaves.bind ?_ fun _ => leaves_pure
  unfold writeBytes
  split
  · exact leaves_raise
  · refine strike_leaves.bind fun _ => ?_
    split
    · exact (leaves_update fun w => h.file w _).bind fun _ => leaves_raise
    · exact leaves_update fun w => h.file w _

theorem insert_leaves {f : DealDb → Option DealDb} (h : Written config dealId filename R) :
    Leaves R (write (World.insert f) : IngestM Unit) := by
  refine leaves_write fun w w' hw => ?_
  obtain ⟨tables, -, rfl⟩ := Option.map_eq_some_iff.mp hw
  exact h.tables w tables

theorem enqueueJob_leaves {jobType : String} {payload : ExtractionJob} {key : String}
    (h : Written config dealId filename R) :
    Leaves R (enqueueJob fault draw jobType payload key tenantId) := by
  refine strike_leaves.bind fun _ => ?_
  split
  · exact leaves_raise
  · refine leaves_select.bind fun existing => ?_
    split
    · exact leaves_pure
    · refine (leaves_write fun w w' hw => ?_).bind fun _ => leaves_flush.bind fun _ => leaves_pure
      unfold World.insertJob at hw
      split at hw <;> cases hw
      exact h.job w _

variable [Runtime]

theorem ingestDeal_leaves {contentType : Option Str} {channel : Str} {sender : Option Str}
    (h : Written config draw.dealId filename R) :
    Leaves R (ingestDeal config fault draw tenantId filename content contentType channel sender) := by
  refine leaves_ofExcept.bind fun _ => leaves_ofExcept.bind fun _ =>
    (strike_leaves.bind fun _ => leaves_select).bind fun found => ?_
  cases found with
  | some existing => exact leaves_pure
  | none =>
    exact (storeFile_leaves h).bind fun _ => (insert_leaves h).bind fun _ => (insert_leaves h).bind fun _ =>
      strike_leaves.bind fun _ => leaves_flush.bind fun _ => (enqueueJob_leaves h).bind fun _ => leaves_pure

/-- Whatever the writes do that the roll back does not undo, an upload does. -/
theorem upload_leaves (validatePdf : PdfValidator) (file : UploadFile) (w : World)
    (h : Written config draw.dealId file.name R) (hundo : ∀ w w', R w w' → R w (rollBack w w')) :
    R w (upload config validatePdf fault draw tenantId file w).2 := by
  refine Leaves.transactionWith ?_ hundo w
  refine Leaves.bind (leaves_ofExcept.bind fun _ => leaves_ofExcept.bind fun _ =>
    (ingestDeal_leaves h).tryCatch fun x => ?_) fun _ =>
      strike_leaves.bind fun _ => leaves_flush.bind fun _ => leaves_pure
  unfold exceptIngestionError
  split
  · exact leaves_raise
  · exact leaves_throw

omit [IsPreorder World R] in
/-- Jobs are added. -/
def MoreJobs (w w' : World) : Prop := w.db.jobs <+: w'.db.jobs

instance : IsPreorder World MoreJobs where
  refl _ := List.prefix_refl _
  trans _ _ _ h h' := List.IsPrefix.trans h h'

theorem upload_moreJobs (validatePdf : PdfValidator) (file : UploadFile) (w : World) :
    MoreJobs w (upload config validatePdf fault draw tenantId file w).2 := by
  refine upload_leaves validatePdf file w ?_ fun w w' _ => List.prefix_refl _
  exact ⟨fun _ _ => List.prefix_refl _, fun _ _ => List.prefix_refl _, fun _ _ => List.prefix_refl _,
    fun _ _ => List.prefix_append _ _⟩

end

-- ---------------------------------------------------------------------------
-- Runs
-- ---------------------------------------------------------------------------

section
variable [Runtime] {settings : Settings} {s t u : St} {a : Act}

/-- A step is an upload, or it edits the tables and leaves the jobs and the disk. -/
theorem step_cases (h : step settings s a = some t) :
    (∃ fault draw tenantId file, a = .upload fault draw tenantId file ∧
      t.world = (upload settings.config settings.validatePdf fault draw tenantId file s.world).2) ∨
    (t.world.disk = s.world.disk ∧ t.world.db.jobs = s.world.db.jobs ∧ Edits s.tables t.tables) := by
  cases hidle : s.executing with
  | some job =>
    cases a with
    | score draw =>
      simp only [step, hidle] at h
      cases h
      exact .inr ⟨rfl, rfl, scoring_edits draw job s.tables⟩
    | crash =>
      simp only [step, hidle] at h
      cases h
      exact .inr ⟨rfl, rfl, .refl⟩
    | _ => simp [step, hidle] at h
  | none =>
    cases a with
    | upload fault draw tenantId file =>
      simp only [step, hidle] at h
      cases h
      exact .inl ⟨fault, draw, tenantId, file, rfl, rfl⟩
    | extract world job ctx =>
      have hedits := extraction_edits world job ctx s.tables
      simp only [step, hidle] at h
      split at h <;> rename_i tables hrun <;> rw [hrun] at hedits <;> cases h <;>
        exact .inr ⟨rfl, rfl, hedits⟩
    | createCriteriaConfig draw tenantId body =>
      simp only [step, hidle] at h
      cases h
      exact .inr ⟨rfl, rfl, createCriteriaConfig_edits draw tenantId body s.tables⟩
    | decideDeal now dealId tenantId userId body =>
      simp only [step, hidle] at h
      cases h
      exact .inr ⟨rfl, rfl, decideDeal_edits _ now dealId tenantId userId body s.tables⟩
    | score draw => simp [step, hidle] at h
    | crash => simp [step, hidle] at h

/-- What one moment of a run says of an earlier one. -/
structure Remembers (s t : St) : Prop where
  tables : Grows s.tables t.tables
  jobs : s.world.db.jobs <+: t.world.db.jobs
  /-- The audit rows that were added lead from the status that a deal had to the one it has. -/
  told : ∀ id, ∃ new, t.tables.auditOf id = s.tables.auditOf id ++ new ∧
    Chain (s.tables.dossier id).status new (t.tables.dossier id).status

theorem step_grows (hinv : Inv s.tables) (h : step settings s a = some t) :
    Grows s.tables t.tables ∧ s.world.db.jobs <+: t.world.db.jobs := by
  rcases step_cases h with ⟨fault, draw, tenantId, file, -, hworld⟩ | ⟨-, hjobs, hedits⟩
  · constructor
    · rw [St.tables, St.tables, hworld]
      rcases upload_uploads settings.config settings.validatePdf fault draw tenantId file s.world with
        hsame | ⟨hevent, deals, entries, huploads⟩
      · rw [hsame]
        exact .refl _
      · refine hevent.1.grows hinv fun config _ => ?_
        rw [huploads]
        rfl
    · rw [hworld]
      exact upload_moreJobs settings.validatePdf file s.world
  · rw [hjobs]
    exact ⟨(hedits.grows hinv).1, List.prefix_refl _⟩

omit [Runtime] in
/-- The audit rows of tables that have grown tell what has happened to each deal. -/
theorem Grows.told {db db' : DealDb} (h : Grows db db') (hinv : Inv db) (hinv' : Inv db') (id : Uuid) :
    ∃ new, db'.auditOf id = db.auditOf id ++ new ∧
      Chain (db.dossier id).status new (db'.dossier id).status := by
  obtain ⟨new, hnew⟩ := h.entries
  have hentries : db'.auditOf id =
      db.auditOf id ++ new.filter fun entry => entry.dealId = id := by
    rw [DealDb.auditOf, ← hnew, List.filter_append]
    rfl
  refine ⟨_, hentries, (hinv.audited id).chain.rest ?_⟩
  have hchain := (hinv'.audited id).chain
  change Chain none (db'.auditOf id) _ at hchain
  rwa [hentries] at hchain

/-- At every moment of a run everything that was there at an earlier one is remembered. -/
theorem history_kept {disk : Disk} {before after : List Act}
    (hbefore : Run.exec (step settings) (init disk) before = some s)
    (hafter : Run.exec (step settings) s after = some t) : Remembers s t := by
  have hs : Inv s.tables := (Run.invariant InOrder.step (inOrder_init disk) hbefore).inv
  have hkeep : ∀ {t a u}, (Inv t.tables ∧ Grows s.tables t.tables ∧ s.world.db.jobs <+: t.world.db.jobs) →
      step settings t a = some u →
      Inv u.tables ∧ Grows s.tables u.tables ∧ s.world.db.jobs <+: u.world.db.jobs := by
    rintro t a u ⟨hinv, hgrows, hjobs⟩ hstep
    obtain ⟨hgrows', hjobs'⟩ := step_grows hinv hstep
    exact ⟨(step_effect hstep).inv hinv, hgrows.trans hgrows', hjobs.trans hjobs'⟩
  obtain ⟨ht, hgrows, hjobs⟩ := Run.invariant hkeep ⟨hs, .refl _, List.prefix_refl _⟩ hafter
  exact ⟨hgrows, hjobs, hgrows.told hs ht⟩

end

/-- The document of a failed deal is extracted after all. -/
theorem history_kept_failed :
    letI := asciiRuntime
    ∃ s t, Run.exec (step sampleSettings) (init ⟨[], []⟩) failedOnce = some s ∧
      Run.exec (step sampleSettings) s [.extract sampleWorld sampleJob sampleContext] = some t ∧
      Remembers s t := by
  let _ := asciiRuntime
  have hruns : (do
      let s ← Run.exec (step sampleSettings) (init ⟨[], []⟩) failedOnce
      let t ← Run.exec (step sampleSettings) s [.extract sampleWorld sampleJob sampleContext]
      return decide (t.tables.extractedFields ≠ []) : Option Bool) = some true := by
    decide +kernel
  obtain ⟨s, hbefore, hruns⟩ := Option.bind_eq_some_iff.mp hruns
  obtain ⟨t, hafter, -⟩ := Option.bind_eq_some_iff.mp hruns
  exact ⟨s, t, hbefore, hafter, history_kept hbefore hafter⟩

end Pipeline
