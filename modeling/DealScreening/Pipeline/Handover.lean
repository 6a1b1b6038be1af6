-- SUMMARY: Extractions and requests for configs of one tenant, interleaved statement by statement: when a deal is left without a score although there is a config.
import DealScreening.Api.ConfigRace
import DealScreening.Pipeline.Rescoring
import DealScreening.Pipeline.Statements

/-!
# Who scores an extracted deal

A deal is scored after its extraction if the tenant has a config then, and else by the
request that creates the first one. Each side looks for what the other has committed: the
execution of the job for a config, the request for deals that are EXTRACTED. A statement
that would raise is no step here, but for the exceptions that the requests themselves catch
or that the database gives them for a taken version.
-/

namespace Handover

open Python Session ExtractionService ScoringService CriteriaApi Pipeline

-- ---------------------------------------------------------------------------
-- The system
-- ---------------------------------------------------------------------------

/-- The next statement of an execution of `handle_extraction`, with what the earlier ones
    read. -/
inductive Execution where
  | begun (dealId : Uuid)
  | loaded (deal : Deal)
  /-- Flushed: the row of the deal is locked until the commit. -/
  | extracted (deal : Deal) (c : DealChange)
  /-- The second transaction. -/
  | scoring (dealId : Uuid)
  | found (deal : Deal)
  | configured (deal : Deal) (config : CriteriaConfig) (criteria : List Criterion)
  | evaluated (deal : Deal) (config : CriteriaConfig) (ev : Evaluation)
  | scored (deal : Deal) (c : DealChange)
  | done
  deriving DecidableEq

/-- Where the loop of a request is with one deal. -/
inductive Turn where
  | next
  | loaded (deal : Deal)
  | evaluated (deal : Deal) (ev : Evaluation)

/-- What a request does after its statements on `criteria_configs`. -/
inductive Loop where
  | configuring (criteria : List CriterionCreateSchema)
  | inserted (rows : List Criterion)
  /-- The deals it has listed and not come to, and what it has flushed. -/
  | rescoring (rows : List Criterion) (pending : List Uuid) (flushed : List (Uuid × DealChange))
      (turn : Turn)
  | ended

/-- What is committed with the statements on `criteria_configs`, the rest of each request,
    and the executions. -/
structure St where
  configs : ConfigRace.St
  loops : List Loop
  executions : List Execution

def init (db : DealDb) : St := ⟨ConfigRace.init db, [], []⟩

inductive Act where
  /-- An ingestion commits. -/
  | ingest (deal : Deal)
  | handle (dealId : Uuid)
  | selectDeal (i : Nat)
  | extract (i : Nat) (world : ExtractionWorld)
  | selectConfig (i : Nat)
  | selectFields (i : Nat)
  | flush (i : Nat) (draw : ScoreDraw)
  | commit (i : Nat)
  | create (configId : Uuid) (body : CriteriaConfigCreateSchema)
  | configStatement (a : ConfigRace.Act)
  | insertCriteria (j : Nat)
  | listDeals (j : Nat)
  | loadNext (j : Nat)
  | evaluateNext (j : Nat)
  | flushNext (j : Nat) (draw : ScoreDraw)
  | finish (j : Nat)
  | abort (j : Nat)

def Execution.locks (dealId : Uuid) : Execution → Bool
  | .extracted deal _ | .scored deal _ => deal.id = dealId
  | _ => false

def Loop.locks (dealId : Uuid) : Loop → Bool
  | .rescoring _ _ flushed _ => flushed.any fun entry => entry.1 = dealId
  | _ => false

namespace St

def db (s : St) : DealDb := s.configs.db

def setDb (s : St) (db : DealDb) : St := { s with configs := { s.configs with db } }

def setExecution (s : St) (i : Nat) (e : Execution) : St :=
  { s with executions := s.executions.set i e }

def setLoop (s : St) (j : Nat) (l : Loop) : St := { s with loops := s.loops.set j l }

/-- A transaction has locked the row of the deal. None flushes one deal twice. -/
def locked (s : St) (dealId : Uuid) : Bool :=
  s.executions.any (Execution.locks dealId) || s.loops.any (Loop.locks dealId)

end St

/-- The deal as `_load_and_verify_deal` returns it, unless it raises. -/
def loadExtractable (db : DealDb) (dealId tenantId : Uuid) : Option Deal :=
  (db.deal dealId tenantId).filter fun deal => deal.status = .uploaded ∨ deal.status = .failed

/-- What a request has flushed, with the rows of its criteria. -/
def applied (db : DealDb) (rows : List Criterion) (flushed : List (Uuid × DealChange)) : DealDb :=
  flushed.foldl (fun db entry => db.change entry.1 entry.2) { db with criteria := db.criteria ++ rows }

/-- The statements between the beginning of a request and its loop. -/
def isStatement : ConfigRace.Act → Bool
  | .selectVersion _ | .startUpdate _ | .updateRow _ | .insert _ => true
  | _ => false

section
variable [Runtime]

/-- One statement of one transaction. -/
def step (tenantId : Uuid) (s : St) : Act → Option St
  | .ingest deal => if deal.status = .uploaded then (s.db.insertDeal deal).map s.setDb else none
  | .handle dealId => some { s with executions := s.executions ++ [.begun dealId] }
  | .selectDeal i =>
    match s.executions[i]? with
    | some (.begun dealId) =>
      (loadExtractable s.db dealId tenantId).map fun deal => s.setExecution i (.loaded deal)
    | some (.scoring dealId) =>
      (Statements.loadDeal s.db dealId tenantId).map fun deal => s.setExecution i (.found deal)
    | _ => none
  | .extract i world =>
    match s.executions[i]? with
    | some (.loaded deal) =>
      if s.locked deal.id then none
      else ((outcome world deal).change deal).map fun c => s.setExecution i (.extracted deal c)
    | _ => none
  | .selectConfig i =>
    match s.executions[i]? with
    | some (.found deal) =>
      match Statements.loadConfig s.db tenantId with
      | none => some (s.setExecution i .done)
      | some (config, criteria) => some (s.setExecution i (.configured deal config criteria))
    | _ => none
  | .selectFields i =>
    match s.executions[i]? with
    | some (.configured deal config criteria) =>
      (Statements.evaluation s.db deal criteria).map fun ev =>
        s.setExecution i (.evaluated deal config ev)
    | _ => none
  | .flush i draw =>
    match s.executions[i]? with
    | some (.evaluated deal config ev) =>
      if s.locked deal.id then none
      else (Statements.flushScore s.db draw deal config ev).map fun c =>
        s.setExecution i (.scored deal c)
    | _ => none
  | .commit i =>
    match s.executions[i]? with
    | some (.extracted deal c) =>
      some ((s.setDb (s.db.change deal.id c)).setExecution i
        (if c.status = .extracted then .scoring deal.id else .done))
    | some (.scored deal c) => some ((s.setDb (s.db.change deal.id c)).setExecution i .done)
    | _ => none
  | .create configId body =>
    (ConfigRace.step tenantId s.configs (.begin ⟨configId, body.name⟩)).map fun configs =>
      { s with configs, loops := s.loops ++ [.configuring body.criteria] }
  | .configStatement a =>
    if isStatement a then
      (ConfigRace.step tenantId s.configs a).map fun configs => { s with configs }
    else none
  | .insertCriteria j =>
    match s.configs.txs[j]?, s.loops[j]? with
    | some (.inserted _ config), some (.configuring criteria) =>
      (criteria.mapM (criterionRow config.id)).map fun rows => s.setLoop j (.inserted rows)
    | _, _ => none
  | .listDeals j =>
    match s.loops[j]? with
    | some (.inserted rows) =>
      some (s.setLoop j (.rescoring rows (s.db.dealIds tenantId .extracted) [] .next))
    | _ => none
  | .loadNext j =>
    match s.loops[j]? with
    | some (.rescoring rows (dealId :: pending) flushed .next) =>
      match Statements.loadDeal s.db dealId tenantId with
      | none => some (s.setLoop j (.rescoring rows pending flushed .next))
      | some deal => some (s.setLoop j (.rescoring rows pending flushed (.loaded deal)))
    | _ => none
  | .evaluateNext j =>
    match s.loops[j]? with
    | some (.rescoring rows pending flushed (.loaded deal)) =>
      (Statements.evaluation s.db deal rows).map fun ev =>
        s.setLoop j (.rescoring rows pending flushed (.evaluated deal ev))
    | _ => none
  | .flushNext j draw =>
    match s.configs.txs[j]?, s.loops[j]? with
    | some (.inserted _ config), some (.rescoring rows pending flushed (.evaluated deal ev)) =>
      if s.locked deal.id then none
      else (Statements.flushScore s.db draw deal config ev).map fun c =>
        s.setLoop j (.rescoring rows pending (flushed ++ [(deal.id, c)]) .next)
    | _, _ => none
  | .finish j =>
    match s.loops[j]? with
    | some (.rescoring rows [] flushed .next) =>
      (ConfigRace.step tenantId s.configs (.commit j)).map fun configs =>
        (St.setDb { s with configs } (applied configs.db rows flushed)).setLoop j .ended
    | _ => none
  | .abort j =>
    (ConfigRace.step tenantId s.configs (.abort j)).map fun configs =>
      St.setLoop { s with configs } j .ended

end

-- ---------------------------------------------------------------------------
-- The claim
-- ---------------------------------------------------------------------------

/-- No execution and no request is in flight. -/
def Quiescent (s : St) : Prop :=
  (∀ e ∈ s.executions, e = .done) ∧ ∀ tx ∈ s.configs.txs, tx = .done

/-- The tenant has a deal with this id that is EXTRACTED. -/
def Waits (db : DealDb) (tenantId dealId : Uuid) : Prop :=
  ∃ deal ∈ db.deals, deal.id = dealId ∧ deal.tenantId = tenantId ∧ deal.status = .extracted

/-- When nothing is in flight and there is a config, no deal waits for its score. -/
def NoneStranded (tenantId : Uuid) (s : St) : Prop :=
  Quiescent s → (s.db.activeConfig tenantId).isSome = true → ∀ dealId, ¬ Waits s.db tenantId dealId

/-- The loop of the request comes, or has come, to the deal if that waits. -/
def Loop.covers (dealId : Uuid) : Loop → Prop
  | .configuring _ | .inserted _ | .ended => True
  | .rescoring _ pending flushed turn =>
    dealId ∈ pending ∨ dealId ∈ flushed.map Prod.fst ∨
      match turn with
      | .next => False
      | .loaded deal | .evaluated deal _ => deal.id = dealId

/-- An execution that finds no config leaves its deal to the requests in flight: none has
    listed the deals without this one. -/
def LeavesToAll (tenantId : Uuid) (s : St) : Act → Prop
  | .selectConfig i =>
    match s.executions[i]? with
    | some (.found deal) => s.db.activeConfig tenantId = none → ∀ l ∈ s.loops, l.covers deal.id
    | _ => True
  | _ => True

-- ---------------------------------------------------------------------------
-- Deals that wait
-- ---------------------------------------------------------------------------

section
variable {db : DealDb} {tenantId dealId id : Uuid} {c : DealChange} {rows : List Criterion}
  {flushed : List (Uuid × DealChange)}

/-- A change makes its own deal wait, if any. -/
theorem Waits.change (h : Waits (db.change id c) tenantId dealId) :
    (dealId = id ∧ c.status = .extracted) ∨ (dealId ≠ id ∧ Waits db tenantId dealId) := by
  obtain ⟨_, hmem, rfl, htenant, hstatus⟩ := h
  obtain ⟨d, hd, rfl⟩ := List.mem_map.mp hmem
  by_cases hid : d.id = id
  · simp only [if_pos hid] at hstatus ⊢
    exact .inl ⟨hid, hstatus⟩
  · simp only [if_neg hid] at htenant hstatus ⊢
    exact .inr ⟨hid, d, hd, rfl, htenant, hstatus⟩

/-- The deals whose scores a request commits wait no longer. -/
theorem Waits.applied (hscored : ∀ entry ∈ flushed, entry.2.status = .scored)
    (h : Waits (applied db rows flushed) tenantId dealId) :
    dealId ∉ flushed.map Prod.fst ∧ Waits db tenantId dealId := by
  suffices hfold : ∀ db : DealDb,
      Waits (flushed.foldl (fun db entry => db.change entry.1 entry.2) db) tenantId dealId →
        dealId ∉ flushed.map Prod.fst ∧ Waits db tenantId dealId from
    hfold { db with criteria := db.criteria ++ rows } h
  clear h
  induction flushed with
  | nil => exact fun db h => ⟨List.not_mem_nil, h⟩
  | cons entry flushed ih =>
    intro db h
    obtain ⟨hlater, hwaits⟩ := ih (fun e he => hscored e (List.mem_cons_of_mem entry he)) _ h
    rcases hwaits.change with ⟨-, hextracted⟩ | ⟨hne, hwaits⟩
    · cases hextracted.symm.trans (hscored entry (List.mem_cons_self ..))
    · refine ⟨?_, hwaits⟩
      rw [List.map_cons, List.mem_cons, not_or]
      exact ⟨hne, hlater⟩

theorem mem_dealIds : dealId ∈ db.dealIds tenantId .extracted ↔ Waits db tenantId dealId := by
  simp [DealDb.dealIds, Waits, and_comm, and_assoc]

/-- `_load_deal` finds a deal that waits. -/
theorem Waits.loaded (hdistinct : db.deals.Pairwise fun d d' => d.id ≠ d'.id)
    (h : Waits db tenantId dealId) : Statements.loadDeal db dealId tenantId ≠ none := by
  obtain ⟨deal, hmem, rfl, rfl, hstatus⟩ := h
  intro hnone
  cases hnone.symm.trans (Statements.loadDeal_eq_some.mpr ⟨DealDb.deal_of_mem hdistinct hmem, hstatus⟩)

theorem distinct_change (h : db.deals.Pairwise fun d d' => d.id ≠ d'.id) :
    (db.change id c).deals.Pairwise fun d d' => d.id ≠ d'.id :=
  Table.pairwise_map (fun d => by split <;> rfl) h

/-- What every change keeps. -/
theorem applied_keeps {P : DealDb → Prop} (hstart : P { db with criteria := db.criteria ++ rows })
    (hchange : ∀ db' id c, P db' → P (DealDb.change db' id c)) : P (applied db rows flushed) :=
  List.foldlRecOn flushed (fun db entry => db.change entry.1 entry.2) (motive := P) hstart
    fun db' h entry _ => hchange db' entry.1 entry.2 h

theorem distinct_applied (h : db.deals.Pairwise fun d d' => d.id ≠ d'.id) :
    (applied db rows flushed).deals.Pairwise fun d d' => d.id ≠ d'.id :=
  applied_keeps (P := fun db' => db'.deals.Pairwise fun d d' => d.id ≠ d'.id) h
    fun _ _ _ => distinct_change

theorem criteriaConfigs_applied : (applied db rows flushed).criteriaConfigs = db.criteriaConfigs :=
  applied_keeps (P := fun db' => db'.criteriaConfigs = db.criteriaConfigs) rfl fun _ _ _ h => h

end

-- ---------------------------------------------------------------------------
-- The invariant
-- ---------------------------------------------------------------------------

/-- The execution has extracted the deal and is not done with it. -/
def Execution.scores (dealId : Uuid) : Execution → Prop
  | .scoring id => id = dealId
  | .found deal | .configured deal _ _ | .evaluated deal _ _ | .scored deal _ => deal.id = dealId
  | _ => False

/-- What is flushed for a deal that was found EXTRACTED makes it SCORED. -/
def Execution.Ok : Execution → Prop
  | .scored _ c => c.status = .scored
  | _ => True

def Loop.Ok : Loop → Prop
  | .rescoring _ _ flushed _ => ∀ entry ∈ flushed, entry.2.status = .scored
  | _ => True

/-- A deal that waits has an execution that scores it or, while there is no config, is in
    the list of every request. -/
structure Inv (tenantId : Uuid) (s : St) : Prop where
  distinct : s.db.deals.Pairwise fun d d' => d.id ≠ d'.id
  executions : ∀ e ∈ s.executions, e.Ok
  loops : ∀ l ∈ s.loops, l.Ok
  served : ∀ dealId, Waits s.db tenantId dealId →
    (∃ e ∈ s.executions, e.scores dealId) ∨
      (s.db.activeConfig tenantId = none ∧ ∀ l ∈ s.loops, l.covers dealId)

section
variable {tenantId dealId : Uuid} {s : St} {i j : Nat} {e old : Execution} {l : Loop}
  {deal : Deal} {c : DealChange}

theorem quiescent_init {db : DealDb} : Quiescent (init db) :=
  ⟨fun _ h => absurd h List.not_mem_nil, fun _ h => absurd h List.not_mem_nil⟩

/-- Without a config the deals may wait at first. -/
theorem inv_init {db : DealDb} (hdistinct : db.deals.Pairwise fun d d' => d.id ≠ d'.id)
    (hstart : NoneStranded tenantId (init db)) : Inv tenantId (init db) where
  distinct := hdistinct
  executions _ h := absurd h List.not_mem_nil
  loops _ h := absurd h List.not_mem_nil
  served dealId hwaits := by
    have hnone : db.activeConfig tenantId = none :=
      Option.not_isSome_iff_eq_none.mp fun hconfig => hstart quiescent_init hconfig dealId hwaits
    exact .inr ⟨hnone, fun _ h => absurd h List.not_mem_nil⟩

theorem Inv.noneStranded (h : Inv tenantId s) : NoneStranded tenantId s := by
  rintro ⟨hdone, -⟩ hconfig dealId hwaits
  rcases h.served dealId hwaits with ⟨e, he, hscores⟩ | ⟨hnone, -⟩
  · rw [hdone e he] at hscores
    exact hscores
  · rw [hnone] at hconfig
    cases hconfig

/-- The executions that score a deal still do, but for the one that goes on. -/
theorem scores_set (hold : s.executions[i]? = some old)
    (h : ∃ e ∈ s.executions, e.scores dealId) (e : Execution) :
    (∃ e' ∈ s.executions.set i e, e'.scores dealId) ∨ old.scores dealId := by
  obtain ⟨e', he', hscores⟩ := h
  by_cases heq : e' = old
  · exact .inr (heq ▸ hscores)
  · exact .inl ⟨e', Run.mem_set_of_ne hold he' heq, hscores⟩

/-- An execution goes on without a commit. -/
theorem Inv.setExecution (h : Inv tenantId s) (hold : s.executions[i]? = some old) (hok : e.Ok)
    (hscores : ∀ dealId, Waits s.db tenantId dealId → old.scores dealId → e.scores dealId ∨
      (s.db.activeConfig tenantId = none ∧ ∀ l ∈ s.loops, l.covers dealId)) :
    Inv tenantId (s.setExecution i e) := by
  refine { h with
    executions := Run.forall_mem_set h.executions hok
    served := fun dealId hwaits => ?_ }
  rcases h.served dealId hwaits with hserved | hlisted
  · rcases scores_set hold hserved e with hother | hthis
    · exact .inl hother
    · rcases hscores dealId hwaits hthis with hgoes | hlisted
      · exact .inl ⟨e, Run.mem_set_self hold, hgoes⟩
      · exact .inr hlisted
  · exact .inr hlisted

/-- An execution commits. If it leaves its deal EXTRACTED, it scores that next. -/
theorem Inv.commit (h : Inv tenantId s) (hold : s.executions[i]? = some old) (hok : e.Ok)
    (hothers : ∀ dealId, dealId ≠ deal.id → ¬ old.scores dealId)
    (hnext : c.status = .extracted → e.scores deal.id) :
    Inv tenantId ((s.setDb (s.db.change deal.id c)).setExecution i e) := by
  refine {
    distinct := distinct_change h.distinct
    executions := Run.forall_mem_set h.executions hok
    loops := h.loops
    served := fun dealId hwaits => ?_ }
  rcases Waits.change hwaits with ⟨rfl, hextracted⟩ | ⟨hne, hwaits⟩
  · exact .inl ⟨e, Run.mem_set_self hold, hnext hextracted⟩
  · rcases h.served dealId hwaits with hserved | hlisted
    · rcases scores_set hold hserved e with hother | hthis
      · exact .inl hother
      · exact absurd hthis (hothers dealId hne)
    · exact .inr hlisted

/-- The loop comes to the next deal. -/
theorem covers_next {rows : List Criterion} {id : Uuid} {pending : List Uuid}
    {flushed : List (Uuid × DealChange)} (turn : Turn)
    (h : (Loop.rescoring rows (id :: pending) flushed .next).covers dealId) :
    dealId = id ∨ (Loop.rescoring rows pending flushed turn).covers dealId := by
  rcases h with hpending | hflushed | hturn
  · exact (List.mem_cons.mp hpending).imp_right .inl
  · exact .inr (.inr (.inl hflushed))
  · exact hturn.elim

/-- A request goes on, or ends, without a commit. -/
theorem Inv.setLoop (h : Inv tenantId s) (hok : l.Ok)
    (hcovers : ∀ dealId, Waits s.db tenantId dealId → (∀ l' ∈ s.loops, l'.covers dealId) →
      l.covers dealId) : Inv tenantId (s.setLoop j l) := by
  refine { h with
    loops := Run.forall_mem_set h.loops hok
    served := fun dealId hwaits => (h.served dealId hwaits).imp_right fun ⟨hnone, hall⟩ => ?_ }
  exact ⟨hnone, Run.forall_mem_set hall (hcovers dealId hwaits hall)⟩

/-- A new deal is only UPLOADED. -/
theorem Inv.ingest {db' : DealDb} (h : Inv tenantId s) (hstatus : deal.status = .uploaded)
    (hinsert : s.db.insertDeal deal = some db') : Inv tenantId (s.setDb db') := by
  obtain ⟨hnew, rfl⟩ := insertDeal_eq_some hinsert
  refine { h with
    distinct := Table.pairwise_insert h.distinct hnew
    served := fun dealId ⟨d, hmem, hid, htenant, hextracted⟩ => ?_ }
  rcases List.mem_append.mp hmem with hmem | hmem
  · exact h.served dealId ⟨d, hmem, hid, htenant, hextracted⟩
  · cases List.mem_singleton.mp hmem
    cases hstatus.symm.trans hextracted

theorem Inv.handle (h : Inv tenantId s) :
    Inv tenantId { s with executions := s.executions ++ [.begun dealId] } := by
  refine { h with
    executions := List.forall_mem_append.mpr ⟨h.executions, by simp [Execution.Ok]⟩
    served := fun id hwaits => (h.served id hwaits).imp_left fun ⟨e, he, hscores⟩ => ?_ }
  exact ⟨e, List.mem_append_left _ he, hscores⟩

/-- A new request has still to list the deals. -/
theorem Inv.create {criteria : List CriterionCreateSchema} (h : Inv tenantId s) :
    Inv tenantId { s with loops := s.loops ++ [.configuring criteria] } := by
  refine { h with
    loops := List.forall_mem_append.mpr ⟨h.loops, by simp [Loop.Ok]⟩
    served := fun id hwaits => (h.served id hwaits).imp_right fun ⟨hnone, hall⟩ => ?_ }
  exact ⟨hnone, List.forall_mem_append.mpr ⟨hall, by simp [Loop.covers]⟩⟩

/-- Requests that change nothing of what is committed. -/
theorem Inv.setConfigs {configs : ConfigRace.St} (h : Inv tenantId s)
    (hdb : configs.db = s.db) : Inv tenantId { s with configs } := by
  have hsame : St.db { s with configs } = s.db := hdb
  exact {
    distinct := hsame ▸ h.distinct
    executions := h.executions
    loops := h.loops
    served := hsame ▸ h.served }

/-- A request commits: it has scored all deals that wait without an execution. -/
theorem Inv.finish {rows : List Criterion} {flushed : List (Uuid × DealChange)}
    {configs : ConfigRace.St} (h : Inv tenantId s)
    (hold : s.loops[j]? = some (.rescoring rows [] flushed .next))
    (hdeals : configs.db.deals = s.db.deals) :
    Inv tenantId ((St.setDb { s with configs } (applied configs.db rows flushed)).setLoop j .ended) := by
  have hmem : Loop.rescoring rows [] flushed .next ∈ s.loops := List.mem_of_getElem? hold
  refine {
    distinct := distinct_applied (hdeals ▸ h.distinct)
    executions := h.executions
    loops := Run.forall_mem_set h.loops trivial
    served := fun dealId hwaits => ?_ }
  obtain ⟨hother, hwaits⟩ := Waits.applied (h.loops _ hmem) hwaits
  have hwaits' : Waits s.db tenantId dealId := by
    rw [Waits, hdeals] at hwaits
    exact hwaits
  rcases h.served dealId hwaits' with hserved | ⟨-, hall⟩
  · exact .inl hserved
  · -- The request has listed the deal, so it has scored it.
    rcases hall _ hmem with hpending | hflushed | hnone
    · cases hpending
    · exact absurd hflushed hother
    · exact hnone.elim

end

-- ---------------------------------------------------------------------------
-- Steps
-- ---------------------------------------------------------------------------

/-- Only a commit changes what the statements on `criteria_configs` see, and only the
    configs. -/
theorem configs_step {tenantId : Uuid} {s t : ConfigRace.St} {a : ConfigRace.Act}
    (h : ConfigRace.step tenantId s a = some t) :
    t.db.deals = s.db.deals ∧ ((∀ i, a ≠ .commit i) → t.db = s.db) := by
  cases a with
  | commit i =>
    simp only [ConfigRace.step] at h
    split at h <;> cases h
    exact ⟨rfl, fun hne => absurd rfl (hne i)⟩
  | _ =>
    simp only [ConfigRace.step] at h
    repeat' split at h
    all_goals cases h
    all_goals exact ⟨rfl, fun _ => rfl⟩

section
variable [Runtime] {tenantId : Uuid} {s t : St} {a : Act}

/-- A statement of an execution keeps the invariant, unless it finds no config and a request
    has passed over the deal. -/
theorem step_inv (h : Inv tenantId s) (hok : LeavesToAll tenantId s a)
    (hstep : step tenantId s a = some t) : Inv tenantId t := by
  cases a with
  | ingest deal =>
    simp only [step] at hstep
    split at hstep
    · rename_i hstatus
      obtain ⟨db', hinsert, rfl⟩ := Option.map_eq_some_iff.mp hstep
      exact h.ingest hstatus hinsert
    · cases hstep
  | handle dealId =>
    cases hstep
    exact h.handle
  | selectDeal i =>
    simp only [step] at hstep
    split at hstep
    · rename_i dealId hold
      obtain ⟨deal, hload, rfl⟩ := Option.map_eq_some_iff.mp hstep
      exact h.setExecution hold trivial fun _ _ hscores => hscores.elim
    · rename_i dealId hold
      obtain ⟨deal, hload, rfl⟩ := Option.map_eq_some_iff.mp hstep
      have hid := (DealDb.deal_key (Statements.loadDeal_eq_some.mp hload).1).1
      exact h.setExecution hold trivial fun _ _ hscores => .inl (hid.trans hscores)
    · cases hstep
  | extract i world =>
    simp only [step] at hstep
    split at hstep
    · rename_i deal hold
      split at hstep
      · cases hstep
      · obtain ⟨c, hc, rfl⟩ := Option.map_eq_some_iff.mp hstep
        exact h.setExecution hold trivial fun _ _ hscores => hscores.elim
    · cases hstep
  | selectConfig i =>
    simp only [step] at hstep
    split at hstep
    · rename_i deal hold
      split at hstep
      · rename_i hnone
        cases hstep
        refine h.setExecution hold trivial fun dealId _ hscores => .inr ?_
        have hconfig : s.db.activeConfig tenantId = none := Option.map_eq_none_iff.mp hnone
        simp only [LeavesToAll, hold] at hok
        exact ⟨hconfig, fun l hl => hscores ▸ hok hconfig l hl⟩
      · cases hstep
        exact h.setExecution hold trivial fun _ _ hscores => .inl hscores
    · cases hstep
  | selectFields i =>
    simp only [step] at hstep
    split at hstep
    · rename_i deal config criteria hold
      obtain ⟨ev, hev, rfl⟩ := Option.map_eq_some_iff.mp hstep
      exact h.setExecution hold trivial fun _ _ hscores => .inl hscores
    · cases hstep
  | flush i draw =>
    simp only [step] at hstep
    split at hstep
    · rename_i deal config ev hold
      split at hstep
      · cases hstep
      · obtain ⟨c, hc, rfl⟩ := Option.map_eq_some_iff.mp hstep
        obtain ⟨score, -, -, -, -, rfl⟩ := Statements.flushScore_eq_some hc
        exact h.setExecution hold rfl fun _ _ hscores => .inl hscores
    · cases hstep
  | commit i =>
    simp only [step] at hstep
    split at hstep
    · rename_i deal c hold
      cases hstep
      refine h.commit hold ?_ (fun _ _ hscores => hscores) fun hextracted => ?_
      · split <;> trivial
      · rw [if_pos hextracted]
        rfl
    · rename_i deal c hold
      cases hstep
      refine h.commit hold trivial (fun dealId hne hscores => hne hscores.symm) fun hextracted => ?_
      have hscored : c.status = .scored := h.executions _ (List.mem_of_getElem? hold)
      cases hextracted.symm.trans hscored
    · cases hstep
  | create configId body =>
    simp only [step] at hstep
    obtain ⟨configs, hconfigs, rfl⟩ := Option.map_eq_some_iff.mp hstep
    exact h.create.setConfigs ((configs_step hconfigs).2 fun i heq => by cases heq)
  | configStatement a =>
    simp only [step] at hstep
    split at hstep
    · rename_i hstatement
      obtain ⟨configs, hconfigs, rfl⟩ := Option.map_eq_some_iff.mp hstep
      refine h.setConfigs ((configs_step hconfigs).2 fun i heq => ?_)
      rw [heq] at hstatement
      cases hstatement
    · cases hstep
  | insertCriteria j =>
    simp only [step] at hstep
    split at hstep
    · rename_i locked config criteria htx hold
      obtain ⟨rows, hrows, rfl⟩ := Option.map_eq_some_iff.mp hstep
      exact h.setLoop trivial fun _ _ _ => trivial
    · cases hstep
  | listDeals j =>
    simp only [step] at hstep
    split at hstep
    · rename_i rows hold
      cases hstep
      exact h.setLoop (List.forall_mem_nil _) fun _ hwaits _ => .inl (mem_dealIds.mpr hwaits)
    · cases hstep
  | loadNext j =>
    simp only [step] at hstep
    split at hstep
    · rename_i rows dealId pending flushed hold
      have hmem := List.mem_of_getElem? hold
      have hflushed := h.loops _ hmem
      split at hstep
      · rename_i hnone
        cases hstep
        refine h.setLoop hflushed fun id hwaits hall => ?_
        rcases covers_next .next (hall _ hmem) with rfl | hcovers
        · exact absurd hnone (hwaits.loaded h.distinct)
        · exact hcovers
      · rename_i deal hload
        cases hstep
        have hid := (DealDb.deal_key (Statements.loadDeal_eq_some.mp hload).1).1
        refine h.setLoop hflushed fun id hwaits hall => ?_
        rcases covers_next (.loaded deal) (hall _ hmem) with rfl | hcovers
        · exact .inr (.inr hid)
        · exact hcovers
    · cases hstep
  | evaluateNext j =>
    simp only [step] at hstep
    split at hstep
    · rename_i rows pending flushed deal hold
      obtain ⟨ev, hev, rfl⟩ := Option.map_eq_some_iff.mp hstep
      have hmem := List.mem_of_getElem? hold
      have hflushed := h.loops _ hmem
      refine h.setLoop hflushed fun id _ hall => ?_
      have hcovers := hall _ hmem
      exact hcovers
    · cases hstep
  | flushNext j draw =>
    simp only [step] at hstep
    split at hstep
    · rename_i locked config rows pending flushed deal ev htx hold
      split at hstep
      · cases hstep
      · obtain ⟨c, hc, rfl⟩ := Option.map_eq_some_iff.mp hstep
        obtain ⟨score, -, -, -, -, rfl⟩ := Statements.flushScore_eq_some hc
        have hmem := List.mem_of_getElem? hold
        have hflushed : ∀ entry ∈ flushed, entry.2.status = .scored := h.loops _ hmem
        refine h.setLoop (List.forall_mem_append.mpr ⟨hflushed, by simp [scoreChange]⟩)
          fun id _ hall => ?_
        rw [Loop.covers, List.map_append, List.mem_append]
        rcases hall _ hmem with hpending | hflushed | hturn
        · exact .inl hpending
        · exact .inr (.inl (.inl hflushed))
        · exact .inr (.inl (.inr (List.mem_singleton.mpr hturn.symm)))
    · cases hstep
  | finish j =>
    simp only [step] at hstep
    split at hstep
    · rename_i rows flushed hold
      obtain ⟨configs, hconfigs, rfl⟩ := Option.map_eq_some_iff.mp hstep
      exact h.finish hold (configs_step hconfigs).1
    · cases hstep
  | abort j =>
    simp only [step] at hstep
    obtain ⟨configs, hconfigs, rfl⟩ := Option.map_eq_some_iff.mp hstep
    have hsame : configs.db = s.db := (configs_step hconfigs).2 fun i heq => by cases heq
    exact (h.setConfigs hsame).setLoop trivial fun _ _ _ => trivial

/-- When every execution that finds no config leaves its deal to all requests in flight, no
    deal is ever stranded. -/
theorem none_stranded {db : DealDb} {acts : List Act}
    (hdistinct : db.deals.Pairwise fun d d' => d.id ≠ d'.id)
    (hstart : NoneStranded tenantId (init db))
    (hguarded : Run.Guarded (step tenantId) (LeavesToAll tenantId) (init db) acts) :
    Run.Always (step tenantId) (NoneStranded tenantId) (init db) acts :=
  Run.Guarded.always step_inv Inv.noneStranded (inv_init hdistinct hstart) hguarded

end

-- ---------------------------------------------------------------------------
-- Two interleavings
-- ---------------------------------------------------------------------------

instance (dealId : Uuid) : (l : Loop) → Decidable (l.covers dealId)
  | .configuring _ => .isTrue trivial
  | .inserted _ => .isTrue trivial
  | .ended => .isTrue trivial
  | .rescoring _ pending flushed .next =>
    inferInstanceAs (Decidable (dealId ∈ pending ∨ dealId ∈ flushed.map Prod.fst ∨ False))
  | .rescoring _ pending flushed (.loaded deal) =>
    inferInstanceAs (Decidable (dealId ∈ pending ∨ dealId ∈ flushed.map Prod.fst ∨ deal.id = dealId))
  | .rescoring _ pending flushed (.evaluated deal _) =>
    inferInstanceAs (Decidable (dealId ∈ pending ∨ dealId ∈ flushed.map Prod.fst ∨ deal.id = dealId))

/-- `LeavesToAll`, to be computed. -/
def leavesToAll (tenantId : Uuid) (s : St) : Act → Bool
  | .selectConfig i =>
    match s.executions[i]? with
    | some (.found deal) =>
      decide (s.db.activeConfig tenantId = none → ∀ l ∈ s.loops, l.covers deal.id)
    | _ => true
  | _ => true

theorem leavesToAll_sound (tenantId : Uuid) (s : St) (a : Act) (h : leavesToAll tenantId s a = true) :
    LeavesToAll tenantId s a := by
  cases a with
  | selectConfig i =>
    unfold leavesToAll at h
    unfold LeavesToAll
    dsimp only at h ⊢
    split
    · rename_i deal hold
      simp only [hold] at h
      exact of_decide_eq_true h
    · trivial
  | _ => trivial

/-- A deal is extracted while the first config of the tenant is being created. -/
def extractedMeanwhile : List Act :=
  [.ingest sampleDeal, .handle 1, .selectDeal 0, .extract 0 sampleWorld, .create 3 (sampleBody "1000"),
    .configStatement (.selectVersion 0), .configStatement (.startUpdate 0),
    .configStatement (.insert 0), .insertCriteria 0]

/-- The request lists the deals after the extraction has committed. -/
def listedAfterwards : List Act :=
  extractedMeanwhile ++ [.commit 0, .selectDeal 0, .selectConfig 0, .listDeals 0, .loadNext 0,
    .evaluateNext 0, .flushNext 0 ⟨7, 0⟩, .finish 0]

theorem noneStranded_empty (tenantId : Uuid) : NoneStranded tenantId (init .empty) :=
  fun _ h => nomatch h

theorem none_stranded_listed_afterwards :
    letI := asciiRuntime
    ∃ t, Run.exec (step 2) (init .empty) listedAfterwards = some t ∧
      (t.db.activeConfig 2).isSome = true ∧ NoneStranded 2 t := by
  let _ := asciiRuntime
  have hguarded : Run.Guarded (step 2) (LeavesToAll 2) (init .empty) listedAfterwards :=
    Run.guarded_of_checks (leavesToAll 2) (leavesToAll_sound 2) (by decide +kernel)
  have hruns : (Run.exec (step 2) (init .empty) listedAfterwards).map
      (fun s => (s.db.activeConfig 2).isSome) = some true := by
    decide +kernel
  obtain ⟨t, hrun, hconfig⟩ := Option.map_eq_some_iff.mp hruns
  have halways := none_stranded .nil (noneStranded_empty 2) hguarded
  exact ⟨t, hrun, hconfig, halways.last hrun⟩

/-- The request lists the deals before that, and commits after the execution has looked for a
    config. -/
def listedBefore : List Act :=
  extractedMeanwhile ++ [.listDeals 0, .commit 0, .selectDeal 0, .selectConfig 0, .finish 0]

/-- Each side has looked before the other committed. -/
theorem deal_stranded :
    ¬ ∀ (_ : Runtime) (tenantId : Uuid) (db : DealDb) (acts : List Act) (t : St),
      (db.deals.Pairwise fun d d' => d.id ≠ d'.id) → NoneStranded tenantId (init db) →
      Run.exec (step tenantId) (init db) acts = some t →
      Run.Always (step tenantId) (NoneStranded tenantId) (init db) acts := by
  intro h
  let _ := asciiRuntime
  have hruns : (Run.exec (step 2) (init .empty) listedBefore).map (fun s =>
      decide (s.executions = [.done] ∧ s.configs.txs = [.done] ∧ s.db.dealIds 2 .extracted = [1] ∧
        (s.db.activeConfig 2).isSome = true)) = some true := by
    decide +kernel
  obtain ⟨t, hrun, hfinal⟩ := Option.map_eq_some_iff.mp hruns
  obtain ⟨hexecutions, htxs, hdeals, hconfig⟩ := of_decide_eq_true hfinal
  have hsafe := (h asciiRuntime 2 .empty listedBefore t .nil (noneStranded_empty 2) hrun).last hrun
  have hquiet : Quiescent t := by
    rw [Quiescent, hexecutions, htxs]
    decide
  have hlisted : (1 : Uuid) ∈ t.db.dealIds 2 .extracted := by
    rw [hdeals]
    decide
  exact hsafe hquiet hconfig 1 (mem_dealIds.mp hlisted)

end Handover
