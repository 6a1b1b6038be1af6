-- SUMMARY: Scorings of and decisions on one deal, interleaved statement by statement: the lifecycle is kept exactly by runs in which each commit finds the status its transaction has read.
import DealScreening.Pipeline.Guarantees
import DealScreening.Pipeline.Statements

/-!
# Racing for a deal

Any number of `score_deal` and `decide_deal` transactions run on one deal. Each reads the
status once, and its flush sets it by `UPDATE deals SET status = ... WHERE id = ...`, which
waits for a transaction that has flushed before and then overwrites whatever that one has
committed. Requests that create configs commit in between.
-/

namespace DecisionRace

open Python Session Dossier ExtractionService ScoringService DealsApi Pipeline

-- ---------------------------------------------------------------------------
-- The system
-- ---------------------------------------------------------------------------

/-- Who scores: a job, by the config that is committed, or the request for a config, by its
    own, which is not committed yet. -/
inductive Source where
  | job
  | rescoring (config : CriteriaConfig) (criteria : List Criterion)
  deriving DecidableEq

/-- The next statement of a transaction, with what the earlier ones read. -/
inductive Tx where
  | scoring (source : Source)
  | loaded (source : Source) (deal : Deal)
  | configured (deal : Deal) (config : CriteriaConfig) (criteria : List Criterion)
  | evaluated (deal : Deal) (config : CriteriaConfig) (ev : Evaluation)
  | deciding (userId : String) (body : DealDecisionRequest)
  | found (userId : String) (body : DealDecisionRequest) (deal : Deal)
  | referenced (userId : String) (body : DealDecisionRequest) (deal : Deal) (latest : Option DealScore)
  /-- Flushed: the row of the deal is locked until the end. -/
  | flushed (deal : Deal) (c : DealChange)
  | done
  deriving DecidableEq

def Tx.locks : Tx → Bool
  | .flushed _ _ => true
  | _ => false

/-- What is committed, the transactions, and the committed values of the deal's status. -/
structure St where
  db : DealDb
  txs : List Tx
  statuses : List DealStatus
  deriving DecidableEq

def init (db : DealDb) (deal : Deal) : St := ⟨db, [], [deal.status]⟩

inductive Act where
  | score (source : Source)
  | decide (userId : String) (body : DealDecisionRequest)
  | selectDeal (i : Nat)
  | selectConfig (i : Nat)
  | selectFields (i : Nat)
  | selectScore (i : Nat)
  /-- The flush, with the id of a score and the time. -/
  | flush (i : Nat) (draw : ScoreDraw)
  | commit (i : Nat)
  | abort (i : Nat)
  /-- Requests for configs commit: their tables are as given. -/
  | configure (configs : List CriteriaConfig) (criteria : List Criterion)
  deriving DecidableEq

namespace St

def setTx (s : St) (i : Nat) (tx : Tx) : St := { s with txs := s.txs.set i tx }

/-- Continue with what a statement returned, or end when it raised. -/
def goOn {α : Type} (s : St) (i : Nat) (result : Option α) (next : α → Tx) : St :=
  s.setTx i (result.elim .done next)

def committed (s : St) (i : Nat) (deal : Deal) (c : DealChange) : St :=
  { s.setTx i .done with db := s.db.change deal.id c, statuses := s.statuses ++ [c.status] }

/-- Another transaction has locked the row of the deal. -/
def lockedByOther (s : St) (i : Nat) : Bool :=
  s.txs.zipIdx.any fun (tx, j) => j ≠ i ∧ tx.locks

end St

section
variable [Runtime]

/-- What the flush of a transaction writes, with the deal it has read. -/
def flushed (readUuid : String → Option Uuid) (db : DealDb) (draw : ScoreDraw) :
    Tx → Option (Deal × Option DealChange)
  | .evaluated deal config ev => some (deal, Statements.flushScore db draw deal config ev)
  | .referenced userId body deal latest =>
    some (deal, Statements.flushDecision readUuid draw.now deal userId body latest)
  | _ => none

/-- One statement of one transaction. -/
def step (readUuid : String → Option Uuid) (dealId tenantId : Uuid) (s : St) : Act → Option St
  | .score source => some { s with txs := s.txs ++ [.scoring source] }
  | .decide userId body => some { s with txs := s.txs ++ [.deciding userId body] }
  | .selectDeal i =>
    match s.txs[i]? with
    | some (.scoring source) =>
      some (s.goOn i (Statements.loadDeal s.db dealId tenantId) (.loaded source))
    | some (.deciding userId body) =>
      some (s.goOn i (Statements.loadScored s.db dealId tenantId) (.found userId body))
    | _ => none
  | .selectConfig i =>
    match s.txs[i]? with
    | some (.loaded .job deal) =>
      some (s.goOn i (Statements.loadConfig s.db tenantId) fun (config, criteria) =>
        .configured deal config criteria)
    | some (.loaded (.rescoring config criteria) deal) =>
      some (s.setTx i (.configured deal config criteria))
    | _ => none
  | .selectFields i =>
    match s.txs[i]? with
    | some (.configured deal config criteria) =>
      some (s.goOn i (Statements.evaluation s.db deal criteria) (.evaluated deal config))
    | _ => none
  | .selectScore i =>
    match s.txs[i]? with
    | some (.found userId body deal) =>
      some (s.setTx i (.referenced userId body deal
        (Table.latest DealScore.createdAt (s.db.scoresOf dealId))))
    | _ => none
  | .flush i draw =>
    match s.txs[i]?.bind (flushed readUuid s.db draw) with
    | some (deal, c) => if s.lockedByOther i then none else some (s.goOn i c (.flushed deal))
    | none => none
  | .commit i =>
    match s.txs[i]? with
    | some (.flushed deal c) => some (s.committed i deal c)
    | _ => none
  | .abort i => if i < s.txs.length then some (s.setTx i .done) else none
  | .configure configs criteria =>
    some { s with db := { s.db with criteriaConfigs := configs, criteria } }

end

-- ---------------------------------------------------------------------------
-- The claim
-- ---------------------------------------------------------------------------

/-- DECIDED is final, there is one score and one decision at most, and each audit row begins
    in the state the one before it ended in. -/
structure Kept (dealId : Uuid) (s : St) : Prop where
  final : s.statuses.Pairwise fun before after => before = .decided → after = .decided
  score : (s.db.scoresOf dealId).length ≤ 1
  decision : (s.db.decisionsOf dealId).length ≤ 1
  chain : ∃ last, Chain none (s.db.auditOf dealId) last

/-- A transaction that commits finds the deal in the status it has read. -/
def FindsStatus (dealId : Uuid) (s : St) : Act → Prop
  | .commit i => ∀ deal c, s.txs[i]? = some (.flushed deal c) →
    (s.db.dealById dealId).map Deal.status = some deal.status
  | _ => True

-- ---------------------------------------------------------------------------
-- The invariant
-- ---------------------------------------------------------------------------

/-- A status that was read, and what it may have become. -/
def Reached : DealStatus → DealStatus → Prop
  | .extracted, .extracted | .extracted, .scored | .extracted, .decided
  | .scored, .scored | .scored, .decided => True
  | _, _ => False

/-- How many scores and decisions go with a status. -/
def Counted : DealStatus → Nat → Nat → Prop
  | .scored, n, m => n = 1 ∧ m = 0
  | .decided, n, m => n = 1 ∧ m = 1
  | _, n, m => n = 0 ∧ m = 0

/-- A score of an extracted deal, or a decision on a scored one. -/
def Writes (deal : Deal) (c : DealChange) : Prop :=
  (deal.status = .extracted ∧ ∃ score ev, score.dealId = deal.id ∧ c = scoreChange deal score ev) ∨
  (deal.status = .scored ∧ ∃ decision userId body, decision.dealId = deal.id ∧
    c = decisionChange deal decision userId body)

/-- What a transaction has read, when the deal has the status now. -/
def TxOk (dealId : Uuid) (status : DealStatus) : Tx → Prop
  | .scoring _ | .deciding _ _ | .done => True
  | .loaded _ deal | .configured deal _ _ | .evaluated deal _ _ =>
    deal.id = dealId ∧ deal.status = .extracted ∧ Reached .extracted status
  | .found _ _ deal | .referenced _ _ deal _ =>
    deal.id = dealId ∧ deal.status = .scored ∧ Reached .scored status
  | .flushed deal c => deal.id = dealId ∧ Writes deal c ∧ Reached deal.status status

structure Intact (dealId : Uuid) (current : DealStatus) (s : St) : Prop where
  ids : s.db.deals.Pairwise fun d d' => d.id ≠ d'.id
  found : (s.db.dealById dealId).map Deal.status = some current
  undecided : current ≠ .decided → ∀ status ∈ s.statuses, status ≠ .decided
  final : s.statuses.Pairwise fun before after => before = .decided → after = .decided
  counted : Counted current (s.db.scoresOf dealId).length (s.db.decisionsOf dealId).length
  chain : Chain none (s.db.auditOf dealId) (some current)
  txs : ∀ (i : Nat) (tx : Tx), s.txs[i]? = some tx → TxOk dealId current tx

section
variable {dealId tenantId : Uuid} {read current : DealStatus} {db : DealDb} {s t : St} {i : Nat}
  {old tx : Tx} {deal : Deal} {c : DealChange}

theorem Counted.le {n m : Nat} (h : Counted current n m) : n ≤ 1 ∧ m ≤ 1 := by
  cases current <;> obtain ⟨rfl, rfl⟩ := h <;> decide

theorem Intact.kept (h : Intact dealId current s) : Kept dealId s :=
  ⟨h.final, h.counted.le.1, h.counted.le.2, _, h.chain⟩

theorem intact_init (h : Inv db) (hdeal : db.deal dealId tenantId = some deal) :
    Intact dealId deal.status (init db deal) := by
  obtain ⟨hid, -⟩ := DealDb.deal_key hdeal
  have hlookup : db.dealById dealId = some deal := hid ▸ h.dealById hdeal
  have hchain : Chain none (db.auditOf dealId) ((db.dealById dealId).map Deal.status) :=
    (h.audited dealId).chain
  have hrecorded : Recorded deal.status (db.scoresOf dealId) (db.decisionsOf dealId) :=
    (h.scored dealId).recorded deal hlookup
  rw [hlookup] at hchain
  refine {
    ids := h.deals
    found := congrArg (Option.map _) hlookup
    undecided := fun hne status hmem => by
      rw [List.mem_singleton.mp hmem]
      exact hne
    final := List.pairwise_singleton _ _
    counted := ?_
    chain := hchain
    txs := fun i tx htx => nomatch htx }
  show Counted deal.status (db.scoresOf dealId).length (db.decisionsOf dealId).length
  rcases hrecorded.cases with ⟨hnot, hscores, hdecisions⟩ | ⟨hstatus, ⟨score, hscores⟩, hdecisions⟩ |
    ⟨hstatus, score, decision, hscores, hdecisions, -⟩
  · rw [hscores, hdecisions]
    cases hstatus : deal.status with
    | scored => exact absurd (.inl hstatus) hnot
    | decided => exact absurd (.inr hstatus) hnot
    | _ => exact ⟨rfl, rfl⟩
  · rw [hstatus, hscores, hdecisions]
    exact ⟨rfl, rfl⟩
  · rw [hstatus, hscores, hdecisions]
    exact ⟨rfl, rfl⟩

-- ---------------------------------------------------------------------------
-- Statements that commit nothing
-- ---------------------------------------------------------------------------

theorem Intact.setTx (h : Intact dealId current s) (hold : s.txs[i]? = some old)
    (htx : TxOk dealId current tx) : Intact dealId current (s.setTx i tx) := by
  refine { h with txs := fun j tx' hj => ?_ }
  rw [St.setTx, Run.getElem?_set_of_some hold] at hj
  split at hj
  · cases hj
    exact htx
  · exact h.txs j tx' hj

theorem Intact.goOn {α : Type} {result : Option α} {next : α → Tx} (h : Intact dealId current s)
    (hold : s.txs[i]? = some old) (hnext : ∀ a, result = some a → TxOk dealId current (next a)) :
    Intact dealId current (s.goOn i result next) := by
  cases result with
  | none => exact h.setTx hold trivial
  | some a => exact h.setTx hold (hnext a rfl)

theorem Intact.begin (h : Intact dealId current s) (htx : TxOk dealId current tx) :
    Intact dealId current { s with txs := s.txs ++ [tx] } := by
  refine { h with txs := fun j tx' hj => ?_ }
  rcases Run.getElem?_snoc_eq_some.mp hj with hj | ⟨-, rfl⟩
  · exact h.txs j tx' hj
  · exact htx

/-- The deal that a `SELECT` finds has the status it has now. -/
theorem Intact.selected (h : Intact dealId current s)
    (hdeal : s.db.deal dealId tenantId = some deal) : deal.id = dealId ∧ deal.status = current := by
  obtain ⟨hid, -⟩ := DealDb.deal_key hdeal
  have hlookup : s.db.dealById deal.id = some deal :=
    Table.lookup_of_mem h.ids (List.mem_of_find?_eq_some hdeal)
  have hfound := h.found
  rw [← hid, hlookup] at hfound
  exact ⟨hid, Option.some.inj hfound⟩

-- ---------------------------------------------------------------------------
-- Commits
-- ---------------------------------------------------------------------------

theorem Writes.about (h : Writes deal c) : c.About deal.id := by
  rcases h with ⟨-, score, ev, hid, rfl⟩ | ⟨-, decision, userId, body, hid, rfl⟩
  · exact scoreChange_about hid
  · exact decisionChange_about hid

theorem Writes.chain (h : Writes deal c) : Chain (some deal.status) c.entries (some c.status) := by
  rcases h with ⟨-, score, ev, -, rfl⟩ | ⟨-, decision, userId, body, -, rfl⟩
  · exact ⟨rfl, rfl⟩
  · exact ⟨rfl, rfl⟩

/-- One score, or one decision, and the status that goes with it. -/
theorem Writes.cases (h : Writes deal c) :
    (deal.status = .extracted ∧ c.status = .scored ∧ c.scores.length = 1 ∧ c.decisions = []) ∨
    (deal.status = .scored ∧ c.status = .decided ∧ c.scores = [] ∧ c.decisions.length = 1) := by
  rcases h with ⟨hstatus, score, ev, -, rfl⟩ | ⟨hstatus, decision, userId, body, -, rfl⟩
  · exact .inl ⟨hstatus, rfl, rfl, rfl⟩
  · exact .inr ⟨hstatus, rfl, rfl, rfl⟩

theorem Reached.next (h : Reached read deal.status) (hwrites : Writes deal c) :
    Reached read c.status := by
  rcases hwrites.cases with ⟨hfrom, hto, -⟩ | ⟨hfrom, hto, -⟩ <;> rw [hfrom] at h <;> rw [hto] <;>
    cases read <;> trivial

theorem TxOk.next (h : TxOk dealId deal.status tx) (hwrites : Writes deal c) :
    TxOk dealId c.status tx := by
  cases tx with
  | scoring source => trivial
  | deciding userId body => trivial
  | done => trivial
  | loaded source d => exact ⟨h.1, h.2.1, h.2.2.next hwrites⟩
  | configured d config criteria => exact ⟨h.1, h.2.1, h.2.2.next hwrites⟩
  | evaluated d config ev => exact ⟨h.1, h.2.1, h.2.2.next hwrites⟩
  | found userId body d => exact ⟨h.1, h.2.1, h.2.2.next hwrites⟩
  | referenced userId body d latest => exact ⟨h.1, h.2.1, h.2.2.next hwrites⟩
  | flushed d change => exact ⟨h.1, h.2.1, h.2.2.next hwrites⟩

theorem Counted.next {n m : Nat} (h : Counted deal.status n m) (hwrites : Writes deal c) :
    Counted c.status (n + c.scores.length) (m + c.decisions.length) := by
  rcases hwrites.cases with ⟨hfrom, hto, hscores, hdecisions⟩ | ⟨hfrom, hto, hscores, hdecisions⟩ <;>
    rw [hfrom] at h <;> obtain ⟨rfl, rfl⟩ := h <;> rw [hto, hscores, hdecisions] <;> exact ⟨rfl, rfl⟩

theorem committed_dossier (hwrites : Writes deal c) (hid : deal.id = dealId) :
    (s.committed i deal c).db.dossier dealId = (s.db.dossier dealId).apply c := by
  rw [← hid]
  exact (dossier_change hwrites.about).trans (if_pos rfl)

theorem committed_scores (hwrites : Writes deal c) (hid : deal.id = dealId) :
    (s.committed i deal c).db.scoresOf dealId = s.db.scoresOf dealId ++ c.scores :=
  congrArg Dossier.scores (committed_dossier hwrites hid)

theorem committed_decisions (hwrites : Writes deal c) (hid : deal.id = dealId) :
    (s.committed i deal c).db.decisionsOf dealId = s.db.decisionsOf dealId ++ c.decisions :=
  congrArg Dossier.decisions (committed_dossier hwrites hid)

theorem committed_audit (hwrites : Writes deal c) (hid : deal.id = dealId) :
    (s.committed i deal c).db.auditOf dealId = s.db.auditOf dealId ++ c.entries :=
  congrArg Dossier.entries (committed_dossier hwrites hid)

/-- A commit that finds the status its transaction has read. -/
theorem Intact.commit (h : Intact dealId deal.status s) (hold : s.txs[i]? = some (.flushed deal c)) :
    Intact dealId c.status (s.committed i deal c) := by
  obtain ⟨hid, hwrites, -⟩ := h.txs i _ hold
  have hundecided : ∀ status ∈ s.statuses, status ≠ .decided := by
    refine h.undecided ?_
    rcases hwrites.cases with ⟨hfrom, -⟩ | ⟨hfrom, -⟩ <;> rw [hfrom] <;> decide
  refine {
    ids := Table.pairwise_map (fun d => by split <;> rfl) h.ids
    found := ?found
    undecided := fun hne status hmem => ?undecided
    final := List.pairwise_append.mpr ⟨h.final, List.pairwise_singleton _ _,
      fun before hbefore _ _ hdecided => absurd hdecided (hundecided before hbefore)⟩
    counted := ?counted
    chain := ?chain
    txs := ?txs }
  case found =>
    obtain ⟨d, hd, -⟩ := Option.map_eq_some_iff.mp h.found
    have hdeal := congrArg Dossier.deal (@committed_dossier dealId s i deal c hwrites hid)
    exact congrArg (Option.map _) (hdeal.trans (apply_deal hd))
  case undecided =>
    rcases List.mem_append.mp hmem with hold | hnew
    · exact hundecided status hold
    · rw [List.mem_singleton.mp hnew]
      exact hne
  case counted =>
    rw [committed_scores hwrites hid, committed_decisions hwrites hid, List.length_append,
      List.length_append]
    exact h.counted.next hwrites
  case chain =>
    rw [committed_audit hwrites hid]
    exact h.chain.append hwrites.chain
  case txs =>
    intro j tx hj
    rw [St.committed, St.setTx, Run.getElem?_set_of_some hold] at hj
    split at hj
    · cases hj
      trivial
    · exact (h.txs j tx hj).next hwrites

/-- One that does not makes a second score, or a second decision. -/
theorem Intact.commit_breaks (h : Intact dealId current s)
    (hold : s.txs[i]? = some (.flushed deal c)) (hne : current ≠ deal.status) :
    ¬ Kept dealId (s.committed i deal c) := by
  intro hkept
  obtain ⟨hid, hwrites, hreached⟩ := h.txs i _ hold
  have hscores := hkept.score
  have hdecisions := hkept.decision
  rw [committed_scores hwrites hid, List.length_append] at hscores
  rw [committed_decisions hwrites hid, List.length_append] at hdecisions
  have hcounted := h.counted
  rcases hwrites.cases with ⟨hfrom, -, hone, -⟩ | ⟨hfrom, -, -, hone⟩ <;> rw [hfrom] at hreached hne
  · -- Scored in the meantime, whether or not decided since.
    have hscored : (s.db.scoresOf dealId).length = 1 := by
      cases current with
      | extracted => exact absurd rfl hne
      | scored => exact hcounted.1
      | decided => exact hcounted.1
      | _ => exact hreached.elim
    omega
  · have hdecided : (s.db.decisionsOf dealId).length = 1 := by
      cases current with
      | scored => exact absurd rfl hne
      | decided => exact hcounted.2
      | _ => exact hreached.elim
    omega

end

-- ---------------------------------------------------------------------------
-- Steps
-- ---------------------------------------------------------------------------

section
variable [Runtime] {readUuid : String → Option Uuid} {dealId tenantId : Uuid} {current : DealStatus}
  {s t : St} {i : Nat} {tx : Tx} {a : Act} {draw : ScoreDraw} {deal : Deal} {c : DealChange}

omit [Runtime] in
/-- A flush of what was read about the deal. -/
theorem flushed_ok (htx : TxOk dealId current tx)
    (h : flushed readUuid s.db draw tx = some (deal, some c)) :
    TxOk dealId current (.flushed deal c) := by
  cases tx with
  | evaluated d config ev =>
    obtain ⟨hid, hstatus, hreached⟩ := htx
    obtain ⟨rfl, hflush⟩ := Prod.mk.injEq .. ▸ Option.some.inj h
    obtain ⟨score, -, hscore, -, -, rfl⟩ := Statements.flushScore_eq_some hflush
    exact ⟨hid, .inl ⟨hstatus, score, ev, hscore, rfl⟩, hstatus ▸ hreached⟩
  | referenced userId body d latest =>
    obtain ⟨hid, hstatus, hreached⟩ := htx
    obtain ⟨rfl, hflush⟩ := Prod.mk.injEq .. ▸ Option.some.inj h
    obtain ⟨decision, hdecision, -, rfl⟩ := Statements.flushDecision_eq_some hflush
    exact ⟨hid, .inr ⟨hstatus, decision, userId, body, hdecision, rfl⟩, hstatus ▸ hreached⟩
  | _ => cases h

/-- A step commits a change that was flushed, or nothing of the deal. -/
theorem step_cases (h : Intact dealId current s) (hstep : step readUuid dealId tenantId s a = some t) :
    (FindsStatus dealId s a ∧ Intact dealId current t) ∨ ∃ i deal c, a = .commit i ∧ s.txs[i]? = some (.flushed deal c) ∧
      t = s.committed i deal c := by
  cases a with
  | score source =>
    cases hstep
    exact .inl ⟨trivial, h.begin trivial⟩
  | decide userId body =>
    cases hstep
    exact .inl ⟨trivial, h.begin trivial⟩
  | selectDeal i =>
    simp only [step] at hstep
    split at hstep <;> cases hstep
    · rename_i source hold
      refine .inl ⟨trivial, h.goOn hold fun deal hload => ?_⟩
      obtain ⟨hdeal, hstatus⟩ := Statements.loadDeal_eq_some.mp hload
      obtain ⟨hid, hcurrent⟩ := h.selected hdeal
      exact ⟨hid, hstatus, by rw [← hcurrent, hstatus]; trivial⟩
    · rename_i userId body hold
      refine .inl ⟨trivial, h.goOn hold fun deal hload => ?_⟩
      obtain ⟨hdeal, hstatus⟩ := Statements.loadScored_eq_some.mp hload
      obtain ⟨hid, hcurrent⟩ := h.selected hdeal
      exact ⟨hid, hstatus, by rw [← hcurrent, hstatus]; trivial⟩
  | selectConfig i =>
    simp only [step] at hstep
    split at hstep <;> cases hstep
    · rename_i deal hold
      have hok := h.txs i _ hold
      exact .inl ⟨trivial, h.goOn hold fun _ _ => hok⟩
    · rename_i config criteria deal hold
      have hok := h.txs i _ hold
      exact .inl ⟨trivial, h.setTx hold hok⟩
  | selectFields i =>
    simp only [step] at hstep
    split at hstep <;> cases hstep
    rename_i deal config criteria hold
    have hok := h.txs i _ hold
    exact .inl ⟨trivial, h.goOn hold fun _ _ => hok⟩
  | selectScore i =>
    simp only [step] at hstep
    split at hstep <;> cases hstep
    rename_i userId body deal hold
    have hok := h.txs i _ hold
    exact .inl ⟨trivial, h.setTx hold hok⟩
  | flush i draw =>
    simp only [step] at hstep
    split at hstep
    · rename_i deal c hflush
      split at hstep <;> cases hstep
      obtain ⟨tx, hold, hflush⟩ := Option.bind_eq_some_iff.mp hflush
      refine .inl ⟨trivial, h.goOn hold fun c' hc => ?_⟩
      subst hc
      exact flushed_ok (h.txs i _ hold) hflush
    · cases hstep
  | commit i =>
    simp only [step] at hstep
    split at hstep <;> cases hstep
    rename_i deal c hold
    exact .inr ⟨i, deal, c, rfl, hold, rfl⟩
  | abort i =>
    simp only [step] at hstep
    split at hstep <;> cases hstep
    rename_i hi
    exact .inl ⟨trivial, h.setTx (List.getElem?_eq_getElem hi) trivial⟩
  | configure configs criteria =>
    cases hstep
    exact .inl ⟨trivial, h.ids, h.found, h.undecided, h.final, h.counted, h.chain, h.txs⟩

end

-- ---------------------------------------------------------------------------
-- Without interleaving
-- ---------------------------------------------------------------------------

/-- The statements of a job's scoring. -/
def scoringActs (i : Nat) (draw : ScoreDraw) : List Act :=
  [.score .job, .selectDeal i, .selectConfig i, .selectFields i, .flush i draw, .commit i]

def decidingActs (i : Nat) (now : Time) (userId : String) (body : DealDecisionRequest) : List Act :=
  [.decide userId body, .selectDeal i, .selectScore i, .flush i ⟨0, now⟩, .commit i]

section
variable {s : St} {tx tx' : Tx}

theorem setTx_snoc : St.setTx { s with txs := s.txs ++ [tx] } s.txs.length tx' =
    { s with txs := s.txs ++ [tx'] } := by
  simp [St.setTx]

theorem lockedByOther_snoc (hidle : ∀ tx ∈ s.txs, tx.locks = false) :
    St.lockedByOther { s with txs := s.txs ++ [tx] } s.txs.length = false := by
  simp only [St.lockedByOther, List.zipIdx_append, List.any_append]
  simp only [Bool.or_eq_false_iff, List.any_eq_false]
  refine ⟨fun ⟨tx, j⟩ hmem => ?_, by simp⟩
  have htx := hidle tx (List.mem_of_getElem? (List.mem_zipIdx_iff_getElem?.mp hmem))
  simp [htx]

end

section
variable [Runtime] {readUuid : String → Option Uuid} {dealId tenantId : Uuid} {s : St}
  {db' : DealDb} {draw : ScoreDraw} {now : Time} {userId : String} {body : DealDecisionRequest}

/-- With nothing between them the statements of a scoring commit what `score_deal` does. -/
theorem score_alone (hidle : ∀ tx ∈ s.txs, tx.locks = false)
    (h : Statements.scoreAlone s.db draw dealId tenantId = some db') :
    (transaction (scoreDeal draw dealId tenantId) s.db).2 = db' ∧
      ∃ t, Run.exec (step readUuid dealId tenantId) s (scoringActs s.txs.length draw) = some t ∧
        t.db = db' := by
  refine ⟨by rw [Statements.scoreDeal_statements, h]; rfl, ?_⟩
  obtain ⟨deal, hload, h⟩ := Option.bind_eq_some_iff.mp h
  obtain ⟨⟨config, criteria⟩, hconfig, h⟩ := Option.bind_eq_some_iff.mp h
  obtain ⟨ev, hev, h⟩ := Option.bind_eq_some_iff.mp h
  obtain ⟨c, hflush, h⟩ := Option.bind_eq_some_iff.mp h
  cases h
  simp [scoringActs, Run.exec_cons, step, St.goOn, setTx_snoc, hload, hconfig, hev, flushed, hflush,
    lockedByOther_snoc hidle, St.committed]

/-- So do those of a decision. -/
theorem decide_alone (hidle : ∀ tx ∈ s.txs, tx.locks = false)
    (h : Statements.decideAlone s.db readUuid now dealId tenantId userId body = some db') :
    (transaction (decideDeal readUuid now dealId tenantId userId body) s.db).2 = db' ∧
      ∃ t, Run.exec (step readUuid dealId tenantId) s
          (decidingActs s.txs.length now userId body) = some t ∧ t.db = db' := by
  refine ⟨by rw [Statements.decideDeal_statements, h]; rfl, ?_⟩
  obtain ⟨deal, hload, h⟩ := Option.bind_eq_some_iff.mp h
  obtain ⟨c, hflush, h⟩ := Option.bind_eq_some_iff.mp h
  cases h
  simp [decidingActs, Run.exec_cons, step, St.goOn, setTx_snoc, hload, flushed, hflush,
    lockedByOther_snoc hidle, St.committed]

end

-- ---------------------------------------------------------------------------
-- The result
-- ---------------------------------------------------------------------------

section
variable [Runtime] {settings : Settings} {disk : Disk} {before : List Pipeline.Act}
  {s₀ : Pipeline.St} {dealId tenantId : Uuid} {deal : Deal} {acts : List Act} {t : St}

end

/-- How the database reads the ids of users. -/
def sampleReader : Settings := { sampleSettings with readUuid := fun _ => some 9 }

/-- The tenant has a config, and a job has extracted the deal and is about to score it. -/
def sampleExtracted : List Pipeline.Act :=
  [.createCriteriaConfig ⟨5, fun i => 100 + i, 0⟩ 2 (sampleBody "1000"),
    .upload none UploadApi.sampleDraw 2 UploadApi.sampleFile,
    .extract sampleWorld sampleJob sampleContext]

def pursue : DealDecisionRequest := ⟨.pursuing, none⟩

/-- The job scores the deal, then a user decides. -/
def oneByOne : List Act := scoringActs 0 ⟨7, 0⟩ ++ decidingActs 1 0 "u" pursue

/-- The config of a second request, and its criteria. -/
def secondConfig : CriteriaConfig :=
  ⟨6, 2, 2, true, .ofLiteral (sampleBody "2000").name (by decide)⟩

def secondCriteria : List Criterion :=
  ((sampleBody "2000").criteria.mapM (CriteriaApi.criterionRow 6)).getD []

/-- While the job evaluates the deal a request for a config scores it, and a user decides. -/
def overtaken (configs : List CriteriaConfig) (criteria : List Criterion) : List Act :=
  [.score .job, .selectDeal 0, .selectConfig 0, .selectFields 0,
    .score (.rescoring secondConfig secondCriteria), .selectDeal 1, .selectConfig 1, .selectFields 1,
    .flush 1 ⟨8, 0⟩, .configure (configs ++ [secondConfig]) (criteria ++ secondCriteria), .commit 1] ++
  decidingActs 2 0 "u" pursue ++
  [.flush 0 ⟨7, 0⟩, .commit 0]

end DecisionRace
