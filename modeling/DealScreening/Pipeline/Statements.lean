-- SUMMARY: The statements of the scoring and of the decision transaction one by one, and that the transactions run them in this order.
import DealScreening.Pipeline.Transactions
import DealScreening.Services.Scorable

/-!
# Statements

Under READ COMMITTED every statement of a transaction sees what is committed when it starts.
So the transactions are taken apart here: what each `SELECT` returns, and what the flush at the
end writes. Between two of them other transactions may commit.
-/

namespace Statements

open Python Session Dossier ExtractionService ScoringService DealsApi Pipeline

section
variable [Runtime]

/-- The deal as `_load_deal` returns it, unless it raises. -/
def loadDeal (db : DealDb) (dealId tenantId : Uuid) : Option Deal :=
  (db.deal dealId tenantId).filter fun deal => deal.status = .extracted

/-- `_load_active_config`. The criteria of a config are committed with it and never change. -/
def loadConfig (db : DealDb) (tenantId : Uuid) : Option (CriteriaConfig × List Criterion) :=
  (db.activeConfig tenantId).map fun config => (config, db.criteriaOf config.id)

/-- The `SELECT` of the fields, and what the criteria say of them. -/
def evaluation (db : DealDb) (deal : Deal) (criteria : List Criterion) : Option Evaluation :=
  match evaluate criteria (latestFields (db.fieldsOf deal.id)) with
  | .ok ev => some ev
  | .error _ => none

/-- What the flush of a score writes, unless the row is refused. The deal and the config
    were selected, and neither is ever deleted. -/
def flushScore (db : DealDb) (draw : ScoreDraw) (deal : Deal) (config : CriteriaConfig)
    (ev : Evaluation) : Option DealChange :=
  (scoreRow draw deal.id config.id ev).bind fun score =>
    if (db.scoreById score.id).isNone ∧ score.criterionResults.all CriterionResult.valid then
      some (scoreChange deal score ev)
    else none

/-- The deal, if a decision can be made on it. -/
def loadScored (db : DealDb) (dealId tenantId : Uuid) : Option Deal :=
  (db.deal dealId tenantId).filter fun deal => deal.status = .scored

/-- What the flush of a decision writes, unless the row is refused. -/
def flushDecision (readUuid : String → Option Uuid) (now : Time) (deal : Deal) (userId : String)
    (body : DealDecisionRequest) (latest : Option DealScore) : Option DealChange :=
  (decisionRow readUuid now deal.id userId body latest).map fun decision =>
    decisionChange deal decision userId body

/-- The statements of `score_deal`, with nothing between them. -/
def scoreAlone (db : DealDb) (draw : ScoreDraw) (dealId tenantId : Uuid) : Option DealDb := do
  let deal ← loadDeal db dealId tenantId
  let (config, criteria) ← loadConfig db tenantId
  let ev ← evaluation db deal criteria
  let c ← flushScore db draw deal config ev
  return db.change deal.id c

/-- Those of `decide_deal`. -/
def decideAlone (db : DealDb) (readUuid : String → Option Uuid) (now : Time)
    (dealId tenantId : Uuid) (userId : String) (body : DealDecisionRequest) : Option DealDb := do
  let deal ← loadScored db dealId tenantId
  let c ← flushDecision readUuid now deal userId body
    (Table.latest DealScore.createdAt (db.scoresOf dealId))
  return db.change deal.id c

end

-- ---------------------------------------------------------------------------
-- What they return and write
-- ---------------------------------------------------------------------------

section
variable [Runtime] {db : DealDb} {draw : ScoreDraw} {dealId tenantId : Uuid} {deal : Deal}
  {config : CriteriaConfig} {criteria : List Criterion} {ev : Evaluation} {c : DealChange}
  {readUuid : String → Option Uuid} {now : Time} {userId : String} {body : DealDecisionRequest}
  {latest : Option DealScore}

omit [Runtime] in
theorem loadDeal_eq_some : loadDeal db dealId tenantId = some deal ↔
    db.deal dealId tenantId = some deal ∧ deal.status = .extracted := by
  simp [loadDeal, Option.filter_eq_some_iff]

omit [Runtime] in
theorem loadScored_eq_some : loadScored db dealId tenantId = some deal ↔
    db.deal dealId tenantId = some deal ∧ deal.status = .scored := by
  simp [loadScored, Option.filter_eq_some_iff]

theorem evaluation_eq_some : evaluation db deal criteria = some ev ↔
    evaluate criteria (latestFields (db.fieldsOf deal.id)) = .ok ev := by
  unfold evaluation
  cases evaluate criteria (latestFields (db.fieldsOf deal.id)) <;> simp

omit [Runtime] in
theorem flushScore_eq_some (h : flushScore db draw deal config ev = some c) :
    ∃ score, scoreRow draw deal.id config.id ev = some score ∧ score.dealId = deal.id ∧
      (db.scoreById score.id).isNone ∧ score.criterionResults.all CriterionResult.valid ∧
      c = scoreChange deal score ev := by
  obtain ⟨score, hrow, h⟩ := Option.bind_eq_some_iff.mp h
  split at h
  · rename_i hok
    cases h
    exact ⟨score, hrow, (scoreRow_eq_some hrow).2.2.1, hok.1, hok.2, rfl⟩
  · cases h

omit [Runtime] in
theorem flushDecision_eq_some (h : flushDecision readUuid now deal userId body latest = some c) :
    ∃ decision, decision.dealId = deal.id ∧ decision.scoreId = latest.map DealScore.id ∧
      c = decisionChange deal decision userId body := by
  obtain ⟨decision, hrow, rfl⟩ := Option.map_eq_some_iff.mp h
  obtain ⟨hid, hscore⟩ := decisionRow_eq_some hrow
  exact ⟨decision, hid, hscore, rfl⟩

-- ---------------------------------------------------------------------------
-- The transactions
-- ---------------------------------------------------------------------------

/-- With its deal and a config, `score_deal` commits what its statements say, or raises where
    one of them does. -/
theorem scoreDeal_configured (hload : loadDeal db dealId tenantId = some deal)
    (hconfig : db.activeConfig tenantId = some config) :
    (∃ ev c, evaluation db deal (db.criteriaOf config.id) = some ev ∧
      flushScore db draw deal config ev = some c ∧
      transaction (scoreDeal draw dealId tenantId) db =
        (.ok (scoredResult deal.id ev), db.change deal.id c)) ∨
    ((evaluation db deal (db.criteriaOf config.id)).bind (flushScore db draw deal config) = none ∧
      ∃ x, transaction (scoreDeal draw dealId tenantId) db = (.error x, db)) := by
  obtain ⟨hdeal, hstatus⟩ := loadDeal_eq_some.mp hload
  have hid := (DealDb.deal_key hdeal).1
  cases hev : evaluate (db.criteriaOf config.id) (latestFields (db.fieldsOf dealId)) with
  | error e =>
    refine .inr ⟨by simp [evaluation, hid, hev], ?_⟩
    exact scoreDeal_raises hdeal hstatus hconfig fun ev score hok => by cases hev.symm.trans hok
  | ok ev =>
    have hevaluation : evaluation db deal (db.criteriaOf config.id) = some ev :=
      evaluation_eq_some.mpr (hid ▸ hev)
    cases hflush : flushScore db draw deal config ev with
    | none =>
      refine .inr ⟨by rw [hevaluation, Option.bind_some, hflush], ?_⟩
      refine scoreDeal_raises hdeal hstatus hconfig fun ev' score hok hrow hinsert => ?_
      cases hev.symm.trans hok
      have hsome : flushScore db draw deal config ev = some (scoreChange deal score ev) := by
        rw [flushScore, hrow]
        exact if_pos ⟨hinsert.1, hinsert.2.2.2⟩
      cases hflush.symm.trans hsome
    | some c =>
      obtain ⟨score, hrow, hscoreId, hfresh, hvalid, rfl⟩ := flushScore_eq_some hflush
      obtain ⟨-, -, -, hconfigId, -⟩ := scoreRow_eq_some hrow
      have hinsert : Insertable db score := by
        refine ⟨hfresh, ?_, ?_, hvalid⟩
        · rw [hscoreId]
          exact DealDb.dealById_isSome hdeal
        · rw [hconfigId]
          exact configById_activeConfig hconfig
      exact .inl ⟨ev, _, hevaluation, hflush, scoreDeal_ok hdeal hstatus hconfig hev hrow hinsert⟩

/-- Without its deal it raises. -/
theorem scoreDeal_not_loaded (hload : loadDeal db dealId tenantId = none) :
    ∃ x, transaction (scoreDeal draw dealId tenantId) db = (.error x, db) :=
  scoreDeal_wrong_status fun _ hdeal hstatus =>
    nomatch hload.symm.trans (loadDeal_eq_some.mpr ⟨hdeal, hstatus⟩)

/-- A transaction of `score_deal` that nothing comes between commits what its statements say. -/
theorem scoreDeal_statements : (transaction (scoreDeal draw dealId tenantId) db).2 =
    (scoreAlone db draw dealId tenantId).getD db := by
  unfold scoreAlone
  cases hload : loadDeal db dealId tenantId with
  | none =>
    obtain ⟨x, hx⟩ : ∃ x, transaction (scoreDeal draw dealId tenantId) db = (.error x, db) :=
      scoreDeal_not_loaded hload
    rw [hx]
    rfl
  | some deal =>
    cases hconfig : db.activeConfig tenantId with
    | none =>
      obtain ⟨hdeal, hstatus⟩ := loadDeal_eq_some.mp hload
      rw [scoreDeal_no_config hdeal hstatus hconfig]
      simp [loadConfig, hconfig]
    | some config =>
      have hload' : loadConfig db tenantId = some (config, db.criteriaOf config.id) := by
        rw [loadConfig, hconfig]
        rfl
      rcases @scoreDeal_configured _ db draw _ _ _ _ hload hconfig with
        ⟨ev, c, hev, hflush, hrun⟩ | ⟨hnone, x, hrun⟩
      · rw [hrun]
        simp [hload', hev, hflush]
      · rw [hrun]
        cases hev : evaluation db deal (db.criteriaOf config.id) with
        | none => simp [hload', hev]
        | some ev =>
          rw [hev, Option.bind_some] at hnone
          simp [hload', hev, hnone]

/-- Scoring that returns has found no config, or has committed what its statements say. -/
theorem scoreDeal_returns {db' : DealDb} {result : ScoringResult}
    (h : transaction (scoreDeal draw dealId tenantId) db = (.ok result, db')) :
    ∃ deal, loadDeal db dealId tenantId = some deal ∧
      ((loadConfig db tenantId = none ∧ db' = db) ∨
        ∃ config criteria ev c, loadConfig db tenantId = some (config, criteria) ∧
          evaluation db deal criteria = some ev ∧
          flushScore db draw deal config ev = some c ∧ db' = db.change deal.id c) := by
  cases hload : loadDeal db dealId tenantId with
  | none =>
    obtain ⟨x, hx⟩ : ∃ x, transaction (scoreDeal draw dealId tenantId) db = (.error x, db) :=
      scoreDeal_not_loaded hload
    cases hx.symm.trans h
  | some deal =>
    refine ⟨deal, rfl, ?_⟩
    cases hconfig : db.activeConfig tenantId with
    | none =>
      obtain ⟨hdeal, hstatus⟩ := loadDeal_eq_some.mp hload
      cases (scoreDeal_no_config hdeal hstatus hconfig).symm.trans h
      exact .inl ⟨by rw [loadConfig, hconfig]; rfl, rfl⟩
    | some config =>
      have hloaded : loadConfig db tenantId = some (config, db.criteriaOf config.id) := by
        rw [loadConfig, hconfig]
        rfl
      rcases @scoreDeal_configured _ db draw _ _ _ _ hload hconfig with
        ⟨ev, c, hev, hflush, hrun⟩ | ⟨-, x, hrun⟩
      · cases hrun.symm.trans h
        exact .inr ⟨config, _, ev, c, hloaded, hev, hflush, rfl⟩
      · cases hrun.symm.trans h

omit [Runtime] in
/-- The rows of a decision are accepted: the deal and the score exist. -/
theorem persistDecision_ok {decision : DealDecision} (hdeal : (db.dealById deal.id).isSome)
    (hrow : decisionRow readUuid now deal.id userId body latest = some decision)
    (hlatest : ∀ score ∈ latest, (db.scoreById score.id).isSome) :
    persistDecision readUuid now deal userId body latest ⟨db, false, false⟩ =
      (.ok (), ⟨db.change deal.id (decisionChange deal decision userId body), false, false⟩) := by
  obtain ⟨hid, hscore⟩ := decisionRow_eq_some hrow
  have hinsert : db.insertDecision decision =
      some { db with dealDecisions := db.dealDecisions ++ [decision] } := by
    refine if_pos ⟨by rw [hid]; exact hdeal, ?_⟩
    rw [hscore, Option.all_map, Option.all_eq_true_iff_get]
    exact fun hsome => hlatest _ (Option.get_mem hsome)
  have haudit : DealDb.insertAudit (DealDb.updateDeal
      { db with dealDecisions := db.dealDecisions ++ [decision] } deal.id (Deal.setStatus .decided))
      (decisionAudit deal userId body) =
      some (db.change deal.id (decisionChange deal decision userId body)) := by
    have hexists : ((db.updateDeal deal.id (Deal.setStatus .decided)).dealById deal.id).isSome := by
      rw [DealDb.dealById_updateDeal (Deal.setStatus_id .decided)]
      exact hdeal
    refine (if_pos hexists).trans ?_
    simp only [DealDb.change, decisionChange, List.append_nil]
    rfl
  simp [persistDecision, write, hrow, hinsert, haudit]

omit [Runtime] in
theorem persistDecision_refused (db : DealDb)
    (hrow : decisionRow readUuid now deal.id userId body latest = none) :
    Raises (persistDecision readUuid now deal userId body latest) ⟨db, false, false⟩ := by
  unfold Raises persistDecision
  simp only [run_bind, write, hrow, Option.bind_none, run_update]
  split
  · rename_i hwrite
    split at hwrite <;> cases hwrite <;> exact ⟨_, _, rfl⟩
  · exact ⟨_, _, rfl⟩

omit [Runtime] in
/-- So does one of `decide_deal`. -/
theorem decideDeal_statements :
    (transaction (decideDeal readUuid now dealId tenantId userId body) db).2 =
      (decideAlone db readUuid now dealId tenantId userId body).getD db := by
  unfold decideAlone
  cases hload : loadScored db dealId tenantId with
  | none =>
    have hraises : Raises (decideDeal readUuid now dealId tenantId userId body) ⟨db, false, false⟩ := by
      unfold Raises decideDeal getDealOr404
      cases hdeal : db.deal dealId tenantId with
      | none => simp [hdeal]
      | some deal =>
        have hstatus : deal.status ≠ .scored := fun hstatus =>
          nomatch hload.symm.trans (loadScored_eq_some.mpr ⟨hdeal, hstatus⟩)
        simp [hdeal, hstatus]
    obtain ⟨x, hx⟩ := hraises.transaction
    rw [hx]
    rfl
  | some deal =>
    obtain ⟨hdeal, hstatus⟩ := loadScored_eq_some.mp hload
    have hget : getDealOr404 dealId tenantId ⟨db, false, false⟩ = (.ok deal, ⟨db, false, false⟩) := by
      simp [getDealOr404, hdeal]
    cases hrow : decisionRow readUuid now deal.id userId body
        (Table.latest DealScore.createdAt (db.scoresOf dealId)) with
    | none =>
      have hraises : Raises (decideDeal readUuid now dealId tenantId userId body)
          ⟨db, false, false⟩ := by
        obtain ⟨x, s, hpersist⟩ := persistDecision_refused db hrow
        unfold Raises decideDeal
        simp [hget, hstatus, getLatestScore, hpersist]
      obtain ⟨x, hx⟩ := hraises.transaction
      rw [hx]
      simp [flushDecision, hrow]
    | some decision =>
      have hlatest : ∀ score ∈ Table.latest DealScore.createdAt (db.scoresOf dealId),
          (db.scoreById score.id).isSome := by
        intro score hscore
        have hmem := List.mem_of_mem_filter (Table.latest_mem hscore)
        obtain ⟨found, hfound⟩ := Table.lookup_isSome_of_mem DealScore.id hmem
        simp [DealDb.scoreById, hfound]
      have hok := persistDecision_ok (DealDb.dealById_isSome hdeal) hrow hlatest
      have hrun : transaction (decideDeal readUuid now dealId tenantId userId body) db =
          (.ok body.decision, db.change deal.id (decisionChange deal decision userId body)) := by
        apply transaction_ok
        simp [decideDeal, hget, hstatus, getLatestScore, hok]
      rw [hrun]
      simp [flushDecision, hrow]

end

end Statements
