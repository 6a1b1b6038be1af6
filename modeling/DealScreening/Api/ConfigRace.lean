-- SUMMARY: Concurrent creation of criteria configs, statement by statement: in every committed state the versions are 1 to n and the last one is the active one.
import DealScreening.Api.Criteria
import DealScreening.Lib.Run
import Mathlib.Data.List.Range

/-!
# Concurrent criteria configs

Each request is a READ COMMITTED transaction of its own. An `UPDATE` looks for its
rows once and then takes them one after the other; a row that another transaction
has locked makes it wait, and is then checked again as it stands. An `INSERT` of a
key that another transaction has inserted waits for that one to end. Whatever a
request does after its `INSERT` writes no config.
-/

namespace ConfigRace

structure Request where
  configId : Uuid
  name : String
  deriving DecidableEq, Repr

/-- The next statement of a request, with what the earlier ones read and wrote. -/
inductive Tx where
  /-- `SELECT` the latest version. -/
  | begun (request : Request)
  /-- `UPDATE` the active configs. -/
  | versionRead (request : Request) (latest : Nat)
  /-- The rest of the rows of the `UPDATE`, and those it has deactivated. With no row
      left, `INSERT` the new config. -/
  | updating (request : Request) (latest : Nat) (pending locked : List Uuid)
  /-- `COMMIT`. -/
  | inserted (locked : List Uuid) (config : CriteriaConfig)
  /-- Committed, or rolled back. -/
  | done
  deriving DecidableEq

namespace Tx

/-- The rows of `criteria_configs` the transaction has locked. -/
def locks : Tx → List Uuid
  | .updating _ _ _ locked | .inserted locked _ => locked
  | _ => []

/-- The row the transaction has inserted. -/
def config? : Tx → Option CriteriaConfig
  | .inserted _ config => some config
  | _ => none

end Tx

/-- The committed database and the transactions. -/
structure St where
  db : DealDb
  txs : List Tx
  deriving DecidableEq

def init (db : DealDb) : St := ⟨db, []⟩

inductive Act where
  | begin (request : Request)
  | selectVersion (i : Nat)
  | startUpdate (i : Nat)
  | updateRow (i : Nat)
  | insert (i : Nat)
  | commit (i : Nat)
  | abort (i : Nat)
  deriving DecidableEq, Repr

/-- The version that `_get_latest_version` returns. -/
def latestVersion (db : DealDb) (tenantId : Uuid) : Nat :=
  ((Table.latest CriteriaConfig.version (db.configsOf tenantId)).map (·.version)).getD 0

/-- The rows that the `UPDATE` finds. -/
def activeIds (db : DealDb) (tenantId : Uuid) : List Uuid :=
  ((db.configsOf tenantId).filter (·.isActive)).map (·.id)

/-- The database after the commit of a request. -/
def commitDb (db : DealDb) (locked : List Uuid) (config : CriteriaConfig) : DealDb :=
  { db with criteriaConfigs :=
      db.criteriaConfigs.map (fun c => if c.id ∈ locked then { c with isActive := false } else c) ++
        [config] }

namespace St

def setTx (s : St) (i : Nat) (tx : Tx) : St :=
  { s with txs := s.txs.set i tx }

/-- Another transaction has locked the row. -/
def lockedByOther (s : St) (i : Nat) (id : Uuid) : Bool :=
  s.txs.zipIdx.any fun (tx, j) => j ≠ i ∧ id ∈ tx.locks

/-- Another transaction has inserted the primary key or the version. -/
def heldByOther (s : St) (i : Nat) (config : CriteriaConfig) : Bool :=
  s.txs.zipIdx.any fun (tx, j) => j ≠ i ∧
    tx.config?.any fun c => c.id = config.id ∨ c.version = config.version

end St

/-- One statement of one transaction, or one row of its `UPDATE`. -/
def step (tenantId : Uuid) (s : St) : Act → Option St
  | .begin request => some { s with txs := s.txs ++ [.begun request] }
  | .selectVersion i =>
    match s.txs[i]? with
    | some (.begun request) => some (s.setTx i (.versionRead request (latestVersion s.db tenantId)))
    | _ => none
  | .startUpdate i =>
    match s.txs[i]? with
    | some (.versionRead request latest) =>
      some (s.setTx i (.updating request latest (activeIds s.db tenantId) []))
    | _ => none
  | .updateRow i =>
    match s.txs[i]? with
    | some (.updating request latest (id :: pending) locked) =>
      if s.lockedByOther i id then none
      else if id ∈ activeIds s.db tenantId then
        some (s.setTx i (.updating request latest pending (locked ++ [id])))
      else some (s.setTx i (.updating request latest pending locked))
    | _ => none
  | .insert i =>
    match s.txs[i]? with
    | some (.updating request latest [] locked) =>
      match PgText.ofStr (Python.text request.name) with
      | none => some (s.setTx i .done)
      | some name =>
        let config : CriteriaConfig :=
          { id := request.configId, tenantId, version := latest + 1, isActive := true, name }
        if s.heldByOther i config then none
        else match s.db.insertConfig config with
          | none => some (s.setTx i .done)
          | some _ => some (s.setTx i (.inserted locked config))
    | _ => none
  | .commit i =>
    match s.txs[i]? with
    | some (.inserted locked config) =>
      some { s.setTx i .done with db := commitDb s.db locked config }
    | _ => none
  | .abort i => if i < s.txs.length then some (s.setTx i .done) else none

-- ---------------------------------------------------------------------------
-- Linear versions
-- ---------------------------------------------------------------------------

/-- The versions are 1 to `n`, and the config of version `n` is the active one. -/
structure LinearTo (configs : List CriteriaConfig) (n : Nat) : Prop where
  versions : configs.map (·.version) = List.range' 1 n
  active : (configs.filter (·.isActive)).map (·.version) = if n = 0 then [] else [n]

/-- The tenant's configs in the order they were committed. -/
def Linear (tenantId : Uuid) (s : St) : Prop :=
  ∃ n, LinearTo (s.db.configsOf tenantId) n

section
variable {configs : List CriteriaConfig} {n : Nat} {c : CriteriaConfig}

theorem LinearTo.mem_version (h : LinearTo configs n) {v : Nat} :
    (∃ c ∈ configs, c.version = v) ↔ 1 ≤ v ∧ v ≤ n := by
  have hmem : v ∈ configs.map (·.version) ↔ 1 ≤ v ∧ v ≤ n := by
    rw [h.versions, List.mem_range'_1]
    omega
  simpa using hmem

theorem LinearTo.latest (h : LinearTo configs n) :
    ((Table.latest CriteriaConfig.version configs).map (·.version)).getD 0 ≤ n := by
  cases hlatest : Table.latest CriteriaConfig.version configs with
  | none => exact Nat.zero_le n
  | some c => exact (h.mem_version.mp ⟨c, Table.latest_mem hlatest, rfl⟩).2

/-- The next version, after the active configs are deactivated. -/
theorem LinearTo.next (h : LinearTo configs n) {locked : List Uuid} {config : CriteriaConfig}
    (hversion : config.version = n + 1) (hactive : config.isActive = true)
    (hlocked : ∀ c ∈ configs, c.isActive = true → c.id ∈ locked) :
    LinearTo (configs.map (fun c => if c.id ∈ locked then { c with isActive := false } else c) ++
      [config]) (n + 1) where
  versions := by
    have hsame : ∀ c : CriteriaConfig,
        (if c.id ∈ locked then { c with isActive := false } else c).version = c.version := by
      intro c
      split <;> rfl
    simp only [List.map_append, List.map_map, Function.comp_def, hsame, h.versions, List.map_cons,
      List.map_nil, hversion]
    rw [List.range'_concat]
    simp [Nat.add_comm]
  active := by
    have hnone : (configs.map fun c => if c.id ∈ locked then { c with isActive := false } else c).filter
        (·.isActive) = [] := by
      simp only [List.filter_eq_nil_iff, List.mem_map]
      rintro _ ⟨c, hc, rfl⟩ hstill
      split at hstill
      · cases hstill
      · rename_i hnot
        exact hnot (hlocked c hc hstill)
    rw [List.filter_append, hnone]
    simp [hactive, hversion]

end

-- ---------------------------------------------------------------------------
-- The invariant
-- ---------------------------------------------------------------------------

/-- A request that has read the newest version has the active config in its `UPDATE`,
    and one that has inserted its config is the next in line. -/
def TxOk (configs : List CriteriaConfig) (n : Nat) : Tx → Prop
  | .begun _ | .done => True
  | .versionRead _ latest => latest ≤ n
  | .updating _ latest pending locked => latest ≤ n ∧
    (latest = n → ∀ c ∈ configs, c.isActive = true → c.id ∈ pending ∨ c.id ∈ locked)
  | .inserted locked config => config.version = n + 1 ∧ config.isActive = true ∧
    ∀ c ∈ configs, c.isActive = true → c.id ∈ locked

structure Inv (tenantId : Uuid) (n : Nat) (s : St) : Prop where
  linear : LinearTo (s.db.configsOf tenantId) n
  txs : ∀ (i : Nat) (tx : Tx), s.txs[i]? = some tx → TxOk (s.db.configsOf tenantId) n tx
  tenant : ∀ (i : Nat) (tx : Tx) (config : CriteriaConfig), s.txs[i]? = some tx →
    tx.config? = some config → config.tenantId = tenantId
  single : ∀ (i j : Nat) (tx tx' : Tx), s.txs[i]? = some tx → s.txs[j]? = some tx' →
    tx.config?.isSome = true → tx'.config?.isSome = true → i = j

section
variable {tenantId : Uuid} {n : Nat} {s t : St}

theorem configsOf_commitDb (db : DealDb) (locked : List Uuid) {config : CriteriaConfig}
    (h : config.tenantId = tenantId) :
    (commitDb db locked config).configsOf tenantId =
      (db.configsOf tenantId).map
        (fun c => if c.id ∈ locked then { c with isActive := false } else c) ++ [config] := by
  have hfilter : ∀ configs : List CriteriaConfig,
      (configs.map fun c => if c.id ∈ locked then { c with isActive := false } else c).filter
          (fun c => c.tenantId = tenantId) =
        (configs.filter fun c => c.tenantId = tenantId).map
          fun c => if c.id ∈ locked then { c with isActive := false } else c := by
    intro configs
    rw [List.filter_map]
    congr 1
    refine List.filter_congr fun c _ => ?_
    simp only [Function.comp]
    split <;> rfl
  unfold DealDb.configsOf commitDb
  rw [List.filter_append, hfilter]
  simp [h]

/-- A statement that inserts and commits nothing. -/
theorem Inv.setTx {i : Nat} {old tx : Tx} (h : Inv tenantId n s) (hold : s.txs[i]? = some old)
    (htx : TxOk (s.db.configsOf tenantId) n tx) (hconfig : tx.config? = none) :
    Inv tenantId n (s.setTx i tx) := by
  have hat : ∀ {j : Nat} {tx' : Tx}, (s.setTx i tx).txs[j]? = some tx' →
      (tx' = tx ∧ j = i) ∨ s.txs[j]? = some tx' := by
    intro j tx' hj
    rw [St.setTx, Run.getElem?_set_of_some hold] at hj
    split at hj
    · cases hj
      exact .inl ⟨rfl, ‹_›⟩
    · exact .inr hj
  refine ⟨h.linear, fun j tx' hj => ?_, fun j tx' config hj hc => ?_, fun j k tx₁ tx₂ hj hk h₁ h₂ => ?_⟩
  · rcases hat hj with ⟨rfl, -⟩ | hj
    · exact htx
    · exact h.txs j tx' hj
  · rcases hat hj with ⟨rfl, -⟩ | hj
    · rw [hconfig] at hc
      cases hc
    · exact h.tenant j tx' config hj hc
  · rcases hat hj with ⟨rfl, -⟩ | hj
    · rw [hconfig] at h₁
      cases h₁
    · rcases hat hk with ⟨rfl, -⟩ | hk
      · rw [hconfig] at h₂
        cases h₂
      · exact h.single j k tx₁ tx₂ hj hk h₁ h₂

/-- A version that the database takes is not one of the tenant's. -/
theorem insertConfig_version {db db' : DealDb} {config : CriteriaConfig}
    (h : db.insertConfig config = some db') :
    ∀ c ∈ db.configsOf config.tenantId, c.version ≠ config.version := by
  unfold DealDb.insertConfig at h
  split at h
  · rename_i hfresh
    simpa using hfresh.2
  · cases h

/-- Only the next version can be inserted, and only by one request. -/
theorem Inv.insert {i : Nat} {request : Request} {latest : Nat} {locked : List Uuid} {db' : DealDb}
    {config : CriteriaConfig} (h : Inv tenantId n s)
    (hold : s.txs[i]? = some (.updating request latest [] locked))
    (htenant : config.tenantId = tenantId) (hversion : config.version = latest + 1)
    (hactive : config.isActive = true) (hheld : s.heldByOther i config = false)
    (hinsert : s.db.insertConfig config = some db') :
    Inv tenantId n (s.setTx i (.inserted locked config)) := by
  obtain ⟨hle, hcovered⟩ := h.txs i _ hold
  have hnew := insertConfig_version hinsert
  rw [htenant, hversion] at hnew
  have hlatest : latest = n := by
    by_contra hne
    obtain ⟨c, hc, hcv⟩ : ∃ c ∈ s.db.configsOf tenantId, c.version = latest + 1 :=
      h.linear.mem_version.mpr ⟨by omega, by omega⟩
    exact hnew c hc hcv
  subst hlatest
  have hlocked : ∀ c ∈ s.db.configsOf tenantId, c.isActive = true → c.id ∈ locked :=
    fun c hc hcactive => (hcovered rfl c hc hcactive).resolve_left (List.not_mem_nil)
  -- another insert would hold the same version
  have halone : ∀ (j : Nat) (tx : Tx), s.txs[j]? = some tx → tx.config?.isSome = true → j = i := by
    intro j tx hj hsome
    by_contra hne
    cases tx with
    | inserted locked' config' =>
      have hsame : config'.version = config.version := by
        rw [hversion]
        exact (h.txs j _ hj).1
      have hheld' : s.heldByOther i config = true := by
        refine List.any_eq_true.mpr ⟨(.inserted locked' config', j), ?_, ?_⟩
        · exact List.mem_zipIdx_iff_getElem?.mpr hj
        · simp [hne, Tx.config?, hsame]
      rw [hheld'] at hheld
      cases hheld
    | _ => cases hsome
  have hat : ∀ {j : Nat} {tx : Tx}, (s.setTx i (.inserted locked config)).txs[j]? = some tx →
      (tx = .inserted locked config ∧ j = i) ∨ (s.txs[j]? = some tx ∧ j ≠ i) := by
    intro j tx hj
    rw [St.setTx, Run.getElem?_set_of_some hold] at hj
    split at hj
    · cases hj
      exact .inl ⟨rfl, ‹_›⟩
    · exact .inr ⟨hj, ‹_›⟩
  refine ⟨h.linear, fun j tx hj => ?_, fun j tx c hj hc => ?_, fun j k tx₁ tx₂ hj hk h₁ h₂ => ?_⟩
  · rcases hat hj with ⟨rfl, -⟩ | ⟨hj, -⟩
    · exact ⟨hversion, hactive, hlocked⟩
    · exact h.txs j tx hj
  · rcases hat hj with ⟨rfl, -⟩ | ⟨hj, -⟩
    · cases hc
      exact htenant
    · exact h.tenant j tx c hj hc
  · have heq : ∀ {l : Nat} {tx : Tx}, (s.setTx i (.inserted locked config)).txs[l]? = some tx →
        tx.config?.isSome = true → l = i := by
      intro l tx hl hsome
      rcases hat hl with ⟨-, hl⟩ | ⟨hl, -⟩
      · exact hl
      · exact halone l tx hl hsome
    exact (heq hj h₁).trans (heq hk h₂).symm

/-- The commit of the one request that has inserted its config. -/
theorem Inv.commit {i : Nat} {locked : List Uuid} {config : CriteriaConfig} (h : Inv tenantId n s)
    (hold : s.txs[i]? = some (.inserted locked config)) :
    Inv tenantId (n + 1) { s.setTx i .done with db := commitDb s.db locked config } := by
  obtain ⟨hversion, hactive, hlocked⟩ := h.txs i _ hold
  have hconfigs := configsOf_commitDb s.db locked (h.tenant i _ config hold rfl)
  have hat : ∀ {j : Nat} {tx : Tx}, (s.setTx i .done).txs[j]? = some tx →
      tx = .done ∨ (s.txs[j]? = some tx ∧ tx.config? = none) := by
    intro j tx hj
    rw [St.setTx, Run.getElem?_set_of_some hold] at hj
    split at hj
    · cases hj
      exact .inl rfl
    · rename_i hne
      refine .inr ⟨hj, ?_⟩
      by_contra hsome
      exact hne (h.single j i tx _ hj hold (Option.isSome_iff_ne_none.mpr hsome) rfl)
  refine ⟨?_, fun j tx hj => ?_, fun j tx c hj hc => ?_, fun j k tx₁ tx₂ hj hk h₁ h₂ => ?_⟩
  · exact hconfigs ▸ h.linear.next hversion hactive hlocked
  · rcases hat hj with rfl | ⟨hj, hnone⟩
    · trivial
    · have hok := h.txs j tx hj
      cases tx with
      | begun | done => trivial
      | versionRead request latest => exact Nat.le_succ_of_le hok
      | updating request latest pending locked' =>
        refine ⟨Nat.le_succ_of_le hok.1, fun hlatest => ?_⟩
        have := hok.1
        omega
      | inserted locked' config' => cases hnone
  · rcases hat hj with rfl | ⟨-, hnone⟩
    · cases hc
    · rw [hnone] at hc
      cases hc
  · rcases hat hj with rfl | ⟨-, hnone⟩
    · cases h₁
    · rw [hnone] at h₁
      cases h₁

/-- Every statement keeps the invariant; a commit goes on to the next version. -/
theorem step_inv {a : Act} (h : Inv tenantId n s) (hstep : step tenantId s a = some t) :
    ∃ m, Inv tenantId m t := by
  cases a with
  | begin request =>
    cases hstep
    have hat : ∀ {j : Nat} {tx : Tx}, (s.txs ++ [.begun request])[j]? = some tx →
        s.txs[j]? = some tx ∨ (j = s.txs.length ∧ tx = .begun request) :=
      Run.getElem?_snoc_eq_some.mp
    refine ⟨n, h.linear, fun j tx hj => ?_, fun j tx c hj hc => ?_,
      fun j k tx₁ tx₂ hj hk h₁ h₂ => ?_⟩
    · rcases hat hj with hj | ⟨-, rfl⟩
      · exact h.txs j tx hj
      · trivial
    · rcases hat hj with hj | ⟨-, rfl⟩
      · exact h.tenant j tx c hj hc
      · cases hc
    · rcases hat hj with hj | ⟨-, rfl⟩
      · rcases hat hk with hk | ⟨-, rfl⟩
        · exact h.single j k tx₁ tx₂ hj hk h₁ h₂
        · cases h₂
      · cases h₁
  | selectVersion i =>
    simp only [step] at hstep
    split at hstep <;> cases hstep
    rename_i request hold
    exact ⟨n, h.setTx hold h.linear.latest rfl⟩
  | startUpdate i =>
    simp only [step] at hstep
    split at hstep <;> cases hstep
    rename_i request latest hold
    refine ⟨n, h.setTx hold ⟨h.txs i _ hold, fun _ c hc hactive => .inl ?_⟩ rfl⟩
    exact List.mem_map_of_mem (List.mem_filter.mpr ⟨hc, hactive⟩)
  | updateRow i =>
    simp only [step] at hstep
    split at hstep
    · rename_i request latest id pending locked hold
      obtain ⟨hle, hcovered⟩ := h.txs i _ hold
      split at hstep
      · cases hstep
      · split at hstep <;> cases hstep
        · refine ⟨n, h.setTx hold ⟨hle, fun hlatest c hc hactive => ?_⟩ rfl⟩
          rcases hcovered hlatest c hc hactive with hpending | hlocked
          · rcases List.mem_cons.mp hpending with hid | hpending
            · exact .inr (hid ▸ List.mem_append_right _ (List.mem_singleton_self _))
            · exact .inl hpending
          · exact .inr (List.mem_append_left _ hlocked)
        · rename_i hinactive
          refine ⟨n, h.setTx hold ⟨hle, fun hlatest c hc hactive => ?_⟩ rfl⟩
          rcases hcovered hlatest c hc hactive with hpending | hlocked
          · rcases List.mem_cons.mp hpending with hid | hpending
            · -- the row is not active any more
              refine absurd ?_ hinactive
              exact hid ▸ List.mem_map_of_mem (List.mem_filter.mpr ⟨hc, hactive⟩)
            · exact .inl hpending
          · exact .inr hlocked
    · cases hstep
  | insert i =>
    simp only [step] at hstep
    split at hstep
    · rename_i request latest locked hold
      split at hstep
      · cases hstep
        exact ⟨n, h.setTx hold trivial rfl⟩
      · split at hstep
        · cases hstep
        · rename_i hheld
          split at hstep <;> cases hstep
          · exact ⟨n, h.setTx hold trivial rfl⟩
          · rename_i hinsert
            exact ⟨n, h.insert hold rfl rfl rfl (by simpa using hheld) hinsert⟩
    · cases hstep
  | commit i =>
    simp only [step] at hstep
    split at hstep <;> cases hstep
    rename_i locked config hold
    exact ⟨n + 1, h.commit hold⟩
  | abort i =>
    simp only [step] at hstep
    split at hstep <;> cases hstep
    rename_i hi
    exact ⟨n, h.setTx (List.getElem?_eq_getElem hi) trivial rfl⟩

/-- From a database whose versions are linear, they are so in every committed state,
    however the requests are interleaved. -/
theorem linear_always {db : DealDb} {as : List Act} (hdb : Linear tenantId (init db)) :
    Run.Always (step tenantId) (Linear tenantId) (init db) as := by
  obtain ⟨n, hn⟩ := hdb
  have hinit : Inv tenantId n (init db) :=
    ⟨hn, fun i tx hi => by simp [init] at hi, fun i tx c hi => by simp [init] at hi,
      fun i j tx tx' hi => by simp [init] at hi⟩
  refine Run.always_of_invariant (fun s => ∃ n, Inv tenantId n s) ?_ ?_ ⟨n, hinit⟩
  · rintro s a t ⟨n, h⟩ hstep
    exact step_inv h hstep
  · rintro s ⟨n, h⟩
    exact ⟨n, h.linear⟩

end

/-- Two requests from the start: the second waits for the key of the first, which
    then fails for it, and a third comes after them. -/
def threeRequests : List Act :=
  [.begin ⟨1, "first"⟩, .begin ⟨2, "second"⟩, .begin ⟨3, "third"⟩, .selectVersion 0, .selectVersion 1,
    .startUpdate 0, .startUpdate 1, .insert 0, .commit 0, .insert 1, .selectVersion 2, .startUpdate 2,
    .updateRow 2, .insert 2, .commit 2]

theorem linear_always_three :
    Run.Always (step 7) (Linear 7) (init DealDb.empty) threeRequests :=
  linear_always ⟨0, rfl, rfl⟩

example : (Run.exec (step 7) (init DealDb.empty) threeRequests).map
    (fun s => s.db.criteriaConfigs.map fun c => (c.id, c.version, c.isActive)) =
    some [(1, 1, false), (3, 2, true)] := by
  decide +kernel

-- ---------------------------------------------------------------------------
-- One request by itself
-- ---------------------------------------------------------------------------

section
open Python Session CriteriaApi ScoringService

/-- Scoring writes no config. -/
def SameConfigs (db db' : DealDb) : Prop := db'.criteriaConfigs = db.criteriaConfigs

instance : IsPreorder DealDb SameConfigs where
  refl _ := rfl
  trans _ _ _ h h' := Eq.trans h' h

variable [Runtime]

omit [Runtime] in
theorem loadDeal_sameConfigs {dealId tenantId : Uuid} :
    Respects SameConfigs (loadDeal dealId tenantId) := by
  refine Respects.bind respects_select fun found => ?_
  cases found with
  | none => exact respects_raise
  | some deal =>
    dsimp only
    split
    · exact respects_raise
    · exact respects_pure

omit [Runtime] in
theorem persistScore_sameConfigs {draw : ScoreDraw} {deal : Deal} {configId : Uuid}
    {ev : Evaluation} : Respects SameConfigs (persistScore draw deal configId ev) := by
  refine Respects.bind (respects_write fun db db' h => ?_) fun _ => Respects.bind
    (respects_update fun db => rfl) fun _ => Respects.bind (respects_write fun db db' h => ?_)
      fun _ => respects_flush
  · obtain ⟨score, -, h⟩ := Option.bind_eq_some_iff.mp h
    unfold DealDb.insertScore at h
    split at h <;> cases h
    rfl
  · unfold DealDb.insertAudit at h
    split at h <;> cases h
    rfl

theorem scoreDeal_sameConfigs {draw : ScoreDraw} {dealId tenantId : Uuid} :
    Respects SameConfigs (scoreDeal draw dealId tenantId) := by
  refine Respects.bind loadDeal_sameConfigs fun deal => Respects.bind ?_ fun loaded => ?_
  · refine Respects.bind respects_select fun found => ?_
    cases found with
    | none => exact respects_pure
    | some config => exact Respects.bind respects_select fun criteria => respects_pure
  · cases loaded with
    | none => exact respects_pure
    | some loaded =>
      refine Respects.bind (Respects.bind respects_select fun rows => respects_pure) fun fields => ?_
      refine Respects.bind respects_ofExcept fun ev => ?_
      exact Respects.bind persistScore_sameConfigs fun _ => respects_pure

theorem rescoreDeals_sameConfigs {draw : ConfigDraw} {tenantId : Uuid} {i : Nat}
    {dealIds : List Uuid} : Respects SameConfigs (rescoreDeals draw tenantId i dealIds) := by
  induction dealIds generalizing i with
  | nil => exact respects_pure
  | cons dealId dealIds ih =>
    refine Respects.bind (Respects.tryCatch ?_ fun x => respects_pure) fun _ => ih
    exact Respects.bind scoreDeal_sameConfigs fun _ => respects_pure

theorem rescore_sameConfigs {draw : ConfigDraw} {tenantId : Uuid} :
    Respects SameConfigs (rescoreExtractedDeals draw tenantId) :=
  Respects.bind respects_select fun _ => rescoreDeals_sameConfigs

theorem createCriteriaConfig_commits {draw : ConfigDraw} {tenantId : Uuid}
    {body : CriteriaConfigCreateSchema} :
    Commits (createCriteriaConfig draw tenantId body) fun db _ db' =>
      ∃ name config db₁, PgText.ofStr (Python.text body.name) = some name ∧
        config = { id := draw.configId, tenantId, version := latestVersion db tenantId + 1,
                   isActive := true, name : CriteriaConfig } ∧
        (db.deactivateConfigs tenantId).insertConfig config = some db₁ ∧
        db'.criteriaConfigs = db₁.criteriaConfigs := by
  refine (createCriteriaConfig_inserts rescore_sameConfigs.commits).weaken fun db _ db' h => ?_
  obtain ⟨name, db₁, db₂, hname, hinsert, hcriteria, hrescored⟩ := h
  obtain ⟨rows, -, rfl⟩ := applyAll_criteria hcriteria
  exact ⟨name, _, db₁, hname, rfl, hinsert, hrescored⟩

end

section
variable {tenantId : Uuid} {db db' : DealDb}

instance : Std.Symm fun c d : CriteriaConfig => c.id ≠ d.id :=
  ⟨fun _ _ h => h.symm⟩

/-- With distinct ids, deactivation by row is deactivation by tenant. -/
theorem commitDb_configs {config : CriteriaConfig}
    (hids : db.criteriaConfigs.Pairwise fun c d => c.id ≠ d.id) :
    (commitDb db (activeIds db tenantId) config).criteriaConfigs =
      (db.deactivateConfigs tenantId).criteriaConfigs ++ [config] := by
  unfold commitDb DealDb.deactivateConfigs
  dsimp only
  congr 1
  refine List.map_congr_left fun c hc => ?_
  have hmem : c.id ∈ activeIds db tenantId ↔ c.tenantId = tenantId ∧ c.isActive = true := by
    simp only [activeIds, DealDb.configsOf, List.mem_map, List.mem_filter, decide_eq_true_eq]
    constructor
    · rintro ⟨d, ⟨⟨hd, htenant⟩, hactive⟩, hid⟩
      have hdc : d = c := by
        by_contra hne
        exact hids.forall hd hc hne hid
      exact hdc ▸ ⟨htenant, hactive⟩
    · rintro ⟨htenant, hactive⟩
      exact ⟨c, ⟨⟨hc, htenant⟩, hactive⟩, rfl⟩
  simp only [hmem]

/-- The deactivation of other configs does not matter to an insert. -/
theorem insertConfig_deactivated {config : CriteriaConfig}
    (h : (db.deactivateConfigs tenantId).insertConfig config = some db') :
    (∃ db₁, db.insertConfig config = some db₁) ∧
      db'.criteriaConfigs = (db.deactivateConfigs tenantId).criteriaConfigs ++ [config] := by
  unfold DealDb.insertConfig at h ⊢
  split at h
  · rename_i hfresh
    cases h
    refine ⟨⟨_, if_pos ⟨?_, ?_⟩⟩, rfl⟩
    · have hid : (db.deactivateConfigs tenantId).configById config.id =
          (db.configById config.id).map _ := Table.lookup_map fun c => by split <;> rfl
      rw [hid, Option.isNone_map] at hfresh
      exact hfresh.1
    · refine List.all_eq_true.mpr fun c hc => ?_
      obtain ⟨hmem, htenant⟩ := List.mem_filter.mp hc
      have hnew := List.all_eq_true.mp hfresh.2
        (if c.tenantId = tenantId ∧ c.isActive then { c with isActive := false } else c) <| by
          refine List.mem_filter.mpr ⟨List.mem_map_of_mem hmem, ?_⟩
          split <;> exact htenant
      split at hnew <;> exact hnew
  · cases h

/-- The rows of an `UPDATE` that no other transaction has locked. -/
theorem exec_updateRows {request : Request} {latest : Nat} {pending locked : List Uuid}
    (hpending : ∀ id ∈ pending, id ∈ activeIds db tenantId) :
    Run.exec (step tenantId) ⟨db, [.updating request latest pending locked]⟩
        (List.replicate pending.length (.updateRow 0)) =
      some ⟨db, [.updating request latest [] (locked ++ pending)]⟩ := by
  induction pending generalizing locked with
  | nil => simp
  | cons id pending ih =>
    refine Run.exec_cons_eq_some.mpr
      ⟨⟨db, [.updating request latest pending (locked ++ [id])]⟩, ?_, ?_⟩
    · simp [step, St.lockedByOther, hpending id, St.setTx]
    · rw [ih fun id' hid' => hpending id' (List.mem_cons_of_mem _ hid')]
      simp

/-- The statements of a request up to its `INSERT`. -/
def untilInsert (db : DealDb) (tenantId : Uuid) : List Act :=
  [.selectVersion 0, .startUpdate 0] ++
    List.replicate (activeIds db tenantId).length (.updateRow 0) ++ [.insert 0]

/-- Without another request they end with the config that it inserts. -/
theorem exec_untilInsert {request : Request} {name : PgText} {config : CriteriaConfig}
    (hname : PgText.ofStr (Python.text request.name) = some name)
    (hconfig : config = { id := request.configId, tenantId,
                          version := latestVersion db tenantId + 1, isActive := true, name })
    (hinsert : ∃ db₁, db.insertConfig config = some db₁) :
    Run.exec (step tenantId) ⟨db, [.begun request]⟩ (untilInsert db tenantId) =
      some ⟨db, [.inserted (activeIds db tenantId) config]⟩ := by
  obtain ⟨db₁, hinsert⟩ := hinsert
  let st : Tx → St := fun tx => ⟨db, [tx]⟩
  let locked := activeIds db tenantId
  have hstart : Run.exec (step tenantId) (st (.begun request)) [.selectVersion 0, .startUpdate 0] =
      some (st (.updating request (latestVersion db tenantId) locked [])) := rfl
  have hupdated : Run.exec (step tenantId)
      (st (.updating request (latestVersion db tenantId) locked []))
      (List.replicate locked.length (.updateRow 0)) =
        some (st (.updating request (latestVersion db tenantId) [] ([] ++ locked))) :=
    exec_updateRows fun _ => id
  refine Run.exec_append_eq_some.mpr
    ⟨_, Run.exec_append_eq_some.mpr ⟨_, hstart, hupdated⟩, ?_⟩
  refine Run.exec_cons_eq_some.mpr ⟨st (.inserted locked config), ?_, rfl⟩
  subst hconfig
  simp [st, locked, step, hname, St.heldByOther, hinsert, St.setTx]

/-- Run without interruption, the statements do to the configs what
    `create_criteria_config` does. -/
theorem statements_create [Python.Runtime] {draw : CriteriaApi.ConfigDraw}
    {body : CriteriaConfigCreateSchema} {response : CriteriaConfig × List Criterion}
    (hids : db.criteriaConfigs.Pairwise fun c d => c.id ≠ d.id)
    (h : Session.transaction (CriteriaApi.createCriteriaConfig draw tenantId body) db =
      (.ok response, db')) :
    ∃ t, Run.exec (step tenantId) (init db)
        (.begin ⟨draw.configId, body.name⟩ :: untilInsert db tenantId ++ [.commit 0]) = some t ∧
      t.db.criteriaConfigs = db'.criteriaConfigs := by
  obtain ⟨name, config, db₁, hname, hconfig, hinsert, hconfigs⟩ :=
    createCriteriaConfig_commits.transaction h
  obtain ⟨hinsert₂, hconfigs₁⟩ := insertConfig_deactivated hinsert
  let request : Request := ⟨draw.configId, body.name⟩
  let locked := activeIds db tenantId
  have hbegun : step tenantId (init db) (.begin request) = some ⟨db, [.begun request]⟩ := rfl
  have hinserted : Run.exec (step tenantId) ⟨db, [.begun request]⟩ (untilInsert db tenantId) =
      some ⟨db, [.inserted locked config]⟩ := exec_untilInsert hname hconfig hinsert₂
  have hcommitted : Run.exec (step tenantId) ⟨db, [.inserted locked config]⟩ [.commit 0] =
      some ⟨commitDb db locked config, [.done]⟩ := rfl
  refine ⟨⟨commitDb db locked config, [.done]⟩, ?_, ?_⟩
  · exact Run.exec_append_eq_some.mpr
      ⟨_, Run.exec_cons_eq_some.mpr ⟨_, hbegun, hinserted⟩, hcommitted⟩
  · rw [hconfigs, hconfigs₁]
    exact commitDb_configs hids

end

end ConfigRace
