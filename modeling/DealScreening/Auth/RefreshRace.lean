-- SUMMARY: Concurrent refresh requests, statement by statement: a token is exchanged once exactly when no request commits after another one has consumed the token it presented.
import DealScreening.Auth.TokenRows

/-!
# Concurrent refresh

Each request is a READ COMMITTED transaction of its own. A query sees what is
committed when it runs; an update locks its row until the transaction ends, and
one that finds the row locked waits. It then applies to the newest version,
whatever that holds: its `WHERE` names the primary key only.
-/

namespace RefreshRace

open Auth (TokensOk Siblings BothLive consume consume_tokenId consume_tokenHash consume_sessionId
  consume_parentTokenId consume_consumedAt_eq_none)

structure Request where
  refreshToken : String
  ipAddress : Option String
  draw : AuthDraw
  deriving DecidableEq, Repr

/-- The token and the session as a request read them. -/
structure Exchange where
  request : Request
  rt : RefreshToken
  session : AuthSession
  deriving DecidableEq, Repr

/-- The next statement of a refresh request, with what the earlier ones read and wrote. -/
inductive Tx where
  /-- `SELECT` the presented token. -/
  | begun (request : Request)
  /-- `SELECT` its session, then the checks. -/
  | tokenRead (request : Request) (rt : RefreshToken)
  /-- `UPDATE` the token; it is sent with the query for the user. -/
  | accepted (exchange : Exchange)
  /-- `INSERT` the child. -/
  | updated (exchange : Exchange) (consumedAt : Time)
  /-- `SELECT` the user. -/
  | inserted (exchange : Exchange) (consumedAt : Time) (child : RefreshToken)
  /-- `COMMIT`, with the audit row. -/
  | ready (exchange : Exchange) (consumedAt : Time) (child : RefreshToken) (entry : AuthAuditLog)
      (bundle : TokenBundle)
  /-- Committed, or rolled back by an exception. -/
  | done
  deriving DecidableEq, Repr

namespace Tx

/-- The row of `refresh_tokens` the transaction has locked. -/
def locks : Tx → Option String
  | .updated exchange _ | .inserted exchange _ _ | .ready exchange _ _ _ _ =>
    some exchange.rt.tokenId
  | _ => none

end Tx

/-- The committed database, the clock, the transactions, and the bundles that
    were returned, with the token each was exchanged for. -/
structure St where
  db : AuthDb
  now : Time
  txs : List Tx
  bundles : List (String × TokenBundle)
  deriving DecidableEq, Repr

def init (db : AuthDb) (now : Time) : St := ⟨db, now, [], []⟩

inductive Act where
  | begin (request : Request)
  | selectToken (i : Nat)
  | selectSession (i : Nat)
  | update (i : Nat)
  | insert (i : Nat)
  | selectUser (i : Nat)
  | commit (i : Nat)
  | abort (i : Nat)
  | advance (d : Nat)
  deriving DecidableEq, Repr

/-- The child token of an exchange. -/
def child (env : AuthEnv) (now : Time) (exchange : Exchange) : RefreshToken :=
  Auth.newRefreshToken env now exchange.request.draw exchange.session.sessionId
    (some exchange.rt.tokenId)

/-- The audit row and the bundle of an exchange, once its user is read. -/
def outcome (env : AuthEnv) (now : Time) (exchange : Exchange) (user : User) :
    Option (AuthAuditLog × TokenBundle) :=
  (Auth.accessTokenFor env now user exchange.session.sessionId).map fun accessToken =>
    (Auth.auditEntry exchange.request.draw .refresh (some user.userId) (some user.tenantId)
       (some exchange.session.sessionId) exchange.request.ipAddress none none,
     Auth.tokenBundle env user accessToken
       (Auth.generateRefreshToken env exchange.request.draw).1)

/-- The database after the commit of an exchange. A key that another request has
    committed meanwhile makes it fail, which PostgreSQL notices at the `INSERT`
    by waiting for the other request. -/
def commitDb (db : AuthDb) (exchange : Exchange) (consumedAt : Time) (child : RefreshToken)
    (entry : AuthAuditLog) : Option AuthDb :=
  ((db.updateRefreshToken exchange.rt.tokenId
      (Auth.consumed consumedAt exchange.request.ipAddress)).insertRefreshToken child).bind
    (AuthDb.insertAudit entry)

namespace St

def setTx (s : St) (i : Nat) (tx : Tx) : St :=
  { s with txs := s.txs.set i tx }

/-- Another transaction has locked the row. -/
def lockedByOther (s : St) (i : Nat) (tokenId : String) : Bool :=
  s.txs.zipIdx.any fun (tx, j) => j ≠ i ∧ tx.locks = some tokenId

end St

/-- One statement of one transaction. The reuse and revoked-session branches of
    `refresh` write and then raise, so they commit nothing and end here. -/
def step (env : AuthEnv) (s : St) : Act → Option St
  | .begin request => some { s with txs := s.txs ++ [.begun request] }
  | .selectToken i =>
    match s.txs[i]? with
    | some (.begun request) =>
      match s.db.tokenByHash (env.sha256 request.refreshToken) with
      | none => some (s.setTx i .done)
      | some rt => some (s.setTx i (.tokenRead request rt))
    | _ => none
  | .selectSession i =>
    match s.txs[i]? with
    | some (.tokenRead request rt) =>
      match s.db.session rt.sessionId with
      | none => some (s.setTx i .done)
      | some session =>
        if rt.consumedAt ≠ none then some (s.setTx i .done)
        else if session.revokedAt ≠ none then some (s.setTx i .done)
        else if rt.expiresAt < s.now then some (s.setTx i .done)
        else some (s.setTx i (.accepted ⟨request, rt, session⟩))
    | _ => none
  | .update i =>
    match s.txs[i]? with
    | some (.accepted exchange) =>
      if s.lockedByOther i exchange.rt.tokenId then none
      else some (s.setTx i (.updated exchange s.now))
    | _ => none
  | .insert i =>
    match s.txs[i]? with
    | some (.updated exchange consumedAt) =>
      match s.db.insertRefreshToken (child env s.now exchange) with
      | none => some (s.setTx i .done)
      | some _ => some (s.setTx i (.inserted exchange consumedAt (child env s.now exchange)))
    | _ => none
  | .selectUser i =>
    match s.txs[i]? with
    | some (.inserted exchange consumedAt child) =>
      match (s.db.userById exchange.session.userId).bind (outcome env s.now exchange) with
      | none => some (s.setTx i .done)
      | some (entry, bundle) => some (s.setTx i (.ready exchange consumedAt child entry bundle))
    | _ => none
  | .commit i =>
    match s.txs[i]? with
    | some (.ready exchange consumedAt child entry bundle) =>
      match commitDb s.db exchange consumedAt child entry with
      | none => some (s.setTx i .done)
      | some db =>
        some { s.setTx i .done with
          db
          bundles := s.bundles ++ [(exchange.request.refreshToken, bundle)] }
    | _ => none
  | .abort i => if i < s.txs.length then some (s.setTx i .done) else none
  | .advance d => some { s with now := s.now + d }

-- ---------------------------------------------------------------------------
-- Single use
-- ---------------------------------------------------------------------------

/-- No presented token has yielded two bundles, no token has two children, and no
    session has two unconsumed tokens. -/
structure SingleUse (s : St) : Prop where
  bundles : (s.bundles.map Prod.fst).Nodup
  oneChild : s.db.refreshTokens.Pairwise fun r r' => ¬ Siblings r r'
  oneLive : s.db.refreshTokens.Pairwise fun r r' => ¬ BothLive r r'

/-- A commit that goes through finds the presented token unconsumed. -/
def CommitsUnconsumed (s : St) (a : Act) : Prop :=
  ∀ i exchange consumedAt child entry bundle, a = .commit i →
    s.txs[i]? = some (.ready exchange consumedAt child entry bundle) →
    commitDb s.db exchange consumedAt child entry ≠ none →
    ∀ r ∈ s.db.refreshTokens, r.tokenId = exchange.rt.tokenId → r.consumedAt = none

-- ---------------------------------------------------------------------------
-- The rows after an exchange
-- ---------------------------------------------------------------------------

theorem commitDb_eq_some {db db' : AuthDb} {exchange : Exchange} {consumedAt : Time}
    {child : RefreshToken} {entry : AuthAuditLog}
    (h : commitDb db exchange consumedAt child entry = some db') :
    db'.refreshTokens =
        db.refreshTokens.map
          (consume exchange.rt.tokenId consumedAt exchange.request.ipAddress) ++ [child] ∧
      ∀ r ∈ db.refreshTokens, r.tokenId ≠ child.tokenId ∧ r.tokenHash ≠ child.tokenHash := by
  obtain ⟨db₁, hinsert, haudit⟩ := Option.bind_eq_some_iff.mp h
  obtain ⟨hrows, hfresh⟩ := Auth.exchange_rows hinsert
  rw [AuthDb.insertAudit_eq_some haudit]
  exact ⟨hrows, hfresh⟩

-- ---------------------------------------------------------------------------
-- The invariant
-- ---------------------------------------------------------------------------

/-- The row of a token that was unconsumed when it was read with this hash: if it
    is consumed by now, it has a child. -/
def RowOk (rows : List RefreshToken) (tokenHash : String) (rt : RefreshToken) : Prop :=
  ∃ row ∈ rows, row.tokenId = rt.tokenId ∧ row.tokenHash = tokenHash ∧
    row.sessionId = rt.sessionId ∧
    (row.consumedAt ≠ none → ∃ c ∈ rows, c.parentTokenId = some rt.tokenId)

structure ExchangeOk (env : AuthEnv) (rows : List RefreshToken) (exchange : Exchange) : Prop where
  row : RowOk rows (env.sha256 exchange.request.refreshToken) exchange.rt
  session : exchange.session.sessionId = exchange.rt.sessionId

structure ChildOf (exchange : Exchange) (child : RefreshToken) : Prop where
  parent : child.parentTokenId = some exchange.rt.tokenId
  session : child.sessionId = exchange.session.sessionId

def TxOk (env : AuthEnv) (rows : List RefreshToken) : Tx → Prop
  | .begun _ | .done => True
  | .tokenRead request rt =>
    rt.consumedAt = none → RowOk rows (env.sha256 request.refreshToken) rt
  | .accepted exchange | .updated exchange _ => ExchangeOk env rows exchange
  | .inserted exchange _ child | .ready exchange _ child _ _ =>
    ExchangeOk env rows exchange ∧ ChildOf exchange child

structure Inv (env : AuthEnv) (s : St) : Prop where
  tokens : TokensOk s.db.refreshTokens
  txs : ∀ tx ∈ s.txs, TxOk env s.db.refreshTokens tx
  once : (s.bundles.map Prod.fst).Nodup
  spent : ∀ presented ∈ s.bundles.map Prod.fst, ∃ row ∈ s.db.refreshTokens,
    row.tokenHash = env.sha256 presented ∧ row.consumedAt ≠ none

section
variable {env : AuthEnv} {s t : St} {rows : List RefreshToken}

theorem inv_init {db : AuthDb} {now : Time} (h : TokensOk db.refreshTokens) :
    Inv env (init db now) where
  tokens := h
  txs := fun _ htx => by cases htx
  once := List.nodup_nil
  spent := fun _ hp => by cases hp

theorem Inv.singleUse (h : Inv env s) : SingleUse s where
  bundles := h.once
  oneChild := h.tokens.oneChild
  oneLive := h.tokens.oneLive

/-- A step of one transaction that commits nothing. -/
theorem Inv.setTx {i : Nat} {tx : Tx} (h : Inv env s) (htx : TxOk env s.db.refreshTokens tx) :
    Inv env (s.setTx i tx) where
  tokens := h.tokens
  txs := Run.forall_mem_set h.txs htx
  once := h.once
  spent := h.spent

theorem RowOk.exchange {id : String} {consumedAt : Time} {ipAddress : Option String}
    {c rt : RefreshToken} {tokenHash : String} (h : RowOk rows tokenHash rt)
    (hc : c.parentTokenId = some id) :
    RowOk (rows.map (consume id consumedAt ipAddress) ++ [c]) tokenHash rt := by
  obtain ⟨row, hrow, hid, hhash, hsession, hchild⟩ := h
  refine ⟨consume id consumedAt ipAddress row, ?_, ?_, ?_, ?_, fun hne => ?_⟩
  · exact List.mem_append_left _ (List.mem_map_of_mem hrow)
  · rw [consume_tokenId, hid]
  · rw [consume_tokenHash, hhash]
  · rw [consume_sessionId, hsession]
  · by_cases hsame : row.tokenId = id
    · exact ⟨c, List.mem_append_right _ (List.mem_singleton_self _), by rw [hc, ← hsame, hid]⟩
    · have hconsumed : row.consumedAt ≠ none := fun hnone =>
        hne (consume_consumedAt_eq_none.mpr ⟨hsame, hnone⟩)
      obtain ⟨c', hc', hparent⟩ := hchild hconsumed
      exact ⟨_, List.mem_append_left _ (List.mem_map_of_mem hc'), by
        rw [consume_parentTokenId, hparent]⟩

theorem TxOk.exchange {id : String} {consumedAt : Time} {ipAddress : Option String}
    {c : RefreshToken} {tx : Tx} (h : TxOk env rows tx) (hc : c.parentTokenId = some id) :
    TxOk env (rows.map (consume id consumedAt ipAddress) ++ [c]) tx := by
  cases tx with
  | begun | done => trivial
  | tokenRead request rt => exact fun hlive => (h hlive).exchange hc
  | accepted exchange => exact ⟨h.row.exchange hc, h.session⟩
  | updated exchange => exact ⟨h.row.exchange hc, h.session⟩
  | inserted exchange => exact ⟨⟨h.1.row.exchange hc, h.1.session⟩, h.2⟩
  | ready exchange => exact ⟨⟨h.1.row.exchange hc, h.1.session⟩, h.2⟩

/-- A statement that commits nothing keeps the invariant, whatever it is. -/
theorem Inv.step_of_db {a : Act} (h : Inv env s) (hcommit : ∀ i, a ≠ .commit i)
    (hstep : step env s a = some t) : Inv env t := by
  have held : ∀ {i tx}, s.txs[i]? = some tx → TxOk env s.db.refreshTokens tx :=
    fun htx => h.txs _ (List.mem_of_getElem? htx)
  cases a with
  | begin request =>
    cases hstep
    refine ⟨h.tokens, fun tx htx => ?_, h.once, h.spent⟩
    rcases List.mem_append.mp htx with htx | htx
    · exact h.txs tx htx
    · cases List.mem_singleton.mp htx
      trivial
  | selectToken i =>
    simp only [step] at hstep
    split at hstep
    · rename_i request htx
      split at hstep <;> cases hstep
      · exact h.setTx trivial
      · rename_i rt hrt
        refine h.setTx fun hlive => ?_
        exact ⟨rt, Table.lookup_mem hrt, rfl, Table.lookup_key hrt, rfl, fun hne => absurd hlive hne⟩
    · cases hstep
  | selectSession i =>
    simp only [step] at hstep
    split at hstep
    · rename_i request rt htx
      split at hstep
      · cases hstep
        exact h.setTx trivial
      · rename_i session hsession
        split at hstep
        · cases hstep
          exact h.setTx trivial
        · rename_i hlive
          split at hstep
          · cases hstep
            exact h.setTx trivial
          · split at hstep <;> cases hstep
            · exact h.setTx trivial
            · exact h.setTx ⟨held htx (not_not.mp hlive), Table.lookup_key hsession⟩
    · cases hstep
  | update i =>
    simp only [step] at hstep
    split at hstep
    · rename_i exchange htx
      have hx : ExchangeOk env s.db.refreshTokens exchange := held htx
      split at hstep <;> cases hstep
      exact h.setTx hx
    · cases hstep
  | insert i =>
    simp only [step] at hstep
    split at hstep
    · rename_i exchange consumedAt htx
      split at hstep <;> cases hstep
      · exact h.setTx trivial
      · exact h.setTx ⟨held htx, rfl, rfl⟩
    · cases hstep
  | selectUser i =>
    simp only [step] at hstep
    split at hstep
    · rename_i exchange consumedAt c htx
      have hx : ExchangeOk env s.db.refreshTokens exchange ∧ ChildOf exchange c := held htx
      split at hstep <;> cases hstep
      · exact h.setTx trivial
      · exact h.setTx hx
    · cases hstep
  | commit i => exact absurd rfl (hcommit i)
  | abort i =>
    simp only [step] at hstep
    split at hstep <;> cases hstep
    exact h.setTx trivial
  | advance d =>
    cases hstep
    exact ⟨h.tokens, h.txs, h.once, h.spent⟩

/-- Only a commit writes the database. -/
theorem step_db {a : Act} (hcommit : ∀ i, a ≠ .commit i) (hstep : step env s a = some t) :
    t.db = s.db := by
  cases a with
  | commit i => exact absurd rfl (hcommit i)
  | begin => cases hstep; rfl
  | advance => cases hstep; rfl
  | _ =>
    simp only [step] at hstep
    repeat' split at hstep
    all_goals cases hstep
    all_goals rfl

theorem commit_cases {i : Nat} (hstep : step env s (.commit i) = some t) :
    ∃ exchange consumedAt child entry bundle,
      s.txs[i]? = some (.ready exchange consumedAt child entry bundle) ∧
      ((commitDb s.db exchange consumedAt child entry = none ∧ t = s.setTx i .done) ∨
        ∃ db, commitDb s.db exchange consumedAt child entry = some db ∧
          t = { s.setTx i .done with
                db
                bundles := s.bundles ++ [(exchange.request.refreshToken, bundle)] }) := by
  simp only [step] at hstep
  split at hstep
  · rename_i exchange consumedAt c entry bundle htx
    refine ⟨exchange, consumedAt, c, entry, bundle, htx, ?_⟩
    split at hstep <;> cases hstep
    · exact .inl ⟨‹_›, rfl⟩
    · exact .inr ⟨_, ‹_›, rfl⟩
  · cases hstep

/-- A commit that goes through and finds the presented token unconsumed keeps
    the invariant. -/
theorem Inv.commit {i : Nat} (h : Inv env s) (hok : CommitsUnconsumed s (.commit i))
    (hstep : step env s (.commit i) = some t) : Inv env t := by
  obtain ⟨exchange, consumedAt, c, entry, bundle, htx, ⟨_, rfl⟩ | ⟨db, hdb, rfl⟩⟩ :=
    commit_cases hstep
  · exact h.setTx trivial
  obtain ⟨hexchange, hchild⟩ := h.txs _ (List.mem_of_getElem? htx)
  obtain ⟨row, hrow, hid, hhash, hsession, _⟩ := hexchange.row
  have hlive : row.consumedAt = none :=
    hok i exchange consumedAt c entry bundle rfl htx (by rw [hdb]; nofun) row hrow hid
  obtain ⟨hrows, hfresh⟩ := commitDb_eq_some hdb
  rw [← hid] at hrows
  have hconsumed : ∀ {r : RefreshToken}, r.consumedAt ≠ none →
      (consume row.tokenId consumedAt exchange.request.ipAddress r).consumedAt ≠ none :=
    fun hne hnone => hne (consume_consumedAt_eq_none.mp hnone).2
  have hparent : c.parentTokenId = some row.tokenId := by rw [hchild.parent, hid]
  constructor
  · rw [hrows]
    refine h.tokens.exchange hrow hlive hparent ?_ hfresh
    rw [hchild.session, hexchange.session, hsession]
  · rw [hrows]
    exact Run.forall_mem_set (fun tx hmem => (h.txs tx hmem).exchange hparent) trivial
  · simp only [List.map_append, List.map_cons, List.map_nil]
    refine List.nodup_append.mpr ⟨h.once, List.pairwise_singleton _ _, ?_⟩
    rintro presented hmem _ hpresented rfl
    cases List.mem_singleton.mp hpresented
    -- the token has yielded a bundle before, so its row is consumed
    obtain ⟨row', hrow', hhash', hne⟩ := h.spent _ hmem
    have hsame : row' = row := by
      by_contra hdiff
      exact h.tokens.hashes.forall hrow' hrow hdiff (hhash'.trans hhash.symm)
    exact hne (hsame ▸ hlive)
  · intro presented hmem
    rw [hrows]
    simp only [List.map_append, List.map_cons, List.map_nil, List.mem_append,
      List.mem_singleton] at hmem
    rcases hmem with hmem | rfl
    · obtain ⟨row', hrow', hhash', hne⟩ := h.spent presented hmem
      exact ⟨_, List.mem_append_left _ (List.mem_map_of_mem hrow'), by
        rw [consume_tokenHash, hhash'], hconsumed hne⟩
    · refine ⟨_, List.mem_append_left _ (List.mem_map_of_mem hrow), by
        rw [consume_tokenHash, hhash], fun hnone => ?_⟩
      exact (consume_consumedAt_eq_none.mp hnone).1 rfl

/-- A commit that goes through on a token that another request has consumed
    leaves the token with two children. -/
theorem Inv.commit_consumed {a : Act} (h : Inv env s) (hbad : ¬ CommitsUnconsumed s a)
    (hstep : step env s a = some t) : ¬ SingleUse t := by
  simp only [CommitsUnconsumed, not_forall] at hbad
  obtain ⟨i, exchange, consumedAt, c, entry, bundle, rfl, htx, hgoes, r, hr, hid, hne⟩ := hbad
  obtain ⟨exchange', consumedAt', c', entry', bundle', htx', ⟨hnone, _⟩ | ⟨db, hdb, rfl⟩⟩ :=
    commit_cases hstep
  · rw [htx] at htx'
    cases htx'
    exact absurd hnone hgoes
  rw [htx] at htx'
  cases htx'
  obtain ⟨hexchange, hchild⟩ := h.txs _ (List.mem_of_getElem? htx)
  obtain ⟨row, hrow, hrowid, _, _, hsibling⟩ := hexchange.row
  have hsame : r = row := by
    by_contra hdiff
    exact h.tokens.ids.forall hr hrow hdiff (hid.trans hrowid.symm)
  subst hsame
  obtain ⟨sibling, hmem, hparent⟩ := hsibling hne
  intro hsafe
  have hone := hsafe.oneChild
  dsimp only at hone
  rw [(commitDb_eq_some hdb).1, List.pairwise_append] at hone
  refine hone.2.2 _ (List.mem_map_of_mem hmem) c (List.mem_singleton_self _) ⟨?_, ?_⟩
  · rw [consume_parentTokenId, hparent]
    nofun
  · rw [consume_parentTokenId, hparent, hchild.parent]

theorem single_use_iff_of_tokensOk {db : AuthDb} {now : Time} {as : List Act}
    (hdb : TokensOk db.refreshTokens) (hrun : Run.exec (step env) (init db now) as = some t) :
    Run.Always (step env) SingleUse (init db now) as ↔
      Run.Guarded (step env) CommitsUnconsumed (init db now) as := by
  refine Run.always_iff_guarded (fun _ => True) (Inv env) ?_ Inv.singleUse ?_ (inv_init hdb)
    (fun _ _ => trivial) hrun
  · intro s a t h _ hok hstep
    by_cases hcommit : ∃ i, a = .commit i
    · obtain ⟨i, rfl⟩ := hcommit
      exact h.commit hok hstep
    · exact h.step_of_db (fun i e => hcommit ⟨i, e⟩) hstep
  · exact fun h _ hbad hstep => h.commit_consumed hbad hstep

/-- After any requests, over every interleaving of concurrent refresh requests:
    tokens are used once exactly when every commit that goes through finds the
    presented token unconsumed. -/
theorem single_use_iff {start now : Time} {requests : List Auth.Act} {as : List Act}
    (hrun : Run.exec (step env)
      (init (Auth.run env ⟨AuthDb.empty, start⟩ requests).db now) as = some t) :
    Run.Always (step env) SingleUse
        (init (Auth.run env ⟨AuthDb.empty, start⟩ requests).db now) as ↔
      Run.Guarded (step env) CommitsUnconsumed
        (init (Auth.run env ⟨AuthDb.empty, start⟩ requests).db now) as :=
  single_use_iff_of_tokensOk (Auth.run_dbOk requests Auth.dbOk_empty).tokens hrun

end

/-- `CommitsUnconsumed`, computed. -/
def commitsUnconsumed (s : St) : Act → Bool
  | .commit i =>
    match s.txs[i]? with
    | some (.ready exchange _ _ _ _) =>
      s.db.refreshTokens.all fun r => r.tokenId ≠ exchange.rt.tokenId ∨ r.consumedAt = none
    | _ => true
  | _ => true

theorem commitsUnconsumed_sound (s : St) (a : Act) (h : commitsUnconsumed s a = true) :
    CommitsUnconsumed s a := by
  rintro i exchange consumedAt c entry bundle rfl htx - r hr hid
  simp only [commitsUnconsumed, htx, List.all_eq_true, decide_eq_true_eq] at h
  exact (h r hr).resolve_left (not_not_intro hid)

/-- The statements of the `i`-th request, one after the other. -/
def statements (i : Nat) : List Act :=
  [.selectToken i, .selectSession i, .update i, .insert i, .selectUser i, .commit i]

/-- A user logs in and gets `rt_1_1`. -/
def loggedIn : List Auth.Act :=
  [.createUser Auth.defaultTenantId "ana@fund.com" "password" (Auth.toyDraw "0"),
    .login "ana@fund.com" "password" none none (Auth.toyDraw "1")]

/-- A refresh with `rt_1_1`, and then one with the token it returned. -/
def inTurn : List Act :=
  .begin ⟨"rt_1_1", none, Auth.toyDraw "2"⟩ :: statements 0 ++
    .begin ⟨"rt_2_2", none, Auth.toyDraw "3"⟩ :: statements 1

theorem single_use_iff_in_turn :
    Run.Always (step Auth.toyEnv) SingleUse
      (init (Auth.run Auth.toyEnv ⟨AuthDb.empty, 0⟩ loggedIn).db 0) inTurn := by
  have hsome : (Run.exec (step Auth.toyEnv)
      (init (Auth.run Auth.toyEnv ⟨AuthDb.empty, 0⟩ loggedIn).db 0) inTurn).isSome = true := by
    decide
  obtain ⟨t, ht⟩ := Option.isSome_iff_exists.mp hsome
  exact (single_use_iff ht).mpr
    (Run.guarded_of_checks commitsUnconsumed commitsUnconsumed_sound (by decide))

/-- Two refreshes with `rt_1_1`: both read the token before either consumes it. -/
def bothAtOnce : List Act :=
  [.begin ⟨"rt_1_1", none, Auth.toyDraw "2"⟩, .begin ⟨"rt_1_1", none, Auth.toyDraw "3"⟩,
    .selectToken 0, .selectToken 1, .selectSession 0, .selectSession 1, .update 0, .insert 0,
    .selectUser 0, .commit 0, .update 1, .insert 1, .selectUser 1, .commit 1]

theorem token_used_twice :
    ¬ ∀ (env : AuthEnv) (start now : Time) (requests : List Auth.Act) (as : List Act),
      Run.Always (step env) SingleUse
        (init (Auth.run env ⟨AuthDb.empty, start⟩ requests).db now) as := by
  intro h
  have htwice : (Run.exec (step Auth.toyEnv)
      (init (Auth.run Auth.toyEnv ⟨AuthDb.empty, 0⟩ loggedIn).db 0) bothAtOnce).map
        (fun s => s.bundles.map Prod.fst) = some ["rt_1_1", "rt_1_1"] := by decide
  obtain ⟨t, ht, heq⟩ := Option.map_eq_some_iff.mp htwice
  have hnodup := ((h Auth.toyEnv 0 0 loggedIn bothAtOnce).last ht).bundles
  rw [heq] at hnodup
  exact absurd hnodup (by decide)

-- ---------------------------------------------------------------------------
-- One request by itself
-- ---------------------------------------------------------------------------

/-- An update of the tokens that keeps their keys does not matter to an insert. -/
theorem insertRefreshToken_update {db db₁ : AuthDb} {tokenId : String} {consumedAt : Time}
    {ipAddress : Option String} {c : RefreshToken}
    (h : (db.updateRefreshToken tokenId (Auth.consumed consumedAt ipAddress)).insertRefreshToken c =
      some db₁) : ∃ db₂, db.insertRefreshToken c = some db₂ := by
  unfold AuthDb.insertRefreshToken at h ⊢
  have hid : ∀ k, (db.updateRefreshToken tokenId (Auth.consumed consumedAt ipAddress)).tokenById k =
      (db.tokenById k).map (consume tokenId consumedAt ipAddress) :=
    fun k => Table.lookup_map fun _ => consume_tokenId
  have hhash : ∀ k,
      (db.updateRefreshToken tokenId (Auth.consumed consumedAt ipAddress)).tokenByHash k =
        (db.tokenByHash k).map (consume tokenId consumedAt ipAddress) :=
    fun k => Table.lookup_map fun _ => consume_tokenHash
  simp only [hid, hhash, Option.isNone_map, Option.isSome_map] at h
  split at h
  · rename_i hfresh
    exact ⟨_, if_pos hfresh⟩
  · cases h

/-- Run without interruption, the statements do what `refresh` does. -/
theorem statements_refresh {env : AuthEnv} {now : Time} {db db' : AuthDb} {bundle : TokenBundle}
    {refreshToken : String} {ipAddress : Option String} {draw : AuthDraw}
    (h : Auth.RefreshEffect env now draw refreshToken ipAddress db bundle db') :
    Run.exec (step env) (init db now) (.begin ⟨refreshToken, ipAddress, draw⟩ :: statements 0) =
      some ⟨db', now, [.done], [(refreshToken, bundle)]⟩ := by
  obtain ⟨rt, session, user, accessToken, db₁, hrt, hsession, hlive, hsess, hexp, hinsert, huser,
    hissue, haudit, rfl⟩ := h
  obtain ⟨db₂, hinsert₂⟩ := insertRefreshToken_update hinsert
  have huser₂ : db.userById session.userId = some user := by
    rw [(AuthDb.insertRefreshToken_eq_some hinsert).1] at huser
    exact huser
  let request : Request := ⟨refreshToken, ipAddress, draw⟩
  let exchange : Exchange := ⟨request, rt, session⟩
  let entry := Auth.auditEntry draw .refresh (some user.userId) (some user.tenantId)
    (some session.sessionId) ipAddress none none
  let bundle := Auth.tokenBundle env user accessToken (Auth.generateRefreshToken env draw).1
  have hinsert₂ : db.insertRefreshToken (child env now exchange) = some db₂ := hinsert₂
  have hout : outcome env now exchange user = some (entry, bundle) := by
    simp [outcome, exchange, request, entry, bundle, hissue]
  have hcommit : commitDb db exchange now (child env now exchange) entry = some db' :=
    Option.bind_eq_some_iff.mpr ⟨db₁, hinsert, haudit⟩
  let st : Tx → St := fun tx => ⟨db, now, [tx], []⟩
  refine Run.exec_cons_eq_some.mpr ⟨st (.begun request), rfl, ?_⟩
  refine Run.exec_cons_eq_some.mpr ⟨st (.tokenRead request rt), ?_, ?_⟩
  · simp [st, step, request, hrt, St.setTx]
  refine Run.exec_cons_eq_some.mpr ⟨st (.accepted exchange), ?_, ?_⟩
  · simp [st, step, hsession, hlive, hsess, hexp, St.setTx, exchange]
  refine Run.exec_cons_eq_some.mpr ⟨st (.updated exchange now), ?_, ?_⟩
  · simp [st, step, St.lockedByOther, St.setTx]
  refine Run.exec_cons_eq_some.mpr ⟨st (.inserted exchange now (child env now exchange)), ?_, ?_⟩
  · simp [st, step, hinsert₂, St.setTx]
  refine Run.exec_cons_eq_some.mpr
    ⟨st (.ready exchange now (child env now exchange) entry bundle), ?_, ?_⟩
  · have hread : (db.userById exchange.session.userId).bind (outcome env now exchange) =
        some (entry, bundle) := by rw [huser₂, Option.bind_some, hout]
    simp [st, step, hread, St.setTx]
  refine Run.exec_cons_eq_some.mpr ⟨⟨db', now, [.done], [(refreshToken, bundle)]⟩, ?_, rfl⟩
  simp [st, step, hcommit, St.setTx, exchange, request]

end RefreshRace
