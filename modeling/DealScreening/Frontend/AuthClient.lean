-- SUMMARY: The token handling of the browser client against the refresh route: concurrent calls keep the session exactly when no refresh starts while another is under way.
import DealScreening.Auth.Rotation
import DealScreening.Auth.TokenChain

/-!
# Browser client

`getAccessToken` reads the stored session, and refreshes it if the access token is
about to expire. Between the request and the write of its answer other calls run.
The server answers one refresh after the other. All of it takes place at one
instant, short against the lifetimes of the tokens.
-/

namespace AuthClient

open Session
open Auth (RefreshEffect)

structure StoredUser where
  userId : String
  tenantId : String
  email : String
  deriving DecidableEq, Repr

/-- What `saveTokens` puts under `STORAGE_KEY`. -/
structure Stored where
  accessToken : AccessToken
  refreshToken : String
  user : StoredUser
  deriving DecidableEq, Repr

/-- A call of `getAccessToken`, and what it waits for. -/
inductive Call where
  /-- The answer to `POST /auth/refresh` with this token. -/
  | sent (refreshToken : String)
  /-- The answer is under way; `none` is one that is not ok. -/
  | answered (response : Option TokenBundle)
  /-- `res.json()`. -/
  | parsing (data : TokenBundle)
  | returned (accessToken : Option AccessToken)
  deriving DecidableEq, Repr

namespace Call

def isReturned : Call → Bool
  | .returned _ => true
  | _ => false

end Call

/-- The database of the server, `localStorage`, and the calls. -/
structure St where
  db : AuthDb
  storage : Option Stored
  calls : List Call
  deriving DecidableEq, Repr

def init (db : AuthDb) (stored : Stored) : St := ⟨db, some stored, []⟩

inductive Act where
  | start
  | serve (i : Nat) (ipAddress : Option String) (draw : AuthDraw)
  | receive (i : Nat)
  | save (i : Nat)
  deriving DecidableEq, Repr

/-- The random values are not in use yet. -/
structure Fresh (env : AuthEnv) (db : AuthDb) (draw : AuthDraw) : Prop where
  token : db.tokenById (prefixedId "rt" draw.tokenHex) = none
  hash : db.tokenByHash (Auth.generateRefreshToken env draw).2 = none
  audit : Table.lookup AuthAuditLog.auditId db.auditLog (prefixedId "aud" draw.auditHex) = none

instance (env : AuthEnv) (db : AuthDb) (draw : AuthDraw) : Decidable (Fresh env db draw) :=
  decidable_of_iff (db.tokenById (prefixedId "rt" draw.tokenHex) = none ∧
    db.tokenByHash (Auth.generateRefreshToken env draw).2 = none ∧
    Table.lookup AuthAuditLog.auditId db.auditLog (prefixedId "aud" draw.auditHex) = none)
    ⟨fun h => ⟨h.1, h.2.1, h.2.2⟩, fun h => ⟨h.token, h.hash, h.audit⟩⟩

section
variable (env : AuthEnv) (now : Time) (decodable : AccessToken → Bool)

/-- Whether `getAccessToken` refreshes: the payload does not decode with `atob`, or
    the token expires within a minute. -/
def needsRefresh (accessToken : AccessToken) : Bool :=
  !(decodable accessToken && decide (accessToken.claims.exp * 1000 - now / 1000 > 60000))

/-- `saveTokens` of an answer. -/
def saved (data : TokenBundle) : Stored :=
  ⟨data.accessToken, data.refreshToken, ⟨data.userId, data.tenantId, data.email⟩⟩

/-- One step of the client or the server. -/
def step (s : St) : Act → Option St
  | .start =>
    match s.storage with
    | none => some { s with calls := s.calls ++ [.returned none] }
    | some stored =>
      if needsRefresh now decodable stored.accessToken then
        some { s with calls := s.calls ++ [.sent stored.refreshToken] }
      else some { s with calls := s.calls ++ [.returned (some stored.accessToken)] }
  | .serve i ipAddress draw =>
    match s.calls[i]? with
    | some (.sent refreshToken) =>
      if Fresh env s.db draw then
        let answer := transaction (Auth.refreshRoute env now draw refreshToken ipAddress) s.db
        some { s with db := answer.2, calls := s.calls.set i (.answered answer.1.toOption) }
      else none
    | _ => none
  | .receive i =>
    match s.calls[i]? with
    | some (.answered none) =>
      some { s with storage := none, calls := s.calls.set i (.returned none) }
    | some (.answered (some data)) => some { s with calls := s.calls.set i (.parsing data) }
    | _ => none
  | .save i =>
    match s.calls[i]? with
    | some (.parsing data) =>
      some { s with
        storage := some (saved data)
        calls := s.calls.set i (.returned (some data.accessToken)) }
    | _ => none

/-- Every call has returned. -/
def St.finished (s : St) : Bool := s.calls.all Call.isReturned

-- ---------------------------------------------------------------------------
-- What the client is for
-- ---------------------------------------------------------------------------

/-- `require_auth` accepts the token, for the session. -/
def Usable (db : AuthDb) (sid : String) (token : AccessToken) : Prop :=
  ∃ context, (transaction (Auth.requireAuth env now (.bearer token)) db).1 = .ok context ∧
    context.sessionId = sid

/-- The refresh token is one of the session that can be exchanged. -/
def LiveToken (db : AuthDb) (sid refreshToken : String) : Prop :=
  ∃ rt, db.tokenByHash (env.sha256 refreshToken) = some rt ∧ rt.sessionId = sid ∧
    rt.consumedAt = none ∧ ¬ rt.expiresAt < now

/-- Every call has returned a token that is accepted, and the stored refresh token is
    the one unconsumed token of the session. -/
structure LoggedIn (sid : String) (s : St) : Prop where
  usable : ∀ call ∈ s.calls, ∃ token, call = .returned (some token) ∧ Usable env now s.db sid token
  newest : ∃ stored rt, s.storage = some stored ∧
    s.db.tokenByHash (env.sha256 stored.refreshToken) = some rt ∧ rt.sessionId = sid ∧
    rt.consumedAt = none ∧
    ∀ r ∈ s.db.refreshTokens, r.sessionId = sid → r.consumedAt = none → r = rt

/-- A call that refreshes starts when every earlier one has returned. -/
def StartsAlone (s : St) (a : Act) : Prop :=
  a = .start → ∀ stored, s.storage = some stored →
    needsRefresh now decodable stored.accessToken = true →
    ∀ call ∈ s.calls, call.isReturned = true

/-- The server can issue tokens that live for some time. -/
structure Serves : Prop where
  key : ∃ key, env.ring.current = some key
  accessTtl : 0 < env.config.accessTtlS
  refreshTtl : 0 < env.config.refreshTtlS

/-- The session is not revoked. -/
def SessionLive (db : AuthDb) (sid : String) : Prop :=
  ∃ session, db.session sid = some session ∧ session.revokedAt = none

end

instance (env : AuthEnv) (now : Time) (db : AuthDb) (sid refreshToken : String) :
    Decidable (LiveToken env now db sid refreshToken) :=
  decidable_of_iff ((db.tokenByHash (env.sha256 refreshToken)).any fun rt =>
    rt.sessionId = sid ∧ rt.consumedAt = none ∧ ¬ rt.expiresAt < now) <| by
    simp [LiveToken, Option.any_eq_true]

instance (db : AuthDb) (sid : String) : Decidable (SessionLive db sid) :=
  decidable_of_iff ((db.session sid).any fun session => session.revokedAt = none) <| by
    simp [SessionLive, Option.any_eq_true]

-- ---------------------------------------------------------------------------
-- The server
-- ---------------------------------------------------------------------------

section
variable {env : AuthEnv} {now : Time} {draw : AuthDraw} {db db' : AuthDb} {sid refreshToken : String}
  {ipAddress : Option String} {bundle : TokenBundle}

/-- The database is in order, and the session is live. -/
structure Ready (db : AuthDb) (sid : String) : Prop where
  rows : Auth.DbOk db
  identities : Auth.IdentitiesOk db
  live : SessionLive db sid

/-- A live token of a live session is exchanged. -/
theorem refresh_live (ipAddress : Option String) (hserves : Serves env) (hready : Ready db sid)
    (hfresh : Fresh env db draw) (hlive : LiveToken env now db sid refreshToken) :
    ∃ bundle, (transaction (Auth.refreshRoute env now draw refreshToken ipAddress) db).1 =
      .ok bundle := by
  obtain ⟨rt, hrt, rfl, hunconsumed, hexpires⟩ := hlive
  obtain ⟨session, hsession, hrevoked⟩ := hready.live
  obtain ⟨user, huser, -⟩ := hready.identities.owned _ session hsession
  exact Auth.refreshRoute_returns ipAddress hserves.key hfresh.audit ⟨hfresh.token, hfresh.hash⟩ hrt
    hsession huser hunconsumed hrevoked hexpires

/-- The refresh token was exchanged. -/
def Spent (env : AuthEnv) (db : AuthDb) (refreshToken : String) : Prop :=
  ∃ rt, db.tokenByHash (env.sha256 refreshToken) = some rt ∧ rt.consumedAt ≠ none

theorem refresh_spent (h : Spent env db refreshToken) :
    (transaction (Auth.refreshRoute env now draw refreshToken ipAddress) db).1.toOption = none ∧
      (transaction (Auth.refreshRoute env now draw refreshToken ipAddress) db).2 = db := by
  obtain ⟨rt, hrt, hconsumed⟩ := h
  cases hrun : (transaction (Auth.refreshRoute env now draw refreshToken ipAddress) db).1 with
  | ok bundle =>
    obtain ⟨rt', _, _, _, _, hrt', -, hlive, -⟩ :=
      Auth.refreshRoute_commits.transaction (Prod.ext hrun rfl)
    cases hrt.symm.trans hrt'
    exact absurd hlive hconsumed
  | error x => exact ⟨rfl, transaction_rollback hrun⟩

/-- The tokens after an exchange: the presented one is consumed, and the answer's is
    its child. -/
theorem refreshEffect_tokens
    (h : RefreshEffect env now draw refreshToken ipAddress db bundle db') :
    ∃ rt, db.tokenByHash (env.sha256 refreshToken) = some rt ∧ rt.consumedAt = none ∧
      (∀ tokenHash row, db.tokenByHash tokenHash = some row →
        db'.tokenByHash tokenHash = some (Auth.consume rt.tokenId now ipAddress row)) ∧
      db'.tokenByHash (env.sha256 bundle.refreshToken) =
        some (Auth.newRefreshToken env now draw rt.sessionId (some rt.tokenId)) := by
  obtain ⟨rt, session, user, accessToken, db₁, hrt, hsession, hlive, -, -, hinsert, -, -, haudit,
    rfl⟩ := h
  obtain ⟨hrows, hfresh⟩ := Auth.exchange_rows hinsert
  rw [Table.lookup_key hsession] at hrows hfresh
  have hrows' : db'.refreshTokens = db₁.refreshTokens := by rw [AuthDb.insertAudit_eq_some haudit]
  have hlookup : ∀ tokenHash, db'.tokenByHash tokenHash =
      ((db.tokenByHash tokenHash).map (Auth.consume rt.tokenId now ipAddress)).or
        (Table.lookup RefreshToken.tokenHash
          [Auth.newRefreshToken env now draw rt.sessionId (some rt.tokenId)] tokenHash) := by
    intro tokenHash
    unfold AuthDb.tokenByHash
    rw [hrows', hrows, Table.lookup_append, Table.lookup_map fun _ => Auth.consume_tokenHash]
  refine ⟨rt, hrt, hlive, fun tokenHash row hrow => ?_, ?_⟩
  · rw [hlookup, hrow]
    rfl
  · have hnone : db.tokenByHash (env.sha256 (Auth.generateRefreshToken env draw).1) = none :=
      Table.lookup_eq_none.mpr fun r hr => (hfresh r hr).2
    change db'.tokenByHash (env.sha256 (Auth.generateRefreshToken env draw).1) = _
    rw [hlookup, hnone]
    simp [Table.lookup, Auth.newRefreshToken, Auth.generateRefreshToken]

theorem refreshEffect_sessions
    (h : RefreshEffect env now draw refreshToken ipAddress db bundle db') :
    db'.sessions = db.sessions := by
  obtain ⟨rt, session, user, accessToken, db₁, -, -, -, -, -, hinsert, -, -, haudit, -⟩ := h
  rw [AuthDb.insertAudit_eq_some haudit, (AuthDb.insertRefreshToken_eq_some hinsert).1]
  rfl

theorem usable_iff {token : AccessToken} :
    Usable env now db sid token ↔
      Auth.Accepted env.ring now token ∧ token.claims.sid = sid ∧ SessionLive db sid := by
  constructor
  · rintro ⟨context, hcontext, rfl⟩
    obtain ⟨-, token', session, htoken, hverified, hsession, hlive, rfl⟩ :=
      Auth.requireAuth_commits.transaction (Prod.ext hcontext rfl)
    cases htoken
    exact ⟨⟨_, hverified⟩, rfl, session, hsession, hlive⟩
  · rintro ⟨⟨claims, hverified⟩, rfl, session, hsession, hlive⟩
    obtain rfl := verifyAccessToken_claims hverified
    have hrun : Auth.requireAuth env now (.bearer token) ⟨db, false, false⟩ =
        (.ok ⟨token.claims.sub, token.claims.tnt, token.claims.sid, token.claims.roles⟩,
          ⟨db, false, false⟩) := by
      simp [Auth.requireAuth, hverified, hsession, hlive]
    exact ⟨_, by rw [transaction_ok hrun], rfl⟩

/-- A token is accepted as soon as it is issued. -/
theorem issued_accepted {user : User} {token : AccessToken} (hserves : Serves env)
    (h : Auth.accessTokenFor env now user sid = some token) :
    Auth.Accepted env.ring now token ∧ token.claims.sid = sid := by
  have hsid := (Auth.accessTokenFor_claims h).2.2
  obtain ⟨key, hkey, hkid, hsigned, hiat⟩ := Auth.createAccessToken_eq_some h
  refine ⟨Auth.accepted_iff.mpr ⟨key, ?_, ?_, ?_⟩, hsid⟩
  · rw [KeyRing.allKeys, hkey]
    exact List.mem_append_left _ (List.mem_singleton_self key)
  · simp [matchesKid, hkid]
  · refine (Auth.decodes_iff hiat le_rfl ?_).mpr hsigned
    obtain ⟨_, -, rfl⟩ := Option.map_eq_some_iff.mp h
    exact Time.lt_seconds_toSeconds_add now hserves.accessTtl

/-- An exchange keeps the database in order, and answers with tokens that work. -/
theorem refreshEffect_ready (hserves : Serves env) (hready : Ready db sid)
    (hlive : LiveToken env now db sid refreshToken)
    (h : RefreshEffect env now draw refreshToken ipAddress db bundle db') :
    Ready db' sid ∧ LiveToken env now db' sid bundle.refreshToken ∧
      Usable env now db' sid bundle.accessToken ∧ Spent env db' refreshToken := by
  obtain ⟨rt, hrt, rfl, hunconsumed, -⟩ := hlive
  obtain ⟨rt', hrt', -, hkept, hchild⟩ := refreshEffect_tokens h
  cases hrt.symm.trans hrt'
  have hsessions : SessionLive db' rt.sessionId := by
    unfold SessionLive AuthDb.session
    rw [refreshEffect_sessions h]
    exact hready.live
  refine ⟨⟨h.dbOk hready.rows, h.keepsIdentity.ok hready.identities, hsessions⟩,
    ⟨_, hchild, rfl, rfl, ?_⟩, usable_iff.mpr ?_, ⟨_, hkept _ rt hrt, ?_⟩⟩
  · have httl : (0 : Int) ≤ env.config.refreshTtlS * 1000000 := by
      have := hserves.refreshTtl
      omega
    exact not_lt.mpr (Int.le_add_of_nonneg_right httl)
  · obtain ⟨rt', session, user, accessToken, db₁, hrt', hsession, -, -, -, -, -, hissue, -, rfl⟩ := h
    cases hrt.symm.trans hrt'
    obtain ⟨haccepted, hsid⟩ := issued_accepted hserves hissue
    exact ⟨haccepted, hsid.trans (Table.lookup_key hsession), hsessions⟩
  · intro hnone
    exact (Auth.consume_consumedAt_eq_none.mp hnone).1 rfl

theorem refreshEffect_spent (spent : String)
    (h : RefreshEffect env now draw refreshToken ipAddress db bundle db')
    (hspent : Spent env db spent) : Spent env db' spent := by
  obtain ⟨rt, -, -, hkept, -⟩ := refreshEffect_tokens h
  obtain ⟨row, hrow, hconsumed⟩ := hspent
  exact ⟨_, hkept _ row hrow, fun hnone => hconsumed (Auth.consume_consumedAt_eq_none.mp hnone).2⟩

theorem refreshEffect_usable {token : AccessToken}
    (h : RefreshEffect env now draw refreshToken ipAddress db bundle db')
    (husable : Usable env now db sid token) : Usable env now db' sid token := by
  obtain ⟨haccepted, hsid, hlive⟩ := usable_iff.mp husable
  refine usable_iff.mpr ⟨haccepted, hsid, ?_⟩
  unfold SessionLive AuthDb.session
  rw [refreshEffect_sessions h]
  exact hlive

end

-- ---------------------------------------------------------------------------
-- The invariant
-- ---------------------------------------------------------------------------

section
variable {env : AuthEnv} {now : Time} {decodable : AccessToken → Bool} {sid : String} {s t : St}

/-- A call under way has sent the stored refresh token, or holds tokens that replace
    the stored ones; one that has returned has a token that is accepted. -/
def CallOk (env : AuthEnv) (now : Time) (sid : String) (db : AuthDb) (stored : Stored) : Call → Prop
  | .sent refreshToken => refreshToken = stored.refreshToken ∧ LiveToken env now db sid refreshToken
  | .answered (some data) | .parsing data =>
    Spent env db stored.refreshToken ∧ LiveToken env now db sid data.refreshToken ∧
      Usable env now db sid data.accessToken
  | .answered none | .returned none => False
  | .returned (some accessToken) => Usable env now db sid accessToken

/-- At most one call is under way. -/
structure Inv (env : AuthEnv) (now : Time) (decodable : AccessToken → Bool) (sid : String) (s : St) :
    Prop where
  ready : Ready s.db sid
  stored : ∃ stored, s.storage = some stored ∧
    (needsRefresh now decodable stored.accessToken = true ∨
      Usable env now s.db sid stored.accessToken) ∧
    (∀ (i : Nat) (call : Call), s.calls[i]? = some call → CallOk env now sid s.db stored call) ∧
    ((∀ call ∈ s.calls, call.isReturned = true) → LiveToken env now s.db sid stored.refreshToken)
  single : ∀ (i j : Nat) (c d : Call), s.calls[i]? = some c → s.calls[j]? = some d →
    c.isReturned = false → d.isReturned = false → i = j

/-- A call that will not return a token. -/
def Lost (env : AuthEnv) (db : AuthDb) : Call → Prop
  | .sent refreshToken => Spent env db refreshToken
  | .answered none | .returned none => True
  | _ => False

/-- A call is lost, or two have sent the same token. -/
def Bad (env : AuthEnv) (s : St) : Prop :=
  (∃ (i : Nat) (call : Call), s.calls[i]? = some call ∧ Lost env s.db call) ∨
    ∃ (i j : Nat) (refreshToken : String), i ≠ j ∧ s.calls[i]? = some (.sent refreshToken) ∧
      s.calls[j]? = some (.sent refreshToken)

theorem finished_iff : s.finished = true ↔ ∀ call ∈ s.calls, call.isReturned = true :=
  List.all_eq_true

theorem Inv.loggedIn (h : Inv env now decodable sid s) (hfinished : s.finished = true) :
    LoggedIn env now sid s := by
  obtain ⟨stored, hstored, -, hcalls, hlive⟩ := h.stored
  constructor
  · intro call hcall
    obtain ⟨i, hi⟩ := List.mem_iff_getElem?.mp hcall
    have hok := hcalls i call hi
    have hreturned := finished_iff.mp hfinished call hcall
    cases call with
    | returned accessToken =>
      cases accessToken with
      | none => exact hok.elim
      | some token => exact ⟨token, rfl, hok⟩
    | _ => cases hreturned
  · obtain ⟨rt, hrt, hsid, hunconsumed, -⟩ := hlive (finished_iff.mp hfinished)
    refine ⟨stored, rt, hstored, hrt, hsid, hunconsumed, fun r hr hrsid hr' => ?_⟩
    by_contra hne
    exact h.ready.rows.tokens.oneLive.forall hr (Table.lookup_mem hrt) hne
      ⟨hrsid.trans hsid.symm, hr', hunconsumed⟩

theorem Bad.not_loggedIn (h : Bad env s) : ¬ LoggedIn env now sid s := by
  intro hlogged
  rcases h with ⟨i, call, hcall, hlost⟩ | ⟨i, j, refreshToken, -, hcall, -⟩
  · obtain ⟨token, rfl, -⟩ := hlogged.usable call (List.mem_of_getElem? hcall)
    exact hlost
  · obtain ⟨token, htoken, -⟩ := hlogged.usable _ (List.mem_of_getElem? hcall)
    cases htoken

-- ---------------------------------------------------------------------------
-- What the steps keep
-- ---------------------------------------------------------------------------

/-- Apart from the one call under way, the calls have returned. -/
theorem Inv.others (h : Inv env now decodable sid s) {i j : Nat} {c d : Call}
    (hc : s.calls[i]? = some c) (hway : c.isReturned = false) (hd : s.calls[j]? = some d)
    (hne : j ≠ i) : d.isReturned = true := by
  by_contra hnot
  exact hne (h.single i j c d hc hd hway (by simpa using hnot)).symm

/-- A call that has returned stays as it is when tokens stay accepted. -/
theorem CallOk.returned {db db' : AuthDb} {stored stored' : Stored} {call : Call}
    (h : CallOk env now sid db stored call) (hreturned : call.isReturned = true)
    (hkeep : ∀ token, Usable env now db sid token → Usable env now db' sid token) :
    CallOk env now sid db' stored' call := by
  cases call with
  | returned accessToken =>
    cases accessToken with
    | none => exact h
    | some token => exact hkeep token h
  | _ => cases hreturned

/-- The call under way goes on. -/
theorem Inv.advance (h : Inv env now decodable sid s) {i : Nat} {old new : Call} {db : AuthDb}
    {stored : Stored} (hold : s.calls[i]? = some old) (hway : old.isReturned = false)
    (hready : Ready db sid)
    (hkeep : ∀ token, Usable env now s.db sid token → Usable env now db sid token)
    (haccess : needsRefresh now decodable stored.accessToken = true ∨
      Usable env now db sid stored.accessToken)
    (hnew : CallOk env now sid db stored new)
    (hlive : new.isReturned = true → LiveToken env now db sid stored.refreshToken) :
    Inv env now decodable sid ⟨db, some stored, s.calls.set i new⟩ := by
  obtain ⟨before, -, -, hcalls, -⟩ := h.stored
  have hset : ∀ j, (s.calls.set i new)[j]? = if j = i then some new else s.calls[j]? :=
    fun j => Run.getElem?_set_of_some hold
  have hi : (s.calls.set i new)[i]? = some new := by rw [hset, if_pos rfl]
  refine ⟨hready, ⟨stored, rfl, haccess, fun j call hcall => ?_, fun hall => ?_⟩, ?_⟩
  · rw [hset] at hcall
    split at hcall
    · cases hcall
      exact hnew
    · rename_i hne
      exact (hcalls j call hcall).returned (h.others hold hway hcall hne) hkeep
  · exact hlive (hall new (List.mem_of_getElem? hi))
  · intro j k c d hc hd hcway hdway
    have hat : ∀ {l : Nat} {e : Call}, (s.calls.set i new)[l]? = some e → e.isReturned = false → l = i := by
      intro l e he heway
      rw [hset] at he
      by_contra hne
      rw [if_neg hne] at he
      exact absurd (h.others hold hway he hne) (by simp [heway])
    exact (hat hc hcway).trans (hat hd hdway).symm

theorem Inv.keep (hserves : Serves env) {a : Act} (h : Inv env now decodable sid s)
    (hok : StartsAlone now decodable s a) (hstep : step env now decodable s a = some t) :
    Inv env now decodable sid t := by
  obtain ⟨stored, hstored, haccess, hcalls, hlive⟩ := h.stored
  cases a with
  | start =>
    have hsnoc : ∀ {new : Call} {j : Nat} {call : Call}, (s.calls ++ [new])[j]? = some call →
        s.calls[j]? = some call ∨ (j = s.calls.length ∧ call = new) :=
      Run.getElem?_snoc_eq_some.mp
    simp only [step, hstored] at hstep
    split at hstep <;> cases hstep
    · rename_i hneeds
      have hreturned := hok rfl stored hstored hneeds
      refine ⟨h.ready, ⟨stored, rfl, haccess, fun j call hcall => ?_, fun hall => ?_⟩, ?_⟩
      · rcases hsnoc hcall with hold | ⟨-, rfl⟩
        · exact hcalls j call hold
        · exact ⟨rfl, hlive hreturned⟩
      · have hnew := hall (.sent stored.refreshToken) (List.mem_append_right _ (List.mem_singleton_self _))
        cases hnew
      · intro j k c d hc hd hcway hdway
        have hat : ∀ {l : Nat} {e : Call}, (s.calls ++ [.sent stored.refreshToken])[l]? = some e →
            e.isReturned = false → l = s.calls.length := by
          intro l e he heway
          rcases hsnoc he with hold | ⟨hl, -⟩
          · exact absurd (hreturned e (List.mem_of_getElem? hold)) (by simp [heway])
          · exact hl
        exact (hat hc hcway).trans (hat hd hdway).symm
    · rename_i hneeds
      have husable := haccess.resolve_left hneeds
      refine ⟨h.ready, ⟨stored, rfl, haccess, fun j call hcall => ?_, fun hall => ?_⟩, ?_⟩
      · rcases hsnoc hcall with hold | ⟨-, rfl⟩
        · exact hcalls j call hold
        · exact husable
      · exact hlive fun call hcall => hall call (List.mem_append_left _ hcall)
      · intro j k c d hc hd hcway hdway
        rcases hsnoc hc with hc | ⟨-, rfl⟩
        · rcases hsnoc hd with hd | ⟨-, rfl⟩
          · exact h.single j k c d hc hd hcway hdway
          · cases hdway
        · cases hcway
  | serve i ipAddress draw =>
    simp only [step] at hstep
    split at hstep
    · rename_i refreshToken hcall
      split at hstep <;> cases hstep
      rename_i hfresh
      obtain ⟨rfl, htoken⟩ := hcalls i _ hcall
      obtain ⟨bundle, hbundle⟩ := refresh_live ipAddress hserves h.ready hfresh htoken
      have heffect := Auth.refreshRoute_commits.transaction (Prod.ext hbundle rfl)
      obtain ⟨hready, hnew, husable, hspent⟩ := refreshEffect_ready hserves h.ready htoken heffect
      have hkeep : ∀ token, Usable env now s.db sid token → Usable env now _ sid token :=
        fun token => refreshEffect_usable heffect
      rw [hbundle, hstored]
      exact h.advance hcall rfl hready hkeep (haccess.imp id (hkeep _)) ⟨hspent, hnew, husable⟩ nofun
    · cases hstep
  | receive i =>
    simp only [step] at hstep
    split at hstep <;> cases hstep
    · rename_i hcall
      exact (hcalls i _ hcall).elim
    · rename_i data hcall
      rw [hstored]
      have hdata : CallOk env now sid s.db stored (.answered (some data)) := hcalls i _ hcall
      exact h.advance hcall rfl h.ready (fun _ => id) haccess hdata nofun
  | save i =>
    simp only [step] at hstep
    split at hstep <;> cases hstep
    rename_i data hcall
    obtain ⟨-, hnew, husable⟩ := hcalls i _ hcall
    exact h.advance hcall rfl h.ready (fun _ => id) (.inr husable) husable fun _ => hnew

/-- A refresh that starts while a call is under way sends a token that was sent before. -/
theorem Inv.leave {a : Act} (h : Inv env now decodable sid s)
    (hnot : ¬ StartsAlone now decodable s a) (hstep : step env now decodable s a = some t) :
    Bad env t := by
  obtain ⟨before, hbefore, -, hcalls, -⟩ := h.stored
  simp only [StartsAlone, not_forall] at hnot
  obtain ⟨rfl, stored, hstored, hneeds, call, hmem, hway⟩ := hnot
  cases hbefore.symm.trans hstored
  simp only [step, hstored, hneeds, if_true] at hstep
  cases hstep
  obtain ⟨i, hi⟩ := List.mem_iff_getElem?.mp hmem
  have hok := hcalls i call hi
  have hnew : (s.calls ++ [.sent before.refreshToken])[s.calls.length]? =
      some (.sent before.refreshToken) := Run.getElem?_snoc_eq_some.mpr (.inr ⟨rfl, rfl⟩)
  have hspent : Spent env s.db before.refreshToken → Bad env
      { s with storage := some before, calls := s.calls ++ [.sent before.refreshToken] } :=
    fun hspent => .inl ⟨_, _, hnew, hspent⟩
  cases call with
  | sent refreshToken =>
    obtain ⟨rfl, -⟩ := hok
    obtain ⟨hlt, -⟩ := List.getElem?_eq_some_iff.mp hi
    exact .inr ⟨i, s.calls.length, before.refreshToken, Nat.ne_of_lt hlt,
      Run.getElem?_snoc_eq_some.mpr (.inl hi), hnew⟩
  | answered response =>
    cases response with
    | none => exact hok.elim
    | some data => exact hspent hok.1
  | parsing data => exact hspent hok.1
  | returned accessToken => exact absurd rfl hway

/-- The answer to a refresh is ok and spends its token, or changes nothing. -/
theorem answer_cases (env : AuthEnv) (now : Time) (s : St) (ipAddress : Option String) (draw : AuthDraw) (refreshToken : String) :
    (∃ bundle, (transaction (Auth.refreshRoute env now draw refreshToken ipAddress) s.db).1.toOption =
        some bundle ∧ RefreshEffect env now draw refreshToken ipAddress s.db bundle
          (transaction (Auth.refreshRoute env now draw refreshToken ipAddress) s.db).2) ∨
      ((transaction (Auth.refreshRoute env now draw refreshToken ipAddress) s.db).1.toOption = none ∧
        (transaction (Auth.refreshRoute env now draw refreshToken ipAddress) s.db).2 = s.db) := by
  cases hrun : (transaction (Auth.refreshRoute env now draw refreshToken ipAddress) s.db).1 with
  | ok bundle =>
    exact .inl ⟨bundle, rfl, Auth.refreshRoute_commits.transaction (Prod.ext hrun rfl)⟩
  | error x => exact .inr ⟨rfl, transaction_rollback hrun⟩

theorem spent_of_effect {ipAddress : Option String} {draw : AuthDraw} {refreshToken : String}
    {db db' : AuthDb} {bundle : TokenBundle}
    (h : RefreshEffect env now draw refreshToken ipAddress db bundle db') :
    Spent env db' refreshToken := by
  obtain ⟨rt, hrt, -, hkept, -⟩ := refreshEffect_tokens h
  exact ⟨_, hkept _ rt hrt, fun hnone => (Auth.consume_consumedAt_eq_none.mp hnone).1 rfl⟩

theorem Lost.mono {db db' : AuthDb} {call : Call} (h : Lost env db call)
    (hkeep : ∀ r, Spent env db r → Spent env db' r) : Lost env db' call := by
  cases call with
  | sent refreshToken => exact hkeep refreshToken h
  | answered response | returned response =>
    cases response with
    | none => trivial
    | some data => exact h.elim
  | parsing data => exact h.elim

/-- A call that is lost stays so when another one makes a step. -/
theorem lost_stays {k i : Nat} {old new call : Call} {db : AuthDb} {storage : Option Stored}
    (hk : s.calls[k]? = some old) (hold : ¬ Lost env s.db old) (hcall : s.calls[i]? = some call)
    (hlost : Lost env s.db call) (hkeep : ∀ r, Spent env s.db r → Spent env db r) :
    Bad env ⟨db, storage, s.calls.set k new⟩ := by
  refine .inl ⟨i, call, ?_, hlost.mono hkeep⟩
  rw [Run.getElem?_set_of_some hk, if_neg]
  · exact hcall
  · rintro rfl
    cases hk.symm.trans hcall
    exact hold hlost

/-- A step of a call that is neither lost nor sent does not help the others. -/
theorem Bad.set_settled (h : Bad env s) {k : Nat} {old new : Call} {storage : Option Stored}
    (hk : s.calls[k]? = some old) (hlost : ¬ Lost env s.db old)
    (hsent : ∀ refreshToken, old ≠ .sent refreshToken) :
    Bad env ⟨s.db, storage, s.calls.set k new⟩ := by
  rcases h with ⟨i, call, hcall, hl⟩ | ⟨i, j, refreshToken, hne, hi, hj⟩
  · exact lost_stays hk hlost hcall hl fun r => id
  · have hother : ∀ {l : Nat}, s.calls[l]? = some (.sent refreshToken) →
        (s.calls.set k new)[l]? = some (.sent refreshToken) := by
      intro l hl
      rw [Run.getElem?_set_of_some hk, if_neg]
      · exact hl
      · rintro rfl
        cases hk.symm.trans hl
        exact hsent refreshToken rfl
    exact .inr ⟨i, j, refreshToken, hne, hother hi, hother hj⟩

/-- Of two calls with the same token, the one that is answered first loses the other. -/
theorem Bad.serve (h : Bad env s) {k : Nat} {refreshToken : String} {ipAddress : Option String}
    {draw : AuthDraw} (hk : s.calls[k]? = some (.sent refreshToken)) :
    Bad env ⟨(transaction (Auth.refreshRoute env now draw refreshToken ipAddress) s.db).2, s.storage,
      s.calls.set k (.answered
        (transaction (Auth.refreshRoute env now draw refreshToken ipAddress) s.db).1.toOption)⟩ := by
  rcases answer_cases env now s ipAddress draw refreshToken with ⟨bundle, -, heffect⟩ | ⟨hnone, -⟩
  · have hkeep := fun r => refreshEffect_spent r heffect
    have hunspent : ¬ Lost env s.db (.sent refreshToken) := by
      rintro ⟨rt, hrt, hconsumed⟩
      obtain ⟨rt', hrt', hlive, -⟩ := refreshEffect_tokens heffect
      cases hrt.symm.trans hrt'
      exact hconsumed hlive
    have hother : ∀ {l : Nat} {r : String} {new : Call}, l ≠ k → s.calls[l]? = some (.sent r) →
        (s.calls.set k new)[l]? = some (.sent r) := by
      intro l r new hne hl
      rw [Run.getElem?_set_of_some hk, if_neg hne]
      exact hl
    rcases h with ⟨i, call, hcall, hl⟩ | ⟨i, j, r, hne, hi, hj⟩
    · exact lost_stays hk hunspent hcall hl hkeep
    · by_cases hik : i = k
      · subst hik
        cases hk.symm.trans hi
        exact .inl ⟨j, _, hother hne.symm hj, spent_of_effect heffect⟩
      · by_cases hjk : j = k
        · subst hjk
          cases hk.symm.trans hj
          exact .inl ⟨i, _, hother hne hi, spent_of_effect heffect⟩
        · exact .inr ⟨i, j, r, hne, hother hik hi, hother hjk hj⟩
  · rw [hnone]
    exact .inl ⟨k, .answered none, by rw [Run.getElem?_set_of_some hk, if_pos rfl], trivial⟩

/-- What is lost stays lost. -/
theorem Bad.stays {a : Act} (h : Bad env s) (hstep : step env now decodable s a = some t) :
    Bad env t := by
  cases a with
  | start =>
    -- the calls so far are still there
    have hkeep : t.db = s.db ∧ ∃ new, t.calls = s.calls ++ [new] := by
      simp only [step] at hstep
      split at hstep
      · cases hstep
        exact ⟨rfl, _, rfl⟩
      · split at hstep <;> cases hstep <;> exact ⟨rfl, _, rfl⟩
    obtain ⟨hdb, new, hcalls⟩ := hkeep
    have hat : ∀ {i : Nat} {call : Call}, s.calls[i]? = some call → t.calls[i]? = some call := by
      intro i call hcall
      rw [hcalls]
      exact Run.getElem?_snoc_eq_some.mpr (.inl hcall)
    rcases h with ⟨i, call, hcall, hlost⟩ | ⟨i, j, refreshToken, hne, hi, hj⟩
    · exact .inl ⟨i, call, hat hcall, hdb ▸ hlost⟩
    · exact .inr ⟨i, j, refreshToken, hne, hat hi, hat hj⟩
  | serve k ipAddress draw =>
    simp only [step] at hstep
    split at hstep
    · rename_i refreshToken hk
      split at hstep <;> cases hstep
      exact h.serve hk
    · cases hstep
  | receive k =>
    simp only [step] at hstep
    split at hstep <;> cases hstep
    · rename_i hk
      exact .inl ⟨k, .returned none, by rw [Run.getElem?_set_of_some hk, if_pos rfl], trivial⟩
    · rename_i data hk
      exact h.set_settled hk nofun nofun
  | save k =>
    simp only [step] at hstep
    split at hstep <;> cases hstep
    rename_i data hk
    exact h.set_settled hk nofun nofun

-- ---------------------------------------------------------------------------
-- The client does not log itself out
-- ---------------------------------------------------------------------------

theorem inv_init {db : AuthDb} {stored : Stored} (hready : Ready db sid)
    (hlive : LiveToken env now db sid stored.refreshToken)
    (hneeds : needsRefresh now decodable stored.accessToken = true) :
    Inv env now decodable sid (init db stored) where
  ready := hready
  stored := ⟨stored, rfl, .inl hneeds, fun i call hcall => by simp [init] at hcall, fun _ => hlive⟩
  single := fun i j c d hc => by simp [init] at hc

/-- In every interleaving of the calls, after any requests, the client keeps its
    session exactly when every call that refreshes starts after the earlier ones
    have returned. -/
theorem loggedIn_iff (env : AuthEnv) (start now : Time) (decodable : AccessToken → Bool)
    (requests : List Auth.Act) (sid : String) (stored : Stored) (as : List Act) (t : St)
    (hserves : Serves env)
    (hsession : SessionLive (Auth.run env ⟨AuthDb.empty, start⟩ requests).db sid)
    (hlive : LiveToken env now (Auth.run env ⟨AuthDb.empty, start⟩ requests).db sid
      stored.refreshToken)
    (hneeds : needsRefresh now decodable stored.accessToken = true)
    (hrun : Run.exec (step env now decodable)
      (init (Auth.run env ⟨AuthDb.empty, start⟩ requests).db stored) as = some t)
    (hfinished : t.finished = true) :
    LoggedIn env now sid t ↔
      Run.Guarded (step env now decodable) (StartsAlone now decodable)
        (init (Auth.run env ⟨AuthDb.empty, start⟩ requests).db stored) as := by
  have hready : Ready (Auth.run env ⟨AuthDb.empty, start⟩ requests).db sid :=
    ⟨Auth.run_dbOk requests Auth.dbOk_empty,
      (Auth.run_keepsIdentity env _ requests).ok Auth.identitiesOk_empty, hsession⟩
  have hdecided := Run.guarded_or_bad (Inv env now decodable sid) (Bad env)
    (fun h hok hstep => h.keep hserves hok hstep) (fun h hnot hstep => h.leave hnot hstep)
    (fun h hstep => h.stays hstep) (inv_init hready hlive hneeds) hrun
  rcases hdecided with ⟨hguarded, hinv⟩ | ⟨hnot, hbad⟩
  · exact ⟨fun _ => hguarded, fun _ => hinv.loggedIn hfinished⟩
  · exact ⟨fun hlogged => absurd hlogged hbad.not_loggedIn, fun hguarded => absurd hguarded hnot⟩

end

/-- `StartsAlone`, computed. -/
def startsAlone (s : St) : Act → Bool
  | .start => s.calls.all Call.isReturned
  | _ => true

theorem startsAlone_sound (now : Time) (decodable : AccessToken → Bool) (s : St) (a : Act)
    (h : startsAlone s a = true) : StartsAlone now decodable s a := by
  rintro rfl - - -
  exact List.all_eq_true.mp h

/-- The session of a login, a quarter of an hour later. -/
def expiring : Stored :=
  ⟨Auth.loggedInToken, "rt_1_1", ⟨"usr_0", Auth.defaultTenantId, "ana@fund.com"⟩⟩

/-- Two calls, one after the other. -/
def inTurn : List Act :=
  [.start, .serve 0 none (Auth.toyDraw "2"), .receive 0, .save 0, .start]

/-- Both calls start before the first answer is there. -/
def bothAtOnce : List Act :=
  [.start, .start, .serve 0 none (Auth.toyDraw "2"), .serve 1 none (Auth.toyDraw "3"), .receive 0,
    .save 0, .receive 1]

theorem toyEnv_serves : Serves Auth.toyEnv := ⟨⟨_, rfl⟩, by decide, by decide⟩

theorem loggedIn_iff_in_turn :
    ∃ t, Run.exec (step Auth.toyEnv (Time.seconds 900) fun _ => true)
        (init (Auth.run Auth.toyEnv ⟨AuthDb.empty, 0⟩ Auth.loggedIn).db expiring) inTurn = some t ∧
      LoggedIn Auth.toyEnv (Time.seconds 900) "sess_1" t := by
  have hsome : (Run.exec (step Auth.toyEnv (Time.seconds 900) fun _ => true)
      (init (Auth.run Auth.toyEnv ⟨AuthDb.empty, 0⟩ Auth.loggedIn).db expiring) inTurn).any
        St.finished = true := by decide +kernel
  obtain ⟨t, ht, hfinished⟩ := (Option.any_eq_true _ _).mp hsome
  exact ⟨t, ht, (loggedIn_iff Auth.toyEnv 0 (Time.seconds 900) (fun _ => true) Auth.loggedIn "sess_1"
    expiring inTurn t toyEnv_serves (by decide +kernel) (by decide +kernel) (by decide +kernel) ht
    hfinished).mpr (Run.guarded_of_checks _ (startsAlone_sound _ _) (by decide +kernel))⟩

/-- Two concurrent calls log the client out. -/
theorem concurrent_refresh_logs_out :
    ¬ ∀ (env : AuthEnv) (start now : Time) (decodable : AccessToken → Bool)
        (requests : List Auth.Act) (sid : String) (stored : Stored) (as : List Act) (t : St),
      Serves env → SessionLive (Auth.run env ⟨AuthDb.empty, start⟩ requests).db sid →
      LiveToken env now (Auth.run env ⟨AuthDb.empty, start⟩ requests).db sid stored.refreshToken →
      needsRefresh now decodable stored.accessToken = true →
      Run.exec (step env now decodable)
        (init (Auth.run env ⟨AuthDb.empty, start⟩ requests).db stored) as = some t →
      t.finished = true → LoggedIn env now sid t := by
  intro h
  have hrun : (Run.exec (step Auth.toyEnv (Time.seconds 900) fun _ => true)
      (init (Auth.run Auth.toyEnv ⟨AuthDb.empty, 0⟩ Auth.loggedIn).db expiring) bothAtOnce).any
        (fun t => t.finished && t.storage.isNone) = true := by decide +kernel
  obtain ⟨t, ht, hfacts⟩ := (Option.any_eq_true _ _).mp hrun
  obtain ⟨hfinished, hcleared⟩ := Bool.and_eq_true_iff.mp hfacts
  obtain ⟨stored, rt, hstored, -⟩ := (h Auth.toyEnv 0 (Time.seconds 900) (fun _ => true)
    Auth.loggedIn "sess_1" expiring bothAtOnce t toyEnv_serves (by decide +kernel) (by decide +kernel)
    (by decide +kernel) ht hfinished).newest
  rw [hstored] at hcleared
  cases hcleared

end AuthClient
