-- SUMMARY: What each auth request commits when it returns, as one relation between the database before and after.
import DealScreening.Auth.Routes

/-!
# Effects of auth requests

One relation for each function says everything it does to the database when it
returns. A request that raises does nothing to it, so these relations are all
that proofs about runs need to know of the service.
-/

namespace Auth

open Session

section
variable (env : AuthEnv) (now : Time) (draw : AuthDraw)

/-- The user exists, may log in with this password, and gets a session with its
    first tokens. -/
def LoginEffect (email password : String) (ipAddress userAgent : Option String) (db : AuthDb)
    (bundle : TokenBundle) (db' : AuthDb) : Prop :=
  ∃ user accessToken db₁ db₂,
    let session := newSession draw user ipAddress userAgent
    db.userByEmail (env.normalizeEmail email) = some user ∧ user.isActive = true ∧
    env.passwords.verify password user.passwordHash = true ∧
    db.insertSession session = some db₁ ∧
    db₁.insertRefreshToken (newRefreshToken env now draw session.sessionId none) = some db₂ ∧
    accessTokenFor env now user session.sessionId = some accessToken ∧
    db₂.insertAudit (auditEntry draw .loginSuccess (some user.userId) (some user.tenantId)
      (some session.sessionId) ipAddress userAgent none) = some db' ∧
    bundle = tokenBundle env user accessToken (generateRefreshToken env draw).1

/-- The token passes every check and is exchanged for a child. -/
def RefreshEffect (refreshToken : String) (ipAddress : Option String) (db : AuthDb)
    (bundle : TokenBundle) (db' : AuthDb) : Prop :=
  ∃ rt session user accessToken db₁,
    db.tokenByHash (env.sha256 refreshToken) = some rt ∧ db.session rt.sessionId = some session ∧
    rt.consumedAt = none ∧ session.revokedAt = none ∧ ¬ rt.expiresAt < now ∧
    (db.updateRefreshToken rt.tokenId (consumed now ipAddress)).insertRefreshToken
      (newRefreshToken env now draw session.sessionId (some rt.tokenId)) = some db₁ ∧
    db₁.userById session.userId = some user ∧
    accessTokenFor env now user session.sessionId = some accessToken ∧
    db₁.insertAudit (auditEntry draw .refresh (some user.userId) (some user.tenantId)
      (some session.sessionId) ipAddress none none) = some db' ∧
    bundle = tokenBundle env user accessToken (generateRefreshToken env draw).1

/-- The token is unknown or its session already revoked, and nothing happens; or
    the session is revoked. -/
def LogoutEffect (refreshToken : String) (db db' : AuthDb) : Prop :=
  db' = db ∨
  ∃ rt session,
    db.tokenByHash (env.sha256 refreshToken) = some rt ∧ db.session rt.sessionId = some session ∧
    session.revokedAt = none ∧
    (db.updateSession session.sessionId (revoked now "logout")).insertAudit
      (auditEntry draw .logout (some session.userId) (some session.tenantId)
        (some session.sessionId) none none none) = some db'

/-- The sessions are revoked one after the other, each with an audit row. -/
inductive RevokeEffect (reason : String) : List AuthSession → List String → AuthDb → AuthDb → Prop
  | nil {auditHexes : List String} {db : AuthDb} : RevokeEffect reason [] auditHexes db db
  | cons {session : AuthSession} {sessions : List AuthSession} {auditHexes : List String}
      {db db₁ db' : AuthDb}
      (hrevoked : (db.updateSession session.sessionId (revoked now reason)).insertAudit
        (auditEntry { draw with auditHex := auditHexes.headD "" } .revoked (some session.userId)
          (some session.tenantId) (some session.sessionId) none none (some ("reason", reason))) =
        some db₁)
      (hrest : RevokeEffect reason sessions auditHexes.tail db₁ db') :
    RevokeEffect reason (session :: sessions) auditHexes db db'

/-- The sessions of a user that are not revoked. -/
def liveSessions (userId : String) (db : AuthDb) : List AuthSession :=
  db.sessions.filter fun session => session.userId = userId ∧ session.revokedAt = none

end

-- ---------------------------------------------------------------------------
-- The functions of the service
-- ---------------------------------------------------------------------------

section
variable {env : AuthEnv} {now : Time} {draw : AuthDraw}

theorem createUser_commits {tenantId email password : String} :
    Commits (createUser env now draw tenantId email password) fun db user db' =>
      user = newUser env now draw tenantId email password ∧ db.insertUser user = some db' := by
  refine Commits.bind commits_write fun _ => Commits.bind commits_flush fun _ => commits_pure ?_
  rintro db' _ rfl db hinsert
  exact ⟨rfl, hinsert⟩

theorem createSessionAndTokens_commits {user : User} {ipAddress userAgent : Option String} :
    Commits (createSessionAndTokens env now draw user ipAddress userAgent) fun db r db' =>
      ∃ db₁,
        let session := newSession draw user ipAddress userAgent
        db.insertSession session = some db₁ ∧
        db₁.insertRefreshToken (newRefreshToken env now draw session.sessionId none) = some db' ∧
        accessTokenFor env now user session.sessionId = some r.2.1 ∧
        r.1 = session.sessionId ∧ r.2.2 = (generateRefreshToken env draw).1 := by
  refine Commits.bind commits_write fun _ => Commits.bind commits_flush fun _ => ?_
  refine Commits.bind commits_write fun _ => ?_
  split
  · exact commits_raise
  · rename_i accessToken hissue
    refine commits_pure ?_
    rintro db' db₁ htoken _ rfl db hsession
    exact ⟨_, hsession, htoken, hissue, rfl, rfl⟩

theorem login_commits {email password : String} {ipAddress userAgent : Option String} :
    Commits (login env now draw email password ipAddress userAgent)
      (LoginEffect env now draw email password ipAddress userAgent) := by
  refine Commits.bind commits_select fun found => ?_
  cases found with
  | none => exact Commits.bind commits_write fun _ => commits_raise
  | some user =>
    dsimp only
    split
    · exact Commits.bind commits_write fun _ => commits_raise
    · rename_i hactive
      split
      · exact Commits.bind commits_write fun _ => commits_raise
      · rename_i hpassword
        refine Commits.bind createSessionAndTokens_commits fun r => ?_
        refine Commits.bind commits_write fun _ => commits_pure ?_
        rintro db' db₂ haudit _ ⟨db₁, hsession, htoken, hissue, hid, hvalue⟩ db ⟨huser, rfl⟩
        rw [hid] at haudit
        rw [hvalue]
        exact ⟨user, r.2.1, db₁, db₂, huser.symm, by simpa using hactive, by simpa using hpassword,
          hsession, htoken, hissue, haudit, rfl⟩

theorem exchange_commits {rt : RefreshToken} {session : AuthSession} {ipAddress : Option String} :
    Commits (exchange env now draw rt session ipAddress) fun db bundle db' =>
      ∃ user accessToken db₁,
        (db.updateRefreshToken rt.tokenId (consumed now ipAddress)).insertRefreshToken
          (newRefreshToken env now draw session.sessionId (some rt.tokenId)) = some db₁ ∧
        db₁.userById session.userId = some user ∧
        accessTokenFor env now user session.sessionId = some accessToken ∧
        db₁.insertAudit (auditEntry draw .refresh (some user.userId) (some user.tenantId)
          (some session.sessionId) ipAddress none none) = some db' ∧
        bundle = tokenBundle env user accessToken (generateRefreshToken env draw).1 := by
  refine Commits.bind commits_update fun _ => Commits.bind commits_write fun _ => ?_
  refine Commits.bind commits_select fun found => ?_
  cases found with
  | none => exact commits_raise
  | some user =>
    dsimp only
    split
    · exact commits_raise
    · rename_i accessToken hissue
      refine Commits.bind commits_write fun _ => commits_pure ?_
      rintro db' _ haudit _ ⟨huser, rfl⟩ _ hinsert db rfl
      exact ⟨user, accessToken, _, hinsert, huser.symm, hissue, haudit, rfl⟩

theorem revokeSession_commits {session : AuthSession} {reason : String} :
    Commits (revokeSession now session reason) fun db _ db' =>
      db' = db.updateSession session.sessionId (revoked now reason) := by
  refine Commits.bind commits_update fun _ => commits_flush.weaken ?_
  rintro _ _ db' rfl db rfl
  rfl

theorem refresh_commits {refreshToken : String} {ipAddress : Option String} :
    Commits (refresh env now draw refreshToken ipAddress)
      (RefreshEffect env now draw refreshToken ipAddress) := by
  refine Commits.bind commits_select fun found => ?_
  cases found with
  | none => exact commits_raise
  | some rt =>
    refine Commits.bind commits_select fun found => ?_
    cases found with
    | none => exact commits_raise
    | some session =>
      dsimp only
      split
      · split
        · refine Commits.bind revokeSession_commits fun _ => ?_
          exact Commits.bind commits_write fun _ => commits_raise
        · exact Commits.bind commits_write fun _ => commits_raise
      · rename_i hlive
        split
        · exact Commits.bind commits_write fun _ => commits_raise
        · rename_i hsession
          split
          · exact commits_raise
          · rename_i hexpired
            refine exchange_commits.weaken ?_
            rintro _ bundle db' ⟨user, accessToken, db₁, hinsert, huser, hissue, haudit, rfl⟩ _
              ⟨hfound, rfl⟩ db ⟨hrt, rfl⟩
            exact ⟨rt, session, user, accessToken, db₁, hrt.symm, hfound.symm, not_not.mp hlive,
              not_not.mp hsession, hexpired, hinsert, huser, hissue, haudit, rfl⟩

theorem logout_commits {refreshToken : String} :
    Commits (logout env now draw refreshToken) fun db _ db' =>
      LogoutEffect env now draw refreshToken db db' := by
  refine Commits.bind commits_select fun found => ?_
  cases found with
  | none =>
    refine commits_pure ?_
    rintro _ db ⟨_, rfl⟩
    exact .inl rfl
  | some rt =>
    refine Commits.bind commits_select fun found => ?_
    cases found with
    | none =>
      refine commits_pure ?_
      rintro _ _ ⟨_, rfl⟩ db ⟨_, rfl⟩
      exact .inl rfl
    | some session =>
      dsimp only
      split
      · rename_i hlive
        refine Commits.bind revokeSession_commits fun _ => commits_write.weaken ?_
        rintro _ _ db' haudit _ rfl _ ⟨hfound, rfl⟩ db ⟨hrt, rfl⟩
        exact .inr ⟨rt, session, hrt.symm, hfound.symm, hlive, haudit⟩
      · refine commits_pure ?_
        rintro _ _ ⟨_, rfl⟩ db ⟨_, rfl⟩
        exact .inl rfl

theorem revokeEach_commits {reason : String} {sessions : List AuthSession}
    {auditHexes : List String} :
    Commits (revokeEach now draw reason sessions auditHexes) fun db _ db' =>
      RevokeEffect now draw reason sessions auditHexes db db' := by
  induction sessions generalizing auditHexes with
  | nil => exact commits_pure fun _ => .nil
  | cons session sessions ih =>
    refine Commits.bind commits_update fun _ => Commits.bind commits_write fun _ => ih.weaken ?_
    rintro db₁ _ db' hrest _ haudit db rfl
    exact .cons haudit hrest

theorem revokeUserSessions_commits {userId reason : String} {auditHexes : List String} :
    Commits (revokeUserSessions now draw userId reason auditHexes) fun db count db' =>
      count = (liveSessions userId db).length ∧
        RevokeEffect now draw reason (liveSessions userId db) auditHexes db db' := by
  refine Commits.bind commits_select fun sessions => Commits.bind revokeEach_commits fun _ => ?_
  split
  · refine Commits.bind commits_flush fun _ => commits_pure ?_
    rintro _ db' rfl _ hrevoke db ⟨rfl, rfl⟩
    exact ⟨rfl, hrevoke⟩
  · refine commits_pure ?_
    rintro _ db' hrevoke db ⟨rfl, rfl⟩
    exact ⟨rfl, hrevoke⟩

theorem changePassword_commits {userId newPassword : String} {auditHexes : List String} :
    Commits (changePassword env now draw userId newPassword auditHexes) fun db _ db' =>
      let db₁ := db.updateUser userId (repassworded env now draw newPassword)
      (∃ user, db.userById userId = some user) ∧
        RevokeEffect now draw "password_change" (liveSessions userId db₁) auditHexes db₁ db' := by
  refine Commits.bind commits_select fun found => ?_
  cases found with
  | none => exact commits_raise
  | some user =>
    refine Commits.bind commits_update fun _ => ?_
    refine Commits.bind revokeUserSessions_commits fun _ => commits_pure ?_
    rintro db' _ ⟨_, hrevoke⟩ _ rfl db ⟨huser, rfl⟩
    exact ⟨⟨user, huser.symm⟩, hrevoke⟩

theorem requireAuth_commits {authorization : Authorization} :
    Commits (requireAuth env now authorization) fun db context db' =>
      db' = db ∧ ∃ token session, authorization = .bearer token ∧
        verifyAccessToken env.ring now token = .ok token.claims ∧
        db.session token.claims.sid = some session ∧ session.revokedAt = none ∧
        context = { userId := token.claims.sub, tenantId := token.claims.tnt,
                    sessionId := token.claims.sid, roles := token.claims.roles } := by
  cases authorization with
  | missing | undecodable => exact commits_raise
  | bearer token =>
    unfold requireAuth
    dsimp only
    split
    · exact commits_raise
    · exact commits_raise
    · rename_i claims hclaims
      obtain rfl := verifyAccessToken_claims hclaims
      refine Commits.bind commits_select fun found => ?_
      cases found with
      | none => exact commits_raise
      | some session =>
        dsimp only
        split
        · exact commits_raise
        · rename_i hlive
          refine commits_pure ?_
          rintro _ db ⟨hfound, rfl⟩
          exact ⟨rfl, token, session, rfl, hclaims, hfound.symm, not_not.mp hlive, rfl⟩

-- ---------------------------------------------------------------------------
-- The routes
-- ---------------------------------------------------------------------------

theorem raises_rethrow {α : Type} (caught : List AuthExn) (x : Exn AuthExn)
    (s : SessionState AuthDb) : Raises (rethrow401 caught x : AuthM α) s := by
  cases x with
  | raised exc =>
    unfold rethrow401
    dsimp only
    split
    · split
      · exact raises_raise _
      · exact raises_throw _
    · exact raises_throw _
  | flushFailed | pendingRollback => exact raises_throw _

theorem registerRoute_commits {email password : String} {ipAddress userAgent : Option String} :
    Commits (registerRoute env now draw email password ipAddress userAgent) fun db bundle db' =>
      ∃ db₁, db.userByEmail email = none ∧
        db.insertUser (newUser env now draw defaultTenantId email password) = some db₁ ∧
        LoginEffect env now draw email password ipAddress userAgent db₁ bundle db' := by
  refine Commits.bind commits_select fun found => ?_
  cases found with
  | some user => exact commits_raise
  | none =>
    refine Commits.bind createUser_commits fun user => login_commits.weaken ?_
    rintro db₁ bundle db' hlogin _ ⟨rfl, hinsert⟩ db ⟨hnone, rfl⟩
    exact ⟨db₁, hnone.symm, hinsert, hlogin⟩

theorem loginRoute_commits {email password : String} {ipAddress userAgent : Option String} :
    Commits (loginRoute env now draw email password ipAddress userAgent)
      (LoginEffect env now draw email password ipAddress userAgent) :=
  login_commits.tryCatch (raises_rethrow _)

theorem refreshRoute_commits {refreshToken : String} {ipAddress : Option String} :
    Commits (refreshRoute env now draw refreshToken ipAddress)
      (RefreshEffect env now draw refreshToken ipAddress) :=
  refresh_commits.tryCatch (raises_rethrow _)

theorem logoutRoute_commits {authorization : Authorization} {refreshToken : String} :
    Commits (logoutRoute env now draw authorization refreshToken) fun db _ db' =>
      LogoutEffect env now draw refreshToken db db' := by
  refine Commits.bind requireAuth_commits fun context => logout_commits.weaken ?_
  rintro _ _ db' hlogout db ⟨rfl, _⟩
  exact hlogout

end

end Auth
