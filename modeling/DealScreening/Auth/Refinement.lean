-- SUMMARY: The tables of the auth service implement the ideal session manager: in every serial run with fresh draws, every request does to it and is granted by it what the ideal one says.
import DealScreening.Auth.SessionManager
import DealScreening.Auth.TokenChain

/-!
# The auth service is a session manager

The service keeps every token that was ever given out, and tells the one that is good from the
others by the times at which they were consumed. Read as a session manager the tables hold of
each session only the last token of its chain. The draws of a request have to be fresh, as
those of `uuid4` and `token_urlsafe` are: a collision fails a flush and with it the request.
-/

namespace Auth

open Session

-- ---------------------------------------------------------------------------
-- The tables as a session manager
-- ---------------------------------------------------------------------------

section
variable (env : AuthEnv) (now : Time)

def account (user : User) : Account where
  userId := user.userId
  tenantId := user.tenantId
  active := user.isActive
  opens password := env.passwords.verify password user.passwordHash

def renewal (rt : RefreshToken) : Renewal Time := ⟨rt.tokenHash, rt.expiresAt⟩

/-- The last token of the session renews it. -/
def grant (db : AuthDb) (session : AuthSession) : Grant Time where
  userId := session.userId
  tenantId := session.tenantId
  live := session.revokedAt.isNone
  renewal := (tokensOf db session.sessionId).getLast?.map renewal

def manager (db : AuthDb) : SessionManager Time where
  accounts email := (db.userByEmail email).map (account env)
  sessions sessionId := (db.session sessionId).map (grant db)
  givenFor fingerprint := (db.tokenByHash fingerprint).map RefreshToken.sessionId

def granted (bundle : TokenBundle) : Granted :=
  ⟨bundle.accessToken.claims.sid, bundle.userId, bundle.tenantId, env.sha256 bundle.refreshToken⟩

/-- The token that a request gives out. -/
def newRenewal (draw : AuthDraw) : Renewal Time :=
  ⟨(generateRefreshToken env draw).2, now + Time.seconds env.config.refreshTtlS⟩

/-- The caller has a token of a live session. -/
def admits (m : SessionManager Time) : Authorization → Bool
  | .missing | .undecodable => false
  | .bearer token =>
    match verifyAccessToken env.ring now token with
    | .ok claims => (m.sessions claims.sid).any Grant.live
    | .error _ => false

/-- What a request does to the session manager, and what it is granted. -/
def ideal (m : SessionManager Time) : Act → SessionManager Time × Option Granted
  | .register email password _ _ draw =>
    m.register email (env.normalizeEmail email) password (prefixedId "sess" draw.sessionHex)
      (account env (newUser env now draw defaultTenantId email password)) (newRenewal env now draw)
  | .login email password _ _ draw =>
    m.login (env.normalizeEmail email) password (prefixedId "sess" draw.sessionHex)
      (newRenewal env now draw)
  | .refresh refreshToken _ draw => m.refresh now (env.sha256 refreshToken) (newRenewal env now draw)
  | .logout authorization refreshToken _ =>
    (if admits env now m authorization then m.logout (env.sha256 refreshToken) else m, none)
  | .createUser tenantId email password draw =>
    (if (m.accounts (env.normalizeEmail email)).isSome then m
      else m.addAccount (env.normalizeEmail email)
        (account env (newUser env now draw tenantId email password)), none)
  | .revokeUserSessions userId _ _ _ => (m.endSessions fun _ grant => grant.userId = userId, none)
  | .changePassword userId newPassword _ draw =>
    ((m.reopen userId fun password =>
        env.passwords.verify password (env.passwords.hash draw.salt newPassword)).endSessions
      fun _ grant => grant.userId = userId, none)
  | .advance _ => (m, none)

end

def SessionIdsOk (db : AuthDb) : Prop :=
  db.sessions.Pairwise fun s s' => s.sessionId ≠ s'.sessionId

/-- What requests keep of the tables. -/
structure Sound (db : AuthDb) : Prop where
  tokens : DbOk db
  chains : ChainsOk db
  identities : IdentitiesOk db
  sessionIds : SessionIdsOk db

-- ---------------------------------------------------------------------------
-- What each write does to the session manager
-- ---------------------------------------------------------------------------

section
variable {env : AuthEnv} {now : Time} {draw : AuthDraw} {db db' : AuthDb}

theorem manager_insertAudit {entry : AuthAuditLog} (h : db.insertAudit entry = some db') :
    manager env db' = manager env db := by
  rw [AuthDb.insertAudit_eq_some h]
  rfl

theorem insertUser_free {user : User} (h : db.insertUser user = some db') :
    db.userByEmail user.email = none := by
  unfold AuthDb.insertUser at h
  split at h
  · rename_i hfree
    exact Option.isNone_iff_eq_none.mp hfree.2
  · cases h

theorem manager_insertUser {user : User} (h : db.insertUser user = some db') :
    manager env db' = (manager env db).addAccount user.email (account env user) := by
  have hfresh := insertUser_free h
  rw [AuthDb.insertUser_eq_some h]
  refine congrArg (fun accounts => { manager env db with accounts }) (funext fun email => ?_)
  unfold AuthDb.userByEmail
  rw [Table.lookup_insert hfresh, Function.update_apply]
  split <;> rfl

theorem manager_revoked {id reason : String} :
    manager env (db.updateSession id (revoked now reason)) =
      (manager env db).endSessions fun sessionId _ => sessionId = id := by
  have hkey : ∀ session, (revoked now reason session).sessionId = session.sessionId := fun _ => rfl
  refine congrArg (fun sessions => { manager env db with sessions }) (funext fun sessionId => ?_)
  show (Table.lookup _ (Table.modify _ _ _ _) _).map _ = ((db.session sessionId).map (grant db)).map _
  rw [Table.lookup_modify hkey, Option.map_map]
  by_cases hid : sessionId = id
  · subst hid
    rw [if_pos rfl, Option.map_map]
    refine congrArg (Option.map · (db.session sessionId)) (funext fun session => ?_)
    simp [grant, revoked, tokensOf, AuthDb.updateSession]
    rfl
  · rw [if_neg hid]
    refine congrArg (Option.map · (db.session sessionId)) (funext fun session => ?_)
    simp [hid, grant, tokensOf, AuthDb.updateSession]

theorem manager_repassworded {userId newPassword : String} :
    manager env (db.updateUser userId (repassworded env now draw newPassword)) =
      (manager env db).reopen userId fun password =>
        env.passwords.verify password (env.passwords.hash draw.salt newPassword) := by
  refine congrArg (fun accounts => { manager env db with accounts }) (funext fun email => ?_)
  have hkey : ∀ user : User, (if user.userId = userId then repassworded env now draw newPassword user
      else user).email = user.email := fun user => by split <;> rfl
  show (Table.lookup _ (Table.modify _ _ _ _) _).map _ = _
  rw [Table.modify, Table.lookup_map hkey, Option.map_map]
  show _ = ((Table.lookup User.email db.users email).map (account env)).map _
  rw [Option.map_map]
  refine congrArg (Option.map · _) (funext fun user => ?_)
  simp only [Function.comp]
  by_cases huser : user.userId = userId
  · simp [huser, account, repassworded]
  · simp [huser, account]

/-- A token is given out for a session that is new or was there. -/
theorem manager_give {session : AuthSession} {rt : RefreshToken} (husers : db'.users = db.users)
    (hsession : ∀ id, db'.session id = if id = session.sessionId then some session else db.session id)
    (hlive : session.revokedAt = none)
    (hlast : (tokensOf db' session.sessionId).getLast? = some rt)
    (hothers : ∀ id ≠ session.sessionId, (tokensOf db' id).getLast?.map renewal =
      (tokensOf db id).getLast?.map renewal)
    (hgiven : ∀ hash, (db'.tokenByHash hash).map RefreshToken.sessionId =
      if hash = rt.tokenHash then some session.sessionId
      else (db.tokenByHash hash).map RefreshToken.sessionId) {old : Option (Renewal Time)} :
    manager env db' = (manager env db).give session.sessionId
      ⟨session.userId, session.tenantId, true, old⟩ (renewal rt) := by
  unfold manager SessionManager.give
  congr 1
  · funext email
    rw [AuthDb.userByEmail, husers]
    rfl
  · funext id
    rw [hsession, Function.update_apply]
    split
    · simp [grant, hlive, hlast]
    · rename_i hid
      dsimp only
      cases hfound : db.session id with
      | none => rfl
      | some other =>
        have hkey : other.sessionId = id := Table.lookup_key hfound
        simp only [Option.map_some, grant, hkey, hothers id hid]
  · funext hash
    rw [hgiven, Function.update_apply]
    rfl

theorem getLast?_tokensOf_append {rows : List RefreshToken} {rt : RefreshToken} {id : String}
    (h : db'.refreshTokens = rows ++ [rt]) (hid : rt.sessionId = id) :
    (tokensOf db' id).getLast? = some rt := by
  simp [tokensOf, h, hid]

theorem tokensOf_append_of_ne {rows : List RefreshToken} {rt : RefreshToken} {id : String}
    (h : db'.refreshTokens = rows ++ [rt]) (hid : id ≠ rt.sessionId) :
    tokensOf db' id = rows.filter fun r => r.sessionId = id := by
  simp [tokensOf, h, hid.symm]

@[simp] theorem renewal_consume {tokenId : String} {ipAddress : Option String} :
    renewal ∘ consume tokenId now ipAddress = renewal := by
  funext rt
  simp only [Function.comp, consume]
  split <;> rfl

theorem LoginEffect.refines {email password : String} {ipAddress userAgent : Option String}
    {bundle : TokenBundle}
    (h : LoginEffect env now draw email password ipAddress userAgent db bundle db') :
    (manager env db).login (env.normalizeEmail email) password
        (prefixedId "sess" draw.sessionHex) (newRenewal env now draw) =
      (manager env db', some (granted env bundle)) := by
  obtain ⟨user, accessToken, db₁, db₂, huser, hactive, hpassword, hsession, htoken, hissue, haudit,
    rfl⟩ := h
  have hadmitted : (manager env db).admitted (env.normalizeEmail email) password =
      some (account env user) := by
    simp [SessionManager.admitted, manager, huser, account, hactive, hpassword]
  obtain ⟨-, -, hsid⟩ := accessTokenFor_claims hissue
  obtain ⟨rfl, hnew⟩ := AuthDb.insertSession_eq_some hsession
  obtain ⟨rfl, hfresh⟩ := AuthDb.insertRefreshToken_eq_some htoken
  rw [manager_insertAudit haudit, SessionManager.login, hadmitted]
  dsimp only
  refine Prod.ext ?_ ?_
  · refine (@manager_give env db _ (newSession draw user ipAddress userAgent)
      (newRefreshToken env now draw (newSession draw user ipAddress userAgent).sessionId none)
      ?_ ?_ rfl ?_ ?_ ?_ none).symm
    · rfl
    · exact fun id => Table.lookup_insert (Table.lookup_eq_none.mpr hnew)
    · exact getLast?_tokensOf_append rfl rfl
    · intro id hid
      rw [tokensOf_append_of_ne rfl hid]
      rfl
    · intro hash
      unfold AuthDb.tokenByHash
      rw [Table.lookup_insert (Table.lookup_eq_none.mpr fun r hr => (hfresh r hr).2)]
      split <;> rfl
  · simp only [granted, tokenBundle, hsid]
    rfl

/-- The token is the last of its session when it is not consumed. -/
theorem Sound.unconsumed_iff (h : Sound db) {rt : RefreshToken} {session : AuthSession}
    (hrt : rt ∈ db.refreshTokens) (hsession : db.session rt.sessionId = some session) :
    rt.consumedAt = none ↔ (tokensOf db rt.sessionId).getLast? = some rt := by
  have hchain := h.chains session (Table.lookup_mem hsession)
  rw [Table.lookup_key hsession] at hchain
  exact hchain.unconsumed_iff (List.mem_filter.mpr ⟨hrt, by simp⟩)

theorem RefreshEffect.refines {refreshToken : String} {ipAddress : Option String}
    {bundle : TokenBundle} (hsound : Sound db)
    (h : RefreshEffect env now draw refreshToken ipAddress db bundle db') :
    (manager env db).refresh now (env.sha256 refreshToken) (newRenewal env now draw) =
      (manager env db', some (granted env bundle)) := by
  obtain ⟨rt, session, user, accessToken, db₁, hrt, hsession, hlive, hrevoked, hexpires, hinsert,
    huser, hissue, haudit, rfl⟩ := h
  have hlast := (hsound.unconsumed_iff (Table.lookup_mem hrt) hsession).mp hlive
  have hkey : session.sessionId = rt.sessionId := Table.lookup_key hsession
  have hrenewable : (manager env db).renewable now (env.sha256 refreshToken) =
      some (session.sessionId, grant db session) := by
    simp [SessionManager.renewable, manager, hrt, hsession, grant, hkey, hlast, hrevoked, renewal,
      hexpires, Table.lookup_key hrt]
  obtain ⟨-, -, hsid⟩ := accessTokenFor_claims hissue
  obtain ⟨owner, howner, htenant⟩ := hsound.identities.owned _ session hsession
  obtain ⟨hrows, hfresh⟩ := exchange_rows hinsert
  obtain ⟨hdb₁, -⟩ := AuthDb.insertRefreshToken_eq_some hinsert
  have husers : db₁.users = db.users := by
    rw [hdb₁]
    rfl
  obtain rfl : owner = user := by
    rw [AuthDb.userById, husers] at huser
    exact Option.some.inj (howner.symm.trans huser)
  rw [manager_insertAudit haudit, SessionManager.refresh, hrenewable]
  dsimp only
  refine Prod.ext ?_ ?_
  · have hgrant : grant db session =
        ⟨session.userId, session.tenantId, true, (grant db session).renewal⟩ := by
      simp [grant, hrevoked]
    rw [hgrant]
    refine (@manager_give env db db₁ session
      (newRefreshToken env now draw session.sessionId (some rt.tokenId)) husers ?_ hrevoked ?_ ?_ ?_
      _).symm
    · intro id
      rw [hdb₁]
      split
      · subst id
        exact hkey ▸ hsession
      · rfl
    · exact getLast?_tokensOf_append hrows rfl
    · intro id hid
      rw [tokensOf_append_of_ne hrows hid, List.filter_map, List.getLast?_map, Option.map_map,
        renewal_consume]
      congr 3
      funext r
      simp
    · intro hash
      unfold AuthDb.tokenByHash
      rw [hrows, Table.lookup_insert]
      · split
        · rfl
        · rw [Table.lookup_map fun _ => consume_tokenHash, Option.map_map]
          congr 1
          funext r
          exact consume_sessionId
      · refine Table.lookup_eq_none.mpr fun r hr => ?_
        obtain ⟨r, hmem, rfl⟩ := List.mem_map.mp hr
        rw [consume_tokenHash]
        exact (hfresh r hmem).2
  · have hid : owner.userId = session.userId := Table.lookup_key huser
    simp only [granted, tokenBundle, hsid, grant, hid, htenant]
    rfl

/-- No session, or one that has ended, is left to be ended. -/
theorem endSession_eq_self {id : String} (h : ∀ session, db.session id = some session →
    session.revokedAt ≠ none) :
    ((manager env db).endSessions fun sessionId _ => sessionId = id) = manager env db := by
  refine SessionManager.endSessions_eq_self fun sessionId grant hgrant hlive => ?_
  refine decide_eq_false fun hid => ?_
  subst hid
  obtain ⟨session, hsession, rfl⟩ := Option.map_eq_some_iff.mp hgrant
  exact h session hsession (Option.isNone_iff_eq_none.mp hlive)

theorem logout_refines {refreshToken : String} :
    Commits (logout env now draw refreshToken) fun db _ db' =>
      manager env db' = (manager env db).logout (env.sha256 refreshToken) := by
  refine Commits.bind commits_select fun found => ?_
  cases found with
  | none =>
    refine commits_pure ?_
    rintro _ db ⟨hrt, rfl⟩
    simp [SessionManager.logout, manager, ← hrt]
  | some rt =>
    have hgiven : ∀ db : AuthDb, some rt = db.tokenByHash (env.sha256 refreshToken) →
        (manager env db).logout (env.sha256 refreshToken) =
          (manager env db).endSessions fun id _ => id = rt.sessionId := by
      intro db hrt
      simp only [SessionManager.logout, manager, ← hrt, Option.map_some]
    refine Commits.bind commits_select fun found => ?_
    cases found with
    | none =>
      refine commits_pure ?_
      rintro _ _ ⟨hsession, rfl⟩ db ⟨hrt, rfl⟩
      rw [hgiven _ hrt, endSession_eq_self]
      simp [← hsession]
    | some session =>
      dsimp only
      split
      · refine Commits.bind revokeSession_commits fun _ => commits_write.weaken ?_
        rintro _ _ db' haudit _ rfl _ ⟨hsession, rfl⟩ db ⟨hrt, rfl⟩
        have hkey : session.sessionId = rt.sessionId := Table.lookup_key hsession.symm
        rw [hgiven _ hrt, manager_insertAudit haudit, manager_revoked, hkey]
      · rename_i hrevoked
        refine commits_pure ?_
        rintro _ _ ⟨hsession, rfl⟩ db ⟨hrt, rfl⟩
        rw [hgiven _ hrt, endSession_eq_self]
        simpa [← hsession] using hrevoked

theorem RevokeEffect.refines {reason : String} {sessions : List AuthSession}
    {auditHexes : List String} (h : RevokeEffect now draw reason sessions auditHexes db db') :
    manager env db' =
      (manager env db).endSessions fun id _ => id ∈ sessions.map AuthSession.sessionId := by
  induction h with
  | nil => exact (SessionManager.endSessions_eq_self fun _ _ _ _ => rfl).symm
  | cons hrevoked _ ih =>
    rw [ih, manager_insertAudit hrevoked, manager_revoked, SessionManager.endSessions_endSessions]
    congr 1
    funext id _
    simp

/-- The live sessions of a user are those that are granted to it. -/
theorem endSessions_liveSessions {userId : String} (hids : SessionIdsOk db) :
    ((manager env db).endSessions fun id _ =>
        id ∈ (liveSessions userId db).map AuthSession.sessionId) =
      (manager env db).endSessions fun _ grant => grant.userId = userId := by
  refine SessionManager.endSessions_congr fun id grant hgrant hlive => ?_
  obtain ⟨session, hsession, rfl⟩ := Option.map_eq_some_iff.mp hgrant
  have hmem := Table.lookup_mem hsession
  refine decide_eq_decide.mpr ⟨fun h => ?_, fun h => ?_⟩
  · obtain ⟨other, hother, hid⟩ := List.mem_map.mp h
    obtain ⟨hother, hlisted⟩ := List.mem_filter.mp hother
    obtain rfl : other = session := by
      have hfound := Table.lookup_of_mem hids hother
      rw [hid] at hfound
      exact Option.some.inj (hfound.symm.trans hsession)
    exact (of_decide_eq_true hlisted).1
  · refine List.mem_map.mpr ⟨session, List.mem_filter.mpr ⟨hmem, ?_⟩, Table.lookup_key hsession⟩
    exact decide_eq_true ⟨h, Option.isNone_iff_eq_none.mp hlive⟩

-- ---------------------------------------------------------------------------
-- Requests keep the tables in order
-- ---------------------------------------------------------------------------

theorem sessionIds_insertAudit {entry : AuthAuditLog} (h : db.insertAudit entry = some db') :
    db'.sessions = db.sessions := by
  rw [AuthDb.insertAudit_eq_some h]

theorem SessionIdsOk.revoked {id reason : String} (h : SessionIdsOk db) :
    SessionIdsOk (db.updateSession id (Auth.revoked now reason)) :=
  Table.pairwise_map (fun _ => by split <;> rfl) h

theorem LoginEffect.sessionIdsOk {email password : String} {ipAddress userAgent : Option String}
    {bundle : TokenBundle} (hok : SessionIdsOk db)
    (h : LoginEffect env now draw email password ipAddress userAgent db bundle db') :
    SessionIdsOk db' := by
  obtain ⟨user, accessToken, db₁, db₂, -, -, -, hsession, htoken, -, haudit, -⟩ := h
  obtain ⟨rfl, hnew⟩ := AuthDb.insertSession_eq_some hsession
  obtain ⟨rfl, -⟩ := AuthDb.insertRefreshToken_eq_some htoken
  rw [SessionIdsOk, sessionIds_insertAudit haudit]
  exact Table.pairwise_insert hok (Table.lookup_eq_none.mpr hnew)

theorem RefreshEffect.sessions {refreshToken : String} {ipAddress : Option String}
    {bundle : TokenBundle} (h : RefreshEffect env now draw refreshToken ipAddress db bundle db') :
    db'.sessions = db.sessions := by
  obtain ⟨rt, session, user, accessToken, db₁, -, -, -, -, -, hinsert, -, -, haudit, -⟩ := h
  rw [sessionIds_insertAudit haudit, (AuthDb.insertRefreshToken_eq_some hinsert).1]
  rfl

theorem LogoutEffect.sessionIdsOk {refreshToken : String} (hok : SessionIdsOk db)
    (h : LogoutEffect env now draw refreshToken db db') : SessionIdsOk db' := by
  rcases h with rfl | ⟨rt, session, -, -, -, haudit⟩
  · exact hok
  · rw [SessionIdsOk, sessionIds_insertAudit haudit]
    exact hok.revoked

theorem RevokeEffect.sessionIdsOk {reason : String} {sessions : List AuthSession}
    {auditHexes : List String} (hok : SessionIdsOk db)
    (h : RevokeEffect now draw reason sessions auditHexes db db') : SessionIdsOk db' := by
  induction h with
  | nil => exact hok
  | cons hrevoked _ ih =>
    refine ih ?_
    rw [SessionIdsOk, sessionIds_insertAudit hrevoked]
    exact hok.revoked

end

theorem step_sessionIdsOk {env : AuthEnv} {s : St} (a : Act) (h : SessionIdsOk s.db) :
    SessionIdsOk (step env s a).db := by
  cases a with
  | register =>
    refine registerRoute_commits.keeps h fun bundle db' heffect => ?_
    obtain ⟨db₁, -, hinsert, hlogin⟩ := heffect
    refine hlogin.sessionIdsOk ?_
    rw [AuthDb.insertUser_eq_some hinsert]
    exact h
  | login => exact loginRoute_commits.keeps h fun _ _ heffect => heffect.sessionIdsOk h
  | refresh =>
    refine refreshRoute_commits.keeps h fun _ _ heffect => ?_
    rw [SessionIdsOk, heffect.sessions]
    exact h
  | logout => exact logoutRoute_commits.keeps h fun _ _ heffect => heffect.sessionIdsOk h
  | createUser =>
    refine createUser_commits.keeps h fun _ _ heffect => ?_
    rw [AuthDb.insertUser_eq_some heffect.2]
    exact h
  | revokeUserSessions =>
    exact revokeUserSessions_commits.keeps h fun _ _ heffect => heffect.2.sessionIdsOk h
  | changePassword userId newPassword auditHexes draw =>
    have hdb : SessionIdsOk (s.db.updateUser userId (repassworded env s.now draw newPassword)) := h
    exact changePassword_commits.keeps h fun _ _ heffect => heffect.2.sessionIdsOk hdb
  | advance d => exact h

theorem sound_empty : Sound AuthDb.empty :=
  ⟨dbOk_empty, chainsOk_empty, identitiesOk_empty, .nil⟩

theorem step_sound {env : AuthEnv} {s : St} (a : Act) (h : Sound s.db) : Sound (step env s a).db where
  tokens := step_dbOk a h.tokens
  chains := step_chainsOk a h.tokens h.chains
  identities := (step_keepsIdentity env s a).ok h.identities
  sessionIds := step_sessionIdsOk a h.sessionIds

-- ---------------------------------------------------------------------------
-- Requests that return
-- ---------------------------------------------------------------------------

/-- The audit ids of these hex digits are in no row, and no two are the same. -/
def NewAudits (auditHexes : List String) (db : AuthDb) : Prop :=
  auditHexes.Nodup ∧ ∀ hex ∈ auditHexes,
    Table.lookup AuthAuditLog.auditId db.auditLog (prefixedId "aud" hex) = none

/-- No id, and no token, that the request draws is in use. -/
def FreshDraws (env : AuthEnv) (db : AuthDb) : Act → Prop
  | .register _ _ _ _ draw =>
    db.userById (prefixedId "usr" draw.userHex) = none ∧
      db.session (prefixedId "sess" draw.sessionHex) = none ∧ NewToken env draw db ∧ NewAudit draw db
  | .login _ _ _ _ draw =>
    db.session (prefixedId "sess" draw.sessionHex) = none ∧ NewToken env draw db ∧ NewAudit draw db
  | .refresh _ _ draw => NewToken env draw db ∧ NewAudit draw db
  | .logout _ _ draw => NewAudit draw db
  | .createUser _ _ _ draw => db.userById (prefixedId "usr" draw.userHex) = none
  | .revokeUserSessions userId _ auditHexes _ | .changePassword userId _ auditHexes _ =>
    (liveSessions userId db).length ≤ auditHexes.length ∧ NewAudits auditHexes db
  | .advance _ => True

section
variable {env : AuthEnv} {now : Time} {draw : AuthDraw} {db : AuthDb}

instance : Decidable (NewAudit draw db) :=
  inferInstanceAs (Decidable (_ = none))

instance : Decidable (NewToken env draw db) :=
  inferInstanceAs (Decidable (_ = none ∧ _ = none))

instance {auditHexes : List String} : Decidable (NewAudits auditHexes db) :=
  inferInstanceAs (Decidable (_ ∧ ∀ hex ∈ auditHexes, _ = none))

instance {a : Act} : Decidable (FreshDraws env db a) :=
  match a with
  | .register .. => inferInstanceAs (Decidable (_ = none ∧ _ = none ∧ NewToken .. ∧ NewAudit ..))
  | .login .. => inferInstanceAs (Decidable (_ = none ∧ NewToken .. ∧ NewAudit ..))
  | .refresh .. => inferInstanceAs (Decidable (NewToken .. ∧ NewAudit ..))
  | .logout .. => inferInstanceAs (Decidable (NewAudit ..))
  | .createUser .. => inferInstanceAs (Decidable (_ = none))
  | .revokeUserSessions .. | .changePassword .. =>
    inferInstanceAs (Decidable (_ ≤ _ ∧ NewAudits ..))
  | .advance _ => inferInstanceAs (Decidable True)

theorem writeAudit_returns {db' : AuthDb} (hnew : NewAudit draw db)
    (hlog : db'.auditLog = db.auditLog) {eventType : AuthEvent}
    {userId tenantId sessionId ipAddress userAgent : Option String}
    {metadata : Option (String × String)} :
    Returns (writeAudit draw eventType userId tenantId sessionId ipAddress userAgent metadata) db' := by
  rw [NewAudit, ← hlog] at hnew
  exact ⟨_, _, writeAudit_run hnew ..⟩

theorem createSessionAndTokens_returns {user : User} (ipAddress userAgent : Option String)
    (hkey : ∃ key, env.ring.current = some key) (huser : user ∈ db.users)
    (hsession : db.session (prefixedId "sess" draw.sessionHex) = none) (htoken : NewToken env draw db) :
    Returns (createSessionAndTokens env now draw user ipAddress userAgent) db := by
  obtain ⟨key, hkey⟩ := hkey
  obtain ⟨owner, howner⟩ := Table.lookup_isSome_of_mem User.userId huser
  have hinsert : db.insertSession (newSession draw user ipAddress userAgent) =
      some { db with sessions := db.sessions ++ [newSession draw user ipAddress userAgent] } :=
    if_pos ⟨Option.isNone_iff_eq_none.mpr hsession, Option.isSome_iff_exists.mpr ⟨owner, howner⟩⟩
  refine Returns.bind (returns_write (hinsert ▸ rfl)) commits_write fun _ db₁ hdb₁ => ?_
  obtain rfl := Option.some.inj (hinsert.symm.trans hdb₁)
  refine Returns.bind returns_flush commits_flush fun _ _ hflush => ?_
  subst hflush
  refine Returns.bind (returns_write ?_) commits_write fun _ _ _ => ?_
  · rw [AuthDb.insertRefreshToken, if_pos]
    · rfl
    · refine ⟨Option.isNone_iff_eq_none.mpr htoken.1, Option.isNone_iff_eq_none.mpr htoken.2, ?_, rfl⟩
      obtain ⟨row, hrow⟩ := Table.lookup_isSome_of_mem AuthSession.sessionId
        (List.mem_append_right db.sessions (List.mem_singleton_self
          (newSession draw user ipAddress userAgent)))
      exact Option.isSome_iff_exists.mpr ⟨row, hrow⟩
  · rw [accessTokenFor, createAccessToken, hkey]
    exact returns_pure

/-- With the right password, a login returns. -/
theorem login_returns {email password : String} {user : User} (ipAddress userAgent : Option String)
    (hkey : ∃ key, env.ring.current = some key)
    (huser : db.userByEmail (env.normalizeEmail email) = some user) (hactive : user.isActive = true)
    (hpassword : env.passwords.verify password user.passwordHash = true)
    (hsession : db.session (prefixedId "sess" draw.sessionHex) = none) (htoken : NewToken env draw db)
    (hnew : NewAudit draw db) :
    Returns (login env now draw email password ipAddress userAgent) db := by
  refine Returns.select ?_
  rw [huser]
  dsimp only
  rw [if_neg (by simp [hactive]), if_neg (by simp [hpassword])]
  refine Returns.bind (createSessionAndTokens_returns ipAddress userAgent hkey (Table.lookup_mem huser)
    hsession htoken) createSessionAndTokens_commits fun r db' hcreated => ?_
  obtain ⟨db₁, hinsert, hroot, -⟩ := hcreated
  obtain ⟨rfl, -⟩ := AuthDb.insertSession_eq_some hinsert
  obtain ⟨rfl, -⟩ := AuthDb.insertRefreshToken_eq_some hroot
  exact Returns.bind (writeAudit_returns hnew (by rfl)) commits_write fun _ _ _ => returns_pure

theorem logout_returns {refreshToken : String} (hnew : NewAudit draw db) :
    Returns (logout env now draw refreshToken) db := by
  refine Returns.select ?_
  cases db.tokenByHash (env.sha256 refreshToken) with
  | none => exact returns_pure
  | some rt =>
    refine Returns.select ?_
    cases db.session rt.sessionId with
    | none => exact returns_pure
    | some session =>
      dsimp only
      split
      · refine Returns.bind ⟨_, _, rfl⟩ revokeSession_commits fun _ db' hrevoked => ?_
        subst hrevoked
        exact writeAudit_returns hnew (by rfl)
      · exact returns_pure

theorem revokeEach_returns {reason : String} {sessions : List AuthSession} {auditHexes : List String}
    (hlength : sessions.length ≤ auditHexes.length) (hnew : NewAudits auditHexes db) :
    Returns (revokeEach now draw reason sessions auditHexes) db := by
  induction sessions generalizing auditHexes db with
  | nil => exact returns_pure
  | cons session sessions ih =>
    obtain _ | ⟨hex, auditHexes⟩ := auditHexes
    · cases hlength
    · obtain ⟨hnodup, hfresh⟩ := hnew
      obtain ⟨hhead, hnodup⟩ := List.nodup_cons.mp hnodup
      refine Returns.bind returns_update commits_update fun _ db₁ hupdate => ?_
      subst hupdate
      have hfirst : NewAudit { draw with auditHex := hex }
          (db.updateSession session.sessionId (revoked now reason)) :=
        hfresh hex List.mem_cons_self
      refine Returns.bind (writeAudit_returns hfirst (by rfl)) commits_write fun _ db₂ haudit => ?_
      refine ih (Nat.le_of_succ_le_succ hlength) ⟨hnodup, fun other hother => ?_⟩
      rw [AuthDb.insertAudit_eq_some haudit]
      refine Table.lookup_eq_none.mpr fun row hrow hid => ?_
      rcases List.mem_append.mp hrow with hrow | hrow
      · exact Table.lookup_eq_none.mp (hfresh other (List.mem_cons_of_mem _ hother)) row hrow hid
      · rw [List.mem_singleton.mp hrow] at hid
        obtain rfl := prefixedId_inj.mp hid
        exact hhead hother

theorem revokeUserSessions_returns {userId reason : String} {auditHexes : List String}
    (hlength : (liveSessions userId db).length ≤ auditHexes.length) (hnew : NewAudits auditHexes db) :
    Returns (revokeUserSessions now draw userId reason auditHexes) db := by
  refine Returns.select ?_
  refine Returns.bind (revokeEach_returns hlength hnew) revokeEach_commits fun _ _ _ => ?_
  split
  · exact Returns.bind returns_flush commits_flush fun _ _ _ => returns_pure
  · exact returns_pure

theorem changePassword_returns {userId newPassword : String} {auditHexes : List String} {user : User}
    (huser : db.userById userId = some user)
    (hlength : (liveSessions userId db).length ≤ auditHexes.length) (hnew : NewAudits auditHexes db) :
    Returns (changePassword env now draw userId newPassword auditHexes) db := by
  refine Returns.select ?_
  rw [huser]
  refine Returns.bind returns_update commits_update fun _ db₁ hupdate => ?_
  subst hupdate
  exact Returns.bind (revokeUserSessions_returns hlength hnew) revokeUserSessions_commits
    fun _ _ _ => returns_pure

theorem createUser_returns {tenantId email password : String}
    (huser : db.userById (prefixedId "usr" draw.userHex) = none)
    (hemail : db.userByEmail (env.normalizeEmail email) = none) :
    Returns (createUser env now draw tenantId email password) db :=
  ⟨_, _, createUser_run (if_pos ⟨Option.isNone_iff_eq_none.mpr huser,
    Option.isNone_iff_eq_none.mpr hemail⟩)⟩

theorem requireAuth_returns {authorization : Authorization}
    (h : admits env now (manager env db) authorization = true) :
    Returns (requireAuth env now authorization) db := by
  cases authorization with
  | missing | undecodable => cases h
  | bearer token =>
    unfold admits at h
    unfold requireAuth
    dsimp only at h ⊢
    split at h
    · rename_i claims hclaims
      rw [hclaims]
      refine Returns.select ?_
      obtain ⟨grant, hgrant, hlive⟩ := (Option.any_eq_true _ _).mp h
      obtain ⟨session, hsession, rfl⟩ := Option.map_eq_some_iff.mp hgrant
      rw [hsession]
      dsimp only
      rw [if_neg (not_not.mpr (Option.isNone_iff_eq_none.mp hlive))]
      exact returns_pure
    · cases h

theorem requireAuth_admits {authorization : Authorization} :
    Commits (requireAuth env now authorization) fun db _ db' =>
      db' = db ∧ admits env now (manager env db) authorization = true := by
  refine requireAuth_commits.weaken ?_
  rintro db _ _ ⟨rfl, token, session, rfl, hclaims, hsession, hlive, -⟩
  refine ⟨rfl, ?_⟩
  simp [admits, hclaims, manager, hsession, grant, hlive]

theorem logoutRoute_refines {authorization : Authorization} {refreshToken : String} :
    Commits (logoutRoute env now draw authorization refreshToken) fun db _ db' =>
      admits env now (manager env db) authorization = true ∧
        manager env db' = (manager env db).logout (env.sha256 refreshToken) := by
  refine Commits.bind requireAuth_admits fun _ => logout_refines.weaken ?_
  rintro _ _ db' hlogout db ⟨rfl, hadmits⟩
  exact ⟨hadmits, hlogout⟩

theorem logoutRoute_returns {authorization : Authorization} {refreshToken : String}
    (hadmits : admits env now (manager env db) authorization = true) (hnew : NewAudit draw db) :
    Returns (logoutRoute env now draw authorization refreshToken) db := by
  refine Returns.bind (requireAuth_returns hadmits) requireAuth_commits fun _ db' hauth => ?_
  obtain ⟨rfl, -⟩ := hauth
  exact logout_returns hnew

end

-- ---------------------------------------------------------------------------
-- Steps and runs
-- ---------------------------------------------------------------------------

section
variable {env : AuthEnv} {now : Time} {draw : AuthDraw} {db db' : AuthDb}

/-- What a transaction does to the session manager, and what it grants. -/
def outcome (env : AuthEnv) (m : AuthM TokenBundle) (db : AuthDb) :
    SessionManager Time × Option Granted :=
  (manager env (transaction m db).2, (transaction m db).1.toOption.map (granted env))

theorem login_outcome {email password : String} {ipAddress userAgent : Option String}
    (hkey : ∃ key, env.ring.current = some key)
    (hsession : db.session (prefixedId "sess" draw.sessionHex) = none) (htoken : NewToken env draw db)
    (hnew : NewAudit draw db) :
    outcome env (loginRoute env now draw email password ipAddress userAgent) db =
      (manager env db).login (env.normalizeEmail email) password (prefixedId "sess" draw.sessionHex)
        (newRenewal env now draw) := by
  have hreturns : (∃ user, db.userByEmail (env.normalizeEmail email) = some user ∧
      user.isActive = true ∧ env.passwords.verify password user.passwordHash = true) →
      ∃ a, (transaction (loginRoute env now draw email password ipAddress userAgent) db).1 = .ok a := by
    rintro ⟨user, huser, hactive, hpassword⟩
    exact (login_returns ipAddress userAgent hkey huser hactive hpassword hsession htoken
      hnew).tryCatch.transaction
  rcases loginRoute_commits.total hreturns with ⟨bundle, db', hrun, heffect⟩ | ⟨hnone, x, hrun⟩
  · rw [outcome, hrun, heffect.refines]
    rfl
  · have hrefused : (manager env db).admitted (env.normalizeEmail email) password = none := by
      rw [SessionManager.admitted, manager, Option.filter_eq_none_iff]
      intro found hfound
      obtain ⟨user, huser, rfl⟩ := Option.map_eq_some_iff.mp hfound
      simp only [account, Bool.and_eq_true, not_and]
      exact fun hactive hpassword => hnone ⟨user, huser, hactive, hpassword⟩
    rw [outcome, hrun, SessionManager.login, hrefused]
    rfl

/-- An address that is in use is not registered again. -/
theorem register_taken {email password : String} {ipAddress userAgent : Option String}
    (htaken : db.userByEmail email ≠ none ∨ db.userByEmail (env.normalizeEmail email) ≠ none) :
    outcome env (registerRoute env now draw email password ipAddress userAgent) db =
      (manager env db, none) := by
  have hreturns : False → ∃ a,
      (transaction (registerRoute env now draw email password ipAddress userAgent) db).1 = .ok a := nofun
  rcases registerRoute_commits.total hreturns with ⟨_, _, -, heffect⟩ | ⟨-, x, hrun⟩
  · obtain ⟨db₁, hnone, hinsert, -⟩ := heffect
    rcases htaken with htaken | htaken
    · exact absurd hnone htaken
    · exact absurd (insertUser_free hinsert) htaken
  · rw [outcome, hrun]
    rfl

theorem register_outcome {email password : String} {ipAddress userAgent : Option String}
    (hkey : ∃ key, env.ring.current = some key)
    (hfresh : FreshDraws env db (.register email password ipAddress userAgent draw)) :
    outcome env (registerRoute env now draw email password ipAddress userAgent) db =
      ideal env now (manager env db) (.register email password ipAddress userAgent draw) := by
  obtain ⟨huser, hsession, htoken, hnew⟩ := hfresh
  rw [ideal, SessionManager.register]
  split
  · rename_i htaken
    refine register_taken ?_
    simpa [manager, Option.isSome_iff_ne_none] using htaken
  · rename_i hfree
    simp only [manager, Option.isSome_map, not_or, Option.not_isSome_iff_eq_none] at hfree
    obtain ⟨hemail, haddress⟩ := hfree
    obtain ⟨db₁, hinsert⟩ :
        ∃ db₁, db.insertUser (newUser env now draw defaultTenantId email password) = some db₁ :=
      ⟨_, if_pos ⟨Option.isNone_iff_eq_none.mpr huser, Option.isNone_iff_eq_none.mpr haddress⟩⟩
    have hmanager : manager env db₁ = (manager env db).addAccount (env.normalizeEmail email)
        (account env (newUser env now draw defaultTenantId email password)) :=
      manager_insertUser hinsert
    have hrows := AuthDb.insertUser_eq_some hinsert
    have hfound : db₁.userByEmail (env.normalizeEmail email) =
        some (newUser env now draw defaultTenantId email password) := by
      have hstored : Table.lookup User.email db.users
          (newUser env now draw defaultTenantId email password).email = none := haddress
      rw [hrows, AuthDb.userByEmail, Table.lookup_insert hstored]
      exact if_pos rfl
    have hreturns : env.passwords.verify password (env.passwords.hash draw.salt password) = true →
        ∃ a, (transaction (registerRoute env now draw email password ipAddress userAgent) db).1 =
          .ok a := by
      refine fun hpassword => Returns.transaction (Returns.select ?_)
      rw [hemail]
      refine Returns.bind ⟨_, _, createUser_run hinsert⟩ createUser_commits ?_
      rintro _ db₂ ⟨rfl, hcreated⟩
      obtain rfl := Option.some.inj (hinsert.symm.trans hcreated)
      refine login_returns ipAddress userAgent hkey hfound rfl hpassword ?_ ?_ ?_ <;> rw [hrows]
      · exact hsession
      · exact htoken
      · exact hnew
    rw [← hmanager]
    rcases registerRoute_commits.total hreturns with ⟨bundle, db', hrun, heffect⟩ | ⟨hwrong, x, hrun⟩
    · obtain ⟨db₂, -, hcreated, hlogin⟩ := heffect
      obtain rfl := Option.some.inj (hinsert.symm.trans hcreated)
      rw [outcome, hrun, hlogin.refines]
      rfl
    · have hrefused : (manager env db₁).admitted (env.normalizeEmail email) password = none := by
        simp [SessionManager.admitted, manager, hfound, account, newUser, hwrong]
      rw [outcome, hrun, SessionManager.login, hrefused]
      rfl

/-- A live session that a token renews is one whose last token it is. -/
theorem exchangeable_of_renewable {refreshToken : String} {found : String × Grant Time}
    (hsound : Sound db)
    (h : (manager env db).renewable now (env.sha256 refreshToken) = some found) :
    Exchangeable env now db refreshToken := by
  obtain ⟨sid, hsid, h⟩ := Option.bind_eq_some_iff.mp h
  obtain ⟨rt, hrt, rfl⟩ := Option.map_eq_some_iff.mp hsid
  obtain ⟨_, hgrant, h⟩ := Option.bind_eq_some_iff.mp h
  obtain ⟨session, hsession, rfl⟩ := Option.map_eq_some_iff.mp hgrant
  obtain ⟨_, hrenewal, h⟩ := Option.bind_eq_some_iff.mp h
  obtain ⟨last, hlast, rfl⟩ := Option.map_eq_some_iff.mp hrenewal
  split at h
  · rename_i hgood
    obtain ⟨hlive, hhash, hexpires⟩ := hgood
    rw [Table.lookup_key hsession] at hlast
    obtain rfl : rt = last := by
      have hmem := (List.mem_filter.mp (List.mem_of_getLast? hlast)).1
      have hfound := Table.lookup_of_mem hsound.tokens.tokens.hashes hmem
      rw [show last.tokenHash = env.sha256 refreshToken from hhash] at hfound
      exact Option.some.inj (hrt.symm.trans hfound)
    exact ⟨rt, session, hrt, hsession, hlast, Option.isNone_iff_eq_none.mp hlive, hexpires⟩
  · cases h

theorem refresh_outcome {refreshToken : String} {ipAddress : Option String}
    (hkey : ∃ key, env.ring.current = some key) (hsound : Sound db) (htoken : NewToken env draw db)
    (hnew : NewAudit draw db) :
    outcome env (refreshRoute env now draw refreshToken ipAddress) db =
      (manager env db).refresh now (env.sha256 refreshToken) (newRenewal env now draw) := by
  have hreturns : Exchangeable env now db refreshToken → ∃ bundle,
      (transaction (refreshRoute env now draw refreshToken ipAddress) db).1 = .ok bundle :=
    (refreshRoute_returns_iff ipAddress refreshToken hkey hnew htoken hsound.chains hsound.identities).mpr
  rcases refreshRoute_commits.total hreturns with ⟨bundle, db', hrun, heffect⟩ | ⟨hnot, x, hrun⟩
  · rw [outcome, hrun, heffect.refines hsound]
    rfl
  · have hrefused : (manager env db).renewable now (env.sha256 refreshToken) = none :=
      Option.eq_none_iff_forall_ne_some.mpr fun _ h => hnot (exchangeable_of_renewable hsound h)
    rw [outcome, hrun, SessionManager.refresh, hrefused]
    rfl

theorem changePassword_refines {userId newPassword : String} {auditHexes : List String}
    (hids : SessionIdsOk db)
    (heffect : RevokeEffect now draw "password_change"
      (liveSessions userId (db.updateUser userId (repassworded env now draw newPassword))) auditHexes
      (db.updateUser userId (repassworded env now draw newPassword)) db') :
    manager env db' = ((manager env db).reopen userId fun password =>
      env.passwords.verify password (env.passwords.hash draw.salt newPassword)).endSessions
        fun _ grant => grant.userId = userId := by
  have hids' : SessionIdsOk (db.updateUser userId (repassworded env now draw newPassword)) := hids
  rw [heffect.refines, endSessions_liveSessions hids', manager_repassworded]

/-- Nothing is open to a user that does not exist. -/
theorem reopen_unknown {userId : String} {opens : String → Bool} (hidentities : IdentitiesOk db)
    (hunknown : db.userById userId = none) :
    (((manager env db).reopen userId opens).endSessions fun _ grant => grant.userId = userId) =
      manager env db := by
  have haccounts : (manager env db).reopen userId opens = manager env db := by
    refine congrArg (fun accounts => { manager env db with accounts }) (funext fun email => ?_)
    refine (Option.map_congr fun found hfound => if_neg ?_).trans Option.map_id'
    obtain ⟨user, huser, rfl⟩ := Option.map_eq_some_iff.mp hfound
    exact Table.lookup_eq_none.mp hunknown user (Table.lookup_mem huser)
  rw [haccounts]
  refine SessionManager.endSessions_eq_self fun id grant hgrant _ => decide_eq_false fun huser => ?_
  obtain ⟨session, hsession, rfl⟩ := Option.map_eq_some_iff.mp hgrant
  obtain ⟨owner, howner, -⟩ := hidentities.owned id session hsession
  have hsame : session.userId = userId := huser
  rw [hsame, hunknown] at howner
  cases howner

end

/-- Every request does to the session manager, and is granted by it, what the ideal one says. -/
theorem step_refines {env : AuthEnv} {s : St} {a : Act} (hkey : ∃ key, env.ring.current = some key)
    (hsound : Sound s.db) (hfresh : FreshDraws env s.db a) :
    (manager env (step env s a).db, (response env s a).map (granted env)) =
      ideal env s.now (manager env s.db) a := by
  cases a with
  | register => exact register_outcome hkey hfresh
  | login => exact login_outcome hkey hfresh.1 hfresh.2.1 hfresh.2.2
  | refresh => exact refresh_outcome hkey hsound hfresh.1 hfresh.2
  | logout authorization refreshToken draw =>
    have hreturns : admits env s.now (manager env s.db) authorization = true → ∃ a,
        (transaction (logoutRoute env s.now draw authorization refreshToken) s.db).1 = .ok a :=
      fun hadmits => (logoutRoute_returns hadmits hfresh).transaction
    refine Prod.ext ?_ rfl
    change manager env (transaction (logoutRoute env s.now draw authorization refreshToken) s.db).2 = _
    rcases logoutRoute_refines.total hreturns with ⟨_, db', hrun, hadmits, heffect⟩ | ⟨hnot, x, hrun⟩
    · rw [hrun, heffect, ideal, if_pos hadmits]
    · rw [hrun, ideal, if_neg hnot]
  | createUser tenantId email password draw =>
    have hreturns : s.db.userByEmail (env.normalizeEmail email) = none → ∃ a,
        (transaction (createUser env s.now draw tenantId email password) s.db).1 = .ok a :=
      fun hemail => (createUser_returns hfresh hemail).transaction
    refine Prod.ext ?_ rfl
    change manager env (transaction (createUser env s.now draw tenantId email password) s.db).2 = _
    rcases createUser_commits.total hreturns with ⟨_, db', hrun, rfl, hinsert⟩ | ⟨htaken, x, hrun⟩
    · have hfree : s.db.userByEmail (env.normalizeEmail email) = none := insertUser_free hinsert
      rw [hrun, manager_insertUser hinsert, ideal, if_neg (by simp [manager, hfree])]
      rfl
    · rw [hrun, ideal, if_pos (by simpa [manager, Option.isSome_iff_ne_none] using htaken)]
  | revokeUserSessions userId reason auditHexes draw =>
    have hreturns : True → ∃ a,
        (transaction (revokeUserSessions s.now draw userId reason auditHexes) s.db).1 = .ok a :=
      fun _ => (revokeUserSessions_returns hfresh.1 hfresh.2).transaction
    refine Prod.ext ?_ rfl
    change manager env (transaction (revokeUserSessions s.now draw userId reason auditHexes) s.db).2 = _
    rcases revokeUserSessions_commits.total hreturns with ⟨_, db', hrun, -, heffect⟩ | ⟨hnot, -⟩
    · rw [hrun, heffect.refines, endSessions_liveSessions hsound.sessionIds]
      rfl
    · exact absurd trivial hnot
  | changePassword userId newPassword auditHexes draw =>
    have hreturns : (∃ user, s.db.userById userId = some user) → ∃ a,
        (transaction (changePassword env s.now draw userId newPassword auditHexes) s.db).1 = .ok a := by
      rintro ⟨user, huser⟩
      exact (changePassword_returns huser hfresh.1 hfresh.2).transaction
    refine Prod.ext ?_ rfl
    change manager env
      (transaction (changePassword env s.now draw userId newPassword auditHexes) s.db).2 = _
    rcases changePassword_commits.total hreturns with ⟨_, db', hrun, -, heffect⟩ | ⟨hnot, x, hrun⟩
    · rw [hrun, changePassword_refines hsound.sessionIds heffect]
      rfl
    · have hunknown : s.db.userById userId = none :=
        Option.eq_none_iff_forall_ne_some.mpr fun user huser => hnot ⟨user, huser⟩
      rw [hrun]
      exact (reopen_unknown hsound.identities hunknown).symm
  | advance d => rfl

/-- The clock after an action. -/
def tick (now : Time) : Act → Time
  | .advance d => now + d
  | _ => now

/-- The ideal run of the requests: what they leave, and what each is granted. -/
def idealRun (env : AuthEnv) : Time → SessionManager Time → List Act →
    SessionManager Time × List (Option Granted)
  | _, m, [] => (m, [])
  | now, m, a :: as =>
    let (m', granted) := ideal env now m a
    let (m'', rest) := idealRun env (tick now a) m' as
    (m'', granted :: rest)

/-- What the service answers each of the requests with. -/
def answers (env : AuthEnv) : St → List Act → List (Option TokenBundle)
  | _, [] => []
  | s, a :: as => response env s a :: answers env (step env s a) as

theorem run_refines {env : AuthEnv} {s : St} {as : List Act}
    (hkey : ∃ key, env.ring.current = some key) (hsound : Sound s.db)
    (hfresh : Run.Guarded (fun s a => some (step env s a)) (fun s a => FreshDraws env s.db a) s as) :
    (manager env (run env s as).db, (answers env s as).map (Option.map (granted env))) =
      idealRun env s.now (manager env s.db) as := by
  induction as generalizing s with
  | nil => rfl
  | cons a as ih =>
    obtain ⟨hfirst, hrest⟩ := hfresh
    have hstep := step_refines hkey hsound hfirst
    have htail := ih (step_sound a hsound) (hrest _ rfl)
    have hclock : (step env s a).now = tick s.now a := by cases a <;> rfl
    rw [hclock] at htail
    rw [idealRun, ← hstep]
    dsimp only
    rw [← htail]
    rfl

/-- In every run with fresh draws the service is the ideal session manager: what it holds, and
    what it grants to each request. -/
theorem auth_refines (env : AuthEnv) (start : Time) (as : List Act)
    (hkey : ∃ key, env.ring.current = some key)
    (hfresh : Run.Guarded (fun s a => some (step env s a)) (fun s a => FreshDraws env s.db a)
      ⟨AuthDb.empty, start⟩ as) :
    (manager env (run env ⟨AuthDb.empty, start⟩ as).db,
        (answers env ⟨AuthDb.empty, start⟩ as).map (Option.map (granted env))) =
      idealRun env start SessionManager.empty as :=
  run_refines hkey sound_empty hfresh

/-- A login, an exchange, a replay of the exchanged token, a new password, and a last attempt. -/
def sessionLife : List Act :=
  loggedIn ++
    [.refresh "rt_1_1" none (toyDraw "2"), .refresh "rt_1_1" none (toyDraw "3"),
      .changePassword "usr_0" "secret" ["4"] (toyDraw "4"), .refresh "rt_2_2" none (toyDraw "5"),
      .login "ana@fund.com" "secret" none none (toyDraw "6")]

/-- The replay and the token of the ended session are refused, and the new password opens. -/
theorem auth_refines_sessionLife :
    (manager toyEnv (run toyEnv ⟨AuthDb.empty, 0⟩ sessionLife).db,
        (answers toyEnv ⟨AuthDb.empty, 0⟩ sessionLife).map (Option.map (granted toyEnv))) =
      idealRun toyEnv 0 SessionManager.empty sessionLife ∧
    (idealRun toyEnv 0 SessionManager.empty sessionLife).2.map (Option.map Granted.sessionId) =
      [none, some "sess_1", some "sess_1", none, none, none, some "sess_6"] :=
  ⟨auth_refines toyEnv 0 sessionLife ⟨_, rfl⟩
    (Run.guarded_of_checks (fun s a => decide (FreshDraws toyEnv s.db a))
      (fun _ _ => of_decide_eq_true) (by decide +kernel)), by decide +kernel⟩

end Auth
