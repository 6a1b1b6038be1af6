-- SUMMARY: Every context that `require_auth` returns is backed by a live session of the same user and tenant, and stays refused once the session is revoked.
import DealScreening.Auth.Reuse

/-!
# Identity

`require_auth` takes user and tenant from the claims of the token and only looks
at the session's revocation. That the claims agree with the session row is an
invariant of everything that mints tokens or writes users and sessions.
-/

namespace Auth

open Session

-- ---------------------------------------------------------------------------
-- Tokens that were issued
-- ---------------------------------------------------------------------------

/-- The bundle a request is answered with. -/
def response (env : AuthEnv) (s : St) : Act → Option TokenBundle
  | .register email password ipAddress userAgent draw =>
    (transaction (registerRoute env s.now draw email password ipAddress userAgent) s.db).1.toOption
  | .login email password ipAddress userAgent draw =>
    (transaction (loginRoute env s.now draw email password ipAddress userAgent) s.db).1.toOption
  | .refresh refreshToken ipAddress draw =>
    (transaction (refreshRoute env s.now draw refreshToken ipAddress) s.db).1.toOption
  | _ => none

/-- The access tokens that the requests `as` are answered with. -/
def issued (env : AuthEnv) (s : St) : List Act → List AccessToken
  | [] => []
  | a :: as =>
    (response env s a).toList.map TokenBundle.accessToken ++ issued env (step env s a) as

/-- A token that a key of the ring has signed is one that was issued. -/
def Unforged (env : AuthEnv) (s : St) (as : List Act) (authorization : Authorization) : Prop :=
  ∀ token, authorization = .bearer token →
    token.signedBy ∈ env.ring.allKeys.map SigningKey.seed → token ∈ issued env s as

/-- The session of the context is live and names the same user and tenant, which
    are those of the user's own row. -/
def Backed (db : AuthDb) (context : AuthContext) : Prop :=
  ∃ session user, db.session context.sessionId = some session ∧ session.revokedAt = none ∧
    session.userId = context.userId ∧ session.tenantId = context.tenantId ∧
    db.userById context.userId = some user ∧ user.tenantId = context.tenantId

-- ---------------------------------------------------------------------------
-- Users and sessions keep their identity
-- ---------------------------------------------------------------------------

/-- User ids are distinct, and every session belongs to a user of its tenant. -/
structure IdentitiesOk (db : AuthDb) : Prop where
  distinct : db.users.Pairwise fun u v => u.userId ≠ v.userId
  owned : ∀ sid session, db.session sid = some session →
    ∃ user, db.userById session.userId = some user ∧ user.tenantId = session.tenantId

/-- Users and sessions of `db` are still there in `db'`, for the same user and tenant. -/
structure KeepsIdentity (db db' : AuthDb) : Prop where
  users : ∀ uid user, db.userById uid = some user →
    ∃ user', db'.userById uid = some user' ∧ user'.tenantId = user.tenantId
  sessions : ∀ sid session, db.session sid = some session →
    ∃ session', db'.session sid = some session' ∧ session'.userId = session.userId ∧
      session'.tenantId = session.tenantId
  ok : IdentitiesOk db → IdentitiesOk db'

instance : IsPreorder AuthDb KeepsIdentity where
  refl _ := ⟨fun _ user h => ⟨user, h, rfl⟩, fun _ session h => ⟨session, h, rfl, rfl⟩, id⟩
  trans _ _ _ h h' :=
    { users := fun uid user hu => by
        obtain ⟨user₁, hu₁, ht₁⟩ := h.users uid user hu
        obtain ⟨user₂, hu₂, ht₂⟩ := h'.users uid user₁ hu₁
        exact ⟨user₂, hu₂, ht₂.trans ht₁⟩
      sessions := fun sid session hs => by
        obtain ⟨session₁, hs₁, hu₁, ht₁⟩ := h.sessions sid session hs
        obtain ⟨session₂, hs₂, hu₂, ht₂⟩ := h'.sessions sid session₁ hs₁
        exact ⟨session₂, hs₂, hu₂.trans hu₁, ht₂.trans ht₁⟩
      ok := fun hok => h'.ok (h.ok hok) }

section
variable {db db' : AuthDb} {now : Time}

theorem keepsIdentity_same (husers : db'.users = db.users) (hsessions : db'.sessions = db.sessions) :
    KeepsIdentity db db' := by
  have huser : ∀ uid, db'.userById uid = db.userById uid := fun uid => by
    unfold AuthDb.userById
    rw [husers]
  have hsession : ∀ sid, db'.session sid = db.session sid := fun sid => by
    unfold AuthDb.session
    rw [hsessions]
  refine ⟨fun uid user h => ⟨user, by rw [huser, h], rfl⟩,
    fun sid session h => ⟨session, by rw [hsession, h], rfl, rfl⟩, fun hok => ⟨?_, ?_⟩⟩
  · rw [husers]
    exact hok.distinct
  · intro sid session h
    rw [hsession] at h
    rw [huser]
    exact hok.owned sid session h

theorem keepsIdentity_insertUser {user : User} (h : db.insertUser user = some db') :
    KeepsIdentity db db' := by
  have hfresh : db.userById user.userId = none := by
    unfold AuthDb.insertUser at h
    split at h
    · rename_i hnone
      exact Option.isNone_iff_eq_none.mp hnone.1
    · cases h
  obtain rfl := AuthDb.insertUser_eq_some h
  have hkeep : ∀ uid old, db.userById uid = some old →
      AuthDb.userById { db with users := db.users ++ [user] } uid = some old := by
    intro uid old hold
    unfold AuthDb.userById at hold ⊢
    rw [Table.lookup_append, hold]
    rfl
  refine ⟨fun uid old hold => ⟨old, hkeep uid old hold, rfl⟩,
    fun sid session hs => ⟨session, hs, rfl, rfl⟩, fun hok => ⟨?_, fun sid session hs => ?_⟩⟩
  · refine List.pairwise_append.mpr ⟨hok.distinct, List.pairwise_singleton _ _, ?_⟩
    simpa using Table.lookup_eq_none.mp hfresh
  · obtain ⟨owner, howner, htenant⟩ := hok.owned sid session hs
    exact ⟨owner, hkeep _ _ howner, htenant⟩

theorem keepsIdentity_insertSession {session : AuthSession} (h : db.insertSession session = some db')
    (howner : IdentitiesOk db →
      ∃ user, db.userById session.userId = some user ∧ user.tenantId = session.tenantId) :
    KeepsIdentity db db' := by
  obtain ⟨rfl, hfresh⟩ := AuthDb.insertSession_eq_some h
  have hlookup : ∀ sid, AuthDb.session { db with sessions := db.sessions ++ [session] } sid =
      if sid = session.sessionId then some session else db.session sid :=
    fun sid => Table.lookup_insert (Table.lookup_eq_none.mpr hfresh)
  refine ⟨fun uid user hu => ⟨user, hu, rfl⟩, fun sid old hold => ⟨old, ?_, rfl, rfl⟩,
    fun hok => ⟨hok.distinct, fun sid s hs => ?_⟩⟩
  · rw [hlookup, if_neg]
    · exact hold
    · rintro rfl
      exact hfresh old (Table.lookup_mem hold) (Table.lookup_key hold)
  · rw [hlookup] at hs
    split at hs
    · cases hs
      exact howner hok
    · exact hok.owned sid s hs

theorem keepsIdentity_revoked {id reason : String} :
    KeepsIdentity db (db.updateSession id (revoked now reason)) := by
  have hkey : ∀ session, (revoked now reason session).sessionId = session.sessionId := fun _ => rfl
  have hlookup : ∀ sid, (db.updateSession id (revoked now reason)).session sid =
      if sid = id then (db.session id).map (revoked now reason) else db.session sid :=
    fun sid => Table.lookup_modify hkey
  have hsame : ∀ sid session, (db.updateSession id (revoked now reason)).session sid = some session →
      ∃ old, db.session sid = some old ∧ session.userId = old.userId ∧
        session.tenantId = old.tenantId := by
    intro sid session h
    rw [hlookup] at h
    split at h
    · rename_i heq
      obtain ⟨old, hold, rfl⟩ := Option.map_eq_some_iff.mp h
      exact ⟨old, heq ▸ hold, rfl, rfl⟩
    · exact ⟨session, h, rfl, rfl⟩
  refine ⟨fun uid user hu => ⟨user, hu, rfl⟩, fun sid old hold => ?_,
    fun hok => ⟨hok.distinct, fun sid session hs => ?_⟩⟩
  · rw [hlookup]
    split
    · rename_i heq
      exact ⟨revoked now reason old, by rw [← heq, hold, Option.map_some], rfl, rfl⟩
    · exact ⟨old, hold, rfl, rfl⟩
  · obtain ⟨old, hold, huser, htenant⟩ := hsame sid session hs
    obtain ⟨owner, howner, hown⟩ := hok.owned sid old hold
    exact ⟨owner, huser ▸ howner, hown.trans htenant.symm⟩

theorem keepsIdentity_repassworded {env : AuthEnv} {draw : AuthDraw} {userId newPassword : String} :
    KeepsIdentity db (db.updateUser userId (repassworded env now draw newPassword)) := by
  have hkey : ∀ user, (repassworded env now draw newPassword user).userId = user.userId :=
    fun _ => rfl
  have huser : ∀ uid user, db.userById uid = some user → ∃ user',
      (db.updateUser userId (repassworded env now draw newPassword)).userById uid = some user' ∧
        user'.tenantId = user.tenantId := by
    intro uid user hu
    unfold AuthDb.userById AuthDb.updateUser at *
    dsimp only
    rw [Table.lookup_modify hkey]
    split
    · rename_i heq
      exact ⟨repassworded env now draw newPassword user, by rw [← heq, hu, Option.map_some], rfl⟩
    · exact ⟨user, hu, rfl⟩
  refine ⟨huser, fun sid session hs => ⟨session, hs, rfl, rfl⟩,
    fun hok => ⟨?_, fun sid session hs => ?_⟩⟩
  · refine List.pairwise_map.mpr (hok.distinct.imp ?_)
    intro u v hne
    split <;> split <;> simpa [repassworded] using hne
  · obtain ⟨owner, howner, hown⟩ := hok.owned sid session hs
    obtain ⟨owner', howner', htenant⟩ := huser _ _ howner
    exact ⟨owner', howner', htenant.trans hown⟩

theorem keepsIdentity_insertRefreshToken {token : RefreshToken}
    (h : db.insertRefreshToken token = some db') : KeepsIdentity db db' := by
  rw [(AuthDb.insertRefreshToken_eq_some h).1]
  exact keepsIdentity_same rfl rfl

theorem keepsIdentity_insertAudit {entry : AuthAuditLog} (h : db.insertAudit entry = some db') :
    KeepsIdentity db db' := by
  rw [AuthDb.insertAudit_eq_some h]
  exact keepsIdentity_same rfl rfl

end

-- ---------------------------------------------------------------------------
-- Tokens name the session and the user they were made for
-- ---------------------------------------------------------------------------

/-- The session that the token names is the one of the user and tenant it names. -/
def TokenOk (db : AuthDb) (token : AccessToken) : Prop :=
  ∃ session user, db.session token.claims.sid = some session ∧
    session.userId = token.claims.sub ∧ session.tenantId = token.claims.tnt ∧
    db.userById token.claims.sub = some user ∧ user.tenantId = token.claims.tnt

theorem accessTokenFor_claims {env : AuthEnv} {now : Time} {user : User} {sessionId : String}
    {token : AccessToken} (h : accessTokenFor env now user sessionId = some token) :
    token.claims.sub = user.userId ∧ token.claims.tnt = user.tenantId ∧
      token.claims.sid = sessionId := by
  unfold accessTokenFor createAccessToken at h
  obtain ⟨key, -, rfl⟩ := Option.map_eq_some_iff.mp h
  exact ⟨rfl, rfl, rfl⟩

section
variable {env : AuthEnv} {now : Time} {draw : AuthDraw} {db db' : AuthDb} {token : AccessToken}
  {bundle : TokenBundle} {ipAddress userAgent : Option String}

theorem KeepsIdentity.tokenOk (h : KeepsIdentity db db') (htoken : TokenOk db token) :
    TokenOk db' token := by
  obtain ⟨session, user, hsession, hsub, htnt, huser, htenant⟩ := htoken
  obtain ⟨session', hsession', hsub', htnt'⟩ := h.sessions _ session hsession
  obtain ⟨user', huser', htenant'⟩ := h.users _ user huser
  exact ⟨session', user', hsession', hsub'.trans hsub, htnt'.trans htnt, huser',
    htenant'.trans htenant⟩

/-- The session of a login belongs to the user that was found by email. -/
theorem newSession_owned {email : String} {user : User} (hok : IdentitiesOk db)
    (huser : db.userByEmail email = some user) : db.userById user.userId = some user :=
  Table.lookup_of_mem hok.distinct (Table.lookup_mem huser)

theorem LoginEffect.keepsIdentity {email password : String}
    (h : LoginEffect env now draw email password ipAddress userAgent db bundle db') :
    KeepsIdentity db db' := by
  obtain ⟨user, accessToken, db₁, db₂, huser, -, -, hsession, htoken, -, haudit, -⟩ := h
  have hsessions := keepsIdentity_insertSession hsession fun hok =>
    ⟨user, newSession_owned hok huser, rfl⟩
  apply trans_of KeepsIdentity hsessions
  apply trans_of KeepsIdentity (keepsIdentity_insertRefreshToken htoken)
  exact keepsIdentity_insertAudit haudit

theorem LoginEffect.tokenOk {email password : String} (hok : IdentitiesOk db)
    (h : LoginEffect env now draw email password ipAddress userAgent db bundle db') :
    TokenOk db' bundle.accessToken := by
  obtain ⟨user, accessToken, db₁, db₂, huser, -, -, hsession, htoken, hissue, haudit, rfl⟩ := h
  have hkeep : KeepsIdentity db₁ db' := trans_of KeepsIdentity
    (keepsIdentity_insertRefreshToken htoken) (keepsIdentity_insertAudit haudit)
  obtain ⟨hsub, htnt, hsid⟩ := accessTokenFor_claims hissue
  obtain ⟨rfl, hfresh⟩ := AuthDb.insertSession_eq_some hsession
  have hfound := Table.lookup_insert (k := (newSession draw user ipAddress userAgent).sessionId)
    (Table.lookup_eq_none.mpr hfresh)
  rw [if_pos rfl] at hfound
  apply hkeep.tokenOk
  refine ⟨newSession draw user ipAddress userAgent, user, ?_, hsub.symm, htnt.symm, ?_, htnt.symm⟩
  · change AuthDb.session _ accessToken.claims.sid = _
    rw [hsid]
    exact hfound
  · change AuthDb.userById _ accessToken.claims.sub = _
    rw [hsub]
    have howner : db.userById user.userId = some user := newSession_owned hok huser
    exact howner

theorem RefreshEffect.keepsIdentity {refreshToken : String}
    (h : RefreshEffect env now draw refreshToken ipAddress db bundle db') :
    KeepsIdentity db db' := by
  obtain ⟨rt, session, user, accessToken, db₁, -, -, -, -, -, hinsert, -, -, haudit, -⟩ := h
  have hconsumed : KeepsIdentity db (db.updateRefreshToken rt.tokenId (consumed now ipAddress)) :=
    keepsIdentity_same rfl rfl
  apply trans_of KeepsIdentity hconsumed
  apply trans_of KeepsIdentity (keepsIdentity_insertRefreshToken hinsert)
  exact keepsIdentity_insertAudit haudit

/-- The user of the new token is the one the session belongs to. -/
theorem RefreshEffect.tokenOk {refreshToken : String} (hok : IdentitiesOk db)
    (h : RefreshEffect env now draw refreshToken ipAddress db bundle db') :
    TokenOk db' bundle.accessToken := by
  obtain ⟨rt, session, user, accessToken, db₁, -, hsession, -, -, -, hinsert, huser, hissue, haudit,
    rfl⟩ := h
  obtain ⟨hsub, htnt, hsid⟩ := accessTokenFor_claims hissue
  obtain ⟨rfl, -⟩ := AuthDb.insertRefreshToken_eq_some hinsert
  apply (keepsIdentity_insertAudit haudit).tokenOk
  have hid : user.userId = session.userId := Table.lookup_key huser
  obtain ⟨owner, howner, hown⟩ := hok.owned _ session hsession
  cases howner.symm.trans huser
  refine ⟨session, user, ?_, hid.symm.trans hsub.symm, hown.symm.trans htnt.symm, ?_, htnt.symm⟩
  · change AuthDb.session _ accessToken.claims.sid = _
    rw [hsid, Table.lookup_key hsession]
    exact hsession
  · change AuthDb.userById _ accessToken.claims.sub = _
    rw [hsub, hid]
    exact huser

theorem LogoutEffect.keepsIdentity {refreshToken : String}
    (h : LogoutEffect env now draw refreshToken db db') : KeepsIdentity db db' := by
  rcases h with rfl | ⟨rt, session, -, -, -, haudit⟩
  · exact refl_of KeepsIdentity db'
  · exact trans_of KeepsIdentity keepsIdentity_revoked (keepsIdentity_insertAudit haudit)

theorem RevokeEffect.keepsIdentity {reason : String} {sessions : List AuthSession}
    {auditHexes : List String} (h : RevokeEffect now draw reason sessions auditHexes db db') :
    KeepsIdentity db db' := by
  induction h with
  | nil => exact refl_of KeepsIdentity _
  | cons hrevoked _ ih =>
    apply trans_of KeepsIdentity keepsIdentity_revoked
    exact trans_of KeepsIdentity (keepsIdentity_insertAudit hrevoked) ih

end

-- ---------------------------------------------------------------------------
-- Runs
-- ---------------------------------------------------------------------------

theorem step_keepsIdentity (env : AuthEnv) (s : St) (a : Act) :
    KeepsIdentity s.db (step env s a).db := by
  cases a with
  | register =>
    refine registerRoute_commits.preserves fun db bundle db' h => ?_
    obtain ⟨db₁, -, hinsert, hlogin⟩ := h
    exact trans_of KeepsIdentity (keepsIdentity_insertUser hinsert) hlogin.keepsIdentity
  | login => exact loginRoute_commits.preserves fun _ _ _ h => h.keepsIdentity
  | refresh => exact refreshRoute_commits.preserves fun _ _ _ h => h.keepsIdentity
  | logout => exact logoutRoute_commits.preserves fun _ _ _ h => h.keepsIdentity
  | createUser =>
    exact createUser_commits.preserves fun _ _ _ h => keepsIdentity_insertUser h.2
  | revokeUserSessions =>
    exact revokeUserSessions_commits.preserves fun _ _ _ h => h.2.keepsIdentity
  | changePassword =>
    refine changePassword_commits.preserves fun db _ db' h => ?_
    exact trans_of KeepsIdentity keepsIdentity_repassworded h.2.keepsIdentity
  | advance d => exact refl_of KeepsIdentity s.db

theorem run_keepsIdentity (env : AuthEnv) (s : St) (as : List Act) :
    KeepsIdentity s.db (run env s as).db := by
  induction as generalizing s with
  | nil => exact refl_of KeepsIdentity s.db
  | cons a as ih => exact trans_of KeepsIdentity (step_keepsIdentity env s a) (ih (step env s a))

/-- A transaction that answers with a bundle has committed it. -/
theorem answered {m : AuthM TokenBundle} {R : AuthDb → TokenBundle → AuthDb → Prop} {db : AuthDb}
    {bundle : TokenBundle} (hm : Commits m R) (h : (transaction m db).1.toOption = some bundle) :
    R db bundle (transaction m db).2 := by
  cases hrun : (transaction m db).1 with
  | ok b =>
    rw [hrun] at h
    cases h
    exact hm.transaction (Prod.ext hrun rfl)
  | error x =>
    rw [hrun] at h
    cases h

theorem response_tokenOk {env : AuthEnv} {s : St} {a : Act} {bundle : TokenBundle}
    (hok : IdentitiesOk s.db) (h : response env s a = some bundle) :
    TokenOk (step env s a).db bundle.accessToken := by
  cases a with
  | register =>
    obtain ⟨db₁, -, hinsert, hlogin⟩ := answered registerRoute_commits h
    exact hlogin.tokenOk ((keepsIdentity_insertUser hinsert).ok hok)
  | login => exact (answered loginRoute_commits h).tokenOk hok
  | refresh => exact (answered refreshRoute_commits h).tokenOk hok
  | _ => cases h

theorem issued_tokenOk {env : AuthEnv} {s : St} {as : List Act} {token : AccessToken}
    (hok : IdentitiesOk s.db) (h : token ∈ issued env s as) :
    TokenOk (run env s as).db token := by
  induction as generalizing s with
  | nil => cases h
  | cons a as ih =>
    rcases List.mem_append.mp h with hnow | hlater
    · obtain ⟨bundle, hbundle, rfl⟩ := List.mem_map.mp hnow
      have htoken := response_tokenOk hok (Option.mem_toList.mp hbundle)
      exact (run_keepsIdentity env (step env s a) as).tokenOk htoken
    · exact ih ((step_keepsIdentity env s a).ok hok) hlater

theorem identitiesOk_empty : IdentitiesOk AuthDb.empty where
  distinct := .nil
  owned := nofun

/-- The key that verified a token is one of the ring. -/
theorem verifyAccessToken_signedBy {ring : KeyRing} {now : Time} {token : AccessToken}
    {claims : Claims} (h : verifyAccessToken ring now token = .ok claims) :
    token.signedBy ∈ ring.allKeys.map SigningKey.seed := by
  unfold verifyAccessToken at h
  split at h
  · cases h
  · split at h
    · rename_i hany
      obtain ⟨key, hkey, hverified⟩ := List.any_eq_true.mp hany
      simp only [Bool.and_eq_true, decodes, decide_eq_true_eq] at hverified
      exact List.mem_map.mpr ⟨key, hkey, hverified.2.1.symm⟩
    · cases h

/-- A context whose token is not forged belongs to a live session of the same user and tenant. -/
theorem requireAuth_backed {env : AuthEnv} {start now : Time} {as : List Act}
    {authorization : Authorization} {context : AuthContext} {db' : AuthDb}
    (hcontext : transaction (requireAuth env now authorization) (run env ⟨AuthDb.empty, start⟩ as).db
      = (.ok context, db'))
    (hunforged : Unforged env ⟨AuthDb.empty, start⟩ as authorization) :
    Backed (run env ⟨AuthDb.empty, start⟩ as).db context := by
  obtain ⟨-, token, session, rfl, hverified, hsession, hlive, rfl⟩ :=
    requireAuth_commits.transaction hcontext
  have hissued := hunforged token rfl (verifyAccessToken_signedBy hverified)
  obtain ⟨session', user, hsession', hsub, htnt, huser, htenant⟩ :=
    issued_tokenOk identitiesOk_empty hissued
  cases hsession.symm.trans hsession'
  exact ⟨session, user, hsession, hlive, hsub, htnt, huser, htenant⟩

/-- After any requests, a context comes from a live session of the same user and
    tenant, unless its token is forged; and no context comes from a session that
    was revoked at any point before. -/
theorem context_backed (env : AuthEnv) (start : Time) (as : List Act) (now : Time)
    (authorization : Authorization) (context : AuthContext) (db' : AuthDb)
    (hcontext : transaction (requireAuth env now authorization) (run env ⟨AuthDb.empty, start⟩ as).db
      = (.ok context, db')) :
    (Unforged env ⟨AuthDb.empty, start⟩ as authorization →
      Backed (run env ⟨AuthDb.empty, start⟩ as).db context) ∧
    ∀ pre post, as = pre ++ post →
      ¬ RevokedIn (run env ⟨AuthDb.empty, start⟩ pre).db context.sessionId := by
  obtain ⟨-, token, session, rfl, hverified, hsession, hlive, rfl⟩ :=
    requireAuth_commits.transaction hcontext
  constructor
  · intro hunforged
    have hissued := hunforged token rfl (verifyAccessToken_signedBy hverified)
    obtain ⟨session', user, hsession', hsub, htnt, huser, htenant⟩ :=
      issued_tokenOk identitiesOk_empty hissued
    cases hsession.symm.trans hsession'
    exact ⟨session, user, hsession, hlive, hsub, htnt, huser, htenant⟩
  · rintro pre post rfl hrevoked
    rw [run_append] at hsession
    obtain ⟨session', hsession', hdead⟩ := run_keepsRevoked env _ post _ hrevoked
    cases hsession.symm.trans hsession'
    exact hdead hlive

/-- Create a user and log in. -/
def loggedIn : List Act :=
  [.createUser defaultTenantId "ana@fund.com" "password" (toyDraw "0"),
    .login "ana@fund.com" "password" none none (toyDraw "1")]

/-- The access token of that login. -/
def loggedInToken : AccessToken :=
  { kid := some "k1", signedBy := List.replicate 32 7
    claims :=
      { iss := "deal-screening-agent", sub := "usr_0", tnt := defaultTenantId, sid := "sess_1",
        roles := [], iat := 0, exp := 900 } }

theorem context_backed_loggedIn :
    Backed (run toyEnv ⟨AuthDb.empty, 0⟩ loggedIn).db ⟨"usr_0", defaultTenantId, "sess_1", []⟩ :=
  (context_backed toyEnv 0 loggedIn 0 (.bearer loggedInToken)
    ⟨"usr_0", defaultTenantId, "sess_1", []⟩ (run toyEnv ⟨AuthDb.empty, 0⟩ loggedIn).db
    (by decide +kernel)).1 (fun _ h _ => by
      cases h
      decide +kernel)

end Auth
