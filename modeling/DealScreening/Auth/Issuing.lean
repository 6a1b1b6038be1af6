-- SUMMARY: What every bundle of tokens comes with, by login or by refresh; a refresh asks nothing about the user, so its bundle can go to a deactivated one.
import DealScreening.Auth.Logout

/-!
# Issuing tokens

Login and refresh are the two ways to a bundle. Login looks at the user and opens a
session, refresh looks at the session and takes the user it names as it is.
-/

namespace Auth

open Session

/-- A call that issues tokens. -/
inductive IssuingCall where
  | login (email password : String) (ipAddress userAgent : Option String)
  | refresh (refreshToken : String) (ipAddress : Option String)
  deriving DecidableEq, Repr

def IssuingCall.run (env : AuthEnv) (now : Time) (draw : AuthDraw) : IssuingCall → AuthM TokenBundle
  | .login email password ipAddress userAgent =>
    Auth.login env now draw email password ipAddress userAgent
  | .refresh refreshToken ipAddress => Auth.refresh env now draw refreshToken ipAddress

/-- The policy for a bundle: an active user, a live session of theirs, a refresh token that
    can be used until its time is up, and an access token that names the three. -/
structure IssuedRightly (env : AuthEnv) (now : Time) (db : AuthDb) (bundle : TokenBundle)
    (db' : AuthDb) : Prop where
  user : ∃ user, db.userById bundle.userId = some user ∧ user.isActive = true ∧
    user.tenantId = bundle.tenantId
  session : ∃ session, db'.session bundle.accessToken.claims.sid = some session ∧
    session.revokedAt = none ∧ session.userId = bundle.userId ∧ session.tenantId = bundle.tenantId
  stored : ∃ rt, db'.tokenByHash (env.sha256 bundle.refreshToken) = some rt ∧
    rt.sessionId = bundle.accessToken.claims.sid ∧ rt.consumedAt = none ∧
    rt.expiresAt = now + Time.seconds env.config.refreshTtlS
  access : bundle.accessToken.claims.sub = bundle.userId ∧
    bundle.accessToken.claims.tnt = bundle.tenantId

/-- The user of the token's session is active, and the session is of the user's tenant. -/
def Entitled (env : AuthEnv) (db : AuthDb) : IssuingCall → Prop
  | .login .. => True
  | .refresh refreshToken _ => ∃ session user, presentedSession env db refreshToken = some session ∧
      db.userById session.userId = some user ∧ user.isActive = true ∧
      user.tenantId = session.tenantId

section
variable {env : AuthEnv} {now : Time} {draw : AuthDraw} {db db' : AuthDb} {bundle : TokenBundle}

theorem session_insertSession {session : AuthSession} (h : db.insertSession session = some db') :
    db'.session session.sessionId = some session := by
  obtain ⟨rfl, hfresh⟩ := AuthDb.insertSession_eq_some h
  unfold AuthDb.session
  rw [Table.lookup_insert (Table.lookup_eq_none.mpr hfresh), if_pos rfl]

theorem tokenByHash_insertRefreshToken {token : RefreshToken}
    (h : db.insertRefreshToken token = some db') : db'.tokenByHash token.tokenHash = some token := by
  obtain ⟨rfl, hfresh⟩ := AuthDb.insertRefreshToken_eq_some h
  unfold AuthDb.tokenByHash
  rw [Table.lookup_insert (Table.lookup_eq_none.mpr fun r hr => (hfresh r hr).2), if_pos rfl]

theorem LoginEffect.issuedRightly {email password : String} {ipAddress userAgent : Option String}
    (hids : db.users.Pairwise fun u v => u.userId ≠ v.userId)
    (h : LoginEffect env now draw email password ipAddress userAgent db bundle db') :
    IssuedRightly env now db bundle db' := by
  obtain ⟨user, accessToken, db₁, db₂, huser, hactive, -, hsession, htoken, hissue, haudit, rfl⟩ := h
  obtain ⟨hsub, htnt, hsid⟩ := accessTokenFor_claims hissue
  have hstored := tokenByHash_insertRefreshToken htoken
  have hopened := session_insertSession hsession
  have hafter := AuthDb.insertAudit_eq_some haudit
  have hinserted := (AuthDb.insertRefreshToken_eq_some htoken).1
  subst hafter
  refine ⟨?_, ?_, ?_, hsub, htnt⟩
  · exact ⟨user, Table.lookup_of_mem hids (Table.lookup_mem huser), hactive, rfl⟩
  · refine ⟨newSession draw user ipAddress userAgent, ?_, rfl, rfl, rfl⟩
    rw [hinserted]
    exact hsid ▸ hopened
  · exact ⟨_, hstored, hsid.symm, rfl, rfl⟩

theorem RefreshEffect.issuedRightly_iff {refreshToken : String} {ipAddress : Option String}
    (h : RefreshEffect env now draw refreshToken ipAddress db bundle db') :
    IssuedRightly env now db bundle db' ↔ Entitled env db (.refresh refreshToken ipAddress) := by
  obtain ⟨rt, session, user, accessToken, db₁, hrt, hsession, -, hlive, -, htoken, huser, hissue,
    haudit, rfl⟩ := h
  obtain ⟨hsub, htnt, hsid⟩ := accessTokenFor_claims hissue
  have hstored := tokenByHash_insertRefreshToken htoken
  have hafter := AuthDb.insertAudit_eq_some haudit
  have hinserted := (AuthDb.insertRefreshToken_eq_some htoken).1
  have hpresented := presentedSession_eq hrt.symm hsession.symm
  have hfound := presentedSession_found hpresented
  -- The call changes neither the users nor the sessions.
  have husers : db.userById session.userId = some user := by
    rwa [hinserted] at huser
  have hid : user.userId = session.userId := Table.lookup_key husers
  have hsessions : db'.session accessToken.claims.sid = some session := by
    rw [hafter, hinserted, hsid]
    exact hfound
  constructor
  · intro hright
    obtain ⟨user', huser', hactive, -⟩ := hright.user
    obtain ⟨session', hsession', -, -, htenant⟩ := hright.session
    cases hsessions.symm.trans hsession'
    rw [show (tokenBundle env user accessToken (generateRefreshToken env draw).1).userId =
      session.userId from hid, husers] at huser'
    cases huser'
    exact ⟨session, user, hpresented, husers, hactive, htenant.symm⟩
  · rintro ⟨session', user', hpresented', huser', hactive, htenant⟩
    cases hpresented.symm.trans hpresented'
    cases husers.symm.trans huser'
    refine ⟨⟨user, ?_, hactive, rfl⟩, ⟨session, hsessions, hlive, hid.symm, htenant.symm⟩, ?_,
      hsub, htnt⟩
    · rwa [← hid] at husers
    · rw [hafter]
      exact ⟨_, hstored, hsid.symm, rfl, rfl⟩

/-- A bundle is issued rightly exactly when the call is by login or the user of the refreshed
    session is still active; a call without a bundle changes nothing. -/
theorem issuing_policy (hids : db.users.Pairwise fun u v => u.userId ≠ v.userId)
    (call : IssuingCall) :
    (∀ bundle db', transaction (call.run env now draw) db = (.ok bundle, db') →
      (IssuedRightly env now db bundle db' ↔ Entitled env db call)) ∧
    ∀ x db', transaction (call.run env now draw) db = (.error x, db') → db' = db := by
  constructor
  · intro bundle db' h
    cases call with
    | login => exact iff_of_true ((login_commits.transaction h).issuedRightly hids) trivial
    | refresh => exact (refresh_commits.transaction h).issuedRightly_iff
  · intro x db' h
    have hback := transaction_rollback (congrArg Prod.fst h)
    rwa [h] at hback

end

/-- The first refresh after that login. -/
def firstRefresh : IssuingCall := .refresh "rt_1_1" none

theorem issuing_policy_firstRefresh : ∃ bundle db',
    transaction (firstRefresh.run toyEnv 0 (toyDraw "2")) loggedInDb = (.ok bundle, db') ∧
      (IssuedRightly toyEnv 0 loggedInDb bundle db' ↔ Entitled toyEnv loggedInDb firstRefresh) := by
  obtain ⟨bundle, hanswer⟩ : ∃ bundle,
      (transaction (firstRefresh.run toyEnv 0 (toyDraw "2")) loggedInDb).1 = .ok bundle := ⟨_, by rfl⟩
  have hrun : transaction (firstRefresh.run toyEnv 0 (toyDraw "2")) loggedInDb = (.ok bundle, _) :=
    Prod.ext hanswer rfl
  exact ⟨bundle, _, hrun, (issuing_policy (by decide +kernel) firstRefresh).1 bundle _ hrun⟩

/-- The user of that login has been deactivated. -/
def deactivatedDb : AuthDb := loggedInDb.updateUser "usr_0" fun user => { user with isActive := false }

/-- A deactivated user goes on refreshing. -/
theorem refresh_deactivated :
    ¬ ∀ (env : AuthEnv) (now : Time) (draw : AuthDraw) (db : AuthDb) (call : IssuingCall),
      (db.users.Pairwise fun u v => u.userId ≠ v.userId) →
      (∀ bundle db', transaction (call.run env now draw) db = (.ok bundle, db') →
        IssuedRightly env now db bundle db') ∧
      ∀ x db', transaction (call.run env now draw) db = (.error x, db') → db' = db := by
  intro h
  obtain ⟨hright, -⟩ := h toyEnv 0 (toyDraw "2") deactivatedDb firstRefresh (by decide +kernel)
  obtain ⟨bundle, hanswer, huser⟩ : ∃ bundle,
      (transaction (firstRefresh.run toyEnv 0 (toyDraw "2")) deactivatedDb).1 = .ok bundle ∧
        ∀ user, deactivatedDb.userById bundle.userId = some user → user.isActive = false := by
    refine ⟨_, by rfl, ?_⟩
    decide +kernel
  obtain ⟨user, hfound, hactive, -⟩ := (hright bundle _ (Prod.ext hanswer rfl)).user
  rw [huser user hfound] at hactive
  cases hactive

end Auth
