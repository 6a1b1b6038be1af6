-- SUMMARY: Logout ends the session of the token in its body; that is the session of the caller exactly when the token is one of that session.
import DealScreening.Auth.Identity

/-!
# Logout

The route knows its caller from the header and the session to revoke from the token in
the body, and nothing ties the two together.
-/

namespace Auth

open Session

/-- The session of the token in the body. -/
def presentedSession (env : AuthEnv) (db : AuthDb) (refreshToken : String) : Option AuthSession :=
  (db.tokenByHash (env.sha256 refreshToken)).bind fun rt => db.session rt.sessionId

/-- The session of the context is dead from now on, whatever requests follow, and of the
    sessions of other users none was revoked. -/
structure LoggedOut (env : AuthEnv) (now : Time) (context : AuthContext) (db db' : AuthDb) : Prop where
  dead : ∀ as, Dead env (run env ⟨db', now⟩ as).db context.sessionId
  others : ∀ sid session, db.session sid = some session → session.userId ≠ context.userId →
    RevokedIn db' sid → RevokedIn db sid

section
variable {env : AuthEnv} {now : Time} {draw : AuthDraw} {db db' : AuthDb}

theorem presentedSession_eq {refreshToken : String} {rt : RefreshToken} {session : AuthSession}
    (hrt : some rt = db.tokenByHash (env.sha256 refreshToken))
    (hsession : some session = db.session rt.sessionId) :
    presentedSession env db refreshToken = some session := by
  rw [presentedSession, ← hrt, Option.bind_some, ← hsession]

theorem presentedSession_found {refreshToken : String} {session : AuthSession}
    (h : presentedSession env db refreshToken = some session) :
    db.session session.sessionId = some session := by
  obtain ⟨rt, -, hsession⟩ := Option.bind_eq_some_iff.mp h
  have hkey := Table.lookup_key hsession
  rwa [← hkey] at hsession

theorem revokedIn_revoked {sid id reason : String} :
    RevokedIn (db.updateSession id (revoked now reason)) sid ↔
      RevokedIn db sid ∨ sid = id ∧ ∃ session, db.session id = some session := by
  have hkey : ∀ session, (revoked now reason session).sessionId = session.sessionId := fun _ => rfl
  unfold RevokedIn AuthDb.session AuthDb.updateSession
  dsimp only
  rw [Table.lookup_modify hkey]
  by_cases hid : sid = id
  · subst hid
    rw [if_pos rfl]
    constructor
    · rintro ⟨_, hfound, -⟩
      obtain ⟨session, hsession, rfl⟩ := Option.map_eq_some_iff.mp hfound
      exact .inr ⟨rfl, session, hsession⟩
    · rintro (⟨session, hsession, -⟩ | ⟨-, session, hsession⟩)
      · exact ⟨revoked now reason session, by rw [hsession, Option.map_some], by simp [revoked]⟩
      · exact ⟨revoked now reason session, by rw [hsession, Option.map_some], by simp [revoked]⟩
  · rw [if_neg hid]
    simp [hid]

theorem revokedIn_insertAudit {entry : AuthAuditLog} (h : db.insertAudit entry = some db')
    {sid : String} : RevokedIn db' sid ↔ RevokedIn db sid := by
  rw [AuthDb.insertAudit_eq_some h]
  rfl

/-- A logout revokes the session of the token, and no other. -/
theorem logout_revokes {refreshToken : String} :
    Commits (logout env now draw refreshToken) fun db _ db' => ∀ sid, RevokedIn db' sid ↔
      RevokedIn db sid ∨
        ∃ session, presentedSession env db refreshToken = some session ∧ session.sessionId = sid := by
  refine Commits.bind commits_select fun found => ?_
  cases found with
  | none =>
    refine commits_pure ?_
    rintro _ db ⟨hrt, rfl⟩ sid
    simp [presentedSession, ← hrt]
  | some rt =>
    refine Commits.bind commits_select fun found => ?_
    cases found with
    | none =>
      refine commits_pure ?_
      rintro _ _ ⟨hsession, rfl⟩ db ⟨hrt, rfl⟩ sid
      simp [presentedSession, ← hrt, ← hsession]
    | some session =>
      dsimp only
      split
      · refine Commits.bind revokeSession_commits fun _ => commits_write.weaken ?_
        rintro _ _ db' haudit _ rfl _ ⟨hsession, rfl⟩ db ⟨hrt, rfl⟩ sid
        have hpresented := presentedSession_eq hrt hsession
        rw [revokedIn_insertAudit haudit, revokedIn_revoked, hpresented]
        refine or_congr_right ⟨fun h => ⟨session, rfl, h.1.symm⟩, ?_⟩
        rintro ⟨_, ⟨⟩, rfl⟩
        exact ⟨rfl, session, presentedSession_found hpresented⟩
      · rename_i hrevoked
        refine commits_pure ?_
        rintro _ _ ⟨hsession, rfl⟩ db ⟨hrt, rfl⟩ sid
        have hpresented := presentedSession_eq hrt hsession
        refine ⟨.inl, ?_⟩
        rintro (h | ⟨session', hsession', rfl⟩)
        · exact h
        · cases hpresented.symm.trans hsession'
          exact ⟨session, presentedSession_found hpresented, hrevoked⟩

theorem logoutRoute_revokes {authorization : Authorization} {refreshToken : String} :
    Commits (logoutRoute env now draw authorization refreshToken) fun db _ db' => ∀ sid,
      RevokedIn db' sid ↔ RevokedIn db sid ∨
        ∃ session, presentedSession env db refreshToken = some session ∧ session.sessionId = sid := by
  refine Commits.bind requireAuth_commits fun context => logout_revokes.weaken ?_
  rintro _ _ db' hlogout db ⟨rfl, _⟩
  exact hlogout

/-- The session of a context is live. -/
theorem context_live {authorization : Authorization} {context : AuthContext}
    (h : transaction (requireAuth env now authorization) db = (.ok context, db')) :
    ¬ RevokedIn db context.sessionId := by
  obtain ⟨-, token, session, -, -, hsession, hlive, rfl⟩ := requireAuth_commits.transaction h
  rintro ⟨session', hsession', hrevoked⟩
  cases hsession.symm.trans hsession'
  exact hrevoked hlive

/-- When logout answers 204, the caller's session has ended and no session of another user
    exactly when the token in the body is one of the caller's session. -/
theorem logout_loggedOut_iff {authorization : Authorization} {context : AuthContext}
    {refreshToken : String} {db₁ : AuthDb}
    (hcontext : transaction (requireAuth env now authorization) db = (.ok context, db₁))
    (hanswer : transaction (logoutRoute env now draw authorization refreshToken) db = (.ok (), db')) :
    LoggedOut env now context db db' ↔
      ∃ session, presentedSession env db refreshToken = some session ∧
        session.sessionId = context.sessionId ∧ session.userId = context.userId := by
  have hlive := context_live hcontext
  have hrevokes := logoutRoute_revokes.transaction hanswer
  constructor
  · intro h
    have hrevoked : RevokedIn db' context.sessionId := (h.dead []).revoked
    obtain hbefore | ⟨session, hpresented, hsid⟩ := (hrevokes _).mp hrevoked
    · exact absurd hbefore hlive
    · refine ⟨session, hpresented, hsid, ?_⟩
      by_contra hother
      rw [← hsid] at hrevoked hlive
      exact hlive (h.others _ session (presentedSession_found hpresented) hother hrevoked)
  · rintro ⟨session, hpresented, hsid, huser⟩
    constructor
    · intro as
      have hrevoked := (hrevokes context.sessionId).mpr (.inr ⟨session, hpresented, hsid⟩)
      exact (run_keepsRevoked env ⟨db', now⟩ as _ hrevoked).dead
    · intro sid other hother hforeign hrevoked
      obtain hbefore | ⟨session', hpresented', rfl⟩ := (hrevokes sid).mp hrevoked
      · exact hbefore
      · cases hpresented.symm.trans hpresented'
        cases hother.symm.trans (presentedSession_found hpresented)
        exact absurd huser hforeign

end

/-- The database of that login, in which the first session is live. -/
def loggedInDb : AuthDb := (run toyEnv ⟨AuthDb.empty, 0⟩ loggedIn).db

theorem logout_loggedOut_iff_own :
    LoggedOut toyEnv 0 ⟨"usr_0", defaultTenantId, "sess_1", []⟩ loggedInDb
        (transaction (logoutRoute toyEnv 0 (toyDraw "2") (.bearer loggedInToken) "rt_1_1") loggedInDb).2 ↔
      ∃ session, presentedSession toyEnv loggedInDb "rt_1_1" = some session ∧
        session.sessionId = "sess_1" ∧ session.userId = "usr_0" :=
  @logout_loggedOut_iff toyEnv 0 (toyDraw "2") loggedInDb _ (.bearer loggedInToken) _ "rt_1_1" loggedInDb
    (by decide +kernel) (Prod.ext (by decide +kernel) rfl)

/-- With a token that nobody knows the caller stays logged in. -/
theorem logout_unknown_token :
    ¬ ∀ (env : AuthEnv) (now : Time) (draw : AuthDraw) (db db₁ db' : AuthDb)
        (authorization : Authorization) (context : AuthContext) (refreshToken : String),
      transaction (requireAuth env now authorization) db = (.ok context, db₁) →
      transaction (logoutRoute env now draw authorization refreshToken) db = (.ok (), db') →
        LoggedOut env now context db db' := by
  intro h
  have hout := h toyEnv 0 (toyDraw "2") loggedInDb loggedInDb loggedInDb (.bearer loggedInToken)
    ⟨"usr_0", defaultTenantId, "sess_1", []⟩ "unknown" (by decide +kernel) (by decide +kernel)
  exact absurd (hout.dead []).revoked (by decide +kernel)

end Auth
