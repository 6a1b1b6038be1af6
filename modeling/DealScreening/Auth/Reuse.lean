-- SUMMARY: Reuse of a refresh token ends its session for good exactly when the session is already revoked, because the revocation of a reuse is rolled back with the request that detects it.
import DealScreening.Auth.Effects
import Mathlib.Order.Defs.Unbundled

/-!
# Refresh-token reuse

A refresh with a consumed token revokes the session, writes an audit row and
raises. The route turns the exception into a 401 and raises that, and `get_db`
rolls the revocation back. What is left are two facts: a revoked session stays
revoked and is accepted nowhere, and a request that presents a consumed token
changes nothing.
-/

namespace Auth

open Session

/-- The session exists and has been revoked. -/
def RevokedIn (db : AuthDb) (sid : String) : Prop :=
  ∃ session, db.session sid = some session ∧ session.revokedAt ≠ none

instance (db : AuthDb) (sid : String) : Decidable (RevokedIn db sid) :=
  decidable_of_iff ((db.session sid).any fun session => session.revokedAt.isSome) <| by
    simp [RevokedIn, Option.any_eq_true, Option.isSome_iff_ne_none]

/-- The action is a refresh that presents a consumed token of the session. -/
def replays (env : AuthEnv) (db : AuthDb) (sid : String) : Act → Bool
  | .refresh refreshToken _ _ =>
    (db.tokenByHash (env.sha256 refreshToken)).any fun rt =>
      rt.sessionId = sid ∧ rt.consumedAt ≠ none
  | _ => false

/-- The session is revoked, none of its refresh tokens yields a bundle, and no
    access token for it is accepted. -/
structure Dead (env : AuthEnv) (db : AuthDb) (sid : String) : Prop where
  revoked : RevokedIn db sid
  refresh : ∀ now draw refreshToken ipAddress rt,
    db.tokenByHash (env.sha256 refreshToken) = some rt → rt.sessionId = sid →
      ∀ bundle, (transaction (refreshRoute env now draw refreshToken ipAddress) db).1 ≠ .ok bundle
  access : ∀ now (token : AccessToken), token.claims.sid = sid →
    ∀ context, (transaction (requireAuth env now (.bearer token)) db).1 ≠ .ok context

-- ---------------------------------------------------------------------------
-- Revoked sessions stay revoked
-- ---------------------------------------------------------------------------

/-- No session that was revoked is no longer so. -/
def KeepsRevoked (db db' : AuthDb) : Prop :=
  ∀ sid, RevokedIn db sid → RevokedIn db' sid

instance : IsPreorder AuthDb KeepsRevoked where
  refl _ _ h := h
  trans _ _ _ h h' sid hsid := h' sid (h sid hsid)

theorem keepsRevoked_of_sessions {db db' : AuthDb} (h : db'.sessions = db.sessions) :
    KeepsRevoked db db' := by
  intro sid hsid
  unfold RevokedIn AuthDb.session at hsid ⊢
  rw [h]
  exact hsid

theorem keepsRevoked_insertSession {session : AuthSession} {db db' : AuthDb}
    (h : db.insertSession session = some db') : KeepsRevoked db db' := by
  obtain ⟨rfl, _⟩ := AuthDb.insertSession_eq_some h
  rintro sid ⟨old, hold, hrevoked⟩
  refine ⟨old, ?_, hrevoked⟩
  unfold AuthDb.session at hold ⊢
  simp only [Table.lookup_append, hold]
  rfl

theorem keepsRevoked_revoked {db : AuthDb} {id reason : String} {now : Time} :
    KeepsRevoked db (db.updateSession id (revoked now reason)) := by
  rintro sid ⟨old, hold, hrevoked⟩
  unfold AuthDb.session at hold
  unfold RevokedIn AuthDb.session AuthDb.updateSession
  have hkey : ∀ session, (revoked now reason session).sessionId = session.sessionId := fun _ => rfl
  dsimp only
  rw [Table.lookup_modify hkey]
  by_cases hid : sid = id
  · subst hid
    exact ⟨revoked now reason old, by rw [if_pos rfl, hold, Option.map_some], nofun⟩
  · exact ⟨old, by rw [if_neg hid, hold], hrevoked⟩

theorem keepsRevoked_insertUser {user : User} {db db' : AuthDb}
    (h : db.insertUser user = some db') : KeepsRevoked db db' :=
  keepsRevoked_of_sessions (by rw [AuthDb.insertUser_eq_some h])

theorem keepsRevoked_insertRefreshToken {token : RefreshToken} {db db' : AuthDb}
    (h : db.insertRefreshToken token = some db') : KeepsRevoked db db' :=
  keepsRevoked_of_sessions (by rw [(AuthDb.insertRefreshToken_eq_some h).1])

theorem keepsRevoked_insertAudit {entry : AuthAuditLog} {db db' : AuthDb}
    (h : db.insertAudit entry = some db') : KeepsRevoked db db' :=
  keepsRevoked_of_sessions (by rw [AuthDb.insertAudit_eq_some h])

section
variable {env : AuthEnv} {now : Time} {draw : AuthDraw} {db db' : AuthDb}

theorem LoginEffect.keepsRevoked {email password : String} {ipAddress userAgent : Option String}
    {bundle : TokenBundle}
    (h : LoginEffect env now draw email password ipAddress userAgent db bundle db') :
    KeepsRevoked db db' := by
  obtain ⟨user, accessToken, db₁, db₂, -, -, -, hsession, htoken, -, haudit, -⟩ := h
  apply trans_of KeepsRevoked (keepsRevoked_insertSession hsession)
  apply trans_of KeepsRevoked (keepsRevoked_insertRefreshToken htoken)
  exact keepsRevoked_insertAudit haudit

theorem RefreshEffect.keepsRevoked {refreshToken : String} {ipAddress : Option String}
    {bundle : TokenBundle} (h : RefreshEffect env now draw refreshToken ipAddress db bundle db') :
    KeepsRevoked db db' := by
  obtain ⟨rt, session, user, accessToken, db₁, -, -, -, -, -, hinsert, -, -, haudit, -⟩ := h
  apply trans_of KeepsRevoked (keepsRevoked_of_sessions rfl)
  apply trans_of KeepsRevoked (keepsRevoked_insertRefreshToken hinsert)
  exact keepsRevoked_insertAudit haudit

theorem LogoutEffect.keepsRevoked {refreshToken : String}
    (h : LogoutEffect env now draw refreshToken db db') : KeepsRevoked db db' := by
  rcases h with rfl | ⟨rt, session, -, -, -, haudit⟩
  · exact refl_of KeepsRevoked db'
  · exact trans_of KeepsRevoked keepsRevoked_revoked (keepsRevoked_insertAudit haudit)

theorem RevokeEffect.keepsRevoked {reason : String} {sessions : List AuthSession}
    {auditHexes : List String} (h : RevokeEffect now draw reason sessions auditHexes db db') :
    KeepsRevoked db db' := by
  induction h with
  | nil => exact refl_of KeepsRevoked _
  | cons hrevoked _ ih =>
    apply trans_of KeepsRevoked keepsRevoked_revoked
    exact trans_of KeepsRevoked (keepsRevoked_insertAudit hrevoked) ih

end

/-- No request makes a revoked session live again. -/
theorem step_keepsRevoked (env : AuthEnv) (s : St) (a : Act) :
    KeepsRevoked s.db (step env s a).db := by
  cases a with
  | register =>
    refine registerRoute_commits.preserves fun db bundle db' h => ?_
    obtain ⟨db₁, -, hinsert, hlogin⟩ := h
    exact trans_of KeepsRevoked (keepsRevoked_insertUser hinsert) hlogin.keepsRevoked
  | login => exact loginRoute_commits.preserves fun _ _ _ h => h.keepsRevoked
  | refresh => exact refreshRoute_commits.preserves fun _ _ _ h => h.keepsRevoked
  | logout => exact logoutRoute_commits.preserves fun _ _ _ h => h.keepsRevoked
  | createUser =>
    exact createUser_commits.preserves fun _ _ _ h => keepsRevoked_insertUser h.2
  | revokeUserSessions =>
    exact revokeUserSessions_commits.preserves fun _ _ _ h => h.2.keepsRevoked
  | changePassword =>
    refine changePassword_commits.preserves fun db _ db' h => ?_
    exact trans_of KeepsRevoked (keepsRevoked_of_sessions rfl) h.2.keepsRevoked
  | advance d => exact refl_of KeepsRevoked s.db

theorem run_keepsRevoked (env : AuthEnv) (s : St) (as : List Act) :
    KeepsRevoked s.db (run env s as).db := by
  induction as generalizing s with
  | nil => exact refl_of KeepsRevoked s.db
  | cons a as ih => exact trans_of KeepsRevoked (step_keepsRevoked env s a) (ih (step env s a))

-- ---------------------------------------------------------------------------
-- Revoked sessions are accepted nowhere, and replays change nothing
-- ---------------------------------------------------------------------------

theorem RevokedIn.dead {env : AuthEnv} {db : AuthDb} {sid : String} (h : RevokedIn db sid) :
    Dead env db sid where
  revoked := h
  refresh := fun now draw refreshToken ipAddress rt hrt hsid bundle hbundle => by
    subst hsid
    obtain ⟨session, hsession, hrevoked⟩ := h
    have heffect := refreshRoute_commits.transaction (Prod.ext hbundle rfl)
    obtain ⟨rt', session', _, _, _, hrt', hsession', -, hlive, -⟩ := heffect
    cases hrt.symm.trans hrt'
    cases hsession.symm.trans hsession'
    exact hrevoked hlive
  access := fun now token hsid context hcontext => by
    subst hsid
    obtain ⟨session, hsession, hrevoked⟩ := h
    obtain ⟨-, token', session', htoken, -, hsession', hlive, -⟩ :=
      requireAuth_commits.transaction (Prod.ext hcontext rfl)
    cases htoken
    cases hsession.symm.trans hsession'
    exact hrevoked hlive

/-- The request that presents a consumed token commits nothing. -/
theorem step_replay {env : AuthEnv} {s : St} {a : Act} {sid : String}
    (h : replays env s.db sid a = true) : (step env s a).db = s.db := by
  cases a with
  | refresh refreshToken ipAddress draw =>
    simp only [replays, Option.any_eq_true, decide_eq_true_eq] at h
    obtain ⟨rt, hrt, _, hconsumed⟩ := h
    rcases refreshRoute_commits.commit s.db with hback | ⟨bundle, heffect⟩
    · exact hback
    · obtain ⟨rt', _, _, _, _, hrt', -, hlive, -⟩ := heffect
      cases hrt.symm.trans hrt'
      exact absurd hlive hconsumed
  | _ => cases h

/-- In every run, the session is dead in every state after a reuse of one of its
    tokens exactly when each reuse finds it already revoked. -/
theorem reuse_kills_session_iff (env : AuthEnv) (s : St) (as : List Act) (sid : String) :
    (∀ pre a mid post, as = pre ++ a :: (mid ++ post) →
      replays env (run env s pre).db sid a = true → Dead env (run env s (pre ++ a :: mid)).db sid) ↔
    (∀ pre a post, as = pre ++ a :: post →
      replays env (run env s pre).db sid a = true → RevokedIn (run env s pre).db sid) := by
  constructor
  · intro h pre a post has hreplay
    have hdead := h pre a [] post has hreplay
    rw [run_append] at hdead
    change Dead env (step env (run env s pre) a).db sid at hdead
    rw [step_replay hreplay] at hdead
    exact hdead.revoked
  · intro h pre a mid post has hreplay
    have hrevoked := h pre a (mid ++ post) has hreplay
    rw [run_append]
    exact (run_keepsRevoked env _ (a :: mid) sid hrevoked).dead

/-- Login with token `rt_1_1`, which is then exchanged for `rt_2_2`. -/
def exchangedOnce : List Act :=
  [.createUser defaultTenantId "ana@fund.com" "password" (toyDraw "0"),
    .login "ana@fund.com" "password" none none (toyDraw "1"), .refresh "rt_1_1" none (toyDraw "2")]

theorem reuse_keeps_session_alive :
    ¬ ∀ (env : AuthEnv) (s : St) (as : List Act) (sid : String) (pre : List Act) (a : Act)
        (mid post : List Act), as = pre ++ a :: (mid ++ post) →
      replays env (run env s pre).db sid a = true →
        Dead env (run env s (pre ++ a :: mid)).db sid := by
  intro h
  have hdead := h toyEnv ⟨AuthDb.empty, 0⟩ _ "sess_1" exchangedOnce
    (.refresh "rt_1_1" none (toyDraw "3")) [] [] rfl (by decide)
  exact absurd hdead.revoked (by decide)

end Auth
