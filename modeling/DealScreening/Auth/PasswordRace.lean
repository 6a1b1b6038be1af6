-- SUMMARY: A password change among concurrent logins and refreshes, statement by statement: it ends every session of the old password exactly when no login of the old password commits after the change has listed the sessions.
import DealScreening.Auth.RefreshRace

/-!
# Concurrent password change

Every call is a READ COMMITTED transaction of its own. The change lists the live
sessions it can see and revokes these; a login that read the user before the
change commits may still insert its session after that. The `UPDATE` of the user
does not stop it: the foreign key of the session only takes a key-share lock.
-/

namespace PasswordRace

open Session

structure LoginRequest where
  email : String
  password : String
  ipAddress : Option String
  userAgent : Option String
  draw : AuthDraw
  deriving DecidableEq, Repr

/-- The user as a login read it, and what it is answered with. -/
structure Login where
  request : LoginRequest
  user : User
  bundle : TokenBundle
  deriving DecidableEq, Repr

/-- The session a login inserts. -/
def Login.session (login : Login) : AuthSession :=
  Auth.newSession login.request.draw login.user login.request.ipAddress login.request.userAgent

/-- The next statement of a login, with what the earlier ones read. -/
inductive LoginTx where
  /-- `SELECT` the user, then verify the password. -/
  | begun (request : LoginRequest)
  /-- `INSERT` the session. -/
  | verified (request : LoginRequest) (user : User)
  /-- `COMMIT`, with the refresh token and the audit row. -/
  | inserted (login : Login) (token : RefreshToken)
  /-- Committed, or rolled back by an exception. -/
  | done
  deriving DecidableEq, Repr

/-- The call of `change_password`. -/
structure Change where
  userId : String
  newPassword : String
  auditHexes : List String
  draw : AuthDraw
  deriving DecidableEq, Repr

/-- The hash the change stores. -/
def Change.newHash (env : AuthEnv) (change : Change) : String :=
  env.passwords.hash change.draw.salt change.newPassword

/-- The next statement of the change, with what the earlier ones read. -/
inductive ChangeTx where
  /-- `SELECT` the user. -/
  | begun
  /-- `UPDATE` the user; it is sent with the query for the sessions. -/
  | userRead
  /-- `SELECT` the live sessions. -/
  | updated (changedAt : Time)
  /-- `UPDATE` these sessions. -/
  | listed (changedAt revokedAt : Time) (sessions : List AuthSession)
  /-- `COMMIT`, with the audit rows. -/
  | revoked (changedAt revokedAt : Time) (sessions : List AuthSession)
  | committed
  | aborted
  deriving DecidableEq, Repr

namespace ChangeTx

/-- The change has listed the sessions, and has not been rolled back. -/
def hasListed : ChangeTx → Bool
  | .listed .. | .revoked .. | .committed => true
  | _ => false

/-- The sessions the change is going to revoke. -/
def pending : ChangeTx → List AuthSession
  | .listed _ _ sessions | .revoked _ _ sessions => sessions
  | _ => []

end ChangeTx

/-- The refresh requests with the database and the clock, the logins, the change,
    and the logins that have committed. -/
structure St where
  core : RefreshRace.St
  logins : List LoginTx
  change : ChangeTx
  created : List Login
  deriving DecidableEq, Repr

def init (db : AuthDb) (now : Time) : St := ⟨RefreshRace.init db now, [], .begun, []⟩

inductive Act where
  | refresh (a : RefreshRace.Act)
  | begin (request : LoginRequest)
  | selectUser (i : Nat)
  | insertSession (i : Nat)
  | commitLogin (i : Nat)
  | abortLogin (i : Nat)
  | changeSelectUser
  | changeUpdateUser
  | changeSelectSessions
  | changeUpdateSessions
  | changeCommit
  | changeAbort
  deriving DecidableEq, Repr

/-- What `login` makes of the user it found: none if it raises. -/
def verifies (env : AuthEnv) (request : LoginRequest) (user : User) : Bool :=
  user.isActive && env.passwords.verify request.password user.passwordHash

/-- The first refresh token of a login. -/
def rootToken (env : AuthEnv) (now : Time) (login : Login) : RefreshToken :=
  Auth.newRefreshToken env now login.request.draw login.session.sessionId none

def loginBundle (env : AuthEnv) (now : Time) (request : LoginRequest) (user : User) :
    Option TokenBundle :=
  (Auth.accessTokenFor env now user (prefixedId "sess" request.draw.sessionHex)).map
    fun accessToken =>
      Auth.tokenBundle env user accessToken (Auth.generateRefreshToken env request.draw).1

/-- The database after the commit of a login. -/
def commitLogin (db : AuthDb) (login : Login) (token : RefreshToken) : Option AuthDb :=
  ((db.insertSession login.session).bind (AuthDb.insertRefreshToken token)).bind
    (AuthDb.insertAudit (Auth.auditEntry login.request.draw .loginSuccess (some login.user.userId)
      (some login.user.tenantId) (some login.session.sessionId) login.request.ipAddress
      login.request.userAgent none))

/-- What the change writes. -/
def changeWrites (env : AuthEnv) (change : Change) (changedAt revokedAt : Time)
    (sessions : List AuthSession) : Auth.AuthM Unit := do
  update (AuthDb.updateUser change.userId
    (Auth.repassworded env changedAt change.draw change.newPassword))
  Auth.revokeEach revokedAt change.draw "password_change" sessions change.auditHexes

namespace St

def setLogin (s : St) (i : Nat) (tx : LoginTx) : St :=
  { s with logins := s.logins.set i tx }

def setChange (s : St) (change : ChangeTx) : St := { s with change }

def setDb (s : St) (db : AuthDb) : St := { s with core := { s.core with db } }

/-- Every call has ended, the change with its commit. -/
def finished (s : St) : Bool :=
  s.change = .committed ∧ s.logins.all (· = .done) ∧ s.core.txs.all (· = .done)

end St

/-- One statement of one transaction. -/
def step (env : AuthEnv) (change : Change) (s : St) : Act → Option St
  | .refresh a => (RefreshRace.step env s.core a).map fun core => { s with core }
  | .begin request => some { s with logins := s.logins ++ [.begun request] }
  | .selectUser i =>
    match s.logins[i]? with
    | some (.begun request) =>
      match s.core.db.userByEmail (env.normalizeEmail request.email) with
      | none => some (s.setLogin i .done)
      | some user =>
        if verifies env request user then some (s.setLogin i (.verified request user))
        else some (s.setLogin i .done)
    | _ => none
  | .insertSession i =>
    match s.logins[i]? with
    | some (.verified request user) =>
      match loginBundle env s.core.now request user with
      | none => some (s.setLogin i .done)
      | some bundle =>
        let login : Login := ⟨request, user, bundle⟩
        match s.core.db.insertSession login.session with
        | none => some (s.setLogin i .done)
        | some _ => some (s.setLogin i (.inserted login (rootToken env s.core.now login)))
    | _ => none
  | .commitLogin i =>
    match s.logins[i]? with
    | some (.inserted login token) =>
      match commitLogin s.core.db login token with
      | none => some (s.setLogin i .done)
      | some db => some { (s.setLogin i .done).setDb db with created := s.created ++ [login] }
    | _ => none
  | .abortLogin i => if i < s.logins.length then some (s.setLogin i .done) else none
  | .changeSelectUser =>
    match s.change with
    | .begun =>
      match s.core.db.userById change.userId with
      | none => some (s.setChange .aborted)
      | some _ => some (s.setChange .userRead)
    | _ => none
  | .changeUpdateUser =>
    match s.change with
    | .userRead => some (s.setChange (.updated s.core.now))
    | _ => none
  | .changeSelectSessions =>
    match s.change with
    | .updated changedAt =>
      some (s.setChange
        (.listed changedAt s.core.now (Auth.liveSessions change.userId s.core.db)))
    | _ => none
  | .changeUpdateSessions =>
    match s.change with
    | .listed changedAt revokedAt sessions =>
      some (s.setChange (.revoked changedAt revokedAt sessions))
    | _ => none
  | .changeCommit =>
    match s.change with
    | .revoked changedAt revokedAt sessions =>
      match transaction (changeWrites env change changedAt revokedAt sessions) s.core.db with
      | (.ok (), db) => some ((s.setChange .committed).setDb db)
      | (.error _, _) => some (s.setChange .aborted)
    | _ => none
  | .changeAbort =>
    match s.change with
    | .committed => none
    | _ => some (s.setChange .aborted)

-- ---------------------------------------------------------------------------
-- What the change is for
-- ---------------------------------------------------------------------------

/-- The session was created by a login that has verified the new password. -/
def VerifiedNew (env : AuthEnv) (change : Change) (s : St) (sessionId : String) : Prop :=
  ∃ login ∈ s.created, login.session.sessionId = sessionId ∧
    login.user.passwordHash = change.newHash env ∧
    env.passwords.verify login.request.password (change.newHash env) = true

/-- The session id is one of the user. -/
def SessionOf (db : AuthDb) (userId sessionId : String) : Prop :=
  ∃ session, db.session sessionId = some session ∧ session.userId = userId

/-- Every live session of the user was created with the new password, and no access
    token and no refresh token of another one is of any use. -/
structure Evicted (env : AuthEnv) (change : Change) (s : St) : Prop where
  sessions : ∀ session ∈ s.core.db.sessions, session.userId = change.userId →
    session.revokedAt = none → VerifiedNew env change s session.sessionId
  access : ∀ now authorization context db',
    transaction (Auth.requireAuth env now authorization) s.core.db = (.ok context, db') →
      SessionOf s.core.db change.userId context.sessionId →
        VerifiedNew env change s context.sessionId
  refresh : ∀ now draw refreshToken ipAddress bundle db' rt,
    transaction (Auth.refreshRoute env now draw refreshToken ipAddress) s.core.db =
        (.ok bundle, db') →
      s.core.db.tokenByHash (env.sha256 refreshToken) = some rt →
        SessionOf s.core.db change.userId rt.sessionId → VerifiedNew env change s rt.sessionId

/-- A login of the user that goes through after the change has listed the sessions
    has verified the password against the new hash. -/
def CommitsVerified (env : AuthEnv) (change : Change) (s : St) (a : Act) : Prop :=
  ∀ i login token, a = .commitLogin i → s.logins[i]? = some (.inserted login token) →
    s.change.hasListed = true → login.user.userId = change.userId →
    commitLogin s.core.db login token ≠ none → login.user.passwordHash = change.newHash env

-- ---------------------------------------------------------------------------
-- What the commits do to the sessions
-- ---------------------------------------------------------------------------

section
variable {env : AuthEnv} {change : Change} {s t : St} {db db' : AuthDb}

theorem commitLogin_sessions {login : Login} {token : RefreshToken}
    (h : commitLogin db login token = some db') :
    db'.sessions = db.sessions ++ [login.session] ∧
      ∀ session ∈ db.sessions, session.sessionId ≠ login.session.sessionId := by
  obtain ⟨db₂, h, haudit⟩ := Option.bind_eq_some_iff.mp h
  obtain ⟨db₁, hsession, htoken⟩ := Option.bind_eq_some_iff.mp h
  obtain ⟨rfl, hfresh⟩ := AuthDb.insertSession_eq_some hsession
  obtain ⟨rfl, -⟩ := AuthDb.insertRefreshToken_eq_some htoken
  rw [AuthDb.insertAudit_eq_some haudit]
  exact ⟨rfl, hfresh⟩

/-- A refresh writes no session. -/
theorem refresh_sessions {core core' : RefreshRace.St} {a : RefreshRace.Act}
    (h : RefreshRace.step env core a = some core') : core'.db.sessions = core.db.sessions := by
  by_cases hcommit : ∃ i, a = .commit i
  · obtain ⟨i, rfl⟩ := hcommit
    obtain ⟨exchange, consumedAt, child, entry, bundle, -, ⟨-, rfl⟩ | ⟨db, hdb, rfl⟩⟩ :=
      RefreshRace.commit_cases h
    · rfl
    · obtain ⟨db₁, hinsert, haudit⟩ := Option.bind_eq_some_iff.mp hdb
      rw [AuthDb.insertAudit_eq_some haudit, (AuthDb.insertRefreshToken_eq_some hinsert).1]
      rfl
  · rw [RefreshRace.step_db (fun i e => hcommit ⟨i, e⟩) h]

/-- The sessions after revocations: the live ones were live before and are not
    among those revoked. -/
theorem revokeEffect_live {now : Time} {draw : AuthDraw} {reason : String}
    {sessions : List AuthSession} {auditHexes : List String}
    (h : Auth.RevokeEffect now draw reason sessions auditHexes db db') :
    ∀ session, session.revokedAt = none →
      (session ∈ db'.sessions ↔
        session ∈ db.sessions ∧ ∀ r ∈ sessions, r.sessionId ≠ session.sessionId) := by
  induction h with
  | nil => simp
  | @cons first rest hexes db db₁ db' hrevoked _ ih =>
    intro session hlive
    have hmodified : session ∈ db₁.sessions ↔
        session ∈ db.sessions ∧ first.sessionId ≠ session.sessionId := by
      rw [AuthDb.insertAudit_eq_some hrevoked]
      change session ∈ List.map _ db.sessions ↔ _
      rw [List.mem_map]
      constructor
      · rintro ⟨old, hold, heq⟩
        split at heq
        · -- a revoked row is not live
          rw [← heq] at hlive
          cases hlive
        · rename_i hne
          rw [← heq]
          exact ⟨hold, fun h => hne h.symm⟩
      · rintro ⟨hold, hne⟩
        exact ⟨session, hold, if_neg fun h => hne h.symm⟩
    rw [ih session hlive, hmodified, List.forall_mem_cons, and_assoc]

theorem changeWrites_commits {changedAt revokedAt : Time} {sessions : List AuthSession} :
    Commits (changeWrites env change changedAt revokedAt sessions) fun db _ db' =>
      Auth.RevokeEffect revokedAt change.draw "password_change" sessions change.auditHexes
        (db.updateUser change.userId
          (Auth.repassworded env changedAt change.draw change.newPassword)) db' := by
  refine Commits.bind commits_update fun _ => Auth.revokeEach_commits.weaken ?_
  rintro db₁ _ db' hrevoke db rfl
  exact hrevoke

theorem changeWrites_live {changedAt revokedAt : Time} {sessions : List AuthSession}
    (h : transaction (changeWrites env change changedAt revokedAt sessions) db = (.ok (), db')) :
    ∀ session, session.revokedAt = none →
      (session ∈ db'.sessions ↔
        session ∈ db.sessions ∧ ∀ r ∈ sessions, r.sessionId ≠ session.sessionId) := by
  have hlive := revokeEffect_live (changeWrites_commits.transaction h)
  exact hlive

/-- Revocations keep every session. -/
theorem revokeEffect_ids {now : Time} {draw : AuthDraw} {reason : String}
    {sessions : List AuthSession} {auditHexes : List String}
    (h : Auth.RevokeEffect now draw reason sessions auditHexes db db') :
    ∀ session ∈ db.sessions, ∃ session' ∈ db'.sessions, session'.sessionId = session.sessionId := by
  induction h with
  | nil => exact fun session hmem => ⟨session, hmem, rfl⟩
  | @cons first rest hexes db db₁ db' hrevoked _ ih =>
    intro session hmem
    rw [AuthDb.insertAudit_eq_some hrevoked] at ih
    obtain ⟨session', hmem', hid⟩ := ih _ (List.mem_map_of_mem hmem)
    refine ⟨session', hmem', hid.trans ?_⟩
    split <;> rfl

theorem changeWrites_ids {changedAt revokedAt : Time} {sessions : List AuthSession}
    (h : transaction (changeWrites env change changedAt revokedAt sessions) db = (.ok (), db')) :
    ∀ session ∈ db.sessions, ∃ session' ∈ db'.sessions, session'.sessionId = session.sessionId := by
  have hids := revokeEffect_ids (changeWrites_commits.transaction h)
  exact hids

theorem commitsVerified_of_ne {a : Act} (h : ∀ i, a ≠ .commitLogin i) :
    CommitsVerified env change s a :=
  fun i _ _ ha => absurd ha (h i)

/-- What one statement does to the sessions, the committed logins and the list of
    sessions to revoke. -/
inductive Effect (env : AuthEnv) (change : Change) (s : St) (a : Act) (t : St) : Prop
  /-- Nothing. -/
  | quiet (hsessions : t.core.db.sessions = s.core.db.sessions) (hcreated : t.created = s.created)
      (hlisted : t.change.hasListed = s.change.hasListed)
      (hpending : t.change.pending = s.change.pending) (hok : CommitsVerified env change s a)
  | aborted (hsessions : t.core.db.sessions = s.core.db.sessions) (hcreated : t.created = s.created)
      (hchange : t.change = .aborted)
  /-- The change lists the live sessions. -/
  | listed (hsessions : t.core.db.sessions = s.core.db.sessions) (hcreated : t.created = s.created)
      (hbefore : s.change.hasListed = false)
      (hpending : t.change.pending = Auth.liveSessions change.userId s.core.db)
      (hok : CommitsVerified env change s a)
  /-- A login commits. -/
  | login (i : Nat) (login : Login) (token : RefreshToken) (db : AuthDb) (ha : a = .commitLogin i)
      (htx : s.logins[i]? = some (.inserted login token))
      (hdb : commitLogin s.core.db login token = some db) (hcore : t.core.db = db)
      (hcreated : t.created = s.created ++ [login]) (hchange : t.change = s.change)
  /-- The change commits. -/
  | revoked (changedAt revokedAt : Time) (sessions : List AuthSession)
      (hbefore : s.change = .revoked changedAt revokedAt sessions)
      (hdb : transaction (changeWrites env change changedAt revokedAt sessions) s.core.db =
        (.ok (), t.core.db))
      (hcreated : t.created = s.created) (hchange : t.change = .committed)
      (hok : CommitsVerified env change s a)

/-- The password was verified against the hash that was read. -/
def LoginOk (env : AuthEnv) : LoginTx → Prop
  | .verified request user => env.passwords.verify request.password user.passwordHash = true
  | .inserted login _ =>
    env.passwords.verify login.request.password login.user.passwordHash = true
  | .begun _ | .done => True

/-- What holds however the statements are interleaved. -/
structure Inv (env : AuthEnv) (s : St) : Prop where
  logins : ∀ tx ∈ s.logins, LoginOk env tx
  verified : ∀ login ∈ s.created,
    env.passwords.verify login.request.password login.user.passwordHash = true
  created : ∀ login ∈ s.created, ∃ session ∈ s.core.db.sessions,
    session.sessionId = login.session.sessionId
  pending : ∀ r ∈ s.change.pending, ∃ session ∈ s.core.db.sessions, session.sessionId = r.sessionId

/-- Once the sessions are listed, every live session of the user is on the list or
    was created with the new password. -/
def Covered (env : AuthEnv) (change : Change) (s : St) : Prop :=
  s.change.hasListed = true → ∀ session ∈ s.core.db.sessions, session.userId = change.userId →
    session.revokedAt = none →
      (∃ r ∈ s.change.pending, r.sessionId = session.sessionId) ∨
        VerifiedNew env change s session.sessionId

/-- A statement of a login that does not commit it. -/
theorem Inv.setLogin {i : Nat} {tx : LoginTx} (h : Inv env s) (htx : LoginOk env tx) :
    Inv env (s.setLogin i tx) where
  logins := Run.forall_mem_set h.logins htx
  verified := h.verified
  created := h.created
  pending := h.pending

theorem Inv.setChange {tx : ChangeTx} (h : Inv env s)
    (hpending : ∀ r ∈ tx.pending, ∃ session ∈ s.core.db.sessions, session.sessionId = r.sessionId) :
    Inv env (s.setChange tx) :=
  ⟨h.logins, h.verified, h.created, hpending⟩

theorem Inv.setTx_effect {i : Nat} {tx : LoginTx} {a : Act} (h : Inv env s) (htx : LoginOk env tx)
    (hok : CommitsVerified env change s a) :
    Inv env (s.setLogin i tx) ∧ Effect env change s a (s.setLogin i tx) :=
  ⟨h.setLogin htx, .quiet rfl rfl rfl rfl hok⟩

theorem Inv.aborts {a : Act} (h : Inv env s) :
    Inv env (s.setChange .aborted) ∧ Effect env change s a (s.setChange .aborted) :=
  ⟨h.setChange nofun, .aborted rfl rfl rfl⟩

/-- Every statement keeps the invariant and does one of these things. -/
theorem step_effect {a : Act} (h : Inv env s) (hstep : step env change s a = some t) :
    Inv env t ∧ Effect env change s a t := by
  have held : ∀ {i tx}, s.logins[i]? = some tx → LoginOk env tx :=
    fun htx => h.logins _ (List.mem_of_getElem? htx)
  have hother : (∀ i, a ≠ .commitLogin i) → CommitsVerified env change s a := commitsVerified_of_ne
  cases a with
  | refresh a =>
    obtain ⟨core, hcore, rfl⟩ := Option.map_eq_some_iff.mp hstep
    have hsessions := refresh_sessions hcore
    refine ⟨⟨h.logins, h.verified, ?_, ?_⟩, .quiet hsessions rfl rfl rfl (hother nofun)⟩
    · rw [hsessions]
      exact h.created
    · rw [hsessions]
      exact h.pending
  | begin request =>
    cases hstep
    refine ⟨⟨fun tx htx => ?_, h.verified, h.created, h.pending⟩, .quiet rfl rfl rfl rfl (hother nofun)⟩
    rcases List.mem_append.mp htx with htx | htx
    · exact h.logins tx htx
    · cases List.mem_singleton.mp htx
      trivial
  | selectUser i =>
    simp only [step] at hstep
    split at hstep
    · split at hstep
      · cases hstep
        exact h.setTx_effect trivial (hother nofun)
      · split at hstep <;> cases hstep
        · rename_i hverifies
          simp only [verifies, Bool.and_eq_true] at hverifies
          exact h.setTx_effect hverifies.2 (hother nofun)
        · exact h.setTx_effect trivial (hother nofun)
    · cases hstep
  | insertSession i =>
    simp only [step] at hstep
    split at hstep
    · rename_i request user htx
      split at hstep
      · cases hstep
        exact h.setTx_effect trivial (hother nofun)
      · have hverified : LoginOk env (.verified request user) := held htx
        split at hstep <;> cases hstep
        · exact h.setTx_effect trivial (hother nofun)
        · exact h.setTx_effect hverified (hother nofun)
    · cases hstep
  | commitLogin i =>
    simp only [step] at hstep
    split at hstep
    · rename_i login token htx
      split at hstep <;> cases hstep
      · rename_i hdb
        refine h.setTx_effect trivial ?_
        rintro j login' token' ha htx' - - hgoes
        cases ha
        cases htx.symm.trans htx'
        exact absurd hdb hgoes
      · rename_i db hdb
        obtain ⟨hsessions, -⟩ := commitLogin_sessions hdb
        have hdone : Inv env (s.setLogin i .done) := h.setLogin trivial
        refine ⟨⟨hdone.logins, fun l hl => ?_, fun l hl => ?_, fun r hr => ?_⟩,
          .login i login token db rfl htx hdb rfl rfl rfl⟩
        · rcases List.mem_append.mp hl with hl | hl
          · exact h.verified l hl
          · cases List.mem_singleton.mp hl
            exact held htx
        · change ∃ session ∈ db.sessions, _
          rw [hsessions]
          rcases List.mem_append.mp hl with hl | hl
          · obtain ⟨session, hmem, hid⟩ := h.created l hl
            exact ⟨session, List.mem_append_left _ hmem, hid⟩
          · cases List.mem_singleton.mp hl
            exact ⟨login.session, List.mem_append_right _ (List.mem_singleton_self _), rfl⟩
        · change ∃ session ∈ db.sessions, _
          obtain ⟨session, hmem, hid⟩ := h.pending r hr
          rw [hsessions]
          exact ⟨session, List.mem_append_left _ hmem, hid⟩
    · cases hstep
  | abortLogin i =>
    simp only [step] at hstep
    split at hstep <;> cases hstep
    exact h.setTx_effect trivial (hother nofun)
  | changeSelectUser =>
    simp only [step] at hstep
    split at hstep
    · rename_i hbefore
      split at hstep <;> cases hstep
      · exact h.aborts
      · exact ⟨h.setChange nofun, .quiet rfl rfl (by rw [hbefore]; rfl) (by rw [hbefore]; rfl)
        (hother nofun)⟩
    · cases hstep
  | changeUpdateUser =>
    simp only [step] at hstep
    split at hstep <;> cases hstep
    rename_i hbefore
    exact ⟨h.setChange nofun, .quiet rfl rfl (by rw [hbefore]; rfl) (by rw [hbefore]; rfl)
        (hother nofun)⟩
  | changeSelectSessions =>
    simp only [step] at hstep
    split at hstep <;> cases hstep
    rename_i hbefore
    refine ⟨h.setChange fun r hr => ?_, .listed rfl rfl (by rw [hbefore]; rfl) rfl (hother nofun)⟩
    exact ⟨r, List.mem_of_mem_filter hr, rfl⟩
  | changeUpdateSessions =>
    simp only [step] at hstep
    split at hstep <;> cases hstep
    rename_i hbefore
    refine ⟨h.setChange fun r hr => ?_, .quiet rfl rfl (by rw [hbefore]; rfl) (by rw [hbefore]; rfl)
        (hother nofun)⟩
    exact h.pending r (by rw [hbefore]; exact hr)
  | changeCommit =>
    simp only [step] at hstep
    split at hstep
    · rename_i changedAt revokedAt sessions hbefore
      split at hstep <;> cases hstep
      · rename_i db hdb
        refine ⟨⟨h.logins, h.verified, fun login hlogin => ?_, nofun⟩,
          .revoked changedAt revokedAt sessions hbefore hdb rfl rfl (hother nofun)⟩
        obtain ⟨session, hmem, hid⟩ := h.created login hlogin
        obtain ⟨session', hmem', hid'⟩ := changeWrites_ids hdb session hmem
        exact ⟨session', hmem', hid'.trans hid⟩
      · exact h.aborts
    · cases hstep
  | changeAbort =>
    simp only [step] at hstep
    split at hstep <;> cases hstep
    exact h.aborts

-- ---------------------------------------------------------------------------
-- Which commits leave a session uncovered
-- ---------------------------------------------------------------------------

theorem verifiedNew_congr (hcreated : t.created = s.created) (sessionId : String) :
    VerifiedNew env change t sessionId ↔ VerifiedNew env change s sessionId := by
  rw [VerifiedNew, VerifiedNew, hcreated]

/-- A login that commits is covered exactly when it need not have verified the new
    password, or has. -/
theorem Inv.covered_login {i : Nat} {login : Login} {token : RefreshToken} {db : AuthDb}
    (h : Inv env s) (htx : s.logins[i]? = some (.inserted login token))
    (hdb : commitLogin s.core.db login token = some db) (hcore : t.core.db = db)
    (hcreated : t.created = s.created ++ [login]) (hchange : t.change = s.change) :
    Covered env change t ↔ Covered env change s ∧ CommitsVerified env change s (.commitLogin i) := by
  obtain ⟨hsessions, hfresh⟩ := commitLogin_sessions hdb
  have hverified : env.passwords.verify login.request.password login.user.passwordHash = true :=
    h.logins _ (List.mem_of_getElem? htx)
  have hnew : ∀ sid, VerifiedNew env change t sid ↔ VerifiedNew env change s sid ∨
      login.session.sessionId = sid ∧ login.user.passwordHash = change.newHash env := by
    intro sid
    simp only [VerifiedNew, hcreated, List.mem_append, List.mem_singleton]
    constructor
    · rintro ⟨l, hl | rfl, hid, hhash, hpassword⟩
      · exact .inl ⟨l, hl, hid, hhash, hpassword⟩
      · exact .inr ⟨hid, hhash⟩
    · rintro (⟨l, hl, hfacts⟩ | ⟨hid, hhash⟩)
      · exact ⟨l, .inl hl, hfacts⟩
      · exact ⟨login, .inr rfl, hid, hhash, hhash ▸ hverified⟩
  have hmem : ∀ session, session ∈ t.core.db.sessions ↔
      session ∈ s.core.db.sessions ∨ session = login.session := by
    simp [hcore, hsessions]
  -- the new session is neither on the list nor in the log of earlier logins
  have hnotPending : ¬ ∃ r ∈ s.change.pending, r.sessionId = login.session.sessionId := by
    rintro ⟨r, hr, hid⟩
    obtain ⟨session, hsession, hid'⟩ := h.pending r hr
    exact hfresh session hsession (hid'.trans hid)
  have hnotCreated : ¬ VerifiedNew env change s login.session.sessionId := by
    rintro ⟨l, hl, hid, -⟩
    obtain ⟨session, hsession, hid'⟩ := h.created l hl
    exact hfresh session hsession (hid'.trans hid)
  constructor
  · intro hcovered
    constructor
    · intro hlisted session hsession huser hlive
      rw [← hchange] at hlisted
      rcases hcovered hlisted session ((hmem session).mpr (.inl hsession)) huser hlive with hpend | hver
      · rw [hchange] at hpend
        exact .inl hpend
      · rcases (hnew _).mp hver with hver | ⟨hid, -⟩
        · exact .inr hver
        · exact absurd hid.symm (hfresh session hsession)
    · rintro j login' token' ha htx' hlisted huser -
      cases ha
      cases htx.symm.trans htx'
      rw [← hchange] at hlisted
      rcases hcovered hlisted login.session ((hmem _).mpr (.inr rfl)) huser rfl with hpend | hver
      · rw [hchange] at hpend
        exact absurd hpend hnotPending
      · rcases (hnew _).mp hver with hver | ⟨-, hhash⟩
        · exact absurd hver hnotCreated
        · exact hhash
  · rintro ⟨hcovered, hok⟩ hlisted session hsession huser hlive
    rw [hchange] at hlisted ⊢
    rcases (hmem session).mp hsession with hold | rfl
    · exact (hcovered hlisted session hold huser hlive).imp id fun hver => (hnew _).mpr (.inl hver)
    · have hhash := hok i login token rfl htx hlisted huser (by rw [hdb]; nofun)
      exact .inr ((hnew _).mpr (.inr ⟨rfl, hhash⟩))

/-- The commit of the change takes the listed sessions off the list, and only these
    out of the live ones. -/
theorem covered_revoked {changedAt revokedAt : Time} {sessions : List AuthSession}
    (hbefore : s.change = .revoked changedAt revokedAt sessions)
    (hdb : transaction (changeWrites env change changedAt revokedAt sessions) s.core.db =
      (.ok (), t.core.db))
    (hcreated : t.created = s.created) (hchange : t.change = .committed) :
    Covered env change t ↔ Covered env change s := by
  have hlive := changeWrites_live hdb
  have hnew : ∀ id, VerifiedNew env change t id ↔ VerifiedNew env change s id :=
    verifiedNew_congr hcreated
  constructor
  · intro hcovered _ session hsession huser hrevoked
    rw [hbefore]
    by_cases hpending : ∃ r ∈ sessions, r.sessionId = session.sessionId
    · exact .inl hpending
    · have hstays := (hlive session hrevoked).mpr ⟨hsession, fun r hr hid => hpending ⟨r, hr, hid⟩⟩
      rcases hcovered (by rw [hchange]; rfl) session hstays huser hrevoked with ⟨r, hr, -⟩ | hver
      · rw [hchange] at hr
        cases hr
      · exact .inr ((hnew _).mp hver)
  · intro hcovered _ session hsession huser hrevoked
    obtain ⟨hold, hnotListed⟩ := (hlive session hrevoked).mp hsession
    rcases hcovered (by rw [hbefore]; rfl) session hold huser hrevoked with ⟨r, hr, hid⟩ | hver
    · rw [hbefore] at hr
      exact absurd hid (hnotListed r hr)
    · exact .inr ((hnew _).mpr hver)

/-- A statement leaves the live sessions covered exactly when they were, and it is
    not the commit of a login that verified an older hash. -/
theorem Inv.covered_iff {a : Act} (h : Inv env s) (heffect : Effect env change s a t)
    (ha : t.change ≠ .aborted) :
    Covered env change t ↔ Covered env change s ∧ CommitsVerified env change s a := by
  cases heffect with
  | quiet hsessions hcreated hlisted hpending hok =>
    have hnew : ∀ id, VerifiedNew env change t id ↔ VerifiedNew env change s id :=
      verifiedNew_congr hcreated
    simp only [Covered, hsessions, hlisted, hpending, hnew, hok, and_true]
  | aborted hsessions hcreated hchange => exact absurd hchange ha
  | listed hsessions hcreated hbefore hpending hok =>
    refine ⟨fun _ => ⟨fun hlisted => ?_, hok⟩, fun _ _ session hsession huser hlive => .inl ?_⟩
    · rw [hbefore] at hlisted
      cases hlisted
    · rw [hpending]
      rw [hsessions] at hsession
      exact ⟨session, List.mem_filter.mpr ⟨hsession, by simp [huser, hlive]⟩, rfl⟩
  | login i login token db ha htx hdb hcore hcreated hchange =>
    subst ha
    exact h.covered_login htx hdb hcore hcreated hchange
  | revoked changedAt revokedAt sessions hbefore hdb hcreated hchange hok =>
    rw [covered_revoked hbefore hdb hcreated hchange]
    exact ⟨fun hcovered => ⟨hcovered, hok⟩, fun h => h.1⟩

theorem aborted_stays {a : Act} (h : s.change = .aborted) (hstep : step env change s a = some t) :
    t.change = .aborted := by
  cases a with
  | refresh a =>
    obtain ⟨core, -, rfl⟩ := Option.map_eq_some_iff.mp hstep
    exact h
  | begin request =>
    cases hstep
    exact h
  | changeSelectUser | changeUpdateUser | changeSelectSessions | changeUpdateSessions
  | changeCommit => simp [step, h] at hstep
  | changeAbort =>
    simp only [step, h] at hstep
    cases hstep
    rfl
  | _ =>
    simp only [step] at hstep
    repeat' split at hstep
    all_goals cases hstep
    all_goals exact h

-- ---------------------------------------------------------------------------
-- Eviction
-- ---------------------------------------------------------------------------

/-- Tokens are of use only as long as their session is live. -/
theorem evicted_of_sessions
    (h : ∀ session ∈ s.core.db.sessions, session.userId = change.userId →
      session.revokedAt = none → VerifiedNew env change s session.sessionId) :
    Evicted env change s where
  sessions := h
  access := by
    rintro now authorization context db' hcontext ⟨session, hsession, huser⟩
    obtain ⟨-, token, session', -, -, hsession', hlive, rfl⟩ :=
      Auth.requireAuth_commits.transaction hcontext
    cases hsession.symm.trans hsession'
    have hnew := h session (Table.lookup_mem hsession) huser hlive
    rw [Table.lookup_key hsession] at hnew
    exact hnew
  refresh := by
    rintro now draw refreshToken ipAddress bundle db' rt hbundle hrt ⟨session, hsession, huser⟩
    obtain ⟨rt', session', -, -, -, hrt', hsession', -, hlive, -⟩ :=
      Auth.refreshRoute_commits.transaction hbundle
    cases hrt.symm.trans hrt'
    cases hsession.symm.trans hsession'
    have hnew := h session (Table.lookup_mem hsession) huser hlive
    rw [Table.lookup_key hsession] at hnew
    exact hnew

theorem evicted_iff_covered (hcommitted : s.change = .committed) :
    Evicted env change s ↔ Covered env change s := by
  constructor
  · intro h _ session hsession huser hlive
    exact .inr (h.sessions session hsession huser hlive)
  · intro h
    refine evicted_of_sessions fun session hsession huser hlive => ?_
    rcases h (by rw [hcommitted]; rfl) session hsession huser hlive with ⟨r, hr, -⟩ | hnew
    · rw [hcommitted] at hr
      cases hr
    · exact hnew

theorem inv_init {db : AuthDb} {now : Time} : Inv env (init db now) where
  logins := fun _ h => by cases h
  verified := fun _ h => by cases h
  created := fun _ h => by cases h
  pending := fun _ h => by cases h

/-- In every interleaving in which the change commits, it evicts everyone exactly
    when every login of the user that commits after the sessions were listed has
    verified the new password. -/
theorem evicted_iff {db : AuthDb} {now : Time} {as : List Act}
    (hrun : Run.exec (step env change) (init db now) as = some t) (hfinished : t.finished = true) :
    Evicted env change t ↔
      Run.Guarded (step env change) (CommitsVerified env change) (init db now) as := by
  have hcommitted : t.change = .committed := by
    simp only [St.finished, decide_eq_true_eq] at hfinished
    exact hfinished.1
  rw [evicted_iff_covered hcommitted]
  let Bad : St → Prop := fun s => s.change = .aborted ∨ (Inv env s ∧ ¬ Covered env change s)
  have hkeep : ∀ {s a t}, Inv env s ∧ Covered env change s → CommitsVerified env change s a →
      step env change s a = some t → Inv env t ∧ Covered env change t := by
    rintro s a t ⟨h, hcovered⟩ hok hstep
    obtain ⟨ht, heffect⟩ := step_effect h hstep
    refine ⟨ht, ?_⟩
    by_cases ha : t.change = .aborted
    · intro hlisted
      rw [ha] at hlisted
      cases hlisted
    · exact (h.covered_iff heffect ha).mpr ⟨hcovered, hok⟩
  have hstay : ∀ {s a t}, Inv env s → ¬ (Covered env change s ∧ CommitsVerified env change s a) →
      step env change s a = some t → Bad t := by
    intro s a t h hnot hstep
    obtain ⟨ht, heffect⟩ := step_effect h hstep
    by_cases ha : t.change = .aborted
    · exact .inl ha
    · exact .inr ⟨ht, fun hcovered => hnot ((h.covered_iff heffect ha).mp hcovered)⟩
  have hstart : Inv env (init db now) ∧ Covered env change (init db now) := ⟨inv_init, fun hlisted => by cases hlisted⟩
  have hdecided := Run.guarded_or_bad _ Bad hkeep
    (fun h hok hstep => hstay h.1 (fun hboth => hok hboth.2) hstep)
    (fun hbad hstep => hbad.elim (fun ha => .inl (aborted_stays ha hstep))
      fun h => hstay h.1 (fun hboth => h.2 hboth.1) hstep) hstart hrun
  rcases hdecided with ⟨hguarded, -, hcovered⟩ | ⟨hnot, ha | ⟨-, hbad⟩⟩
  · exact ⟨fun _ => hguarded, fun _ => hcovered⟩
  · rw [hcommitted] at ha
    cases ha
  · exact ⟨fun hcovered => absurd hcovered hbad, fun hguarded => absurd hguarded hnot⟩

end

/-- `CommitsVerified`, computed. -/
def commitsVerified (env : AuthEnv) (change : Change) (s : St) : Act → Bool
  | .commitLogin i =>
    match s.logins[i]? with
    | some (.inserted login _) => login.user.passwordHash = change.newHash env
    | _ => true
  | _ => true

theorem commitsVerified_sound (env : AuthEnv) (change : Change) (s : St) (a : Act)
    (h : commitsVerified env change s a = true) : CommitsVerified env change s a := by
  rintro i login token rfl htx - - -
  simpa [commitsVerified, htx] using h

/-- A user whose password is `old`. -/
def registered : AuthDb :=
  (Auth.run Auth.toyEnv ⟨AuthDb.empty, 0⟩
    [.createUser Auth.defaultTenantId "ana@fund.com" "old" (Auth.toyDraw "0")]).db

/-- The user changes the password to `new`. -/
def toNew : Change := ⟨"usr_0", "new", [], Auth.toyDraw "9"⟩

def changeStatements : List Act :=
  [.changeSelectUser, .changeUpdateUser, .changeSelectSessions, .changeUpdateSessions,
    .changeCommit]

/-- The change, and then a login with the new password. -/
def changedFirst : List Act :=
  changeStatements ++ [.begin ⟨"ana@fund.com", "new", none, none, Auth.toyDraw "1"⟩, .selectUser 0,
    .insertSession 0, .commitLogin 0]

theorem evicted_iff_changed_first :
    ∃ t, Run.exec (step Auth.toyEnv toNew) (init registered 0) changedFirst = some t ∧
      Evicted Auth.toyEnv toNew t := by
  have hsome : (Run.exec (step Auth.toyEnv toNew) (init registered 0) changedFirst).any
      St.finished = true := by decide +kernel
  obtain ⟨t, ht, hfinished⟩ := (Option.any_eq_true _ _).mp hsome
  exact ⟨t, ht, (evicted_iff ht hfinished).mpr
    (Run.guarded_of_checks _ (commitsVerified_sound _ _) (by decide +kernel))⟩

/-- A login verifies the old password, and inserts its session after the change. -/
def verifiedFirst : List Act :=
  [.begin ⟨"ana@fund.com", "old", none, none, Auth.toyDraw "1"⟩, .selectUser 0] ++
    changeStatements ++ [.insertSession 0, .commitLogin 0]

theorem old_password_survives :
    ¬ ∀ (env : AuthEnv) (change : Change) (db : AuthDb) (now : Time) (as : List Act) (t : St),
      Run.exec (step env change) (init db now) as = some t → t.finished = true →
        Evicted env change t := by
  intro h
  have hrun : (Run.exec (step Auth.toyEnv toNew) (init registered 0) verifiedFirst).any
      (fun t => t.finished && t.core.db.sessions.any fun session =>
        session.userId = "usr_0" ∧ session.revokedAt = none ∧
          t.created.all fun login => login.user.passwordHash ≠ toNew.newHash Auth.toyEnv) = true := by
    decide +kernel
  obtain ⟨t, ht, hfacts⟩ := (Option.any_eq_true _ _).mp hrun
  obtain ⟨hfinished, hlive⟩ := Bool.and_eq_true_iff.mp hfacts
  obtain ⟨session, hmem, hsession⟩ := List.any_eq_true.mp hlive
  obtain ⟨huser, hrevoked, hold⟩ := of_decide_eq_true hsession
  obtain ⟨login, hlogin, -, hhash, -⟩ :=
    (h _ _ _ _ _ t ht hfinished).sessions session hmem huser hrevoked
  exact of_decide_eq_true (List.all_eq_true.mp hold login hlogin) hhash

-- ---------------------------------------------------------------------------
-- One call by itself
-- ---------------------------------------------------------------------------

section
variable {env : AuthEnv} {change : Change} {now : Time} {db db' : AuthDb}

/-- Run without interruption, the statements of a login do what `login` does. -/
theorem statements_login {email password : String} {ipAddress userAgent : Option String}
    {draw : AuthDraw} {bundle : TokenBundle}
    (h : Auth.LoginEffect env now draw email password ipAddress userAgent db bundle db') :
    ∃ user, Run.exec (step env change) (init db now)
        [.begin ⟨email, password, ipAddress, userAgent, draw⟩, .selectUser 0, .insertSession 0,
          .commitLogin 0] =
      some ⟨⟨db', now, [], []⟩, [.done], .begun,
        [⟨⟨email, password, ipAddress, userAgent, draw⟩, user, bundle⟩]⟩ := by
  obtain ⟨user, accessToken, db₁, db₂, huser, hactive, hpassword, hsession, htoken, hissue, haudit,
    rfl⟩ := h
  let request : LoginRequest := ⟨email, password, ipAddress, userAgent, draw⟩
  let bundle := Auth.tokenBundle env user accessToken (Auth.generateRefreshToken env draw).1
  let login : Login := ⟨request, user, bundle⟩
  have hverifies : verifies env request user = true := by
    simp [verifies, request, hactive, hpassword]
  have hbundle : loginBundle env now request user = some bundle := by
    rw [loginBundle, Option.map_eq_some_iff]
    exact ⟨accessToken, hissue, rfl⟩
  have hinsert : db.insertSession login.session = some db₁ := hsession
  have hcommit : commitLogin db login (rootToken env now login) = some db' := by
    refine Option.bind_eq_some_iff.mpr ⟨db₂, ?_, haudit⟩
    exact Option.bind_eq_some_iff.mpr ⟨db₁, hsession, htoken⟩
  let st : LoginTx → St := fun tx => ⟨RefreshRace.init db now, [tx], .begun, []⟩
  refine ⟨user, ?_⟩
  refine Run.exec_cons_eq_some.mpr ⟨st (.begun request), rfl, ?_⟩
  refine Run.exec_cons_eq_some.mpr ⟨st (.verified request user), ?_, ?_⟩
  · simp [st, step, request, RefreshRace.init, huser, hverifies, St.setLogin]
  refine Run.exec_cons_eq_some.mpr ⟨st (.inserted login (rootToken env now login)), ?_, ?_⟩
  · simp [st, step, RefreshRace.init, hbundle, hinsert, St.setLogin, login]
  refine Run.exec_cons_eq_some.mpr ⟨_, ?_, rfl⟩
  simp [st, step, RefreshRace.init, hcommit, St.setLogin, St.setDb, login, request, bundle]

/-- What `change_password` commits is what the change writes. -/
theorem changePassword_writes {user : User} (huser : db.userById change.userId = some user)
    (h : transaction (Auth.changePassword env now change.draw change.userId change.newPassword
      change.auditHexes) db = (.ok (), db')) :
    transaction (changeWrites env change now now (Auth.liveSessions change.userId db)) db =
      (.ok (), db') := by
  unfold transaction at h ⊢
  simp only [Auth.changePassword, Auth.revokeUserSessions, changeWrites, run_bind, run_select,
    run_update, huser] at h ⊢
  -- the update of the user leaves the sessions that the query then finds
  have hlive : (db.updateUser change.userId
      (Auth.repassworded env now change.draw change.newPassword)).sessions.filter
        (fun session => session.userId = change.userId ∧ session.revokedAt = none) =
      Auth.liveSessions change.userId db := rfl
  rw [hlive] at h
  generalize Auth.revokeEach now change.draw "password_change" (Auth.liveSessions change.userId db)
    change.auditHexes _ = r at h ⊢
  obtain ⟨⟨x⟩ | ⟨⟨⟩⟩, s⟩ := r
  · cases h
  · by_cases hsessions : Auth.liveSessions change.userId db = []
    · rw [if_neg (not_not_intro hsessions)] at h
      exact h
    · -- the flush before the commit does what the commit's flush does
      rw [if_pos hsessions] at h
      obtain ⟨view, refused, failed⟩ := s
      cases failed <;> cases refused <;> exact h

/-- Run without interruption, the statements of the change do what `change_password` does. -/
theorem statements_change
    (h : transaction (Auth.changePassword env now change.draw change.userId change.newPassword
      change.auditHexes) db = (.ok (), db')) :
    Run.exec (step env change) (init db now) changeStatements =
      some ⟨⟨db', now, [], []⟩, [], .committed, []⟩ := by
  obtain ⟨⟨user, huser⟩, -⟩ := Auth.changePassword_commits.transaction h
  have hwrites := changePassword_writes huser h
  let st : ChangeTx → St := fun tx => ⟨RefreshRace.init db now, [], tx, []⟩
  let sessions := Auth.liveSessions change.userId db
  refine Run.exec_cons_eq_some.mpr ⟨st .userRead, ?_, ?_⟩
  · simp [step, init, RefreshRace.init, huser, st, St.setChange]
  refine Run.exec_cons_eq_some.mpr ⟨st (.updated now), rfl, ?_⟩
  refine Run.exec_cons_eq_some.mpr ⟨st (.listed now now sessions), rfl, ?_⟩
  refine Run.exec_cons_eq_some.mpr ⟨st (.revoked now now sessions), rfl, ?_⟩
  refine Run.exec_cons_eq_some.mpr ⟨_, ?_, rfl⟩
  simp [step, st, RefreshRace.init, sessions, hwrites, St.setChange, St.setDb]

end

end PasswordRace
