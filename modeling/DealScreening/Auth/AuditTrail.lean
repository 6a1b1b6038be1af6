-- SUMMARY: The audit rows of an auth request are committed exactly when the request is not a rejection that is logged, because a rejection is rolled back with its row.
import DealScreening.Auth.Effects

/-!
# Audit trail

A failed login and a refused refresh add their row and raise. The route turns the
exception into a 401 and raises that, and `get_db` rolls the row back.
-/

namespace Auth

open Session

/-- The requests that have a route, with what they read. -/
inductive AuthRequest where
  | register (email password : String) (ipAddress userAgent : Option String)
  | login (email password : String) (ipAddress userAgent : Option String)
  | refresh (refreshToken : String) (ipAddress : Option String)
  | logout (authorization : Authorization) (refreshToken : String)
  deriving DecidableEq, Repr

section
variable (env : AuthEnv) (now : Time) (draw : AuthDraw)

/-- What the route runs in the transaction of the request. -/
def AuthRequest.body : AuthRequest → AuthM Unit
  | .register email password ipAddress userAgent => do
    let _ ← registerRoute env now draw email password ipAddress userAgent
  | .login email password ipAddress userAgent => do
    let _ ← loginRoute env now draw email password ipAddress userAgent
  | .refresh refreshToken ipAddress => do
    let _ ← refreshRoute env now draw refreshToken ipAddress
  | .logout authorization refreshToken => logoutRoute env now draw authorization refreshToken

/-- The audit rows in the session when the handling ends are new rows after the old ones,
    and they are what is committed. -/
def AuditKept (body : AuthM Unit) (db : AuthDb) : Prop :=
  ∃ rows, (body ⟨db, false, false⟩).2.view.auditLog = db.auditLog ++ rows ∧
    (transaction body db).2.auditLog = db.auditLog ++ rows

/-- Nobody has the email, or the account is inactive, or the password is wrong. -/
def rejectsLogin (db : AuthDb) (email password : String) : Bool :=
  match db.userByEmail (env.normalizeEmail email) with
  | none => true
  | some user => !user.isActive || !env.passwords.verify password user.passwordHash

/-- The token of a session was consumed, or its session is revoked. -/
def rejectsRefresh (db : AuthDb) (refreshToken : String) : Bool :=
  (db.tokenByHash (env.sha256 refreshToken)).any fun rt =>
    (db.session rt.sessionId).any fun session => rt.consumedAt.isSome || session.revokedAt.isSome

/-- The request is rejected, and the rejection is logged. A new user is rejected if the
    hasher refuses the password it has just hashed. -/
def AuthRequest.logsRejection (db : AuthDb) : AuthRequest → Bool
  | .register email password _ _ =>
    (db.userByEmail email).isNone &&
      (db.insertUser (newUser env now draw defaultTenantId email password)).any fun db₁ =>
        rejectsLogin env db₁ email password
  | .login email password _ _ => rejectsLogin env db email password
  | .refresh refreshToken _ => rejectsRefresh env db refreshToken
  | .logout _ _ => false

end

-- ---------------------------------------------------------------------------
-- How a body ends
-- ---------------------------------------------------------------------------

section
variable {α : Type} {env : AuthEnv} {now : Time} {draw : AuthDraw} {db : AuthDb}

/-- The body raises with rows in the session. -/
def Loses (m : AuthM α) (db : AuthDb) : Prop :=
  ∃ x s rows, m ⟨db, false, false⟩ = (.error x, s) ∧
    s.view.auditLog = db.auditLog ++ rows ∧ rows ≠ []

/-- The body raises before it adds a row, or returns with a session that is committed. -/
def Settles (m : AuthM α) (db : AuthDb) : Prop :=
  (∃ x s, m ⟨db, false, false⟩ = (.error x, s) ∧ s.view.auditLog = db.auditLog) ∨
  ∃ a db' rows, m ⟨db, false, false⟩ = (.ok a, ⟨db', false, false⟩) ∧
    db'.auditLog = db.auditLog ++ rows

theorem Loses.not_kept {m : AuthM Unit} (h : Loses m db) : ¬ AuditKept m db := by
  obtain ⟨x, s, rows, hrun, hview, hne⟩ := h
  rintro ⟨rows', hview', hcommitted⟩
  rw [hrun] at hview'
  rw [transaction_error hrun] at hcommitted
  obtain rfl : rows = rows' := List.append_cancel_left (hview.symm.trans hview')
  exact hne (List.append_cancel_left (hcommitted.symm.trans (List.append_nil _).symm))

theorem Settles.kept {m : AuthM Unit} (h : Settles m db) : AuditKept m db := by
  rcases h with ⟨x, s, hrun, hview⟩ | ⟨a, db', rows, hrun, hrows⟩
  · refine ⟨[], ?_, ?_⟩
    · rw [hrun, List.append_nil]
      exact hview
    · rw [transaction_error hrun, List.append_nil]
  · refine ⟨rows, ?_, ?_⟩
    · rw [hrun]
      exact hrows
    · rw [transaction_ok hrun]
      exact hrows

section
variable {β : Type} {m : AuthM β} {f : β → AuthM α} {b : β} {db' : AuthDb}

/-- What comes before adds no row. -/
theorem loses_after (hm : m ⟨db, false, false⟩ = (.ok b, ⟨db', false, false⟩))
    (hlog : db'.auditLog = db.auditLog) (h : Loses (f b) db') : Loses (m >>= f) db := by
  obtain ⟨x, s, rows, hrun, hview, hne⟩ := h
  exact ⟨x, s, rows, by rw [run_bind, hm]; exact hrun, hlog ▸ hview, hne⟩

theorem settles_after (hm : m ⟨db, false, false⟩ = (.ok b, ⟨db', false, false⟩))
    (hlog : db'.auditLog = db.auditLog) (h : Settles (f b) db') : Settles (m >>= f) db := by
  rcases h with ⟨x, s, hrun, hview⟩ | ⟨a, db'', rows, hrun, hrows⟩
  · exact .inl ⟨x, s, by rw [run_bind, hm]; exact hrun, hlog ▸ hview⟩
  · exact .inr ⟨a, db'', rows, by rw [run_bind, hm]; exact hrun, hlog ▸ hrows⟩

theorem loses_select {q : AuthDb → β} (h : Loses (f (q db)) db) : Loses (select q >>= f) db := h

theorem settles_select {q : AuthDb → β} (h : Settles (f (q db)) db) :
    Settles (select q >>= f) db := h

end

theorem settles_raise {exc : AuthExn} : Settles (raise exc : AuthM α) db :=
  .inl ⟨_, _, rfl, rfl⟩

/-- Dropping the result changes nothing. -/
theorem Loses.discard {m : AuthM α} (h : Loses m db) : Loses (do let _ ← m) db := by
  obtain ⟨x, s, rows, hrun, hrest⟩ := h
  exact ⟨x, s, rows, by rw [run_bind, hrun], hrest⟩

theorem Settles.discard {m : AuthM α} (h : Settles m db) : Settles (do let _ ← m) db := by
  rcases h with ⟨x, s, hrun, hview⟩ | ⟨a, db', rows, hrun, hrows⟩
  · exact .inl ⟨x, s, by rw [run_bind, hrun], hview⟩
  · exact .inr ⟨(), db', rows, by rw [run_bind, hrun]; rfl, hrows⟩

/-- A route only raises another exception. -/
theorem rethrow401_run (caught : List AuthExn) (x : Exn AuthExn) (s : SessionState AuthDb) :
    ∃ y, (rethrow401 caught x : AuthM α) s = (.error y, s) := by
  unfold rethrow401
  cases x with
  | raised exc =>
    cases hauth : exc.authError with
    | none =>
      simp only [hauth]
      exact ⟨_, rfl⟩
    | some texts =>
      simp only [hauth]
      split
      · exact ⟨_, rfl⟩
      · exact ⟨_, rfl⟩
  | flushFailed | pendingRollback => exact ⟨_, rfl⟩

theorem Loses.rethrow {m : AuthM α} (h : Loses m db) (caught : List AuthExn) :
    Loses (m.tryCatch (rethrow401 caught)) db := by
  obtain ⟨x, s, rows, hrun, hrest⟩ := h
  obtain ⟨y, hy⟩ := rethrow401_run (α := α) caught x s
  exact ⟨y, s, rows, by rw [Session.tryCatch, hrun]; exact hy, hrest⟩

theorem Settles.rethrow {m : AuthM α} (h : Settles m db) (caught : List AuthExn) :
    Settles (m.tryCatch (rethrow401 caught)) db := by
  rcases h with ⟨x, s, hrun, hview⟩ | ⟨a, db', rows, hrun, hrows⟩
  · obtain ⟨y, hy⟩ := rethrow401_run (α := α) caught x s
    exact .inl ⟨y, s, by rw [Session.tryCatch, hrun]; exact hy, hview⟩
  · exact .inr ⟨a, db', rows, by rw [Session.tryCatch, hrun], hrows⟩

-- ---------------------------------------------------------------------------
-- The functions of the service
-- ---------------------------------------------------------------------------

/-- The audit id that is drawn is in no row. -/
def NewAudit (draw : AuthDraw) (db : AuthDb) : Prop :=
  Table.lookup AuthAuditLog.auditId db.auditLog (prefixedId "aud" draw.auditHex) = none

theorem writeAudit_run (hnew : NewAudit draw db) (eventType : AuthEvent)
    (userId tenantId sessionId ipAddress userAgent : Option String)
    (metadata : Option (String × String)) :
    writeAudit draw eventType userId tenantId sessionId ipAddress userAgent metadata
        ⟨db, false, false⟩ =
      (.ok (), ⟨{ db with auditLog := db.auditLog ++ [auditEntry draw eventType userId tenantId
        sessionId ipAddress userAgent metadata] }, false, false⟩) := by
  refine run_write (if_pos ?_)
  change (Table.lookup AuthAuditLog.auditId db.auditLog (prefixedId "aud" draw.auditHex)).isNone
  rw [hnew]
  rfl

/-- A row is added before the exception. -/
theorem loses_writeAudit (hnew : NewAudit draw db) {eventType : AuthEvent}
    {userId tenantId sessionId ipAddress userAgent : Option String}
    {metadata : Option (String × String)} {exc : AuthExn} :
    Loses (α := α) (do
      writeAudit draw eventType userId tenantId sessionId ipAddress userAgent metadata
      raise exc) db := by
  have hrun : (do
      writeAudit draw eventType userId tenantId sessionId ipAddress userAgent metadata
      raise exc : AuthM α) ⟨db, false, false⟩ =
      (.error (.raised exc), ⟨{ db with auditLog := db.auditLog ++ [auditEntry draw eventType userId
        tenantId sessionId ipAddress userAgent metadata] }, false, false⟩) := by
    rw [run_bind, writeAudit_run hnew]
    rfl
  exact ⟨_, _, _, hrun, rfl, List.cons_ne_nil _ _⟩

/-- A row is added before the body returns. -/
theorem settles_writeAudit (hnew : NewAudit draw db) {eventType : AuthEvent}
    {userId tenantId sessionId ipAddress userAgent : Option String}
    {metadata : Option (String × String)} {a : α} :
    Settles (α := α) (do
      writeAudit draw eventType userId tenantId sessionId ipAddress userAgent metadata
      pure a) db := by
  have hrun : (do
      writeAudit draw eventType userId tenantId sessionId ipAddress userAgent metadata
      pure a : AuthM α) ⟨db, false, false⟩ =
      (.ok a, ⟨{ db with auditLog := db.auditLog ++ [auditEntry draw eventType userId
        tenantId sessionId ipAddress userAgent metadata] }, false, false⟩) := by
    rw [run_bind, writeAudit_run hnew]
    rfl
  exact .inr ⟨_, _, _, hrun, rfl⟩

theorem login_loses {email password : String} (ipAddress userAgent : Option String)
    (hnew : NewAudit draw db) (h : rejectsLogin env db email password = true) :
    Loses (login env now draw email password ipAddress userAgent) db := by
  unfold rejectsLogin at h
  refine loses_select ?_
  cases huser : db.userByEmail (env.normalizeEmail email) with
  | none => exact loses_writeAudit hnew
  | some user =>
    simp only [huser, Bool.or_eq_true, Bool.not_eq_true'] at h
    dsimp only
    split
    · exact loses_writeAudit hnew
    · split
      · exact loses_writeAudit hnew
      · tauto

/-- The token id and the token hash that are drawn are in no row. -/
def NewToken (env : AuthEnv) (draw : AuthDraw) (db : AuthDb) : Prop :=
  db.tokenById (prefixedId "rt" draw.tokenHex) = none ∧
    db.tokenByHash (generateRefreshToken env draw).2 = none

theorem createSessionAndTokens_run (user : User) (ipAddress userAgent : Option String)
    (htoken : NewToken env draw db) :
    (∃ x s, createSessionAndTokens env now draw user ipAddress userAgent ⟨db, false, false⟩ =
      (.error x, s) ∧ s.view.auditLog = db.auditLog) ∨
    ∃ r db', createSessionAndTokens env now draw user ipAddress userAgent ⟨db, false, false⟩ =
      (.ok r, ⟨db', false, false⟩) ∧ db'.auditLog = db.auditLog := by
  unfold createSessionAndTokens
  cases hsession : db.insertSession (newSession draw user ipAddress userAgent) with
  | none => exact .inl ⟨.flushFailed, ⟨db, true, true⟩, by simp [write, hsession], rfl⟩
  | some db₁ =>
    obtain ⟨rfl, -⟩ := AuthDb.insertSession_eq_some hsession
    have hinsert : AuthDb.insertRefreshToken
        (newRefreshToken env now draw (newSession draw user ipAddress userAgent).sessionId none)
        { db with sessions := db.sessions ++ [newSession draw user ipAddress userAgent] } =
        some { db with
          sessions := db.sessions ++ [newSession draw user ipAddress userAgent]
          refreshTokens := db.refreshTokens ++
            [newRefreshToken env now draw (newSession draw user ipAddress userAgent).sessionId
              none] } := by
      refine if_pos ⟨?_, ?_, ?_, rfl⟩
      · exact Option.isNone_iff_eq_none.mpr htoken.1
      · exact Option.isNone_iff_eq_none.mpr htoken.2
      · obtain ⟨row, hrow⟩ := Table.lookup_isSome_of_mem AuthSession.sessionId
          (List.mem_append_right db.sessions (List.mem_singleton_self
            (newSession draw user ipAddress userAgent)))
        exact Option.isSome_iff_exists.mpr ⟨row, hrow⟩
    rw [run_bind, run_write hsession]
    dsimp only
    rw [run_bind, run_flush]
    dsimp only
    rw [run_bind, run_write hinsert]
    dsimp only
    cases accessTokenFor env now user (newSession draw user ipAddress userAgent).sessionId with
    | none => exact .inl ⟨_, _, rfl, rfl⟩
    | some accessToken => exact .inr ⟨_, _, rfl, rfl⟩

theorem login_settles {email password : String} (ipAddress userAgent : Option String)
    (hnew : NewAudit draw db) (htoken : NewToken env draw db)
    (h : rejectsLogin env db email password = false) :
    Settles (login env now draw email password ipAddress userAgent) db := by
  unfold rejectsLogin at h
  refine settles_select ?_
  cases huser : db.userByEmail (env.normalizeEmail email) with
  | none => simp [huser] at h
  | some user =>
    simp only [huser, Bool.or_eq_false_iff, Bool.not_eq_false'] at h
    dsimp only
    rw [if_neg (by simp [h.1]), if_neg (by simp [h.2])]
    rcases @createSessionAndTokens_run env now draw db user ipAddress userAgent htoken with
      ⟨x, s, hrun, hlog⟩ | ⟨r, db', hrun, hlog⟩
    · exact .inl ⟨x, s, by rw [run_bind, hrun], hlog⟩
    · have hnew' : NewAudit draw db' := by
        unfold NewAudit
        rw [hlog]
        exact hnew
      exact settles_after hrun hlog (settles_writeAudit hnew')

theorem refresh_loses {refreshToken : String} (ipAddress : Option String)
    (hnew : NewAudit draw db) (h : rejectsRefresh env db refreshToken = true) :
    Loses (refresh env now draw refreshToken ipAddress) db := by
  unfold rejectsRefresh at h
  obtain ⟨rt, hrt, h⟩ := (Option.any_eq_true _ _).mp h
  obtain ⟨session, hsession, h⟩ := (Option.any_eq_true _ _).mp h
  refine loses_select ?_
  rw [hrt]
  refine loses_select ?_
  rw [hsession]
  dsimp only
  split
  · split
    · have hrevoke : revokeSession now session "reuse" ⟨db, false, false⟩ =
          (.ok (), ⟨db.updateSession session.sessionId (revoked now "reuse"), false, false⟩) := rfl
      have hnew' : NewAudit draw (db.updateSession session.sessionId (revoked now "reuse")) := hnew
      exact loses_after hrevoke rfl (loses_writeAudit hnew')
    · exact loses_writeAudit hnew
  · rename_i hconsumed
    rw [if_pos (by simpa [not_not.mp hconsumed, Option.isSome_iff_ne_none] using h)]
    exact loses_writeAudit hnew

theorem exchange_settles {rt : RefreshToken} {session : AuthSession} (ipAddress : Option String)
    (hnew : NewAudit draw db) :
    Settles (exchange env now draw rt session ipAddress) db := by
  obtain ⟨db₁, hupdate, hlog⟩ : ∃ db₁,
      (update (AuthDb.updateRefreshToken rt.tokenId (consumed now ipAddress)) : AuthM Unit)
        ⟨db, false, false⟩ = (.ok (), ⟨db₁, false, false⟩) ∧ db₁.auditLog = db.auditLog :=
    ⟨_, rfl, rfl⟩
  cases hinsert : db₁.insertRefreshToken
      (newRefreshToken env now draw session.sessionId (some rt.tokenId)) with
  | none =>
    refine .inl ⟨.flushFailed, ⟨db₁, true, true⟩, ?_, hlog⟩
    rw [exchange, run_bind, hupdate]
    simp [write, hinsert, select]
  | some db₂ =>
    obtain ⟨hrows, -⟩ := AuthDb.insertRefreshToken_eq_some hinsert
    have hlog₂ : db₂.auditLog = db.auditLog := by rw [hrows]; exact hlog
    have hnew₂ : NewAudit draw db₂ := by
      unfold NewAudit
      rw [hlog₂]
      exact hnew
    refine settles_after hupdate hlog ?_
    refine settles_after (run_write hinsert) (hlog₂.trans hlog.symm) ?_
    refine settles_select ?_
    cases db₂.userById session.userId with
    | none => exact settles_raise
    | some user =>
      dsimp only
      cases accessTokenFor env now user session.sessionId with
      | none => exact settles_raise
      | some accessToken => exact settles_writeAudit hnew₂

theorem refresh_settles {refreshToken : String} (ipAddress : Option String)
    (hnew : NewAudit draw db) (h : rejectsRefresh env db refreshToken = false) :
    Settles (refresh env now draw refreshToken ipAddress) db := by
  unfold rejectsRefresh at h
  refine settles_select ?_
  cases hrt : db.tokenByHash (env.sha256 refreshToken) with
  | none => exact settles_raise
  | some rt =>
    refine settles_select ?_
    cases hsession : db.session rt.sessionId with
    | none => exact settles_raise
    | some session =>
      simp only [hrt, hsession, Option.any_some, Bool.or_eq_false_iff, Option.isSome_eq_false_iff,
        Option.isNone_iff_eq_none] at h
      dsimp only
      rw [if_neg (not_not.mpr h.1), if_neg (not_not.mpr h.2)]
      split
      · exact settles_raise
      · exact exchange_settles ipAddress hnew

theorem logout_settles {refreshToken : String} (hnew : NewAudit draw db) :
    Settles (logout env now draw refreshToken) db := by
  refine settles_select ?_
  cases db.tokenByHash (env.sha256 refreshToken) with
  | none => exact .inr ⟨_, _, [], rfl, (List.append_nil _).symm⟩
  | some rt =>
    refine settles_select ?_
    cases db.session rt.sessionId with
    | none => exact .inr ⟨_, _, [], rfl, (List.append_nil _).symm⟩
    | some session =>
      dsimp only
      split
      · have hrevoke : revokeSession now session "logout" ⟨db, false, false⟩ =
            (.ok (), ⟨db.updateSession session.sessionId (revoked now "logout"), false, false⟩) :=
          rfl
        have hnew' : NewAudit draw (db.updateSession session.sessionId (revoked now "logout")) :=
          hnew
        exact settles_after hrevoke rfl (.inr ⟨_, _, _, writeAudit_run hnew' .., rfl⟩)
      · exact .inr ⟨_, _, [], rfl, (List.append_nil _).symm⟩

theorem createUser_run {tenantId email password : String} {db₁ : AuthDb}
    (h : db.insertUser (newUser env now draw tenantId email password) = some db₁) :
    createUser env now draw tenantId email password ⟨db, false, false⟩ =
      (.ok (newUser env now draw tenantId email password), ⟨db₁, false, false⟩) := by
  rw [createUser, run_bind, run_write h]
  rfl

theorem registerRoute_loses {email password : String} (ipAddress userAgent : Option String)
    (hnew : NewAudit draw db)
    (h : (AuthRequest.register email password ipAddress userAgent).logsRejection env now draw db =
      true) :
    Loses (registerRoute env now draw email password ipAddress userAgent) db := by
  rw [AuthRequest.logsRejection, Bool.and_eq_true, Option.isNone_iff_eq_none] at h
  obtain ⟨hnone, h⟩ := h
  obtain ⟨db₁, hinsert, hrejects⟩ := (Option.any_eq_true _ _).mp h
  have hlog : db₁.auditLog = db.auditLog := by rw [AuthDb.insertUser_eq_some hinsert]
  have hnew₁ : NewAudit draw db₁ := by
    unfold NewAudit
    rw [hlog]
    exact hnew
  refine loses_select ?_
  rw [hnone]
  exact loses_after (createUser_run hinsert) hlog (login_loses ipAddress userAgent hnew₁ hrejects)

theorem registerRoute_settles {email password : String} (ipAddress userAgent : Option String)
    (hnew : NewAudit draw db) (htoken : NewToken env draw db)
    (h : (AuthRequest.register email password ipAddress userAgent).logsRejection env now draw db =
      false) :
    Settles (registerRoute env now draw email password ipAddress userAgent) db := by
  rw [AuthRequest.logsRejection] at h
  refine settles_select ?_
  cases hfound : db.userByEmail email with
  | some user => exact settles_raise
  | none =>
    dsimp only
    cases hinsert : db.insertUser (newUser env now draw defaultTenantId email password) with
    | none =>
      refine .inl ⟨.flushFailed, ⟨db, true, true⟩, ?_, rfl⟩
      simp [createUser, write, hinsert]
    | some db₁ =>
      have hrejects : rejectsLogin env db₁ email password = false := by
        simpa [hfound, hinsert] using h
      have hrows := AuthDb.insertUser_eq_some hinsert
      have hlog : db₁.auditLog = db.auditLog := by rw [hrows]
      have hnew₁ : NewAudit draw db₁ := by
        unfold NewAudit
        rw [hlog]
        exact hnew
      have htoken₁ : NewToken env draw db₁ := by
        rw [hrows]
        exact htoken
      exact settles_after (createUser_run hinsert) hlog
        (login_settles ipAddress userAgent hnew₁ htoken₁ hrejects)

theorem requireAuth_run (authorization : Authorization) :
    (∃ x, requireAuth env now authorization ⟨db, false, false⟩ = (.error x, ⟨db, false, false⟩)) ∨
    ∃ context, requireAuth env now authorization ⟨db, false, false⟩ =
      (.ok context, ⟨db, false, false⟩) := by
  cases authorization with
  | missing | undecodable => exact .inl ⟨_, rfl⟩
  | bearer token =>
    unfold requireAuth
    dsimp only
    cases verifyAccessToken env.ring now token with
    | error e => cases e <;> exact .inl ⟨_, rfl⟩
    | ok claims =>
      dsimp only
      rw [run_bind, run_select]
      dsimp only
      cases db.session claims.sid with
      | none => exact .inl ⟨_, rfl⟩
      | some session =>
        dsimp only
        split
        · exact .inl ⟨_, rfl⟩
        · exact .inr ⟨_, rfl⟩

-- ---------------------------------------------------------------------------
-- The requests
-- ---------------------------------------------------------------------------

theorem body_loses {request : AuthRequest} (hnew : NewAudit draw db)
    (h : request.logsRejection env now draw db = true) :
    Loses (request.body env now draw) db := by
  cases request with
  | register email password ipAddress userAgent =>
    exact (registerRoute_loses ipAddress userAgent hnew h).discard
  | login email password ipAddress userAgent =>
    exact ((login_loses ipAddress userAgent hnew h).rethrow _).discard
  | refresh refreshToken ipAddress => exact ((refresh_loses ipAddress hnew h).rethrow _).discard
  | logout authorization refreshToken => cases h

theorem body_settles {request : AuthRequest} (hnew : NewAudit draw db)
    (htoken : NewToken env draw db) (h : request.logsRejection env now draw db = false) :
    Settles (request.body env now draw) db := by
  cases request with
  | register email password ipAddress userAgent =>
    exact (registerRoute_settles ipAddress userAgent hnew htoken h).discard
  | login email password ipAddress userAgent =>
    exact ((login_settles ipAddress userAgent hnew htoken h).rethrow _).discard
  | refresh refreshToken ipAddress => exact ((refresh_settles ipAddress hnew h).rethrow _).discard
  | logout authorization refreshToken =>
    have hrun : (∃ x, requireAuth env now authorization ⟨db, false, false⟩ = _) ∨ _ :=
      requireAuth_run authorization
    rcases hrun with ⟨x, hauth⟩ | ⟨context, hauth⟩
    · exact .inl ⟨x, _, by rw [AuthRequest.body, logoutRoute, run_bind, hauth], rfl⟩
    · exact settles_after hauth rfl (logout_settles hnew)

end

end Auth
