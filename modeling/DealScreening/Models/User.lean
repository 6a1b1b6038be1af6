-- SUMMARY: Users, sessions, refresh tokens and the auth audit log, with the constraints their tables put on an insert.
import DealScreening.Lib.Table
import DealScreening.Models.Base

/-!
# Auth tables

Primary keys are prefixed ids: `usr_`, `sess_`, `rt_` and `aud_` followed by the
hex digits of a random UUID.
-/

/-- `_prefixed_id`, for the hex digits `uuid4` gave. -/
def prefixedId (kind hex : String) : String :=
  s!"{kind}_{hex}"

theorem prefixedId_inj {kind hex hex' : String} :
    prefixedId kind hex = prefixedId kind hex' ↔ hex = hex' := by
  constructor
  · intro h
    have hlists := congrArg String.toList h
    simp only [prefixedId, String.toList_append] at hlists
    exact String.ext (List.append_cancel_left hlists)
  · rintro rfl
    rfl

structure User where
  userId : String
  tenantId : String
  email : String
  passwordHash : String
  passwordChangedAt : Time
  isActive : Bool
  deriving DecidableEq, Repr

structure AuthSession where
  sessionId : String
  userId : String
  tenantId : String
  revokedAt : Option Time
  revokedReason : Option String
  userAgent : Option String
  ipAddress : Option String
  deriving DecidableEq, Repr

structure RefreshToken where
  tokenId : String
  sessionId : String
  parentTokenId : Option String
  tokenHash : String
  expiresAt : Time
  consumedAt : Option Time
  consumedByIp : Option String
  deriving DecidableEq, Repr

/-- The event types the service writes. -/
inductive AuthEvent where
  | loginSuccess
  | loginFailed
  | refresh
  | reuseDetected
  | refreshRevokedSession
  | logout
  | revoked
  deriving DecidableEq, Repr

/-- A row of `auth_audit_log`. `metadata` is its one key and value. -/
structure AuthAuditLog where
  auditId : String
  userId : Option String
  tenantId : Option String
  sessionId : Option String
  eventType : AuthEvent
  ipAddress : Option String
  userAgent : Option String
  metadata : Option (String × String)
  deriving DecidableEq, Repr

structure AuthDb where
  users : List User
  sessions : List AuthSession
  refreshTokens : List RefreshToken
  auditLog : List AuthAuditLog
  deriving DecidableEq, Repr

namespace AuthDb

def empty : AuthDb := ⟨[], [], [], []⟩

/-! ## Queries -/

def userByEmail (db : AuthDb) (email : String) : Option User :=
  Table.lookup User.email db.users email

def userById (db : AuthDb) (userId : String) : Option User :=
  Table.lookup User.userId db.users userId

def session (db : AuthDb) (sessionId : String) : Option AuthSession :=
  Table.lookup AuthSession.sessionId db.sessions sessionId

def tokenByHash (db : AuthDb) (tokenHash : String) : Option RefreshToken :=
  Table.lookup RefreshToken.tokenHash db.refreshTokens tokenHash

def tokenById (db : AuthDb) (tokenId : String) : Option RefreshToken :=
  Table.lookup RefreshToken.tokenId db.refreshTokens tokenId

/-! ## Inserts -/

/-- `users_pkey` and `uq_users_email`. -/
def insertUser (user : User) (db : AuthDb) : Option AuthDb :=
  if (db.userById user.userId).isNone ∧ (db.userByEmail user.email).isNone then
    some { db with users := db.users ++ [user] }
  else none

/-- `sessions_pkey`, and the user exists. -/
def insertSession (session : AuthSession) (db : AuthDb) : Option AuthDb :=
  if (db.session session.sessionId).isNone ∧ (db.userById session.userId).isSome then
    some { db with sessions := db.sessions ++ [session] }
  else none

/-- `refresh_tokens_pkey` and `uq_refresh_tokens_token_hash`, and the session and
    the parent exist. -/
def insertRefreshToken (token : RefreshToken) (db : AuthDb) : Option AuthDb :=
  if (db.tokenById token.tokenId).isNone ∧ (db.tokenByHash token.tokenHash).isNone ∧
      (db.session token.sessionId).isSome ∧
      token.parentTokenId.all (fun parent => (db.tokenById parent).isSome) then
    some { db with refreshTokens := db.refreshTokens ++ [token] }
  else none

/-- `auth_audit_log_pkey`. -/
def insertAudit (entry : AuthAuditLog) (db : AuthDb) : Option AuthDb :=
  if (Table.lookup AuthAuditLog.auditId db.auditLog entry.auditId).isNone then
    some { db with auditLog := db.auditLog ++ [entry] }
  else none

theorem insertUser_eq_some {user : User} {db db' : AuthDb} (h : db.insertUser user = some db') :
    db' = { db with users := db.users ++ [user] } := by
  unfold insertUser at h
  split at h <;> cases h
  rfl

theorem insertSession_eq_some {session : AuthSession} {db db' : AuthDb}
    (h : db.insertSession session = some db') :
    db' = { db with sessions := db.sessions ++ [session] } ∧
      ∀ s ∈ db.sessions, s.sessionId ≠ session.sessionId := by
  unfold insertSession at h
  split at h
  · rename_i hfresh
    cases h
    exact ⟨rfl, Table.lookup_eq_none.mp (Option.isNone_iff_eq_none.mp hfresh.1)⟩
  · cases h

theorem insertRefreshToken_eq_some {token : RefreshToken} {db db' : AuthDb}
    (h : db.insertRefreshToken token = some db') :
    db' = { db with refreshTokens := db.refreshTokens ++ [token] } ∧
      ∀ r ∈ db.refreshTokens, r.tokenId ≠ token.tokenId ∧ r.tokenHash ≠ token.tokenHash := by
  unfold insertRefreshToken at h
  split at h
  · rename_i hfresh
    cases h
    have hid := Table.lookup_eq_none.mp (Option.isNone_iff_eq_none.mp hfresh.1)
    have hhash := Table.lookup_eq_none.mp (Option.isNone_iff_eq_none.mp hfresh.2.1)
    exact ⟨rfl, fun r hr => ⟨hid r hr, hhash r hr⟩⟩
  · cases h

theorem insertAudit_eq_some {entry : AuthAuditLog} {db db' : AuthDb}
    (h : db.insertAudit entry = some db') : db' = { db with auditLog := db.auditLog ++ [entry] } := by
  unfold insertAudit at h
  split at h <;> cases h
  rfl

/-! ## Updates by primary key -/

def updateUser (userId : String) (f : User → User) (db : AuthDb) : AuthDb :=
  { db with users := Table.modify User.userId db.users userId f }

def updateSession (sessionId : String) (f : AuthSession → AuthSession) (db : AuthDb) : AuthDb :=
  { db with sessions := Table.modify AuthSession.sessionId db.sessions sessionId f }

def updateRefreshToken (tokenId : String) (f : RefreshToken → RefreshToken) (db : AuthDb) :
    AuthDb :=
  { db with refreshTokens := Table.modify RefreshToken.tokenId db.refreshTokens tokenId f }

end AuthDb
