-- SUMMARY: The auth service: users, login, refresh with reuse detection, logout and revocation, as statements of the caller's transaction.
import DealScreening.Auth.Tokens
import DealScreening.Lib.Session
import DealScreening.Models.User

/-!
# Auth service

Every function runs in the transaction of its caller. One call reads the clock
once, and draws its random values before it starts.
-/

structure AuthConfig where
  accessTtlS : Int
  refreshTtlS : Int
  issuer : String
  deriving DecidableEq, Repr

/-- The password hasher: `hash` takes the salt it draws, `verify` a hash. -/
structure PasswordHasher where
  hash : String → String → String
  verify : String → String → Bool

/-- What the service works with besides the database. `normalizeEmail` is
    `email.strip().lower()`. -/
structure AuthEnv where
  config : AuthConfig
  ring : KeyRing
  passwords : PasswordHasher
  sha256 : String → String
  normalizeEmail : String → String

/-- The random values of one call: hex digits for the ids, the salt, and the
    random part of a refresh token. -/
structure AuthDraw where
  userHex : String
  sessionHex : String
  tokenHex : String
  auditHex : String
  salt : String
  opaqueHex : String
  randomPart : String
  deriving DecidableEq, Repr

/-- What the auth code raises. -/
inductive AuthExn where
  | invalidCredentials
  | invalidRefreshToken
  | sessionRevoked
  | http (status : Nat) (error message : String)
  | runtimeError (message : String)
  | noResultFound
  deriving DecidableEq, Repr

namespace AuthExn

/-- `code` and `message` of an `AuthError`. -/
def authError : AuthExn → Option (String × String)
  | .invalidCredentials => some ("INVALID_CREDENTIALS", "Email or password is incorrect.")
  | .invalidRefreshToken => some ("INVALID_REFRESH_TOKEN", "Refresh token is invalid or expired.")
  | .sessionRevoked => some ("SESSION_REVOKED", "Session has been revoked.")
  | _ => none

end AuthExn

structure TokenBundle where
  accessToken : AccessToken
  refreshToken : String
  expiresIn : Int
  refreshExpiresIn : Int
  userId : String
  tenantId : String
  email : String
  deriving DecidableEq, Repr

namespace Auth

open Session

abbrev AuthM := Session AuthDb AuthExn

variable (env : AuthEnv) (now : Time) (draw : AuthDraw)

/-- `generate_refresh_token`: the opaque token, of which only the hash is stored. -/
def generateRefreshToken : String × String :=
  let token := opaqueRefreshToken draw.opaqueHex draw.randomPart
  (token, env.sha256 token)

/-- A session for the user, with its id. -/
def newSession (user : User) (ipAddress userAgent : Option String) : AuthSession :=
  { sessionId := prefixedId "sess" draw.sessionHex, userId := user.userId,
    tenantId := user.tenantId, revokedAt := none, revokedReason := none, userAgent, ipAddress }

/-- A fresh refresh token of the session. -/
def newRefreshToken (sessionId : String) (parentTokenId : Option String) : RefreshToken :=
  { tokenId := prefixedId "rt" draw.tokenHex, sessionId, parentTokenId,
    tokenHash := (generateRefreshToken env draw).2,
    expiresAt := now + Time.seconds env.config.refreshTtlS, consumedAt := none,
    consumedByIp := none }

/-- `create_access_token` for a session of the user. -/
def accessTokenFor (user : User) (sessionId : String) : Option AccessToken :=
  createAccessToken env.ring now user.userId user.tenantId sessionId [] env.config.issuer
    env.config.accessTtlS

def tokenBundle (user : User) (accessToken : AccessToken) (refreshToken : String) : TokenBundle :=
  { accessToken, refreshToken, expiresIn := env.config.accessTtlS,
    refreshExpiresIn := env.config.refreshTtlS, userId := user.userId, tenantId := user.tenantId,
    email := user.email }

/-- The row `_write_audit` adds. -/
def auditEntry (eventType : AuthEvent) (userId tenantId sessionId ipAddress userAgent : Option String)
    (metadata : Option (String × String)) : AuthAuditLog :=
  { auditId := prefixedId "aud" draw.auditHex, userId, tenantId, sessionId, eventType, ipAddress,
    userAgent, metadata }

/-- `_write_audit`. -/
def writeAudit (eventType : AuthEvent) (userId tenantId sessionId ipAddress userAgent : Option String)
    (metadata : Option (String × String)) : AuthM Unit :=
  write (AuthDb.insertAudit
    (auditEntry draw eventType userId tenantId sessionId ipAddress userAgent metadata))

/-- `_create_session_and_tokens`: the session id, the access token and the opaque
    refresh token. -/
def createSessionAndTokens (user : User) (ipAddress userAgent : Option String) :
    AuthM (String × AccessToken × String) := do
  let session := newSession draw user ipAddress userAgent
  write (AuthDb.insertSession session)
  flush
  write (AuthDb.insertRefreshToken (newRefreshToken env now draw session.sessionId none))
  match accessTokenFor env now user session.sessionId with
  | none => raise (.runtimeError "Signing keys not initialized")
  | some accessToken => pure (session.sessionId, accessToken, (generateRefreshToken env draw).1)

/-- The columns `_revoke_session` sets. -/
def revoked (reason : String) (session : AuthSession) : AuthSession :=
  { session with revokedAt := some now, revokedReason := some reason }

/-- `_revoke_session`. -/
def revokeSession (session : AuthSession) (reason : String) : AuthM Unit := do
  update (AuthDb.updateSession session.sessionId (revoked now reason))
  flush

/-- The row `create_user` adds. -/
def newUser (tenantId email password : String) : User :=
  { userId := prefixedId "usr" draw.userHex, tenantId, email := env.normalizeEmail email,
    passwordHash := env.passwords.hash draw.salt password, passwordChangedAt := now,
    isActive := true }

def createUser (tenantId email password : String) : AuthM User := do
  let user := newUser env now draw tenantId email password
  write (AuthDb.insertUser user)
  flush
  pure user

def login (email password : String) (ipAddress userAgent : Option String) : AuthM TokenBundle := do
  match ← select (·.userByEmail (env.normalizeEmail email)) with
  | none =>
    writeAudit draw .loginFailed none none none ipAddress userAgent
      (some ("reason", "unknown_email"))
    raise .invalidCredentials
  | some user =>
    if user.isActive = false then
      writeAudit draw .loginFailed (some user.userId) (some user.tenantId) none ipAddress userAgent
        (some ("reason", "inactive_account"))
      raise .invalidCredentials
    else if env.passwords.verify password user.passwordHash = false then
      writeAudit draw .loginFailed (some user.userId) (some user.tenantId) none ipAddress userAgent
        (some ("reason", "wrong_password"))
      raise .invalidCredentials
    else
      let (sessionId, accessToken, opaqueToken) ←
        createSessionAndTokens env now draw user ipAddress userAgent
      writeAudit draw .loginSuccess (some user.userId) (some user.tenantId) (some sessionId)
        ipAddress userAgent none
      pure (tokenBundle env user accessToken opaqueToken)

/-- The columns a successful refresh sets on the presented token. -/
def consumed (ipAddress : Option String) (token : RefreshToken) : RefreshToken :=
  { token with consumedAt := some now, consumedByIp := ipAddress }

/-- What `refresh` does with a token that passed every check. -/
def exchange (rt : RefreshToken) (session : AuthSession) (ipAddress : Option String) :
    AuthM TokenBundle := do
  update (AuthDb.updateRefreshToken rt.tokenId (consumed now ipAddress))
  write (AuthDb.insertRefreshToken
    (newRefreshToken env now draw session.sessionId (some rt.tokenId)))
  match ← select (·.userById session.userId) with
  | none => raise .noResultFound
  | some user =>
    match accessTokenFor env now user session.sessionId with
    | none => raise (.runtimeError "Signing keys not initialized")
    | some accessToken =>
      writeAudit draw .refresh (some user.userId) (some user.tenantId) (some session.sessionId)
        ipAddress none none
      pure (tokenBundle env user accessToken (generateRefreshToken env draw).1)

def refresh (refreshToken : String) (ipAddress : Option String) : AuthM TokenBundle := do
  match ← select (·.tokenByHash (env.sha256 refreshToken)) with
  | none => raise .invalidRefreshToken
  | some rt =>
    match ← select (·.session rt.sessionId) with
    | none => raise .invalidRefreshToken
    | some session =>
      if rt.consumedAt ≠ none then
        -- the token was consumed before: revoke the whole session family
        if session.revokedAt = none then
          revokeSession now session "reuse"
        writeAudit draw .reuseDetected (some session.userId) (some session.tenantId)
          (some session.sessionId) ipAddress none (some ("reused_token_id", rt.tokenId))
        raise .invalidRefreshToken
      else if session.revokedAt ≠ none then
        writeAudit draw .refreshRevokedSession (some session.userId) (some session.tenantId)
          (some session.sessionId) ipAddress none none
        raise .sessionRevoked
      else if rt.expiresAt < now then
        raise .invalidRefreshToken
      else
        exchange env now draw rt session ipAddress

def logout (refreshToken : String) : AuthM Unit := do
  match ← select (·.tokenByHash (env.sha256 refreshToken)) with
  | none => pure ()
  | some rt =>
    match ← select (·.session rt.sessionId) with
    | none => pure ()
    | some session =>
      if session.revokedAt = none then
        revokeSession now session "logout"
        writeAudit draw .logout (some session.userId) (some session.tenantId)
          (some session.sessionId) none none none

/-- The loop of `revoke_user_sessions`, with the hex digits of one audit id for
    each session. -/
def revokeEach (reason : String) : List AuthSession → List String → AuthM Unit
  | [], _ => pure ()
  | session :: sessions, auditHexes => do
    update (AuthDb.updateSession session.sessionId (revoked now reason))
    writeAudit { draw with auditHex := auditHexes.headD "" } .revoked (some session.userId)
      (some session.tenantId) (some session.sessionId) none none (some ("reason", reason))
    revokeEach reason sessions auditHexes.tail

def revokeUserSessions (userId reason : String) (auditHexes : List String) : AuthM Nat := do
  let sessions ← select fun db =>
    db.sessions.filter fun session => session.userId = userId ∧ session.revokedAt = none
  revokeEach now draw reason sessions auditHexes
  if sessions ≠ [] then flush
  pure sessions.length

/-- The columns `change_password` sets. -/
def repassworded (newPassword : String) (user : User) : User :=
  { user with
    passwordHash := env.passwords.hash draw.salt newPassword
    passwordChangedAt := now }

def changePassword (userId newPassword : String) (auditHexes : List String) : AuthM Unit := do
  match ← select (·.userById userId) with
  | none => raise .noResultFound
  | some _ =>
    update (AuthDb.updateUser userId (repassworded env now draw newPassword))
    let _ ← revokeUserSessions now draw userId "password_change" auditHexes
    pure ()

end Auth
