-- SUMMARY: The auth routes and `require_auth`, and the system of requests that run one after the other, each in one transaction of `get_db`.
import DealScreening.Auth.Service
import DealScreening.Lib.Run

/-!
# Auth routes

`get_db` commits when the route returns and rolls back when it raises. FastAPI
rethrows the exception of a route into `get_db`, an `HTTPException` like any
other, so a route that answers 401 leaves nothing of what it wrote.
-/

/-- The `Authorization` header: not there or without `Bearer `, a bearer token
    that is not a JWT, or one that is. -/
inductive Authorization where
  | missing
  | undecodable
  | bearer (token : AccessToken)
  deriving DecidableEq, Repr

structure AuthContext where
  userId : String
  tenantId : String
  sessionId : String
  roles : List String
  deriving DecidableEq, Repr

namespace Auth

open Session

section
variable (env : AuthEnv) (now : Time) (draw : AuthDraw)

-- ---------------------------------------------------------------------------
-- Routes
-- ---------------------------------------------------------------------------

def requireAuth (authorization : Authorization) : AuthM AuthContext :=
  match authorization with
  | .missing =>
    raise (.http 401 "UNAUTHORIZED" "Missing or invalid Authorization header")
  | .undecodable =>
    raise (.http 401 "UNAUTHORIZED" "Invalid or expired access token")
  | .bearer token =>
    match verifyAccessToken env.ring now token with
    | .error .noSigningKeys => raise (.runtimeError "No signing keys available")
    | .error .invalidToken =>
      raise (.http 401 "UNAUTHORIZED" "Invalid or expired access token")
    | .ok claims => do
      match ← select (·.session claims.sid) with
      | none => raise (.http 401 "SESSION_REVOKED" "Session has been revoked")
      | some session =>
        if session.revokedAt ≠ none then
          raise (.http 401 "SESSION_REVOKED" "Session has been revoked")
        else
          pure { userId := claims.sub, tenantId := claims.tnt, sessionId := claims.sid,
                 roles := claims.roles }

/-- `except (...) as exc: raise HTTPException(401, ...)`, for the errors a route
    names. Everything else goes on. -/
def rethrow401 {α : Type} (caught : List AuthExn) (x : Exn AuthExn) : AuthM α :=
  match x with
  | .raised exc =>
    match exc.authError with
    | some (code, message) => if exc ∈ caught then raise (.http 401 code message) else throw x
    | none => throw x
  | _ => throw x

/-- `_DEFAULT_TENANT_ID`. -/
def defaultTenantId : String := "00000000-0000-0000-0000-000000000001"

/-- The body of `register`, after its schema has normalised the email. -/
def registerRoute (email password : String) (ipAddress userAgent : Option String) :
    AuthM TokenBundle := do
  match ← select (·.userByEmail email) with
  | some _ => raise (.http 409 "" "Email already registered")
  | none =>
    let _ ← createUser env now draw defaultTenantId email password
    login env now draw email password ipAddress userAgent

def loginRoute (email password : String) (ipAddress userAgent : Option String) :
    AuthM TokenBundle :=
  (login env now draw email password ipAddress userAgent).tryCatch
    (rethrow401 [.invalidCredentials])

def refreshRoute (refreshToken : String) (ipAddress : Option String) : AuthM TokenBundle :=
  (refresh env now draw refreshToken ipAddress).tryCatch
    (rethrow401 [.invalidRefreshToken, .sessionRevoked])

def logoutRoute (authorization : Authorization) (refreshToken : String) : AuthM Unit := do
  let _ ← requireAuth env now authorization
  logout env now draw refreshToken

end

-- ---------------------------------------------------------------------------
-- The system
-- ---------------------------------------------------------------------------

/-- A request, or a call of a function that has no route, with its random values;
    or time that passes. -/
inductive Act where
  | register (email password : String) (ipAddress userAgent : Option String) (draw : AuthDraw)
  | login (email password : String) (ipAddress userAgent : Option String) (draw : AuthDraw)
  | refresh (refreshToken : String) (ipAddress : Option String) (draw : AuthDraw)
  | logout (authorization : Authorization) (refreshToken : String) (draw : AuthDraw)
  | createUser (tenantId email password : String) (draw : AuthDraw)
  | revokeUserSessions (userId reason : String) (auditHexes : List String) (draw : AuthDraw)
  | changePassword (userId newPassword : String) (auditHexes : List String) (draw : AuthDraw)
  | advance (d : Nat)
  deriving DecidableEq, Repr

/-- The committed database and the clock. -/
structure St where
  db : AuthDb
  now : Time
  deriving DecidableEq, Repr

/-- The database after one action. -/
def commit (env : AuthEnv) (s : St) : Act → AuthDb
  | .register email password ipAddress userAgent draw =>
    (transaction (registerRoute env s.now draw email password ipAddress userAgent) s.db).2
  | .login email password ipAddress userAgent draw =>
    (transaction (loginRoute env s.now draw email password ipAddress userAgent) s.db).2
  | .refresh refreshToken ipAddress draw =>
    (transaction (refreshRoute env s.now draw refreshToken ipAddress) s.db).2
  | .logout authorization refreshToken draw =>
    (transaction (logoutRoute env s.now draw authorization refreshToken) s.db).2
  | .createUser tenantId email password draw =>
    (transaction (createUser env s.now draw tenantId email password) s.db).2
  | .revokeUserSessions userId reason auditHexes draw =>
    (transaction (revokeUserSessions s.now draw userId reason auditHexes) s.db).2
  | .changePassword userId newPassword auditHexes draw =>
    (transaction (changePassword env s.now draw userId newPassword auditHexes) s.db).2
  | .advance _ => s.db

/-- One action. Every action is enabled: a request that raises is answered with
    an error and commits nothing. -/
def step (env : AuthEnv) (s : St) (a : Act) : St :=
  { db := commit env s a
    now := match a with
      | .advance d => s.now + d
      | _ => s.now }

/-- The state after the requests `as`. -/
def run (env : AuthEnv) (s : St) (as : List Act) : St :=
  as.foldl (step env) s

@[simp] theorem run_nil {env : AuthEnv} {s : St} : run env s [] = s := rfl

theorem run_append {env : AuthEnv} {s : St} {as bs : List Act} :
    run env s (as ++ bs) = run env (run env s as) bs :=
  List.foldl_append

/-- A deployment with toy hashes that tell the texts of the run below apart. -/
def toyEnv : AuthEnv :=
  { config := { accessTtlS := 900, refreshTtlS := 604800, issuer := "deal-screening-agent" }
    ring := ⟨some ⟨"k1", List.replicate 32 7⟩, none⟩
    passwords :=
      { hash := fun salt password => s!"{password}${salt}"
        verify := fun password hash => (s!"{password}$").toList.isPrefixOf hash.toList }
    sha256 := fun text => s!"sha256({text})"
    normalizeEmail := id }

/-- The random values of the `n`-th call. -/
def toyDraw (n : String) : AuthDraw := ⟨n, n, n, n, n, n, n⟩

end Auth
