-- SUMMARY: What the auth service is for, without tables: accounts that open for passwords, and sessions each of which has one refresh token that is good for it.
import Mathlib.Logic.Function.Basic

/-!
# An ideal session manager

An account opens for some passwords. A session belongs to an account until it is ended, and at
every time one token renews it; a renewal replaces the token. Nothing is said of rows, of
audit entries, or of how a token is told from one that was replaced.
-/

/-- Who an account is, and which passwords open it. -/
structure Account where
  userId : String
  tenantId : String
  active : Bool
  opens : String → Bool

/-- The fingerprint of a refresh token, and the last time it can be used. -/
structure Renewal (Clock : Type) where
  fingerprint : String
  expiresAt : Clock
  deriving DecidableEq

/-- A session, and the token that renews it. -/
structure Grant (Clock : Type) where
  userId : String
  tenantId : String
  live : Bool
  renewal : Option (Renewal Clock)
  deriving DecidableEq

/-- Accounts by email, sessions by their ids, and the session that each token was given out for. -/
structure SessionManager (Clock : Type) where
  accounts : String → Option Account
  sessions : String → Option (Grant Clock)
  givenFor : String → Option String

/-- What a request is granted: a session of a user, and the token that renews it next. -/
structure Granted where
  sessionId : String
  userId : String
  tenantId : String
  fingerprint : String
  deriving DecidableEq, Repr

namespace SessionManager

variable {Clock : Type} (m : SessionManager Clock)

def empty : SessionManager Clock := ⟨fun _ => none, fun _ => none, fun _ => none⟩

/-- The account with this email. -/
def addAccount (email : String) (account : Account) : SessionManager Clock :=
  { m with accounts := Function.update m.accounts email (some account) }

/-- The token renews the session from now on. -/
def give (sessionId : String) (grant : Grant Clock) (renewal : Renewal Clock) : SessionManager Clock :=
  { m with
    sessions := Function.update m.sessions sessionId (some { grant with renewal := some renewal })
    givenFor := Function.update m.givenFor renewal.fingerprint (some sessionId) }

/-- The sessions that `p` chooses are ended. -/
def endSessions (p : String → Grant Clock → Bool) : SessionManager Clock :=
  { m with
    sessions := fun sessionId => (m.sessions sessionId).map fun grant =>
      { grant with live := grant.live && !p sessionId grant } }

/-- The accounts of a user open for other passwords. -/
def reopen (userId : String) (opens : String → Bool) : SessionManager Clock :=
  { m with
    accounts := fun email => (m.accounts email).map fun account =>
      if account.userId = userId then { account with opens } else account }

/-- The account that the password opens. -/
def admitted (email password : String) : Option Account :=
  (m.accounts email).filter fun account => account.active && account.opens password

/-- A session for an account that the password opens. -/
def login (email password sessionId : String) (renewal : Renewal Clock) :
    SessionManager Clock × Option Granted :=
  match m.admitted email password with
  | some account =>
    (m.give sessionId ⟨account.userId, account.tenantId, true, none⟩ renewal,
      some ⟨sessionId, account.userId, account.tenantId, renewal.fingerprint⟩)
  | none => (m, none)

/-- An account and its first session. `address` is the email as it is stored. -/
def register (email address password sessionId : String) (account : Account)
    (renewal : Renewal Clock) : SessionManager Clock × Option Granted :=
  if (m.accounts email).isSome ∨ (m.accounts address).isSome then (m, none)
  else
    match (m.addAccount address account).login address password sessionId renewal with
    | (m', some granted) => (m', some granted)
    | (_, none) => (m, none)

/-- The live session that the token renews. -/
def renewable [LT Clock] [DecidableLT Clock] (now : Clock) (fingerprint : String) :
    Option (String × Grant Clock) := do
  let sessionId ← m.givenFor fingerprint
  let grant ← m.sessions sessionId
  let renewal ← grant.renewal
  if grant.live ∧ renewal.fingerprint = fingerprint ∧ ¬ renewal.expiresAt < now then
    return (sessionId, grant)
  else none

/-- The token is replaced by another. -/
def refresh [LT Clock] [DecidableLT Clock] (now : Clock) (fingerprint : String) (renewal : Renewal Clock) :
    SessionManager Clock × Option Granted :=
  match m.renewable now fingerprint with
  | some (sessionId, grant) =>
    (m.give sessionId grant renewal,
      some ⟨sessionId, grant.userId, grant.tenantId, renewal.fingerprint⟩)
  | none => (m, none)

/-- The session that the token was given out for is ended. -/
def logout (fingerprint : String) : SessionManager Clock :=
  match m.givenFor fingerprint with
  | some sessionId => m.endSessions fun id _ => id = sessionId
  | none => m

-- ---------------------------------------------------------------------------
-- Ending sessions
-- ---------------------------------------------------------------------------

variable {m} {p q : String → Grant Clock → Bool}

/-- Only what is chosen of the live sessions counts. -/
theorem endSessions_congr (h : ∀ id grant, m.sessions id = some grant → grant.live = true →
    p id grant = q id grant) : m.endSessions p = m.endSessions q := by
  unfold endSessions
  congr 1
  funext id
  refine Option.map_congr fun grant hgrant => ?_
  cases hlive : grant.live with
  | false => rfl
  | true => rw [h id grant hgrant hlive]

theorem endSessions_eq_self (h : ∀ id grant, m.sessions id = some grant → grant.live = true →
    p id grant = false) : m.endSessions p = m := by
  rw [endSessions_congr (q := fun _ _ => false) h]
  unfold endSessions
  simp

theorem endSessions_endSessions {p q : String → Bool} :
    (m.endSessions fun id _ => p id).endSessions (fun id _ => q id) =
      m.endSessions fun id _ => p id || q id := by
  unfold endSessions
  congr 1
  funext id
  rw [Option.map_map]
  congr 1
  funext grant
  simp [Function.comp, Bool.and_assoc]

end SessionManager
