-- SUMMARY: The key ring, signed access tokens, and the opaque refresh tokens.
import DealScreening.Models.Base

/-!
# Tokens

Signatures are ideal: a token names the key seed that signed it, and verifies
under that seed only.
-/

/-- A signing key: its id and the 32 bytes its private key is made from. -/
structure SigningKey where
  kid : String
  seed : List UInt8
  deriving DecidableEq, Repr

structure KeyRing where
  current : Option SigningKey
  previous : Option SigningKey
  deriving DecidableEq, Repr

namespace KeyRing

def allKeys (ring : KeyRing) : List SigningKey :=
  ring.current.toList ++ ring.previous.toList

end KeyRing

/-- The arguments of `init_signing_keys`. -/
structure SigningSecrets where
  currentKeyBytes : List UInt8
  currentKid : String
  previousKeyBytes : Option (List UInt8)
  previousKid : Option String
  deriving DecidableEq, Repr

/-- The previous secret and its kid, `if previous_key_bytes and previous_kid`. -/
def SigningSecrets.previous (secrets : SigningSecrets) : Option (List UInt8 × String) :=
  match secrets.previousKeyBytes, secrets.previousKid with
  | some keyBytes, some kid => if keyBytes ≠ [] ∧ kid ≠ "" then some (keyBytes, kid) else none
  | _, _ => none

/-- `Ed25519PrivateKey.from_private_bytes`. The result `none` is its `ValueError`. -/
def fromPrivateBytes (data : List UInt8) : Option (List UInt8) :=
  if data.length = 32 then some data else none

/-- `init_signing_keys`: the ring it leaves, and whether it returned. -/
def initSigningKeys (secrets : SigningSecrets) (ring : KeyRing) : KeyRing × Bool :=
  match fromPrivateBytes (secrets.currentKeyBytes.take 32) with
  | none => (ring, false)
  | some seed =>
    let ring := { ring with current := some ⟨secrets.currentKid, seed⟩ }
    match secrets.previous with
    | none => (ring, true)
    | some (keyBytes, kid) =>
      match fromPrivateBytes (keyBytes.take 32) with
      | none => (ring, false)
      | some seed => ({ ring with previous := some ⟨kid, seed⟩ }, true)

/-- The claims of an access token. `iat` and `exp` are whole seconds. -/
structure Claims where
  iss : String
  sub : String
  tnt : String
  sid : String
  roles : List String
  iat : Int
  exp : Int
  deriving DecidableEq, Repr

/-- A well-formed access token. -/
structure AccessToken where
  kid : Option String
  signedBy : List UInt8
  claims : Claims
  deriving DecidableEq, Repr

/-- `create_access_token`. The result `none` is the `RuntimeError` of an empty key ring. -/
def createAccessToken (ring : KeyRing) (now : Time) (userId tenantId sessionId : String)
    (roles : List String) (issuer : String) (ttlSeconds : Int) : Option AccessToken :=
  ring.current.map fun key =>
    { kid := some key.kid
      signedBy := key.seed
      claims :=
        { iss := issuer, sub := userId, tnt := tenantId, sid := sessionId, roles,
          iat := Time.toSeconds now, exp := Time.toSeconds (now + Time.seconds ttlSeconds) } }

/-- The clock skew that `verify_access_token` tolerates. -/
def leeway : Time := Time.seconds 30

/-- `jwt.decode` under one key: the signature, `iat` and `exp`. -/
def decodes (now : Time) (token : AccessToken) (key : SigningKey) : Bool :=
  token.signedBy = key.seed ∧ Time.seconds token.claims.iat ≤ now + leeway ∧
    now - leeway < Time.seconds token.claims.exp

/-- Which keys are tried: a token without a key id, or with an empty one, is
    checked against all of them. -/
def matchesKid (token : AccessToken) (key : SigningKey) : Bool :=
  token.kid.all fun kid => kid = "" ∨ key.kid = kid

inductive VerifyError where
  | invalidToken
  | noSigningKeys
  deriving DecidableEq, Repr

def verifyAccessToken (ring : KeyRing) (now : Time) (token : AccessToken) :
    Except VerifyError Claims :=
  if ring.allKeys = [] then .error .noSigningKeys
  else if ring.allKeys.any fun key => matchesKid token key && decodes now token key then
    .ok token.claims
  else .error .invalidToken

/-- Verification returns the claims as they stand in the token. -/
theorem verifyAccessToken_claims {ring : KeyRing} {now : Time} {token : AccessToken}
    {claims : Claims} (h : verifyAccessToken ring now token = .ok claims) :
    claims = token.claims := by
  unfold verifyAccessToken at h
  split at h
  · cases h
  · split at h <;> cases h
    rfl

/-- The opaque refresh token made of the hex digits of a UUID and a random part. -/
def opaqueRefreshToken (hex randomPart : String) : String :=
  s!"rt_{hex}_{randomPart}"
