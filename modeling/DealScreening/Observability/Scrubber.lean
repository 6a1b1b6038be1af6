-- SUMMARY: The scrubber of log records: its six patterns, the scrubbing of a string and of nested fields.
import DealScreening.Services.PiiScrubber

/-!
# Scrubbing log records

Three patterns for personal data are those of the document scrubber. The other three look for
bearer tokens and access keys.
-/

namespace LogScrubber

open Python Python.Re PiiScrubber

/-! ## The patterns -/

/-- `[A-Za-z0-9]`. -/
def isAlnum (c : Nat) : Bool := isAsciiLetter c || isDigit c

/-- `[A-Z0-9]`. -/
def isKeyChar (c : Nat) : Bool := (0x41 ≤ c && c ≤ 0x5A) || isDigit c

/-- `Bearer\s+\S+`, without regard to case. -/
def bearer : Re :=
  seq (fold (text "bearer")) (seq (run isSpace 1 none) (run (!isSpace ·) 1 none))

/-- `sk-[A-Za-z0-9]{20,}`. -/
def skToken : Re := all [char 's', char 'k', char '-', run isAlnum 20 none]

/-- `AKIA[A-Z0-9]{16}`. -/
def awsKey : Re := all [char 'A', char 'K', char 'I', char 'A', times isKeyChar 16]

/-- `"REDACTED"`, which stands in brackets. -/
def redacted : Str := text "REDACTED"

/-- `"[REDACTED]"`. -/
def marker : Str := bracketed redacted

/-- `"Bearer [REDACTED]"`. -/
def bearerMarker : Str := text "Bearer " ++ marker

theorem email_nonempty : 0 < email.minLength := Nat.succ_pos 5

theorem email_opening : email.takes 0x5B = false := rfl

section
variable [ReTables]

theorem ssn_nonempty : 0 < ssn.minLength := Nat.succ_pos 10

theorem phone_nonempty : 0 < phone.minLength := Nat.succ_pos 9

theorem ssn_opening : ssn.takes 0x5B = false := rfl

theorem phone_opening : phone.takes 0x5B = false := rfl

/-- The first three of `_PATTERNS`. -/
def addresses : List Rule :=
  [constant email "REDACTED" email_nonempty email_opening,
    constant ssn "REDACTED" ssn_nonempty ssn_opening,
    constant phone "REDACTED" phone_nonempty phone_opening]

/-- The other three, with their replacements. -/
def tokens : List (Re × Str) := [(bearer, bearerMarker), (skToken, marker), (awsKey, marker)]

/-- `_PATTERNS`. -/
def patterns : List (Re × Str) := addresses.map (fun rule => (rule.re, marker)) ++ tokens

/-- `scrub_value`. -/
def scrubValue (value : Str) : Str :=
  patterns.foldl (fun s p => sub (find p.1) (fun _ => p.2) s) value

/-! ## Fields -/

/-- `_BLOCKED_KEYS`. -/
def blockedKeys : List Str :=
  [text "password", text "token", text "secret", text "authorization", text "cookie", text "api_key",
    text "apikey", text "access_token", text "refresh_token", text "signing_key", text "private_key"]

/-- `k.lower() in _BLOCKED_KEYS`. -/
def isBlocked (k : Str) : Bool := blockedKeys.contains (Str.lower k)

mutual

/-- A value under a key that is not blocked. -/
def scrubField : Json → Json
  | .str s => .str (scrubValue s)
  | .dict fields => .dict (scrubFields fields)
  | v => v

/-- `scrub_fields`. -/
def scrubFields : List (Str × Json) → List (Str × Json)
  | [] => []
  | (k, v) :: fields =>
    (k, if isBlocked k then .str marker else scrubField v) :: scrubFields fields

end

/-! ## What is left to find -/

/-- Every match of a pattern in the string is one of the replacements. -/
def Scrubbed (s : Str) : Prop :=
  ∀ p ∈ patterns, ∀ m ∈ finditer (find p.1) s, m.text ∈ patterns.map Prod.snd

end

end LogScrubber
