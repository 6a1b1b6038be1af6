-- SUMMARY: The client address of a request: the rightmost untrusted hop of the forwarded chain, whoever the peer is and whatever stands left of it.
import DealScreening.Python.Text

/-!
# Trusted proxy parser
-/

namespace RateLimiter

open Python

/-- What the program uses of `ipaddress`: `ip_address` where it does not raise, `str` of an
    address, and `in`. -/
class IpLibrary where
  Address : Type
  Network : Type
  ipAddress : Str → Option Address
  str : Address → Str
  contains : Network → Address → Bool

export IpLibrary (Address Network ipAddress)

/-- What `get_client_ip` reads of a request: the host of its socket peer, and the values of
    its `X-Forwarded-For` headers. -/
structure Connection where
  client : Option Str
  forwardedFor : List Str
  deriving DecidableEq

/-- `_peer_ip`. -/
def peerIp (request : Connection) : Str := request.client.getD (text "0.0.0.0")

/-- `headers.get` reads the first of several headers. -/
def forwarded (request : Connection) : Str := request.forwardedFor.headD []

/-- The entries of the header. -/
def chain (forwarded : Str) : List Str :=
  ((forwarded.splitOn 0x2C).map Str.strip).filter fun entry => entry ≠ []

section Library

variable [IpLibrary]

def isTrusted (addr : Address) (trusted : List Network) : Bool :=
  trusted.any fun network => IpLibrary.contains network addr

/-- The address of the peer is in none of the networks. -/
def peerUntrusted (request : Connection) (trusted : List Network) : Bool :=
  (ipAddress (peerIp request)).all fun addr => !isTrusted addr trusted

/-- The loop over the entries, the rightmost first. -/
def walk (trusted : List Network) : List Str → Option Str
  | [] => none
  | rawIp :: rest =>
    match ipAddress rawIp with
    | none => walk trusted rest
    | some addr => if isTrusted addr trusted then walk trusted rest else some (IpLibrary.str addr)

def getClientIp (request : Connection) (trustedProxies : List Network) : Str :=
  if trustedProxies.isEmpty then peerIp request
  else if forwarded request = [] then peerIp request
  else (walk trustedProxies (chain (forwarded request)).reverse).getD (peerIp request)

-- ---------------------------------------------------------------------------
-- The walk
-- ---------------------------------------------------------------------------

/-- The address an entry stands for, if it parses and lies outside the networks. -/
def untrustedAddress (trusted : List Network) (entry : Str) : Option Address :=
  (ipAddress entry).filter fun addr => !isTrusted addr trusted

/-- The addresses outside the networks that the header lists. -/
def untrustedHops (trusted : List Network) (forwarded : Str) : List Address :=
  (chain forwarded).filterMap (untrustedAddress trusted)

theorem walk_eq (trusted : List Network) (entries : List Str) :
    walk trusted entries =
      (entries.filterMap (untrustedAddress trusted)).head?.map IpLibrary.str := by
  induction entries with
  | nil => rfl
  | cons rawIp rest ih =>
    rw [walk, List.filterMap_cons, untrustedAddress]
    cases ipAddress rawIp with
    | none => exact ih
    | some addr =>
      cases htrusted : isTrusted addr trusted with
      | true => simpa only [Option.filter, htrusted, Bool.not_true, Bool.false_eq_true, if_true,
          if_false] using ih
      | false => simp [Option.filter, htrusted]

/-- The last untrusted hop of the header is believed, whoever the peer is. -/
theorem getClientIp_eq {trusted : List Network} (hne : trusted ≠ []) (request : Connection) :
    getClientIp request trusted =
      ((untrustedHops trusted (forwarded request)).getLast?.map IpLibrary.str).getD
        (peerIp request) := by
  rw [getClientIp, if_neg (by simpa using hne)]
  by_cases hempty : forwarded request = []
  · rw [if_pos hempty, hempty]
    rfl
  · rw [if_neg hempty, walk_eq, List.filterMap_reverse, List.head?_reverse]
    rfl

-- ---------------------------------------------------------------------------
-- Requests of one peer
-- ---------------------------------------------------------------------------

/-- Requests of one peer both get the peer's address exactly when the last untrusted hop of
    each header, if there is one, is the peer itself. -/
theorem peer_believed_iff {trusted : List Network} (hne : trusted ≠ [])
    (request request' : Connection) (hpeer : request.client = request'.client) :
    (getClientIp request trusted = peerIp request ∧
      getClientIp request' trusted = getClientIp request trusted) ↔
      ∀ r ∈ [request, request'], ∀ addr,
        (untrustedHops trusted (forwarded r)).getLast? = some addr →
          IpLibrary.str addr = peerIp request := by
  have hsame : peerIp request' = peerIp request := by rw [peerIp, peerIp, hpeer]
  have hone : ∀ r : Connection, peerIp r = peerIp request →
      (getClientIp r trusted = peerIp request ↔
        ∀ addr, (untrustedHops trusted (forwarded r)).getLast? = some addr →
          IpLibrary.str addr = peerIp request) := by
    intro r hr
    rw [getClientIp_eq hne, hr]
    cases (untrustedHops trusted (forwarded r)).getLast? with
    | none => simp
    | some addr => simp
  rw [List.forall_mem_cons, List.forall_mem_singleton, ← hone request rfl, ← hone request' hsame]
  constructor
  · rintro ⟨hfirst, hsecond⟩
    exact ⟨hfirst, hsecond.trans hfirst⟩
  · rintro ⟨hfirst, hsecond⟩
    exact ⟨hfirst, hsecond.trans hfirst.symm⟩

-- ---------------------------------------------------------------------------
-- Longer headers
-- ---------------------------------------------------------------------------

omit [IpLibrary] in
theorem chain_append (p s : Str) : chain (p ++ 0x2C :: s) = chain p ++ chain s := by
  rw [chain, List.splitOn_append_cons_self, List.map_append, List.filter_append]
  rfl

theorem untrustedHops_append (trusted : List Network) (p s : Str) :
    untrustedHops trusted (p ++ 0x2C :: s) = untrustedHops trusted p ++ untrustedHops trusted s := by
  rw [untrustedHops, chain_append, List.filterMap_append]
  rfl

/-- The rightmost of the untrusted hops, as it stands in the header. -/
theorem exists_rightmost_hop {trusted : List Network} {s : Str}
    (h : ∃ entry ∈ chain s, (untrustedAddress trusted entry).isSome) :
    ∃ before entry after addr, chain s = before ++ entry :: after ∧
      untrustedAddress trusted entry = some addr ∧
      (∀ e ∈ after, untrustedAddress trusted e = none) ∧
      (untrustedHops trusted s).getLast? = some addr := by
  obtain ⟨entry, hentry, hsome⟩ := h
  obtain ⟨addr, haddr⟩ := Option.isSome_iff_exists.mp hsome
  have hne : untrustedHops trusted s ≠ [] :=
    List.ne_nil_of_mem (List.mem_filterMap.mpr ⟨entry, hentry, haddr⟩)
  have hlast : (chain s).filterMap (untrustedAddress trusted) = _ :=
    (List.dropLast_append_getLast hne).symm
  obtain ⟨before, rest, hchain, -, hrest⟩ := List.filterMap_eq_append_iff.mp hlast
  obtain ⟨skipped, entry, after, rfl, -, hentry, hafter⟩ := List.filterMap_eq_cons_iff.mp hrest
  refine ⟨before ++ skipped, entry, after, _, ?_, hentry, List.filterMap_eq_nil_iff.mp hafter,
    List.getLast?_eq_some_getLast hne⟩
  rw [hchain, List.append_assoc]

/-- Without trusted networks the peer is returned. With some, what stands left of the
    rightmost untrusted hop is ignored, and without such a hop the peer is returned. -/
theorem left_of_untrusted_ignored (trusted : List Network) (client : Option Str) (p s : Str) :
    (trusted = [] → getClientIp ⟨client, [s]⟩ trusted = peerIp ⟨client, [s]⟩) ∧
    (trusted ≠ [] → (∃ entry ∈ chain s, (untrustedAddress trusted entry).isSome) →
      ∃ before entry after addr, chain s = before ++ entry :: after ∧
        untrustedAddress trusted entry = some addr ∧
        (∀ e ∈ after, untrustedAddress trusted e = none) ∧
        getClientIp ⟨client, [s]⟩ trusted = IpLibrary.str addr ∧
        getClientIp ⟨client, [p ++ 0x2C :: s]⟩ trusted = IpLibrary.str addr) ∧
    (trusted ≠ [] → (∀ entry ∈ chain s, untrustedAddress trusted entry = none) →
      getClientIp ⟨client, [s]⟩ trusted = peerIp ⟨client, [s]⟩) := by
  refine ⟨?_, fun hne h => ?_, fun hne h => ?_⟩
  · rintro rfl
    rfl
  · obtain ⟨before, entry, after, addr, hchain, haddr, hafter, hlast⟩ := exists_rightmost_hop h
    refine ⟨before, entry, after, addr, hchain, haddr, hafter, ?_, ?_⟩
    · rw [getClientIp_eq hne]
      show ((untrustedHops trusted s).getLast?.map IpLibrary.str).getD _ = _
      rw [hlast]
      rfl
    · rw [getClientIp_eq hne]
      show ((untrustedHops trusted (p ++ 0x2C :: s)).getLast?.map IpLibrary.str).getD _ = _
      rw [untrustedHops_append, List.getLast?_append, hlast]
      rfl
  · rw [getClientIp_eq hne]
    show ((untrustedHops trusted s).getLast?.map IpLibrary.str).getD _ = _
    rw [untrustedHops, List.filterMap_eq_nil_iff.mpr h]
    rfl

end Library

/-- `ip_address` of four decimal octets without leading zeros; every other text is refused,
    also one of version 6. A network is an address and the length of its prefix. -/
@[reducible] def ipv4 : IpLibrary where
  Address := List Nat
  Network := List Nat × Nat
  ipAddress s :=
    let octets := s.splitOn 0x2E
    let decimal := fun octet : Str => (List.range 256).find? fun n => Str.ofNat n = octet
    if octets.length = 4 then octets.mapM decimal else none
  str octets := Str.join [0x2E] (octets.map Str.ofNat)
  contains network addr :=
    let value := fun octets : List Nat => octets.foldl (fun n octet => 256 * n + octet) 0
    value network.1 / 2 ^ (32 - network.2) = value addr / 2 ^ (32 - network.2)

/-- The proxies are in 10.0.0.0/8. -/
def proxies : List ipv4.Network := [([10, 0, 0, 0], 8)]

/-- A forged entry, the client, and two of the proxies. -/
theorem left_of_untrusted_ignored_forged :
    ∃ before entry after addr,
      chain (text "203.0.113.9, 10.0.0.2, 10.0.0.1") = before ++ entry :: after ∧
      @untrustedAddress ipv4 proxies entry = some addr ∧
      (∀ e ∈ after, @untrustedAddress ipv4 proxies e = none) ∧
      @getClientIp ipv4 ⟨none, [text "203.0.113.9, 10.0.0.2, 10.0.0.1"]⟩ proxies = ipv4.str addr ∧
      @getClientIp ipv4 ⟨none, [text "198.51.100.5" ++
        0x2C :: text "203.0.113.9, 10.0.0.2, 10.0.0.1"]⟩ proxies = ipv4.str addr :=
  (@left_of_untrusted_ignored ipv4 proxies none (text "198.51.100.5")
    (text "203.0.113.9, 10.0.0.2, 10.0.0.1")).2.1 (List.cons_ne_nil _ _)
    ⟨text "203.0.113.9", by decide +kernel, by decide +kernel⟩

/-- Without trusted networks the header is not read at all. -/
theorem no_proxies_header_unread :
    ¬ ∀ (_ : IpLibrary) (trusted : List Network) (client : Option Str) (p s : Str),
      (∃ entry ∈ chain s, (untrustedAddress trusted entry).isSome) →
      getClientIp ⟨client, [p ++ 0x2C :: s]⟩ trusted = getClientIp ⟨client, [s]⟩ trusted ∧
        ∀ shown, (untrustedHops trusted s).getLast?.map IpLibrary.str = some shown →
          getClientIp ⟨client, [s]⟩ trusted = shown := by
  intro h
  have hbelieved := (h ipv4 [] (some (text "127.0.0.1")) [] (text "203.0.113.9")
    ⟨text "203.0.113.9", by decide +kernel, by decide +kernel⟩).2 (text "203.0.113.9")
    (by decide +kernel)
  have hpeer : @getClientIp ipv4 ⟨some (text "127.0.0.1"), [text "203.0.113.9"]⟩ [] =
      text "127.0.0.1" := by decide +kernel
  rw [hpeer] at hbelieved
  revert hbelieved
  decide

/-- A client that is none of the proxies and names no address. -/
def direct : Connection where
  client := some (text "203.0.113.9")
  forwardedFor := []

/-- The same client, naming another address. -/
def spoofed : Connection where
  client := some (text "203.0.113.9")
  forwardedFor := [text "198.51.100.5"]

theorem peer_believed_iff_spoofed :
    (@getClientIp ipv4 direct proxies = peerIp direct ∧
      @getClientIp ipv4 spoofed proxies = @getClientIp ipv4 direct proxies) ↔
      ∀ r ∈ [direct, spoofed], ∀ addr,
        (@untrustedHops ipv4 proxies (forwarded r)).getLast? = some addr →
          ipv4.str addr = peerIp direct :=
  @peer_believed_iff ipv4 proxies (List.cons_ne_nil _ _) direct spoofed rfl

/-- The parser returns the address that the client names. -/
theorem untrusted_peer_believed :
    ¬ ∀ (_ : IpLibrary) (trusted : List Network) (request request' : Connection),
      trusted ≠ [] → request.client = request'.client → peerUntrusted request trusted = true →
      getClientIp request trusted = peerIp request ∧
        getClientIp request' trusted = getClientIp request trusted := by
  intro h
  have hsame := (h ipv4 proxies direct spoofed (List.cons_ne_nil _ _) rfl
    (by decide +kernel)).2
  have hspoofed : @getClientIp ipv4 spoofed proxies = text "198.51.100.5" := by decide +kernel
  have hdirect : @getClientIp ipv4 direct proxies = text "203.0.113.9" := by decide +kernel
  rw [hspoofed, hdirect] at hsame
  revert hsame
  decide

end RateLimiter
