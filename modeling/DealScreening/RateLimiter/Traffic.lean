-- SUMMARY: The traffic that gets through the rate limiter: in any window of time the requests of an address, a user or a tenant that reach the application are at most a burst and what the window refills.
import DealScreening.Auth.Routes
import DealScreening.RateLimiter.IpParser
import DealScreening.RateLimiter.Middleware

/-!
# Traffic

A request is checked once for each of its identities, and each check is one of many on the store.
The store is a map of buckets, and a bucket bounds what it admits. Together they bound the requests
that reach the handlers, whatever else arrives in between and however the clock is set.
-/

namespace RateLimiter

open Python Recency

-- ---------------------------------------------------------------------------
-- One bucket and a window of time
-- ---------------------------------------------------------------------------

section Window

variable {K : Type} [Field K] [LinearOrder K] [IsStrictOrderedRing K] [FloorRing K]
  {config : BucketConfig K} {state : BucketState K} {cost : Int} {now t₀ t₁ : K} {checks : List (Check K)}

omit [IsStrictOrderedRing K] [FloorRing K] in
theorem refill_refill : refill (refill state config now) config now = refill state config now := by
  unfold refill
  dsimp only
  rw [max_eq_right (le_max_left now state.lastRefillAt), sub_self, zero_mul, add_zero,
    min_eq_right (min_le_left _ _)]

omit [IsStrictOrderedRing K] in
theorem checkAndConsume_refill :
    checkAndConsume (refill state config now) config cost now = checkAndConsume state config cost now := by
  unfold checkAndConsume
  rw [refill_refill]

/-- The checks of a window that is over at `t₁` are paid out of the bucket and its refill. -/
theorem paid_le_refill (hburst : 0 ≤ config.burst) (hrate : 0 ≤ config.refillRate)
    (hstate : state.WithinBurst config) (hchecks : ∀ check ∈ checks, 0 ≤ check.cost ∧ check.now ≤ t₁) :
    (bucket config).paid (admitted config) state checks ≤
      state.tokens + config.refillRate * (max t₁ state.lastRefillAt - state.lastRefillAt) := by
  have hkeep : ∀ (s : BucketState K) (check : Check K), 0 ≤ check.cost ∧ check.now ≤ t₁ →
      s.WithinBurst config → ((bucket config).step s check).2.WithinBurst config :=
    fun _ _ hcheck h => checkAndConsume_withinBurst hburst hrate hcheck.1 h
  have hlast : ∀ (s : BucketState K) (check : Check K), 0 ≤ check.cost ∧ check.now ≤ t₁ →
      s.lastRefillAt ≤ max t₁ state.lastRefillAt →
      ((bucket config).step s check).2.lastRefillAt ≤ max t₁ state.lastRefillAt := by
    intro s check hcheck h
    refine checkAndConsume_lastRefillAt.trans_le (max_le ?_ h)
    exact hcheck.2.trans (le_max_left _ _)
  have hpaid := Automaton.paid_le (admitted config) BucketState.tokens
    (fun state => config.refillRate * state.lastRefillAt) hkeep
    (fun state check _ _ => admitted_le check) hstate hchecks
  have hafter : ((bucket config).after state checks).WithinBurst config :=
    Automaton.invariant hkeep hstate hchecks
  have hend : ((bucket config).after state checks).lastRefillAt ≤ max t₁ state.lastRefillAt :=
    Automaton.invariant hlast (le_max_right _ _) hchecks
  have hgain := mul_le_mul_of_nonneg_left hend hrate
  have hempty := hafter.1
  rw [mul_sub]
  linarith

/-- The checks of a window are paid out of a burst and what the window refills. What was before
    does not matter: the first check of the window finds at most a full bucket. -/
theorem paid_le_window (hburst : 0 ≤ config.burst) (hrate : 0 ≤ config.refillRate)
    (hstate : state.WithinBurst config) (hle : t₀ ≤ t₁)
    (hchecks : ∀ check ∈ checks, 0 ≤ check.cost ∧ t₀ ≤ check.now ∧ check.now ≤ t₁) :
    (bucket config).paid (admitted config) state checks ≤
      config.burst + config.refillRate * (t₁ - t₀) := by
  have hwindow : 0 ≤ config.refillRate * (t₁ - t₀) := mul_nonneg hrate (sub_nonneg.mpr hle)
  have hfull : (0 : K) ≤ config.burst := Int.cast_nonneg hburst
  cases checks with
  | nil => exact add_nonneg hfull hwindow
  | cons first checks =>
    have hfirst := (hchecks first (List.mem_cons_self ..)).2
    have hrefilled : (refill state config first.now).WithinBurst config :=
      refill_withinBurst hburst hrate hstate
    have hsame : (bucket config).paid (admitted config) state (first :: checks) =
        (bucket config).paid (admitted config) (refill state config first.now) (first :: checks) := by
      simp only [Automaton.paid, admitted, bucket, checkAndConsume_refill]
    rw [hsame]
    refine (paid_le_refill hburst hrate hrefilled fun check hcheck =>
      ⟨(hchecks check hcheck).1, (hchecks check hcheck).2.2⟩).trans ?_
    refine add_le_add hrefilled.2 (mul_le_mul_of_nonneg_left ?_ hrate)
    have hstart : t₀ ≤ (refill state config first.now).lastRefillAt := hfirst.1.trans (le_max_left _ _)
    rcases max_cases t₁ (refill state config first.now).lastRefillAt with ⟨heq, -⟩ | ⟨heq, -⟩ <;>
      rw [heq] <;> linarith

/-- What a check of a subject's own bucket admits. -/
def ownAdmitted (config : BucketConfig K) (state : Option (BucketState K)) (check : Check K) : K :=
  admitted config (state.getD (newBucket config check.now)) check

omit [IsStrictOrderedRing K] in
theorem ownPaid_some : (ownBucket config).paid (ownAdmitted config) (some state) checks =
    (bucket config).paid (admitted config) state checks := by
  induction checks generalizing state with
  | nil => rfl
  | cons check checks ih =>
    rw [Automaton.paid, Automaton.paid]
    exact congrArg _ ih

theorem ownPaid_le_window {own : Option (BucketState K)} (hburst : 0 ≤ config.burst)
    (hrate : 0 ≤ config.refillRate) (hown : ∀ state, own = some state → state.WithinBurst config)
    (hle : t₀ ≤ t₁) (hchecks : ∀ check ∈ checks, 0 ≤ check.cost ∧ t₀ ≤ check.now ∧ check.now ≤ t₁) :
    (ownBucket config).paid (ownAdmitted config) own checks ≤
      config.burst + config.refillRate * (t₁ - t₀) := by
  cases own with
  | some state =>
    rw [ownPaid_some]
    exact paid_le_window hburst hrate (hown state rfl) hle hchecks
  | none =>
    -- The first check makes a full bucket.
    cases checks with
    | nil => exact add_nonneg (Int.cast_nonneg hburst) (mul_nonneg hrate (sub_nonneg.mpr hle))
    | cons first checks =>
      have hnew : (newBucket config first.now).WithinBurst config := ⟨Int.cast_nonneg hburst, le_refl _⟩
      refine le_of_eq_of_le ?_ (paid_le_window hburst hrate hnew hle hchecks)
      rw [← ownPaid_some]
      rfl

theorem ownBucket_withinBurst (hburst : 0 ≤ config.burst) (hrate : 0 ≤ config.refillRate)
    (hcost : ∀ check ∈ checks, 0 ≤ check.cost) :
    ∀ state, (ownBucket config).after none checks = some state → state.WithinBurst config := by
  have hkeep : ∀ (own : Option (BucketState K)) (check : Check K), 0 ≤ check.cost →
      (∀ state, own = some state → state.WithinBurst config) →
      ∀ state, ((ownBucket config).step own check).2 = some state → state.WithinBurst config := by
    rintro own check hcheck hown _ ⟨⟩
    refine checkAndConsume_withinBurst hburst hrate hcheck ?_
    cases own with
    | none => exact ⟨Int.cast_nonneg hburst, le_refl _⟩
    | some state => exact hown state rfl
  exact Automaton.invariant hkeep (by simp) hcost

end Window

-- ---------------------------------------------------------------------------
-- The limiter and the buckets
-- ---------------------------------------------------------------------------

section Charged

variable {K : Type} [Field K] [LinearOrder K] [IsStrictOrderedRing K] [FloorRing K]

/-- What a check admits, if it is one of the subject. -/
def charged (config : Subject → BucketConfig K) (subject : Subject) (store : InMemoryStore K)
    (request : Subject × Check K) : K :=
  if request.1 = subject then
    if ((limiter config).step store request).1.allowed then request.2.cost else 0
  else 0

variable {config : Subject → BucketConfig K} {subject : Subject}

theorem charged_nonneg (store : InMemoryStore K) (request : Subject × Check K)
    (hcost : 0 ≤ request.2.cost) : 0 ≤ charged config subject store request := by
  have hpaid : (0 : K) ≤ request.2.cost := Int.cast_nonneg hcost
  unfold charged
  split_ifs <;> first | exact hpaid | exact le_refl _

omit [IsStrictOrderedRing K] in
/-- With room for every subject, what the store admits of one is what its own bucket admits. -/
theorem paid_charged {maxKeys : Nat} (before : List (Subject × Check K))
    {requests : List (Subject × Check K)}
    (hroom : (recency ((before ++ requests).map Prod.fst)).length ≤ maxKeys) :
    (limiter config).paid (charged config subject) ((limiter config).after (.new maxKeys) before)
        requests =
      (ownBucket (config subject)).paid (ownAdmitted (config subject))
        ((ownBucket (config subject)).after none (checksOf subject before))
        (checksOf subject requests) := by
  induction requests generalizing before with
  | nil => rfl
  | cons request requests ih =>
    have happend : before ++ request :: requests = (before ++ [request]) ++ requests := by simp
    have hrest := ih (before ++ [request]) (happend ▸ hroom)
    rw [Automaton.paid, ← Automaton.after_snoc, hrest]
    by_cases hsubject : request.1 = subject
    · have hbefore : (recency (before.map Prod.fst)).length ≤ maxKeys :=
        (length_recency_le (List.map_subset _ (List.subset_append_left ..))).trans hroom
      have hsince : Simulates config ((limiter config).after (.new maxKeys) before) subject
          (checksOf subject before) := by
        have hall : checksSince config subject (.new maxKeys) [] before = checksOf subject before :=
          checksSince_of_room [] hbefore subject
        rw [← hall]
        exact simulates_after (simulates_new maxKeys subject) before
      have hresult := simulates_result hsince request.2
      obtain ⟨asked, check⟩ := request
      obtain rfl : subject = asked := hsubject.symm
      have hhead : checksOf subject ((subject, check) :: requests) =
          check :: checksOf subject requests := by
        simp [checksOf]
      have hpast : checksOf subject (before ++ [(subject, check)]) =
          checksOf subject before ++ [check] := by
        simp [checksOf]
      rw [hhead, hpast, Automaton.paid, Automaton.after_snoc, charged, if_pos rfl, hresult]
      rfl
    · have hhead : checksOf subject (request :: requests) = checksOf subject requests := by
        simp [checksOf, hsubject]
      have hpast : checksOf subject (before ++ [request]) = checksOf subject before := by
        simp [checksOf, hsubject]
      rw [hhead, hpast, charged, if_neg hsubject, zero_add]

end Charged

-- ---------------------------------------------------------------------------
-- What a request asks of the store
-- ---------------------------------------------------------------------------

section Asked

variable {R : Type} {limits : LimitsTable R} {group : EndpointGroup} {clock : Nat → R}
  {scopes : List (Scope × Str)}

/-- The checks of the scopes that have a limit, as the store is asked for them. -/
def asked (limits : LimitsTable R) (group : EndpointGroup) :
    (clock : Nat → R) → List (Scope × Str) → List (Subject × Check R)
  | _, [] => []
  | clock, (scope, id) :: scopes =>
    let later := asked limits group (fun i => clock (i + 1)) scopes
    match limits.get scope group with
    | none => later
    | some _ => (⟨scope, id, group⟩, ⟨1, clock 0⟩) :: later

/-- What `dispatch` asks of the store for a request. -/
def asks (limits : LimitsTable R) (clock : Nat → R) (request : Request) : List (Subject × Check R) :=
  if exempt request.path then []
  else asked limits (resolveEndpointGroup request.path) clock (scopesOf request)

theorem asked_cost {request : Subject × Check R} (h : request ∈ asked limits group clock scopes) :
    request.2.cost = 1 ∧ ∃ i, request.2.now = clock i := by
  induction scopes generalizing clock with
  | nil => simp [asked] at h
  | cons scope scopes ih =>
    obtain ⟨scope, id⟩ := scope
    cases hlimit : limits.get scope group with
    | none =>
      simp only [asked, hlimit] at h
      obtain ⟨hcost, i, hnow⟩ := ih h
      exact ⟨hcost, i + 1, hnow⟩
    | some config =>
      simp only [asked, hlimit, List.mem_cons] at h
      rcases h with rfl | h
      · exact ⟨rfl, 0, rfl⟩
      · obtain ⟨hcost, i, hnow⟩ := ih h
        exact ⟨hcost, i + 1, hnow⟩

/-- A scope with a limit is checked. -/
theorem mem_asked {scope : Scope} {id : Str} {config : BucketConfig R}
    (hlimit : limits.get scope group = some config) (h : (scope, id) ∈ scopes) :
    (⟨scope, id, group⟩ : Subject) ∈ (asked limits group clock scopes).map Prod.fst := by
  induction scopes generalizing clock with
  | nil => simp at h
  | cons first scopes ih =>
    obtain ⟨scope', id'⟩ := first
    rw [List.mem_cons] at h
    rcases h with heq | h
    · cases heq
      simp [asked, hlimit]
    · simp only [asked]
      cases limits.get scope' group with
      | none => exact ih h
      | some _ => exact List.mem_cons_of_mem _ (ih h)

/-- The limit of a subject. No check is made of one without a limit. -/
def limitOf [IntCast R] (limits : LimitsTable R) (subject : Subject) : BucketConfig R :=
  (limits.get subject.scope subject.group).getD { burst := 0, refillRate := ((0 : Int) : R) }

variable [IntCast R] [Add R] [Sub R] [Mul R] [Div R] [Max R] [Min R]
  [LE R] [DecidableLE R] [LT R] [DecidableLT R] [OfScientific R] [Truncate R]
  {store : InMemoryStore R}

theorem checkScopes_after (verdict : Verdict R) :
    (checkScopes limits group clock verdict store scopes).2 =
      (limiter (limitOf limits)).after store (asked limits group clock scopes) := by
  induction scopes generalizing clock store verdict with
  | nil => rfl
  | cons scope scopes ih =>
    obtain ⟨scope, id⟩ := scope
    cases hlimit : limits.get scope group with
    | none =>
      simp only [checkScopes, checkScope, asked, hlimit]
      exact ih verdict
    | some config =>
      obtain ⟨verdict', hstore⟩ := checkScopes_store_cons clock store scopes verdict id hlimit
      have hstep : ((limiter (limitOf limits)).step store (⟨scope, id, group⟩, ⟨1, clock 0⟩)).2 =
          (store.check (buildKey ⟨scope, id, group⟩) config 1 (clock 0)).2 := by
        simp only [limiter, limitOf, hlimit, Option.getD_some]
      rw [hstore, ih verdict']
      simp only [asked, hlimit, Automaton.after_cons, hstep]

/-- The store after a request is the store after its checks. -/
theorem dispatch_after (request : Request) :
    (dispatch limits clock request store).2 =
      (limiter (limitOf limits)).after store (asks limits clock request) := by
  unfold dispatch asks
  by_cases hpath : exempt request.path
  · rw [if_pos hpath, if_pos hpath]
    rfl
  · rw [if_neg hpath, if_neg hpath, ← checkScopes_after ⟨none, none⟩]
    dsimp only
    cases (checkScopes limits (resolveEndpointGroup request.path) clock ⟨none, none⟩ store
      (scopesOf request)).1.mostRestrictiveDenial <;> rfl

/-- A request that is handled has passed every check. -/
theorem allows_of_handled {request : Request} (hpath : exempt request.path = false)
    (hhandled : (dispatch limits clock request store).1.isHandled) :
    ∀ c ∈ scopeChecks limits (resolveEndpointGroup request.path) clock store (scopesOf request),
      c.Allows := by
  have hdenial := verdict_denial
    (scopeChecks limits (resolveEndpointGroup request.path) clock store (scopesOf request))
  rw [← checkScopes_verdict] at hdenial
  simp only [dispatch, hpath, Bool.false_eq_true, if_false] at hhandled
  cases hlongest : (checkScopes limits (resolveEndpointGroup request.path) clock ⟨none, none⟩ store
      (scopesOf request)).1.mostRestrictiveDenial with
  | none =>
    simp only [hlongest] at hdenial
    exact hdenial
  | some denied =>
    simp only [hlongest] at hhandled
    cases hhandled

end Asked

-- ---------------------------------------------------------------------------
-- The requests that reach the application
-- ---------------------------------------------------------------------------

/-- What `dispatch` reads of a request. -/
structure HttpRequest where
  path : Str
  requestId : Str
  connection : Connection
  authorization : Authorization

/-- `_extract_auth_identity`, at the time of the verification. An error is no identity. -/
def extractAuthIdentity (ring : KeyRing) (now : Time) : Authorization → Option Str × Option Str
  | .missing => (none, none)
  | .undecodable => (none, none)
  | .bearer token =>
    match verifyAccessToken ring now token with
    | .error _ => (none, none)
    | .ok claims => (some (text claims.sub), some (text claims.tnt))

/-- What `init_rate_limiter` sets beside the store, and the keys that tokens are verified with. -/
structure Gate (R : Type) [IpLibrary] where
  limits : LimitsTable R
  trustedProxies : List Network
  ring : KeyRing

/-- A request, the time of its verification, and what the clock of the store reads at its checks. -/
structure Arrival (R : Type) where
  http : HttpRequest
  now : Time
  clock : Nat → R

section Traffic

variable [IpLibrary] {R : Type}

/-- The address and the identity of a request. -/
def Arrival.request (gate : Gate R) (arrival : Arrival R) : Request :=
  let (userId, tenantId) := extractAuthIdentity gate.ring arrival.now arrival.http.authorization
  { path := arrival.http.path
    requestId := arrival.http.requestId
    clientIp := getClientIp arrival.http.connection gate.trustedProxies
    userId
    tenantId }

def Arrival.asks (gate : Gate R) (arrival : Arrival R) : List (Subject × Check R) :=
  RateLimiter.asks gate.limits arrival.clock (arrival.request gate)

/-- The request is one of the subject's: of its endpoints, and with its address, user or tenant. -/
def Arrival.CountsFor (gate : Gate R) (subject : Subject) (arrival : Arrival R) : Prop :=
  exempt arrival.http.path = false ∧ resolveEndpointGroup arrival.http.path = subject.group ∧
    (subject.scope, subject.id) ∈ scopesOf (arrival.request gate)

instance (gate : Gate R) (subject : Subject) (arrival : Arrival R) :
    Decidable (arrival.CountsFor gate subject) :=
  inferInstanceAs (Decidable (_ ∧ _ ∧ _))

variable [IntCast R] [Add R] [Sub R] [Mul R] [Div R] [Max R] [Min R]
  [LE R] [DecidableLE R] [LT R] [DecidableLT R] [OfScientific R] [Truncate R]

/-- The middleware answers one request after the other: no check waits for anything. -/
def middleware (gate : Gate R) : Automaton (InMemoryStore R) (Arrival R) Outcome where
  step store arrival := dispatch gate.limits arrival.clock (arrival.request gate) store

/-- The requests that reach the application. -/
def passed (gate : Gate R) : InMemoryStore R → List (Arrival R) → List (Arrival R)
  | _, [] => []
  | store, arrival :: arrivals =>
    let (outcome, store) := (middleware gate).step store arrival
    if outcome.isHandled then arrival :: passed gate store arrivals
    else passed gate store arrivals

theorem middleware_after (gate : Gate R) (store : InMemoryStore R) (arrivals : List (Arrival R)) :
    (middleware gate).after store arrivals =
      (limiter (limitOf gate.limits)).after store (arrivals.flatMap (Arrival.asks gate)) := by
  induction arrivals generalizing store with
  | nil => rfl
  | cons arrival arrivals ih =>
    rw [Automaton.after_cons, List.flatMap_cons, Automaton.after_append, ih]
    exact congrArg (fun store => (limiter (limitOf gate.limits)).after store
      (arrivals.flatMap (Arrival.asks gate))) (dispatch_after _)

end Traffic

section Exact

variable [IpLibrary] {K : Type} [Field K] [LinearOrder K] [IsStrictOrderedRing K] [FloorRing K]
  {gate : Gate K} {subject : Subject} {config : BucketConfig K} {store : InMemoryStore K}

omit [IpLibrary] in
theorem charged_asked_nonneg {limits : LimitsTable K} {group : EndpointGroup} {clock : Nat → K}
    {scopes : List (Scope × Str)} :
    0 ≤ (limiter (limitOf limits)).paid (charged (limitOf limits) subject) store
      (asked limits group clock scopes) := by
  have hpay : ∀ (s : InMemoryStore K) (request : Subject × Check K), request.2.cost = 1 →
      0 ≤ charged (limitOf limits) subject s request :=
    fun s request hcost => charged_nonneg s request (by omega)
  exact Automaton.paid_nonneg hpay store fun request h => (asked_cost h).1

omit [IpLibrary] in
/-- A request that passes all its checks takes a token of each of its subjects. -/
theorem one_le_charged {limits : LimitsTable K} {group : EndpointGroup} {clock : Nat → K}
    {scopes : List (Scope × Str)}
    (hallows : ∀ c ∈ scopeChecks limits group clock store scopes, c.Allows)
    (hsubject : subject ∈ (asked limits group clock scopes).map Prod.fst) :
    1 ≤ (limiter (limitOf limits)).paid (charged (limitOf limits) subject) store
      (asked limits group clock scopes) := by
  induction scopes generalizing clock store with
  | nil => simp [asked] at hsubject
  | cons scope scopes ih =>
    obtain ⟨scope, id⟩ := scope
    cases hlimit : limits.get scope group with
    | none =>
      simp only [asked, scopeChecks, hlimit] at hallows hsubject ⊢
      exact ih hallows hsubject
    | some config =>
      simp only [scopeChecks, hlimit, List.forall_mem_cons] at hallows
      simp only [asked, hlimit, List.map_cons, List.mem_cons] at hsubject ⊢
      have hstep : (limiter (limitOf limits)).step store (⟨scope, id, group⟩, ⟨1, clock 0⟩) =
          store.check (buildKey ⟨scope, id, group⟩) config 1 (clock 0) := by
        simp only [limiter, limitOf, hlimit, Option.getD_some]
      rw [Automaton.paid, hstep]
      by_cases hhead : (⟨scope, id, group⟩ : Subject) = subject
      · have hallowed : (store.check (buildKey ⟨scope, id, group⟩) config 1 (clock 0)).1.allowed := by
          rw [InMemoryStore.check_result]
          exact (ScopeCheck.result_allowed _).mpr hallows.1
        rw [charged, if_pos hhead, hstep, if_pos hallowed, Int.cast_one]
        exact le_add_of_nonneg_right charged_asked_nonneg
      · rcases hsubject with heq | hsubject
        · exact absurd heq.symm hhead
        · rw [charged, if_neg hhead, zero_add]
          exact ih hallows.2 hsubject

theorem asks_nonneg {arrival : Arrival K} :
    0 ≤ (limiter (limitOf gate.limits)).paid (charged (limitOf gate.limits) subject) store
      (arrival.asks gate) := by
  unfold Arrival.asks asks
  by_cases hpath : exempt (arrival.request gate).path
  · rw [if_pos hpath]
    exact le_refl _
  · rw [if_neg hpath]
    exact charged_asked_nonneg

theorem one_le_asks (hlimit : gate.limits.get subject.scope subject.group = some config)
    {arrival : Arrival K} (hcounts : arrival.CountsFor gate subject)
    (hhandled : ((middleware gate).step store arrival).1.isHandled) :
    1 ≤ (limiter (limitOf gate.limits)).paid (charged (limitOf gate.limits) subject) store
      (arrival.asks gate) := by
  obtain ⟨scope, id, group⟩ := subject
  obtain ⟨hpath, rfl, hmem⟩ := hcounts
  have hlimited : ¬ exempt (arrival.request gate).path := by
    change ¬ exempt arrival.http.path = true
    rw [hpath]
    exact Bool.false_ne_true
  unfold Arrival.asks asks
  rw [if_neg hlimited]
  exact one_le_charged (allows_of_handled hpath hhandled) (mem_asked hlimit hmem)

/-- The requests of a subject that reach the application are paid by its bucket. -/
theorem passed_le_charged (hlimit : gate.limits.get subject.scope subject.group = some config)
    (arrivals : List (Arrival K)) :
    (((passed gate store arrivals).countP (Arrival.CountsFor gate subject) : Nat) : K) ≤
      (limiter (limitOf gate.limits)).paid (charged (limitOf gate.limits) subject) store
        (arrivals.flatMap (Arrival.asks gate)) := by
  induction arrivals generalizing store with
  | nil => exact le_of_eq Nat.cast_zero
  | cons arrival arrivals ih =>
    have hafter : (limiter (limitOf gate.limits)).after store (arrival.asks gate) =
        ((middleware gate).step store arrival).2 := (dispatch_after _).symm
    rw [List.flatMap_cons, Automaton.paid_append, hafter, passed]
    have hnonneg : 0 ≤ (limiter (limitOf gate.limits)).paid (charged (limitOf gate.limits) subject)
        store (arrival.asks gate) := asks_nonneg
    by_cases hhandled : ((middleware gate).step store arrival).1.isHandled
    · dsimp only
      rw [if_pos hhandled, List.countP_cons]
      by_cases hcounts : arrival.CountsFor gate subject
      · have hone := one_le_asks hlimit hcounts hhandled
        rw [if_pos (by simpa using hcounts), Nat.cast_add, Nat.cast_one, add_comm]
        exact add_le_add hone ih
      · rw [if_neg (by simpa using hcounts), add_zero]
        exact ih.trans (le_add_of_nonneg_left hnonneg)
    · dsimp only
      rw [if_neg hhandled]
      exact ih.trans (le_add_of_nonneg_left hnonneg)

omit [Field K] [LinearOrder K] [IsStrictOrderedRing K] [FloorRing K] in
theorem cost_of_asks {arrivals : List (Arrival K)} {check : Check K}
    (h : check ∈ checksOf subject (arrivals.flatMap (Arrival.asks gate))) :
    check.cost = 1 ∧ ∃ arrival ∈ arrivals, ∃ i, check.now = arrival.clock i := by
  obtain ⟨request, hrequest, rfl⟩ := List.mem_map.mp h
  obtain ⟨arrival, harrival, hasks⟩ := List.mem_flatMap.mp (List.mem_filter.mp hrequest).1
  unfold Arrival.asks asks at hasks
  by_cases hpath : exempt (arrival.request gate).path
  · simp [hpath] at hasks
  · rw [if_neg hpath] at hasks
    obtain ⟨hone, i, hnow⟩ := asked_cost hasks
    exact ⟨hone, arrival, harrival, i, hnow⟩

/-- In any window of time the requests of an address, a user or a tenant that reach the application
    are at most a burst and what the window refills, whatever else arrives before and in between,
    if the store has room for every subject. The clock may go back. -/
theorem traffic_bounded (gate : Gate K) (subject : Subject) {config : BucketConfig K}
    (hlimit : gate.limits.get subject.scope subject.group = some config)
    (hburst : 0 ≤ config.burst) (hrate : 0 ≤ config.refillRate)
    (maxKeys : Nat) (before window : List (Arrival K)) {t₀ t₁ : K} (hle : t₀ ≤ t₁)
    (hclock : ∀ arrival ∈ window, ∀ i, t₀ ≤ arrival.clock i ∧ arrival.clock i ≤ t₁)
    (hroom : (recency (((before ++ window).flatMap (Arrival.asks gate)).map Prod.fst)).length ≤
      maxKeys) :
    (((passed gate ((middleware gate).after (.new maxKeys) before) window).countP
        (Arrival.CountsFor gate subject) : Nat) : K) ≤
      config.burst + config.refillRate * (t₁ - t₀) := by
  have hown : limitOf gate.limits subject = config := by rw [limitOf, hlimit, Option.getD_some]
  rw [List.flatMap_append] at hroom
  refine (passed_le_charged hlimit window).trans ?_
  rw [middleware_after, paid_charged _ hroom, hown]
  refine ownPaid_le_window hburst hrate ?_ hle ?_
  · refine ownBucket_withinBurst hburst hrate fun check hcheck => ?_
    have hone := (cost_of_asks hcheck).1
    omega
  · intro check hcheck
    obtain ⟨hone, arrival, harrival, i, hnow⟩ := cost_of_asks hcheck
    rw [hnow]
    exact ⟨by omega, hclock arrival harrival i⟩

end Exact

section Sample

/-- The defaults, behind the proxies. -/
def sampleGate : @Gate ℚ ipv4 :=
  @Gate.mk ℚ ipv4 .fromDefaults proxies ⟨none, none⟩

/-- A login attempt of the direct client, a second after the one before. -/
def attempt (n : Nat) : Arrival ℚ where
  http := ⟨text "/api/v1/auth/login", text "req", direct, .missing⟩
  now := Time.seconds n
  clock := fun _ => n

/-- Seven attempts in six seconds. -/
def attempts : List (Arrival ℚ) := (List.range 7).map attempt

theorem traffic_bounded_attempts :
    letI := ipv4
    (((passed sampleGate ((middleware sampleGate).after (.new 100) []) attempts).countP
        (Arrival.CountsFor sampleGate ⟨.ip, text "203.0.113.9", .authLogin⟩) : Nat) : ℚ) ≤
      ((5 : Int) : ℚ) + ((5 : Int) : ℚ) / ((60 : Int) : ℚ) * (6 - 0) := by
  have hclock : ∀ arrival ∈ attempts, ∀ i, 0 ≤ arrival.clock i ∧ arrival.clock i ≤ 6 := by
    simp [attempts, attempt, List.range_succ]
    norm_num
  exact @traffic_bounded ipv4 ℚ _ _ _ _ sampleGate ⟨.ip, text "203.0.113.9", .authLogin⟩
    (.perMinute 5 5) (by decide +kernel) (by decide) (by decide +kernel) 100 [] attempts 0 6
    (by norm_num) hclock (by decide +kernel)

end Sample

end RateLimiter
