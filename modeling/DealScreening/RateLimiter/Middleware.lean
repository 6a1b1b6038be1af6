-- SUMMARY: The middleware: the scopes of a request are checked one after the other, a check takes its token whatever the others say, and the longest denial is the answer.
import DealScreening.RateLimiter.Store

/-!
# Rate limiting middleware

The store is the in-memory one, which does not raise, so that the branch that fails
open is not reached.
-/

namespace RateLimiter

open Python

/-- A request as `dispatch` reads it, with the address and the identity it extracts. -/
structure Request where
  path : Str
  requestId : Str
  clientIp : Str
  userId : Option Str
  tenantId : Option Str

structure RateLimitHeaders where
  limit : Int
  remaining : Int
  reset : Int
  deriving DecidableEq

/-- The status 429 with its headers and the members of its body. -/
structure DenyResponse where
  headers : RateLimitHeaders
  retryAfter : Int
  code : Str
  message : Str
  scope : Str
  retryAfterSeconds : Int
  requestId : Str
  deriving DecidableEq

/-- The handler is called and its response gets the headers, or the request is denied. -/
inductive Outcome where
  | handled (headers : Option RateLimitHeaders)
  | denied (response : DenyResponse)
  deriving DecidableEq

def Outcome.isHandled : Outcome → Bool
  | .handled _ => true
  | .denied _ => false

def exemptPrefixes : List Str := [text "/health", text "/ready", text "/metrics"]

def exempt (path : Str) : Bool := exemptPrefixes.any fun exempted => exempted.isPrefixOf path

/-- `checks`: an empty id is no identity. -/
def scopesOf (request : Request) : List (Scope × Str) :=
  let present := fun (id : Option Str) => id.filter fun s => s ≠ []
  [(.ip, request.clientIp)] ++
  (present request.userId).toList.map (fun id => (.user, id)) ++
  (present request.tenantId).toList.map (fun id => (.tenant, id))

variable {R : Type} [IntCast R] [Add R] [Sub R] [Mul R] [Div R] [Max R] [Min R]
  [LE R] [DecidableLE R] [LT R] [DecidableLT R] [OfScientific R] [Truncate R]

omit [IntCast R] [Add R] [Sub R] [Mul R] [Div R] [Max R] [Min R]
  [LE R] [DecidableLE R] [LT R] [DecidableLT R] [OfScientific R] in
def rateLimitHeaders (result : CheckResult R) : RateLimitHeaders where
  limit := result.limit
  remaining := max 0 (Truncate.trunc result.tokensRemaining)
  reset := Truncate.trunc result.resetAt

omit [IntCast R] [Add R] [Sub R] [Mul R] [Div R] [Max R] [Min R]
  [LE R] [DecidableLE R] [LT R] [DecidableLT R] [OfScientific R] in
def denyResponse (result : CheckResult R) (scope : Scope) (requestId : Str) : DenyResponse where
  headers := rateLimitHeaders result
  retryAfter := result.retryAfterSeconds
  code := text "RATE_LIMITED"
  message := text "Too many requests. Please slow down."
  scope := scope.value
  retryAfterSeconds := result.retryAfterSeconds
  requestId := requestId

/-- `_check_scope`, at the time its clock reads. -/
def checkScope (limits : LimitsTable R) (store : InMemoryStore R) (now : R) (scope : Scope)
    (key : Str) (group : EndpointGroup) : Option (CheckResult R) × InMemoryStore R :=
  match limits.get scope group with
  | none => (none, store)
  | some config =>
    let (result, store) := store.check (buildKey ⟨scope, key, group⟩) config 1 now
    (some result, store)

/-- `most_restrictive_denial` and `last_allowed`. -/
structure Verdict (R : Type) where
  mostRestrictiveDenial : Option (CheckResult R × Scope)
  lastAllowed : Option (CheckResult R)

omit [IntCast R] [Add R] [Sub R] [Mul R] [Div R] [Max R] [Min R]
  [LE R] [DecidableLE R] [LT R] [DecidableLT R] [OfScientific R] [Truncate R] in
def Verdict.add (verdict : Verdict R) (result : CheckResult R) (scope : Scope) : Verdict R :=
  if result.allowed then { verdict with lastAllowed := some result }
  else
    match verdict.mostRestrictiveDenial with
    | none => { verdict with mostRestrictiveDenial := some (result, scope) }
    | some (denial, _) =>
      if denial.retryAfterSeconds < result.retryAfterSeconds then
        { verdict with mostRestrictiveDenial := some (result, scope) }
      else verdict

/-- The loop over the scopes, with a reading of the clock for each. -/
def checkScopes (limits : LimitsTable R) (group : EndpointGroup) :
    (clock : Nat → R) → Verdict R → InMemoryStore R → List (Scope × Str) →
      Verdict R × InMemoryStore R
  | _, verdict, store, [] => (verdict, store)
  | clock, verdict, store, (scope, key) :: scopes =>
    match checkScope limits store (clock 0) scope key group with
    | (none, store) => checkScopes limits group (fun i => clock (i + 1)) verdict store scopes
    | (some result, store) =>
      checkScopes limits group (fun i => clock (i + 1)) (verdict.add result scope) store scopes

def dispatch (limits : LimitsTable R) (clock : Nat → R) (request : Request)
    (store : InMemoryStore R) : Outcome × InMemoryStore R :=
  if exempt request.path then (.handled none, store)
  else
    let group := resolveEndpointGroup request.path
    let (verdict, store) := checkScopes limits group clock ⟨none, none⟩ store (scopesOf request)
    match verdict.mostRestrictiveDenial with
    | some (result, scope) => (.denied (denyResponse result scope request.requestId), store)
    | none => (.handled (verdict.lastAllowed.map rateLimitHeaders), store)

-- ---------------------------------------------------------------------------
-- The checks of a request
-- ---------------------------------------------------------------------------

/-- One check of a request, with the bucket that it finds. -/
structure ScopeCheck (R : Type) where
  subject : Subject
  config : BucketConfig R
  now : R
  found : BucketState R

namespace ScopeCheck

variable (c : ScopeCheck R)

omit [IntCast R] [Add R] [Sub R] [Mul R] [Div R] [Max R] [Min R]
  [LE R] [DecidableLE R] [LT R] [DecidableLT R] [OfScientific R] [Truncate R] in
def key : Str := buildKey c.subject

def refilled : BucketState R := refill c.found c.config c.now

/-- The scope has a token. -/
def Allows : Prop := ((1 : Int) : R) ≤ c.refilled.tokens

instance : Decidable c.Allows := inferInstanceAs (Decidable (_ ≤ _))

def result : CheckResult R := (checkAndConsume c.found c.config 1 c.now).1

/-- The bucket that the check leaves: a token less, if it allows. -/
def left : BucketState R :=
  if c.Allows then { c.refilled with tokens := c.refilled.tokens - ((1 : Int) : R) } else c.refilled

theorem left_eq : (checkAndConsume c.found c.config 1 c.now).2 = c.left := by
  by_cases h : c.Allows
  · rw [left, if_pos h]
    exact checkAndConsume_state_allowed h
  · rw [left, if_neg h]
    exact checkAndConsume_state_denied h

theorem result_allowed : c.result.allowed = true ↔ c.Allows := checkAndConsume_allowed

end ScopeCheck

/-- The checks of the scopes that have a limit. -/
def scopeChecks (limits : LimitsTable R) (group : EndpointGroup) :
    (clock : Nat → R) → InMemoryStore R → List (Scope × Str) → List (ScopeCheck R)
  | _, _, [] => []
  | clock, store, (scope, id) :: scopes =>
    match limits.get scope group with
    | none => scopeChecks limits group (fun i => clock (i + 1)) store scopes
    | some config =>
      let key := buildKey ⟨scope, id, group⟩
      { subject := ⟨scope, id, group⟩
        config
        now := clock 0
        found := store.found key config (clock 0) } ::
      scopeChecks limits group (fun i => clock (i + 1)) (store.check key config 1 (clock 0)).2 scopes

/-- The configured scopes with their limits. -/
def configured (limits : LimitsTable R) (group : EndpointGroup) (scopes : List (Scope × Str)) :
    List (Subject × BucketConfig R) :=
  scopes.filterMap fun (scope, id) =>
    (limits.get scope group).map fun config => (⟨scope, id, group⟩, config)

variable {limits : LimitsTable R} {group : EndpointGroup} {clock : Nat → R}
  {store : InMemoryStore R} {scopes : List (Scope × Str)}

theorem scopeChecks_configured :
    (scopeChecks limits group clock store scopes).map (fun c => (c.subject, c.config)) =
      configured limits group scopes := by
  unfold configured
  induction scopes generalizing clock store with
  | nil => rfl
  | cons scope scopes ih =>
    obtain ⟨scope, id⟩ := scope
    simp only [scopeChecks, List.filterMap_cons]
    cases limits.get scope group with
    | none => exact ih
    | some config => simp only [Option.map_some, List.map_cons, ih]

/-- The verdict after more checks. -/
def Verdict.after (verdict : Verdict R) (checks : List (ScopeCheck R)) : Verdict R :=
  checks.foldl (fun verdict c => verdict.add c.result c.subject.scope) verdict

/-- The verdict is made of the results. -/
theorem checkScopes_verdict (verdict : Verdict R) :
    (checkScopes limits group clock verdict store scopes).1 =
      verdict.after (scopeChecks limits group clock store scopes) := by
  induction scopes generalizing clock store verdict with
  | nil => rfl
  | cons scope scopes ih =>
    obtain ⟨scope, id⟩ := scope
    simp only [checkScopes, scopeChecks, checkScope]
    cases limits.get scope group with
    | none => exact ih verdict
    | some config =>
      refine (ih (verdict.add (store.check (buildKey ⟨scope, id, group⟩) config 1 (clock 0)).1
        scope)).trans ?_
      rw [InMemoryStore.check_result]
      rfl

/-- The denial that is kept: none if all allow, else the longest. -/
theorem verdict_denial (checks : List (ScopeCheck R)) :
    match (Verdict.after ⟨none, none⟩ checks).mostRestrictiveDenial with
    | none => ∀ c ∈ checks, c.Allows
    | some (denial, scope) =>
      (∃ c ∈ checks, ¬ c.Allows ∧ c.result = denial ∧ c.subject.scope = scope) ∧
      ∀ c ∈ checks, ¬ c.Allows → c.result.retryAfterSeconds ≤ denial.retryAfterSeconds := by
  induction checks using List.reverseRecOn with
  | nil => exact fun _ hc => nomatch hc
  | append_singleton checks c ih =>
    rw [Verdict.after, List.foldl_append, List.foldl_cons, List.foldl_nil]
    change match ((Verdict.after ⟨none, none⟩ checks).add c.result c.subject.scope).mostRestrictiveDenial
      with | none => _ | some (denial, scope) => _
    generalize Verdict.after ⟨none, none⟩ checks = verdict at ih ⊢
    unfold Verdict.add
    by_cases hallows : c.Allows
    · rw [if_pos (c.result_allowed.mpr hallows)]
      cases hdenial : verdict.mostRestrictiveDenial with
      | none =>
        simp only [hdenial] at ih ⊢
        simpa [hallows, or_imp, forall_and] using ih
      | some denied =>
        simp only [hdenial] at ih ⊢
        obtain ⟨⟨c', hc', hdenied⟩, hmax⟩ := ih
        refine ⟨⟨c', List.mem_append_left _ hc', hdenied⟩, ?_⟩
        simpa [hallows, or_imp, forall_and] using hmax
    · rw [if_neg fun h => hallows (c.result_allowed.mp h)]
      have hlast : ∃ c' ∈ checks ++ [c], ¬ c'.Allows ∧ c'.result = c.result ∧
          c'.subject.scope = c.subject.scope :=
        ⟨c, List.mem_append_right _ (List.mem_singleton_self c), hallows, rfl, rfl⟩
      cases hdenial : verdict.mostRestrictiveDenial with
      | none =>
        simp only [hdenial] at ih ⊢
        refine ⟨hlast, ?_⟩
        intro c' hc' hdenied
        rcases List.mem_append.mp hc' with hc' | hc'
        · exact absurd (ih c' hc') hdenied
        · rw [List.mem_singleton.mp hc']
      | some denied =>
        simp only [hdenial] at ih ⊢
        obtain ⟨⟨c₀, hc₀, hdenied₀, hresult, hscope⟩, hmax⟩ := ih
        by_cases hlonger : denied.1.retryAfterSeconds < c.result.retryAfterSeconds
        · rw [if_pos hlonger]
          refine ⟨hlast, ?_⟩
          intro c' hc' hdenied
          rcases List.mem_append.mp hc' with hc' | hc'
          · exact (hmax c' hc' hdenied).trans (le_of_lt hlonger)
          · rw [List.mem_singleton.mp hc']
        · rw [if_neg hlonger, hdenial]
          refine ⟨⟨c₀, List.mem_append_left _ hc₀, hdenied₀, hresult, hscope⟩, ?_⟩
          intro c' hc' hdenied
          rcases List.mem_append.mp hc' with hc' | hc'
          · exact hmax c' hc' hdenied
          · rw [List.mem_singleton.mp hc']
            exact not_lt.mp hlonger

-- ---------------------------------------------------------------------------
-- What the checks leave in the store
-- ---------------------------------------------------------------------------

theorem checkScopes_store_cons (clock : Nat → R) (store : InMemoryStore R)
    (scopes : List (Scope × Str)) (verdict : Verdict R) {scope : Scope} (id : Str)
    {config : BucketConfig R} (hlimit : limits.get scope group = some config) :
    ∃ verdict', (checkScopes limits group clock verdict store ((scope, id) :: scopes)).2 =
      (checkScopes limits group (fun i => clock (i + 1)) verdict'
        (store.check (buildKey ⟨scope, id, group⟩) config 1 (clock 0)).2 scopes).2 := by
  simp only [checkScopes, checkScope, hlimit]
  exact ⟨_, rfl⟩

/-- A bucket that is looked up twice is found if it is held in the end. -/
theorem held_trans {α : Type} {P Q : Prop} [Decidable P] [Decidable Q] {a b c : Option α}
    (hab : a = if P then b else none) (hbc : b = if Q then c else none)
    (hheld : P → a ≠ none) : a = if P then c else none := by
  by_cases hP : P
  · rw [if_pos hP] at hab ⊢
    by_cases hQ : Q
    · rw [hab, hbc, if_pos hQ]
    · rw [hbc, if_neg hQ] at hab
      exact absurd hab (hheld hP)
  · rw [if_neg hP] at hab ⊢
    exact hab

omit [IntCast R] [Add R] [Sub R] [Mul R] [Div R] [Max R] [Min R]
  [LE R] [DecidableLE R] [LT R] [DecidableLT R] [OfScientific R] [Truncate R] in
theorem bucket_of_held {store : InMemoryStore R} {key : Str} (h : key ∈ store.buckets.keys) :
    (store.buckets.get key).map Prod.fst ≠ none := by
  rw [Ne, Option.map_eq_none_iff, OrderedDict.get_eq_none]
  exact not_not.mpr h

/-- A key that no check has keeps its bucket while it is held. -/
theorem checkScopes_frame {verdict : Verdict R} {key : Str}
    (hkey : ∀ c ∈ scopeChecks limits group clock store scopes, c.key ≠ key) :
    ((checkScopes limits group clock verdict store scopes).2.buckets.get key).map Prod.fst =
      if key ∈ (checkScopes limits group clock verdict store scopes).2.buckets.keys then
        (store.buckets.get key).map Prod.fst
      else none := by
  induction scopes generalizing clock store verdict with
  | nil =>
    change (store.buckets.get key).map Prod.fst = if key ∈ store.buckets.keys then _ else none
    by_cases hheld : key ∈ store.buckets.keys
    · rw [if_pos hheld]
    · rw [if_neg hheld, OrderedDict.get_eq_none.mpr hheld]
      rfl
  | cons scope scopes ih =>
    obtain ⟨scope, id⟩ := scope
    cases hlimit : limits.get scope group with
    | none =>
      simp only [scopeChecks, hlimit] at hkey
      simp only [checkScopes, checkScope, hlimit]
      exact ih hkey
    | some config =>
      simp only [scopeChecks, hlimit, List.forall_mem_cons] at hkey
      obtain ⟨verdict', hstore⟩ := checkScopes_store_cons clock store scopes verdict id hlimit
      rw [hstore]
      have hcheck := store.check_get (buildKey ⟨scope, id, group⟩) config 1 (clock 0) key
      have hother : key ≠ buildKey ⟨scope, id, group⟩ := fun heq => hkey.1 heq.symm
      rw [if_neg hother] at hcheck
      exact held_trans (ih hkey.2) hcheck bucket_of_held

/-- The scopes have different keys. -/
theorem scopeChecks_other {scope : Scope} {id : Str} (hscope : scope ∉ scopes.map Prod.fst) :
    ∀ c ∈ scopeChecks limits group clock store scopes, c.key ≠ buildKey ⟨scope, id, group⟩ := by
  intro c hc heq
  have hsubject : c.subject = ⟨scope, id, group⟩ := buildKey_injective heq
  have hmem := List.mem_map_of_mem (f := fun c : ScopeCheck R => (c.subject, c.config)) hc
  rw [scopeChecks_configured] at hmem
  obtain ⟨⟨scope', id'⟩, hfirst, hconfig⟩ := List.mem_filterMap.mp hmem
  obtain ⟨config', -, hpair⟩ := Option.map_eq_some_iff.mp hconfig
  have hscopes : scope' = scope := by
    have hscopes := congrArg (fun p => p.1.scope) hpair
    simpa [hsubject] using hscopes
  have hfirst : scope' ∈ scopes.map Prod.fst := List.mem_map_of_mem hfirst
  exact hscope (hscopes ▸ hfirst)

/-- The key of a check holds what the check left, while it is held. -/
theorem checkScopes_left {verdict : Verdict R}
    (hdistinct : (scopes.map Prod.fst).Nodup) :
    ∀ c ∈ scopeChecks limits group clock store scopes,
      ((checkScopes limits group clock verdict store scopes).2.buckets.get c.key).map Prod.fst =
        if c.key ∈ (checkScopes limits group clock verdict store scopes).2.buckets.keys then
          some c.left
        else none := by
  induction scopes generalizing clock store verdict with
  | nil => exact fun _ hc => nomatch hc
  | cons scope scopes ih =>
    obtain ⟨scope, id⟩ := scope
    rw [List.map_cons, List.nodup_cons] at hdistinct
    cases hlimit : limits.get scope group with
    | none =>
      simp only [scopeChecks, checkScopes, checkScope, hlimit]
      exact ih hdistinct.2
    | some config =>
      obtain ⟨verdict', hstore⟩ := checkScopes_store_cons clock store scopes verdict id hlimit
      rw [hstore]
      simp only [scopeChecks, hlimit, List.forall_mem_cons]
      refine ⟨?_, ih hdistinct.2⟩
      have hcheck : ((store.check (buildKey ⟨scope, id, group⟩) config 1
          (clock 0)).2.buckets.get (buildKey ⟨scope, id, group⟩)).map Prod.fst =
          if buildKey ⟨scope, id, group⟩ ∈
              (store.check (buildKey ⟨scope, id, group⟩) config 1 (clock 0)).2.buckets.keys then
            some (ScopeCheck.left ⟨⟨scope, id, group⟩, config, clock 0,
              store.found (buildKey ⟨scope, id, group⟩) config (clock 0)⟩)
          else none := by
        rw [InMemoryStore.check_get, if_pos rfl, ← ScopeCheck.left_eq]
      exact held_trans (checkScopes_frame (scopeChecks_other hdistinct.1)) hcheck bucket_of_held

/-- A check finds the bucket of the store before the request, or a new one for a key that
    an earlier check has evicted. -/
theorem scopeChecks_found (hdistinct : (scopes.map Prod.fst).Nodup) :
    ∀ c ∈ scopeChecks limits group clock store scopes,
      c.found = store.found c.key c.config c.now ∨ c.found = newBucket c.config c.now := by
  induction scopes generalizing clock store with
  | nil => exact fun _ hc => nomatch hc
  | cons scope scopes ih =>
    obtain ⟨scope, id⟩ := scope
    rw [List.map_cons, List.nodup_cons] at hdistinct
    cases hlimit : limits.get scope group with
    | none =>
      simp only [scopeChecks, hlimit]
      exact ih hdistinct.2
    | some config =>
      simp only [scopeChecks, hlimit, List.forall_mem_cons]
      refine ⟨.inl rfl, fun c hc => ?_⟩
      rcases ih hdistinct.2 c hc with hfound | hnew
      · have hcheck := store.check_get (buildKey ⟨scope, id, group⟩) config 1 (clock 0) c.key
        rw [if_neg (scopeChecks_other hdistinct.1 c hc)] at hcheck
        rw [hfound, InMemoryStore.found, hcheck]
        by_cases hheld : c.key ∈
            (store.check (buildKey ⟨scope, id, group⟩) config 1 (clock 0)).2.buckets.keys
        · rw [if_pos hheld]
          exact .inl rfl
        · rw [if_neg hheld]
          exact .inr rfl
      · exact .inr hnew

/-- The keys that are held or checked fit into the store. -/
def Room (store : InMemoryStore R) (checks : List (ScopeCheck R)) : Prop :=
  (Recency.recency (store.buckets.keys ++ checks.map ScopeCheck.key)).length ≤ store.maxKeys

/-- With room for the keys, no check evicts one. -/
theorem check_keys_of_room (key : Str) (config : BucketConfig R) (cost : Int) (now : R)
    {keys : List Str}
    (hroom : (Recency.recency (store.buckets.keys ++ key :: keys)).length ≤ store.maxKeys) :
    (∀ key', key' ∈ (store.check key config cost now).2.buckets.keys ↔
      key' = key ∨ key' ∈ store.buckets.keys) ∧
    (Recency.recency ((store.check key config cost now).2.buckets.keys ++ keys)).length ≤
      store.maxKeys := by
  have hnodup := Recency.nodup_touch (List.nodup_reverse.mpr store.buckets.nodup) key
  have hall : (store.check key config cost now).2.buckets.keys.reverse =
      Recency.touch key store.buckets.keys.reverse := by
    rw [(store.check_buckets key config cost now).2]
    refine List.take_of_length_le (le_trans (Recency.length_le_recency hnodup ?_) hroom)
    intro key' hkey'
    rcases Recency.mem_touch.mp hkey' with rfl | hkey'
    · simp
    · exact List.mem_append_left _ (List.mem_reverse.mp hkey')
  have hkeys : ∀ key', key' ∈ (store.check key config cost now).2.buckets.keys ↔
      key' = key ∨ key' ∈ store.buckets.keys := by
    intro key'
    rw [← List.mem_reverse, hall, Recency.mem_touch, List.mem_reverse]
  refine ⟨hkeys, (Recency.length_recency_le ?_).trans hroom⟩
  intro key' hkey'
  rw [List.mem_append, hkeys] at hkey'
  simp only [List.mem_append, List.mem_cons]
  tauto

theorem scopeChecks_room (verdict : Verdict R) (hdistinct : (scopes.map Prod.fst).Nodup)
    (hroom : Room store (scopeChecks limits group clock store scopes)) :
    (∀ key, key ∈ (checkScopes limits group clock verdict store scopes).2.buckets.keys ↔
      key ∈ store.buckets.keys ∨
        ∃ c ∈ scopeChecks limits group clock store scopes, c.key = key) ∧
    ∀ c ∈ scopeChecks limits group clock store scopes,
      c.found = store.found c.key c.config c.now := by
  induction scopes generalizing clock store verdict with
  | nil => exact ⟨fun key => by simp [scopeChecks, checkScopes], fun _ hc => nomatch hc⟩
  | cons scope scopes ih =>
    obtain ⟨scope, id⟩ := scope
    rw [List.map_cons, List.nodup_cons] at hdistinct
    cases hlimit : limits.get scope group with
    | none =>
      simp only [scopeChecks, checkScopes, checkScope, hlimit] at hroom ⊢
      exact ih verdict hdistinct.2 hroom
    | some config =>
      obtain ⟨verdict', hstore⟩ := checkScopes_store_cons clock store scopes verdict id hlimit
      rw [hstore]
      simp only [scopeChecks, hlimit, List.forall_mem_cons, Room, List.map_cons] at hroom ⊢
      obtain ⟨hkeys, hrest⟩ :=
        check_keys_of_room (buildKey ⟨scope, id, group⟩) config 1 (clock 0) hroom
      obtain ⟨hfinal, hfound⟩ := ih verdict' hdistinct.2 hrest
      refine ⟨fun key => ?_, rfl, fun c hc => ?_⟩
      · rw [hfinal, hkeys]
        simp only [List.exists_mem_cons_iff]
        change _ ↔ _ ∨ buildKey ⟨scope, id, group⟩ = key ∨ _
        rw [@eq_comm _ key, or_assoc, or_left_comm]
      · have hcheck := store.check_get (buildKey ⟨scope, id, group⟩) config 1 (clock 0) c.key
        have hother : c.key ≠ buildKey ⟨scope, id, group⟩ := scopeChecks_other hdistinct.1 c hc
        have hsame := (hkeys c.key).trans (or_iff_right hother)
        rw [if_neg hother] at hcheck
        rw [hfound c hc, InMemoryStore.found, hcheck, InMemoryStore.found]
        by_cases hheld : c.key ∈ store.buckets.keys
        · rw [if_pos (hsame.mpr hheld)]
        · rw [if_neg fun h => hheld (hsame.mp h), OrderedDict.get_eq_none.mpr hheld]
          rfl

-- ---------------------------------------------------------------------------
-- A request
-- ---------------------------------------------------------------------------

theorem scopesOf_nodup (request : Request) : ((scopesOf request).map Prod.fst).Nodup := by
  unfold scopesOf
  dsimp only
  generalize Option.filter _ request.userId = userId
  generalize Option.filter _ request.tenantId = tenantId
  cases userId <;> cases tenantId <;> simp

/-- The handler runs when every configured scope has a token at its turn. Each scope that
    has one pays it, whatever the others have, and a scope that has none only refills its
    bucket. The longest denial is the answer. With room for the keys, what a scope has at
    its turn is what it had before the request. -/
theorem dispatch_spec (limits : LimitsTable R) (clock : Nat → R) (request : Request)
    (store : InMemoryStore R) (hpath : exempt request.path = false) :
    let group := resolveEndpointGroup request.path
    let checks := scopeChecks limits group clock store (scopesOf request)
    let outcome := (dispatch limits clock request store).1
    let store' := (dispatch limits clock request store).2
    checks.map (fun c => (c.subject, c.config)) = configured limits group (scopesOf request) ∧
    (outcome.isHandled = true ↔ ∀ c ∈ checks, c.Allows) ∧
    (∀ response, outcome = .denied response →
      (∃ c ∈ checks, ¬ c.Allows ∧ c.result.retryAfterSeconds = response.retryAfter) ∧
      ∀ c ∈ checks, ¬ c.Allows → c.result.retryAfterSeconds ≤ response.retryAfter) ∧
    (∀ c ∈ checks, c.key ∈ store'.buckets.keys →
      (store'.buckets.get c.key).map Prod.fst = some c.left) ∧
    (∀ key ∈ store'.buckets.keys, (∀ c ∈ checks, c.key ≠ key) →
      (store'.buckets.get key).map Prod.fst = (store.buckets.get key).map Prod.fst) ∧
    (∀ c ∈ checks,
      c.found = store.found c.key c.config c.now ∨ c.found = newBucket c.config c.now) ∧
    (Room store checks →
      (∀ key, key ∈ store'.buckets.keys ↔
        key ∈ store.buckets.keys ∨ ∃ c ∈ checks, c.key = key) ∧
      ∀ c ∈ checks, c.found = store.found c.key c.config c.now) := by
  intro group checks outcome store'
  have hdistinct := scopesOf_nodup request
  have hverdict : (checkScopes limits group clock ⟨none, none⟩ store (scopesOf request)).1 =
      Verdict.after ⟨none, none⟩ checks := checkScopes_verdict _
  have hstore : store' =
      (checkScopes limits group clock ⟨none, none⟩ store (scopesOf request)).2 := by
    change (dispatch limits clock request store).2 = _
    simp only [dispatch, hpath, Bool.false_eq_true, if_false, group]
    cases (checkScopes limits (resolveEndpointGroup request.path) clock ⟨none, none⟩ store
      (scopesOf request)).1.mostRestrictiveDenial <;> rfl
  have houtcome : outcome = match (Verdict.after ⟨none, none⟩ checks).mostRestrictiveDenial with
      | some (result, scope) => .denied (denyResponse result scope request.requestId)
      | none => .handled ((Verdict.after ⟨none, none⟩ checks).lastAllowed.map rateLimitHeaders) := by
    change (dispatch limits clock request store).1 = _
    rw [← hverdict]
    simp only [dispatch, hpath, Bool.false_eq_true, if_false, group]
    cases (checkScopes limits (resolveEndpointGroup request.path) clock ⟨none, none⟩ store
      (scopesOf request)).1.mostRestrictiveDenial <;> rfl
  have hdenial := verdict_denial checks
  refine ⟨scopeChecks_configured, ?_, ?_, ?_, ?_, scopeChecks_found hdistinct, ?_⟩
  · rw [houtcome]
    cases hlongest : (Verdict.after ⟨none, none⟩ checks).mostRestrictiveDenial with
    | none =>
      simp only [hlongest] at hdenial ⊢
      exact iff_of_true rfl hdenial
    | some denied =>
      simp only [hlongest] at hdenial ⊢
      obtain ⟨c, hc, hdenied, -⟩ := hdenial.1
      exact iff_of_false Bool.false_ne_true fun hall => hdenied (hall c hc)
  · intro response hresponse
    rw [houtcome] at hresponse
    cases hlongest : (Verdict.after ⟨none, none⟩ checks).mostRestrictiveDenial with
    | none =>
      simp only [hlongest] at hresponse
      cases hresponse
    | some denied =>
      simp only [hlongest] at hdenial hresponse
      cases hresponse
      obtain ⟨⟨c, hc, hdenied, hresult, -⟩, hmax⟩ := hdenial
      exact ⟨⟨c, hc, hdenied, congrArg _ hresult⟩, hmax⟩
  · intro c hc hheld
    rw [hstore] at hheld ⊢
    exact (checkScopes_left hdistinct c hc).trans (if_pos hheld)
  · intro key hheld hkey
    rw [hstore] at hheld ⊢
    exact (checkScopes_frame hkey).trans (if_pos hheld)
  · intro hroom
    rw [hstore]
    exact scopeChecks_room _ hdistinct hroom

section Sample

/-- A request to a route of the default group, by a user without a tenant. -/
def sampleRequest : Request where
  path := text "/api/v1/deals"
  requestId := text "req"
  clientIp := text "10.0.0.1"
  userId := some (text "usr")
  tenantId := none

def ipKey : Str := buildKey ⟨.ip, text "10.0.0.1", .default⟩

def userKey : Str := buildKey ⟨.user, text "usr", .default⟩

/-- The address has all its tokens, the user has `userTokens`. -/
def sampleStore (userTokens : ℚ) : InMemoryStore ℚ where
  buckets :=
    { entries := [(ipKey, ⟨60, 0⟩, .perMinute 60 60), (userKey, ⟨userTokens, 0⟩, .perMinute 120 120)]
      nodup := (by decide : [ipKey, userKey].Nodup) }
  maxKeys := 100000

theorem dispatch_spec_sample :
    (dispatch .fromDefaults (fun _ => 0) sampleRequest (sampleStore 1)).1.isHandled = true ↔
      ∀ c ∈ scopeChecks .fromDefaults .default (fun _ => 0) (sampleStore 1)
        (scopesOf sampleRequest), c.Allows :=
  (dispatch_spec .fromDefaults (fun _ => 0) sampleRequest (sampleStore 1) (by decide)).2.1

/-- The user has no token, and the address loses one. -/
theorem denied_request_pays :
    ¬ ∀ (limits : LimitsTable ℚ) (now : ℚ) (request : Request) (store : InMemoryStore ℚ),
      exempt request.path = false →
      (dispatch limits (fun _ => now) request store).1.isHandled = false →
      ∀ key config state state', (store.buckets.get key) = some (state, config) →
        ((dispatch limits (fun _ => now) request store).2.buckets.get key).map Prod.fst =
          some state' →
        (refill state config now).tokens ≤ state'.tokens := by
  intro h
  have hpays := h .fromDefaults 0 sampleRequest (sampleStore 0) (by decide) (by decide +kernel)
    ipKey (.perMinute 60 60) ⟨60, 0⟩ ⟨59, 0⟩ (by decide +kernel) (by decide +kernel)
  revert hpays
  decide +kernel

end Sample

end RateLimiter
