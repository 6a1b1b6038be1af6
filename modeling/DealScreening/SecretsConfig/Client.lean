-- SUMMARY: The secrets client: loading at bootstrap, subscriptions, and the rounds of the refresher.
import DealScreening.SecretsConfig.Providers
import DealScreening.SecretsConfig.Redaction

/-!
# Secrets client

The refresher visits the names that were loaded at bootstrap. It takes a secret for changed
when its version is another one.
-/

open Python

structure SubscriptionHandle where
  name : Str
  callback : Nat
  id : Nat
  deriving DecidableEq, Repr

/-- How the call of a callback ends. -/
inductive CallbackResult where
  | returned
  | raised
  | timedOut
  deriving DecidableEq, Repr

/-- The call of a subscriber of a name. -/
structure CallbackCall where
  name : Str
  handle : SubscriptionHandle
  value : SecretValue
  deriving DecidableEq

/-- What the client logs. -/
inductive ClientLog where
  | refreshFetchFailed (name : Str)
  | subscriberCallbackTimeout (name : Str) (subscriptionId : Nat)
  | subscriberCallbackFailed (name : Str) (subscriptionId : Nat)
  deriving DecidableEq, Repr

structure SecretsClient where
  secrets : OrderedDict Str SecretValue
  registry : RedactionRegistry
  subscriptions : OrderedDict Str (List SubscriptionHandle)

namespace SecretsClient

/-- The client, its provider, the callbacks that were called and what was logged. -/
structure St where
  client : SecretsClient
  provider : SecretsProvider
  calls : List CallbackCall
  log : List ClientLog

-- ---------------------------------------------------------------------------
-- Operations
-- ---------------------------------------------------------------------------

/-- The name and the value of each secret become known to the registry. -/
def registerAll (secrets : List SecretValue) (r : RedactionRegistry) : RedactionRegistry :=
  secrets.foldl (fun r sv => (r.registerKey sv.name).add sv.value sv.bytes) r

/-- `load_initial` of a fresh client; `names` is the order of the frozenset. -/
def loadInitial (names : List Str) (provider : SecretsProvider) : Except ProviderError St := do
  let secrets ← provider.loadAll names
  let registry := registerAll (secrets.entries.map Prod.snd) RedactionRegistry.empty
  return ⟨⟨secrets, registry, OrderedDict.empty⟩, provider, [], []⟩

def getOptional (name : Str) (c : SecretsClient) : Except ProviderError (Option SecretValue) :=
  if name ∈ canonicalSecretNames then .ok (c.secrets.get name) else .error (.unknownSecret name)

/-- The handles of a name, in the order they subscribed. -/
def subscribersOf (name : Str) (c : SecretsClient) : List SubscriptionHandle :=
  (c.subscriptions.get name).getD []

def subscribe (name : Str) (callback id : Nat) (c : SecretsClient) :
    Except ProviderError SecretsClient :=
  if name ∈ canonicalSecretNames then
    let handles := c.subscribersOf name ++ [⟨name, callback, id⟩]
    .ok { c with subscriptions := c.subscriptions.set name handles }
  else .error (.unknownSecret name)

/-- What a call that ends so leaves in the log. -/
def logCallback (name : Str) (handle : SubscriptionHandle) : CallbackResult → List ClientLog
  | .returned => []
  | .timedOut => [.subscriberCallbackTimeout name handle.id]
  | .raised => [.subscriberCallbackFailed name handle.id]

/-- `_notify_subscribers`. -/
def notifySubscribers (name : Str) (sv : SecretValue) (results : SubscriptionHandle → CallbackResult) :
    List SubscriptionHandle → St → St
  | [], s => s
  | handle :: handles, s =>
    notifySubscribers name sv results handles
      { s with
        calls := s.calls ++ [⟨name, handle, sv⟩]
        log := s.log ++ logCallback name handle (results handle) }

/-- The secret is replaced and its value registered. -/
def store (name : Str) (sv : SecretValue) (c : SecretsClient) : SecretsClient :=
  { c with secrets := c.secrets.set name sv, registry := c.registry.add sv.value sv.bytes }

/-- One round of the inner loop of `_refresh_loop`. -/
def refreshOne (name : Str) (results : SubscriptionHandle → CallbackResult) (s : St) : St :=
  let (found, provider) := s.provider.fetch name
  let s := { s with provider }
  match found with
  | .error _ => { s with log := s.log ++ [.refreshFetchFailed name] }
  | .ok none => s
  | .ok (some sv) =>
    if (s.client.secrets.get name).any (fun old => old.version = sv.version) = true then s
    else
      notifySubscribers name sv results (s.client.subscribersOf name)
        { s with client := s.client.store name sv }

/-- What happens around the round for a name: edits before its fetch, and how the calls end. -/
structure Turn where
  edits : List ProviderEdit
  results : SubscriptionHandle → CallbackResult

def applyEdits (edits : List ProviderEdit) (s : St) : St :=
  { s with provider := edits.foldl (fun p e => p.edit e) s.provider }

/-- One pass of `_refresh_loop`. -/
def refreshPass (turns : Str → Turn) (s : St) : St :=
  s.client.secrets.keys.foldl
    (fun s name => refreshOne name (turns name).results (applyEdits (turns name).edits s)) s

/-- What happens after bootstrap. -/
inductive Event where
  | edit (e : ProviderEdit)
  | subscribe (name : Str) (callback id : Nat)
  | pass (turns : Str → Turn)

def step (s : St) : Event → St
  | .edit e => applyEdits [e] s
  | .subscribe name callback id =>
    match s.client.subscribe name callback id with
    | .ok client => { s with client }
    | .error _ => s
  | .pass turns => refreshPass turns s

def run (s : St) (events : List Event) : St := events.foldl step s

/-- A pass during which the provider does not change. -/
def quietPass (results : Str → SubscriptionHandle → CallbackResult) (s : St) : St :=
  refreshPass (fun name => ⟨[], results name⟩) s

-- ---------------------------------------------------------------------------
-- What one round does
-- ---------------------------------------------------------------------------

/-- A secret after its round. -/
def refreshed (current : Except ProviderError (Option SecretValue)) (held : Option SecretValue) :
    Option SecretValue :=
  match current with
  | .ok (some sv) => if held.any (fun old => old.version = sv.version) = true then held else some sv
  | _ => held

/-- The calls of its round. -/
def roundCalls (current : Except ProviderError (Option SecretValue)) (held : Option SecretValue)
    (name : Str) (handles : List SubscriptionHandle) : List CallbackCall :=
  match current with
  | .ok (some sv) =>
    if held.any (fun old => old.version = sv.version) = true then []
    else handles.map fun handle => ⟨name, handle, sv⟩
  | _ => []

section
variable {s : St} {name : Str}

/-- Every handle is called once, in order, however the calls end. -/
theorem notifySubscribers_eq (name : Str) (sv : SecretValue)
    (results : SubscriptionHandle → CallbackResult) (handles : List SubscriptionHandle) (s : St) :
    ∃ log, notifySubscribers name sv results handles s =
      { s with calls := s.calls ++ handles.map (fun handle => ⟨name, handle, sv⟩), log } := by
  induction handles generalizing s with
  | nil => exact ⟨s.log, by simp [notifySubscribers]⟩
  | cons handle handles ih =>
    obtain ⟨log, hlog⟩ := ih { s with
      calls := s.calls ++ [⟨name, handle, sv⟩]
      log := s.log ++ logCallback name handle (results handle) }
    exact ⟨log, by rw [notifySubscribers, hlog]; simp⟩

/-- What a round does, whatever it finds. -/
structure RoundSpec (name : Str) (s s' : St) : Prop where
  secrets : ∀ other, s'.client.secrets.get other =
    if other = name then refreshed (s.provider.current name) (s.client.secrets.get name)
    else s.client.secrets.get other
  provider : ∀ other, s'.provider.current other = s.provider.current other
  subscribers : ∀ other, s'.client.subscribersOf other = s.client.subscribersOf other
  calls : s'.calls = s.calls ++ roundCalls (s.provider.current name) (s.client.secrets.get name) name
    (s.client.subscribersOf name)
  registry : s'.client.registry = s.client.registry ∧
      s'.client.secrets.get name = s.client.secrets.get name ∨
    ∃ sv, s.provider.current name = .ok (some sv) ∧ s'.client.secrets.get name = some sv ∧
      s'.client.registry = s.client.registry.add sv.value sv.bytes

/-- A round that leaves the client as it is. -/
theorem RoundSpec.unchanged {s' : St} (hclient : s'.client = s.client)
    (hprovider : s'.provider = (s.provider.fetch name).2) (hcalls : s'.calls = s.calls)
    (hheld : refreshed (s.provider.current name) (s.client.secrets.get name) = s.client.secrets.get name)
    (hround : ∀ handles, roundCalls (s.provider.current name) (s.client.secrets.get name) name handles = []) :
    RoundSpec name s s' where
  secrets other := by
    rw [hclient]
    by_cases hother : other = name
    · rw [if_pos hother, hheld, hother]
    · rw [if_neg hother]
  provider other := by rw [hprovider, SecretsProvider.current_fetch]
  subscribers _ := by rw [hclient]
  calls := by rw [hcalls, hround, List.append_nil]
  registry := .inl (by rw [hclient]; exact ⟨rfl, rfl⟩)

theorem refreshOne_spec (name : Str) (results : SubscriptionHandle → CallbackResult) (s : St) :
    RoundSpec name s (refreshOne name results s) := by
  unfold refreshOne
  rw [show s.provider.fetch name = (s.provider.current name, (s.provider.fetch name).2) from rfl]
  dsimp only
  cases hfound : s.provider.current name with
  | error e => exact .unchanged rfl rfl rfl (by rw [hfound]; rfl) (by rw [hfound]; exact fun _ => rfl)
  | ok found =>
    cases found with
    | none => exact .unchanged rfl rfl rfl (by rw [hfound]; rfl) (by rw [hfound]; exact fun _ => rfl)
    | some sv =>
      dsimp only
      by_cases hversion : (s.client.secrets.get name).any (fun old => old.version = sv.version) = true
      · rw [if_pos hversion]
        refine .unchanged rfl rfl rfl ?_ fun handles => ?_
        · rw [hfound]
          exact if_pos hversion
        · rw [hfound]
          exact if_pos hversion
      · rw [if_neg hversion]
        obtain ⟨log, hlog⟩ := notifySubscribers_eq name sv results (s.client.subscribersOf name)
          { s with client := s.client.store name sv, provider := (s.provider.fetch name).2 }
        rw [hlog]
        constructor
        · intro other
          change (s.client.secrets.set name sv).get other = _
          rw [OrderedDict.get_set, hfound, refreshed, if_neg hversion]
        · exact fun other => SecretsProvider.current_fetch s.provider name other
        · exact fun _ => rfl
        · rw [hfound, roundCalls, if_neg hversion]
        · refine .inr ⟨sv, hfound, ?_, rfl⟩
          change (s.client.secrets.set name sv).get name = _
          rw [OrderedDict.get_set, if_pos rfl]

end

end SecretsClient
