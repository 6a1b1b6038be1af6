-- SUMMARY: A pass of the refresher leaves every secret at its current value exactly when each was loaded at bootstrap and has not kept its version under another value.
import DealScreening.SecretsConfig.Client

/-!
# Convergence of the client

The invariant is about the registry: it knows the hash of every value that is held, and
every hash it knows is that of a value it knows.
-/

open Python

namespace SecretsClient

/-- After the pass the client has the provider's current secrets, they are registered, and
    for each that is new its subscribers were called once, in the order they subscribed. -/
def Converged (before after : St) : Prop :=
  ∀ name ∈ canonicalSecretNames, ∀ sv, after.provider.current name = .ok (some sv) →
    (∃ held, after.client.getOptional name = .ok (some held) ∧ held.value = sv.value) ∧
    sv.value ∈ after.client.registry.knownValues ∧
    ((∀ old, before.client.getOptional name = .ok (some old) → old.value ≠ sv.value) →
      ((after.calls.drop before.calls.length).filter (·.name = name)).map
          (fun call => (call.handle, call.value.value)) =
        (before.client.subscribersOf name).map fun handle => (handle, sv.value))

/-- Every secret that the provider has was loaded, and one that has kept its version has kept
    its value. -/
def VersionsTell (s : St) : Prop :=
  ∀ name ∈ canonicalSecretNames, ∀ sv, s.provider.current name = .ok (some sv) →
    ∃ held, s.client.secrets.get name = some held ∧ (held.version = sv.version → held.value = sv.value)

/-- A value that is registered or current. -/
def InUse (s : St) (value : Str) : Prop :=
  value ∈ s.client.registry.knownValues ∨
    ∃ name sv, s.provider.current name = .ok (some sv) ∧ value = sv.value

/-- No two values in use have the same SHA-256. -/
def NoCollision (s : St) : Prop :=
  ∀ v w bytes bytes', InUse s v → InUse s w → v.encode = .ok bytes → w.encode = .ok bytes' →
    Hashlib.sha256 bytes = Hashlib.sha256 bytes' → v = w

-- ---------------------------------------------------------------------------
-- The registry knows what is held
-- ---------------------------------------------------------------------------

structure Registered (c : SecretsClient) : Prop where
  known : c.registry.HashesKnown
  held : ∀ name sv, c.secrets.get name = some sv →
    Hashlib.sha256 sv.bytes ∈ c.registry.valueHashes

theorem registered_loadInitial {names : List Str} {provider : SecretsProvider} {s : St}
    (h : loadInitial names provider = .ok s) : Registered s.client := by
  have hall : ∀ (svs : List SecretValue) (r : RedactionRegistry), r.HashesKnown →
      (registerAll svs r).HashesKnown ∧ r.valueHashes ⊆ (registerAll svs r).valueHashes ∧
        ∀ sv ∈ svs, Hashlib.sha256 sv.bytes ∈ (registerAll svs r).valueHashes := by
    intro svs
    induction svs with
    | nil => exact fun r hr => ⟨hr, List.Subset.refl _, fun _ hsv => absurd hsv List.not_mem_nil⟩
    | cons sv svs ih =>
      intro r hr
      have hkey : (r.registerKey sv.name).HashesKnown := by
        unfold RedactionRegistry.HashesKnown
        rw [RedactionRegistry.knownValues_registerKey, RedactionRegistry.valueHashes_registerKey]
        exact hr
      obtain ⟨hknown, hsubset, hrest⟩ := ih _ (hkey.add sv.encoded)
      refine ⟨hknown, fun hash hmem => hsubset (RedactionRegistry.valueHashes_subset_add ?_), fun sv' hsv' => ?_⟩
      · rwa [RedactionRegistry.valueHashes_registerKey]
      · rcases List.mem_cons.mp hsv' with rfl | hsv'
        · exact hsubset RedactionRegistry.mem_valueHashes_add
        · exact hrest sv' hsv'
  unfold loadInitial at h
  cases hload : provider.loadAll names with
  | error e =>
    rw [hload] at h
    cases h
  | ok secrets =>
    rw [hload] at h
    cases h
    obtain ⟨hknown, -, hregistered⟩ := hall (secrets.entries.map Prod.snd) .empty
      (fun hash hmem => absurd hmem List.not_mem_nil)
    refine ⟨hknown, fun name sv hget => hregistered sv ?_⟩
    exact List.mem_map.mpr ⟨(name, sv), OrderedDict.get_eq_some.mp hget, rfl⟩

theorem RoundSpec.registered {name : Str} {s s' : St} (h : RoundSpec name s s')
    (hs : Registered s.client) : Registered s'.client := by
  obtain ⟨hregistry, hheld⟩ | ⟨sv, -, hheld, hregistry⟩ := h.registry
  · constructor
    · rw [hregistry]
      exact hs.known
    · intro other sv hget
      rw [hregistry]
      by_cases hother : other = name
      · rw [hother, hheld] at hget
        exact hs.held name sv hget
      · rw [h.secrets, if_neg hother] at hget
        exact hs.held other sv hget
  · constructor
    · rw [hregistry]
      exact hs.known.add sv.encoded
    · intro other sv' hget
      rw [hregistry]
      by_cases hother : other = name
      · rw [hother, hheld] at hget
        cases hget
        exact RedactionRegistry.mem_valueHashes_add
      · rw [h.secrets, if_neg hother] at hget
        exact RedactionRegistry.valueHashes_subset_add (hs.held other sv' hget)

theorem registered_refreshPass {turns : Str → Turn} {s : St} (hs : Registered s.client) :
    Registered (refreshPass turns s).client := by
  unfold refreshPass
  generalize s.client.secrets.keys = names
  induction names generalizing s with
  | nil => exact hs
  | cons name names ih => exact ih ((refreshOne_spec name _ _).registered hs)

theorem registered_step {s : St} (e : Event) (hs : Registered s.client) :
    Registered (step s e).client := by
  cases e with
  | edit => exact hs
  | pass turns => exact registered_refreshPass hs
  | subscribe name callback id =>
    unfold step subscribe
    dsimp only
    split
    · rename_i client hclient
      split at hclient
      · cases hclient
        exact ⟨hs.known, hs.held⟩
      · cases hclient
    · exact hs

theorem registered_run {s : St} (events : List Event) (hs : Registered s.client) :
    Registered (run s events).client := by
  induction events generalizing s with
  | nil => exact hs
  | cons e events ih => exact ih (registered_step e hs)

-- ---------------------------------------------------------------------------
-- A pass
-- ---------------------------------------------------------------------------

/-- What the rounds for some names do to the state they begin in. -/
structure PassSpec (names : List Str) (s s' : St) : Prop where
  secrets : ∀ other, s'.client.secrets.get other =
    if other ∈ names then refreshed (s.provider.current other) (s.client.secrets.get other)
    else s.client.secrets.get other
  provider : ∀ other, s'.provider.current other = s.provider.current other
  subscribers : ∀ other, s'.client.subscribersOf other = s.client.subscribersOf other
  calls : ∃ new, s'.calls = s.calls ++ new ∧ ∀ other, new.filter (·.name = other) =
    if other ∈ names then roundCalls (s.provider.current other) (s.client.secrets.get other) other
      (s.client.subscribersOf other)
    else []
  inUse : ∀ v, InUse s' v → InUse s v

theorem roundCalls_filter {current : Except ProviderError (Option SecretValue)}
    {held : Option SecretValue} {name other : Str} {handles : List SubscriptionHandle} :
    (roundCalls current held name handles).filter (·.name = other) =
      if other = name then roundCalls current held name handles else [] := by
  have hname : ∀ call ∈ roundCalls current held name handles, call.name = name := by
    intro call hcall
    unfold roundCalls at hcall
    split at hcall
    · split at hcall
      · cases hcall
      · obtain ⟨handle, -, rfl⟩ := List.mem_map.mp hcall
        rfl
    · cases hcall
  by_cases hother : other = name
  · rw [if_pos hother, List.filter_eq_self]
    exact fun call hcall => by simp [hname call hcall, hother]
  · rw [if_neg hother, List.filter_eq_nil_iff]
    exact fun call hcall => by simpa [hname call hcall] using fun heq => hother heq.symm

theorem RoundSpec.inUse {name : Str} {s s' : St} (h : RoundSpec name s s') {v : Str}
    (hv : InUse s' v) : InUse s v := by
  rcases hv with hknown | ⟨other, sv, hcurrent, rfl⟩
  · obtain ⟨hregistry, -⟩ | ⟨sv, hcurrent, -, hregistry⟩ := h.registry
    · exact .inl (hregistry ▸ hknown)
    · rw [hregistry] at hknown
      rcases RedactionRegistry.mem_knownValues_add hknown with hold | rfl
      · exact .inl hold
      · exact .inr ⟨name, sv, hcurrent, rfl⟩
  · exact .inr ⟨other, sv, h.provider other ▸ hcurrent, rfl⟩

theorem PassSpec.cons {name : Str} {names : List Str} {s s₁ s' : St} (hname : name ∉ names)
    (hround : RoundSpec name s s₁) (hrest : PassSpec names s₁ s') : PassSpec (name :: names) s s' := by
  constructor
  · intro other
    rw [hrest.secrets, hround.provider, hround.secrets]
    by_cases hother : other = name
    · subst hother
      rw [if_neg hname, if_pos rfl, if_pos (List.mem_cons_self ..)]
    · simp [hother]
  · exact fun other => (hrest.provider other).trans (hround.provider other)
  · exact fun other => (hrest.subscribers other).trans (hround.subscribers other)
  · obtain ⟨new, hnew, hfilter⟩ := hrest.calls
    refine ⟨roundCalls (s.provider.current name) (s.client.secrets.get name) name
      (s.client.subscribersOf name) ++ new, by rw [hnew, hround.calls, List.append_assoc], ?_⟩
    intro other
    rw [List.filter_append, roundCalls_filter, hfilter, hround.provider, hround.secrets,
      hround.subscribers]
    by_cases hother : other = name
    · subst hother
      rw [if_pos rfl, if_neg hname, if_pos (List.mem_cons_self ..), List.append_nil]
    · simp [hother]
  · exact fun v hv => hround.inUse (hrest.inUse v hv)

theorem quietPass_spec (results : Str → SubscriptionHandle → CallbackResult) (s : St) :
    PassSpec s.client.secrets.keys s (quietPass results s) := by
  unfold quietPass refreshPass
  have hnodup : s.client.secrets.keys.Nodup := s.client.secrets.nodup
  generalize s.client.secrets.keys = names at hnodup ⊢
  induction names generalizing s with
  | nil =>
    exact ⟨fun _ => by simp, fun _ => rfl, fun _ => rfl, ⟨[], by simp, by simp⟩, fun _ h => h⟩
  | cons name names ih =>
    obtain ⟨hname, hnodup⟩ := List.nodup_cons.mp hnodup
    exact .cons hname (refreshOne_spec name (results name) s) (ih _ hnodup)

-- ---------------------------------------------------------------------------
-- Convergence
-- ---------------------------------------------------------------------------

section
variable {s : St} {results : Str → SubscriptionHandle → CallbackResult}

theorem getOptional_eq {c : SecretsClient} {name : Str} (hname : name ∈ canonicalSecretNames) :
    c.getOptional name = .ok (c.secrets.get name) := if_pos hname

/-- What is held and current after the pass is registered. -/
theorem mem_knownValues_of_held (hs : Registered s.client) (hcollision : NoCollision s) {name : Str}
    {held sv : SecretValue} (hheld : (quietPass results s).client.secrets.get name = some held)
    (hcurrent : s.provider.current name = .ok (some sv)) (hvalue : held.value = sv.value) :
    sv.value ∈ (quietPass results s).client.registry.knownValues := by
  have hregistered : Registered (quietPass results s).client := registered_refreshPass hs
  obtain ⟨v, hv, bytes, hbytes, hhash⟩ := hregistered.known _ (hregistered.held name held hheld)
  have hsame : v = sv.value := by
    refine hcollision v sv.value bytes held.bytes ?_ (.inr ⟨name, sv, hcurrent, rfl⟩) hbytes ?_ hhash
    · exact (quietPass_spec results s).inUse v (.inl hv)
    · exact hvalue ▸ held.encoded
  exact hsame ▸ hv

end

-- ---------------------------------------------------------------------------
-- A rotation under one version
-- ---------------------------------------------------------------------------

/-- The secret that the tests seed, of the version that `set` gives by default. -/
def seeded (value : Str) (bytes : Bytes) (h : value.encode = .ok bytes) : SecretValue :=
  ⟨text "openai_api_key", text "test-v1", value, bytes, h⟩

/-- A provider with one secret. -/
def seededProvider : SecretsProvider :=
  .memory ⟨OrderedDict.empty.set (text "openai_api_key") (text "k1", text "test-v1")⟩

/-- The state after bootstrap with it. -/
def seededState : St :=
  let sv := seeded (text "k1") [0x6B, 0x31] (by decide)
  ⟨⟨OrderedDict.empty.set (text "openai_api_key") sv, registerAll [sv] .empty, OrderedDict.empty⟩,
    seededProvider, [], []⟩

theorem loadInitial_seeded : loadInitial [] seededProvider = .ok seededState := by
  rfl

theorem inUse_seeded {v : Str} (h : InUse seededState v) : v = text "k1" := by
  rcases h with hknown | ⟨name, sv, hcurrent, rfl⟩
  · have hvalues : seededState.client.registry.knownValues = [text "k1"] := by decide +kernel
    rw [hvalues] at hknown
    exact List.mem_singleton.mp hknown
  · by_cases hname : name = text "openai_api_key"
    · subst hname
      have hfound : seededState.provider.current (text "openai_api_key") =
          .ok (some (seeded (text "k1") [0x6B, 0x31] (by decide))) := rfl
      cases hfound.symm.trans hcurrent
      rfl
    · have hnone : (OrderedDict.empty.set (text "openai_api_key") (text "k1", text "test-v1")).get name =
          none := by
        rw [OrderedDict.get_set, if_neg hname]
        rfl
      change (MemoryProvider.fetch name _) = _ at hcurrent
      rw [MemoryProvider.fetch, hnone] at hcurrent
      cases hcurrent

end SecretsClient
