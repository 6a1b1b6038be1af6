-- SUMMARY: The in-memory store: it holds the most recently checked keys, and behaves as one bucket for each subject that starts full when its key was evicted.
import DealScreening.Python.OrderedDict
import DealScreening.RateLimiter.Config

/-!
# Rate limit store
-/

namespace RateLimiter

open Python Recency

/-- Oldest key first. An entry also keeps the config of its last check. -/
structure InMemoryStore (R : Type) where
  buckets : OrderedDict Str (BucketState R × BucketConfig R)
  maxKeys : Nat

namespace InMemoryStore

variable {R : Type}

def new (maxKeys : Nat) : InMemoryStore R := { buckets := .empty, maxKeys }

/-- The loop of `_evict_expired`, which runs at most once for each key. -/
def evict {α : Type} (maxKeys : Nat) : Nat → OrderedDict Str α → OrderedDict Str α
  | 0, buckets => buckets
  | n + 1, buckets => if maxKeys < buckets.length then evict maxKeys n buckets.popFirst else buckets

def evictExpired (store : InMemoryStore R) : InMemoryStore R :=
  { store with buckets := evict store.maxKeys store.buckets.length store.buckets }

theorem evict_entries {α : Type} {maxKeys n : Nat} {buckets : OrderedDict Str α}
    (h : buckets.length ≤ n) :
    (evict maxKeys n buckets).entries = buckets.entries.drop (buckets.length - maxKeys) := by
  induction n generalizing buckets with
  | zero =>
    rw [Nat.le_zero.mp h, Nat.zero_sub]
    rfl
  | succ n ih =>
    unfold evict
    by_cases hlt : maxKeys < buckets.length
    · have hpop : buckets.popFirst.length = buckets.length - 1 := List.length_tail
      have hone : buckets.length - maxKeys = (buckets.length - 1 - maxKeys) + 1 := by omega
      rw [if_pos hlt, ih (by omega), hpop, hone, Nat.add_comm, ← List.drop_drop, List.drop_one]
      rfl
    · rw [if_neg hlt, Nat.sub_eq_zero_of_le (not_lt.mp hlt)]
      rfl

variable [IntCast R] [Add R] [Sub R] [Mul R] [Div R] [Max R] [Min R]
  [LE R] [DecidableLE R] [LT R] [DecidableLT R] [OfScientific R] [Truncate R]

def check (store : InMemoryStore R) (key : Str) (config : BucketConfig R) (cost : Int) (now : R) :
    CheckResult R × InMemoryStore R :=
  let state :=
    match store.buckets.get key with
    | none => newBucket config now
    | some entry => entry.1
  let (result, newState) := checkAndConsume state config cost now
  let buckets := (store.buckets.set key (newState, config)).moveToEnd key
  (result, evictExpired { store with buckets })

-- ---------------------------------------------------------------------------
-- What a check does to the store
-- ---------------------------------------------------------------------------

variable (store : InMemoryStore R) (key : Str) (config : BucketConfig R) (cost : Int) (now : R)

/-- The bucket a check finds. -/
def found : BucketState R := ((store.buckets.get key).map Prod.fst).getD (newBucket config now)

theorem check_result :
    (store.check key config cost now).1 =
      (checkAndConsume (store.found key config now) config cost now).1 := by
  unfold check found
  cases store.buckets.get key <;> rfl

theorem check_buckets :
    (store.check key config cost now).2.buckets.entries <:+
        ((store.buckets.set key
          ((checkAndConsume (store.found key config now) config cost now).2, config)).moveToEnd
            key).entries ∧
    (store.check key config cost now).2.buckets.keys.reverse =
      (touch key store.buckets.keys.reverse).take store.maxKeys := by
  generalize hdict : (store.buckets.set key
    ((checkAndConsume (store.found key config now) config cost now).2, config)).moveToEnd key = dict
  have hbuckets : (store.check key config cost now).2.buckets =
      evict store.maxKeys dict.length dict := by
    rw [← hdict]
    unfold check found
    cases store.buckets.get key <;> rfl
  rw [hbuckets, evict_entries (le_refl _)]
  refine ⟨List.drop_suffix _ _, ?_⟩
  rw [OrderedDict.keys, evict_entries (le_refl _), ← OrderedDict.keys_set_moveToEnd, hdict,
    List.take_reverse, OrderedDict.keys, List.map_drop, List.length_map]
  rfl

/-- The checked key has its new bucket and every other its old one, if it is still there. -/
theorem check_get (key' : Str) :
    ((store.check key config cost now).2.buckets.get key').map Prod.fst =
      if key' ∈ (store.check key config cost now).2.buckets.keys then
        if key' = key then
          some (checkAndConsume (store.found key config now) config cost now).2
        else (store.buckets.get key').map Prod.fst
      else none := by
  rw [OrderedDict.get_of_suffix (check_buckets store key config cost now).1]
  by_cases hheld : key' ∈ (store.check key config cost now).2.buckets.keys
  · rw [if_pos hheld, if_pos hheld, OrderedDict.get_set_moveToEnd]
    by_cases hkey : key' = key
    · rw [if_pos hkey, if_pos hkey]
      rfl
    · rw [if_neg hkey, if_neg hkey]
  · rw [if_neg hheld, if_neg hheld]
    rfl

end InMemoryStore

-- ---------------------------------------------------------------------------
-- The store and one bucket for each subject
-- ---------------------------------------------------------------------------

section Independence

variable {R : Type} [IntCast R] [Add R] [Sub R] [Mul R] [Div R] [Max R] [Min R]
  [LE R] [DecidableLE R] [LT R] [DecidableLT R] [OfScientific R] [Truncate R]

/-- A bucket of its own, made full at its first check. -/
def ownBucket (config : BucketConfig R) :
    Automaton (Option (BucketState R)) (Check R) (CheckResult R) where
  step state check :=
    let (result, newState) :=
      checkAndConsume (state.getD (newBucket config check.now)) config check.cost check.now
    (result, some newState)

/-- The store answers one check of a subject after the other. -/
def limiter (config : Subject → BucketConfig R) :
    Automaton (InMemoryStore R) (Subject × Check R) (CheckResult R) where
  step store request :=
    store.check (buildKey request.1) (config request.1) request.2.cost request.2.now

variable (config : Subject → BucketConfig R)

/-- The checks of a subject since its key was last evicted; `since` are those before. -/
def checksSince (subject : Subject) :
    InMemoryStore R → List (Check R) → List (Subject × Check R) → List (Check R)
  | _, since, [] => since
  | store, since, request :: requests =>
    let store' := ((limiter config).step store request).2
    let since' := if request.1 = subject then since ++ [request.2] else since
    checksSince subject store' (if buildKey subject ∈ store'.buckets.keys then since' else [])
      requests

/-- All checks of a subject. -/
def checksOf (subject : Subject) (requests : List (Subject × Check R)) : List (Check R) :=
  (requests.filter fun request => request.1 = subject).map Prod.snd

/-- The bucket in the store is the subject's own bucket after the checks `since`. -/
def Simulates (store : InMemoryStore R) (subject : Subject) (since : List (Check R)) : Prop :=
  (store.buckets.get (buildKey subject)).map Prod.fst =
    (ownBucket (config subject)).after none since

variable {config}

theorem simulates_new (maxKeys : Nat) (subject : Subject) :
    Simulates config (.new maxKeys) subject [] := rfl

theorem simulates_step {store : InMemoryStore R} {subject : Subject} {since : List (Check R)}
    (h : Simulates config store subject since) (request : Subject × Check R) :
    Simulates config ((limiter config).step store request).2 subject
      (if buildKey subject ∈ ((limiter config).step store request).2.buckets.keys then
        if request.1 = subject then since ++ [request.2] else since
      else []) := by
  unfold Simulates at h ⊢
  change ((store.check (buildKey request.1) (config request.1) request.2.cost
    request.2.now).2.buckets.get (buildKey subject)).map Prod.fst = _
  rw [InMemoryStore.check_get]
  change (if buildKey subject ∈ ((limiter config).step store request).2.buckets.keys then _
    else none) = _
  by_cases hheld : buildKey subject ∈ ((limiter config).step store request).2.buckets.keys
  · rw [if_pos hheld, if_pos hheld]
    by_cases hsubject : request.1 = subject
    · subst hsubject
      rw [if_pos rfl, if_pos rfl, Automaton.after_snoc, ← h]
      rfl
    · rw [if_neg fun heq => hsubject (buildKey_injective heq).symm, if_neg hsubject, h]
  · rw [if_neg hheld, if_neg hheld]
    rfl

theorem simulates_after {store : InMemoryStore R} {subject : Subject} {since : List (Check R)}
    (h : Simulates config store subject since) (requests : List (Subject × Check R)) :
    Simulates config ((limiter config).after store requests) subject
      (checksSince config subject store since requests) := by
  induction requests generalizing store since with
  | nil => exact h
  | cons request requests ih => exact ih (simulates_step h request)

/-- The result of a check is that of the subject's own bucket. -/
theorem simulates_result {store : InMemoryStore R} {subject : Subject} {since : List (Check R)}
    (h : Simulates config store subject since) (check : Check R) :
    ((limiter config).step store (subject, check)).1 =
      ((ownBucket (config subject)).step ((ownBucket (config subject)).after none since)
        check).1 := by
  rw [← h]
  exact InMemoryStore.check_result _ _ _ _ _

theorem maxKeys_after (store : InMemoryStore R) (requests : List (Subject × Check R)) :
    ((limiter config).after store requests).maxKeys = store.maxKeys := by
  have hstep : ∀ (s : InMemoryStore R) request, True → s.maxKeys = store.maxKeys →
      ((limiter config).step s request).2.maxKeys = store.maxKeys := fun _ _ _ h => h
  exact Automaton.invariant hstep rfl fun _ _ => trivial

/-- The store holds the keys that were checked last. -/
theorem keys_after (maxKeys : Nat) (requests : List (Subject × Check R)) :
    ((limiter config).after (.new maxKeys) requests).buckets.keys.reverse =
      ((recency (requests.map Prod.fst)).take maxKeys).map buildKey := by
  induction requests using List.reverseRecOn with
  | nil =>
    rw [List.map_nil, recency_nil, List.take_nil]
    rfl
  | append_singleton requests request ih =>
    have hmaxKeys : ((limiter config).after (.new maxKeys) requests).maxKeys = maxKeys :=
      maxKeys_after (.new maxKeys) requests
    rw [Automaton.after_snoc, List.map_append, List.map_singleton, recency_snoc,
      ← take_touch_take (nodup_recency _)]
    change (((limiter config).after (.new maxKeys) requests).check _ _ _ _).2.buckets.keys.reverse =
      _
    rw [(InMemoryStore.check_buckets _ _ _ _ _).2, ih, hmaxKeys, touch_map buildKey_injective,
      List.map_take]

/-- The key of a subject is held while it is among those that were checked last. -/
theorem held_iff {maxKeys : Nat} {requests : List (Subject × Check R)} {subject : Subject} :
    buildKey subject ∈ ((limiter config).after (.new maxKeys) requests).buckets.keys ↔
      subject ∈ (recency (requests.map Prod.fst)).take maxKeys := by
  rw [← List.mem_reverse, keys_after, List.mem_map_of_injective buildKey_injective]

/-- With room for every subject, none loses a check. -/
theorem checksSince_of_room {maxKeys : Nat} (before : List (Subject × Check R))
    {requests : List (Subject × Check R)}
    (hroom : (recency ((before ++ requests).map Prod.fst)).length ≤ maxKeys) (subject : Subject) :
    checksSince config subject ((limiter config).after (.new maxKeys) before)
        (checksOf subject before) requests =
      checksOf subject (before ++ requests) := by
  induction requests generalizing before with
  | nil => rw [List.append_nil, checksSince]
  | cons request requests ih =>
    have happend : before ++ request :: requests = (before ++ [request]) ++ requests := by simp
    have hsince : (if request.1 = subject then checksOf subject before ++ [request.2]
        else checksOf subject before) = checksOf subject (before ++ [request]) := by
      unfold checksOf
      by_cases hsubject : request.1 = subject
      · rw [if_pos hsubject, List.filter_append, List.filter_cons_of_pos (by simpa using hsubject),
          List.map_append]
        rfl
      · rw [if_neg hsubject, List.filter_append, List.filter_cons_of_neg (by simpa using hsubject),
          List.filter_nil, List.append_nil]
    have hall : (recency ((before ++ [request]).map Prod.fst)).length ≤ maxKeys := by
      refine (length_recency_le (List.map_subset _ ?_)).trans hroom
      rw [happend]
      exact List.subset_append_left ..
    have hheld : (if buildKey subject ∈
          ((limiter config).after (.new maxKeys) (before ++ [request])).buckets.keys then
        checksOf subject (before ++ [request]) else []) = checksOf subject (before ++ [request]) := by
      by_cases hmem : subject ∈ (before ++ [request]).map Prod.fst
      · rw [if_pos]
        rw [held_iff, List.take_of_length_le hall]
        exact mem_recency.mpr hmem
      · have hnone : checksOf subject (before ++ [request]) = [] := by
          unfold checksOf
          rw [List.map_eq_nil_iff, List.filter_eq_nil_iff]
          intro request' hrequest' heq
          exact hmem (List.mem_map.mpr ⟨request', hrequest', by simpa using heq⟩)
        rw [hnone, ite_self]
    rw [checksSince, hsince, ← Automaton.after_snoc, hheld, ih _ (happend ▸ hroom), happend]

/-- The store is a map of independent buckets: it holds the keys that were checked last, at
    most `maxKeys` of them, and answers a check as the subject's own bucket does after the
    checks since the key was evicted; with room for every subject, after all its checks. -/
theorem store_independent (maxKeys : Nat) (config : Subject → BucketConfig R)
    (requests : List (Subject × Check R)) :
    let store := (limiter config).after (.new maxKeys) requests
    store.buckets.length ≤ maxKeys ∧
    store.buckets.keys.reverse = ((recency (requests.map Prod.fst)).take maxKeys).map buildKey ∧
    (∀ subject check,
      ((limiter config).step store (subject, check)).1 =
        ((ownBucket (config subject)).step ((ownBucket (config subject)).after none
          (checksSince config subject (.new maxKeys) [] requests)) check).1) ∧
    ((recency (requests.map Prod.fst)).length ≤ maxKeys → ∀ subject check,
      ((limiter config).step store (subject, check)).1 =
        ((ownBucket (config subject)).step ((ownBucket (config subject)).after none
          (checksOf subject requests)) check).1) := by
  intro store
  have hkeys : store.buckets.keys.reverse = _ := keys_after maxKeys requests
  have hsince : ∀ subject check, ((limiter config).step store (subject, check)).1 =
      ((ownBucket (config subject)).step ((ownBucket (config subject)).after none
        (checksSince config subject (.new maxKeys) [] requests)) check).1 :=
    fun subject check => simulates_result (simulates_after (simulates_new maxKeys subject) requests) check
  refine ⟨?_, hkeys, hsince, ?_⟩
  · have hlength := congrArg List.length hkeys
    rw [List.length_reverse, OrderedDict.keys, List.length_map, List.length_map,
      List.length_take] at hlength
    exact hlength.trans_le (Nat.min_le_left _ _)
  · intro hroom subject check
    rw [hsince]
    exact congrArg (fun checks => ((ownBucket (config subject)).step
      ((ownBucket (config subject)).after none checks) check).1) (checksSince_of_room [] hroom subject)

end Independence

end RateLimiter
