-- SUMMARY: The token bucket, and the bound on what any block of checks admits.
import DealScreening.Lib.Automaton
import Mathlib.Algebra.Order.Floor.Ring
import Mathlib.Data.Rat.Floor
import Mathlib.Order.Bounds.Basic
import Mathlib.Tactic.Linarith
import Mathlib.Tactic.Positivity

/-!
# Token bucket

The bucket computes with the numbers of `R`: floats in the program, an ordered field
where arithmetic is exact.
-/

/-- Numbers that `int(x)` truncates towards zero. -/
class Truncate (R : Type) where
  trunc : R → Int

namespace RateLimiter

structure BucketState (R : Type) where
  tokens : R
  lastRefillAt : R
  deriving DecidableEq

/-- `refillRate` is in tokens per second. -/
structure BucketConfig (R : Type) where
  burst : Int
  refillRate : R
  deriving DecidableEq

/-- `retryAfterSeconds` is 0 if the check is allowed. -/
structure CheckResult (R : Type) where
  allowed : Bool
  tokensRemaining : R
  limit : Int
  retryAfterSeconds : Int
  resetAt : R
  deriving DecidableEq

section Operations

variable {R : Type} [IntCast R] [Add R] [Sub R] [Mul R] [Div R] [Max R] [Min R]
  [LE R] [DecidableLE R] [LT R] [DecidableLT R] [OfScientific R] [Truncate R]

omit [Add R] [Sub R] [Mul R] [Max R] [Min R] [LE R] [DecidableLE R] [LT R] [DecidableLT R]
  [OfScientific R] [Truncate R] in
def BucketConfig.perMinute (burst rpm : Int) : BucketConfig R :=
  { burst, refillRate := (rpm : R) / ((60 : Int) : R) }

omit [Add R] [Sub R] [Mul R] [Max R] [Min R] [LE R] [DecidableLE R] [LT R] [DecidableLT R]
  [OfScientific R] [Truncate R] in
def BucketConfig.perHour (burst rph : Int) : BucketConfig R :=
  { burst, refillRate := (rph : R) / ((3600 : Int) : R) }

/-- `last_refill_at` only moves forward. -/
def refill (state : BucketState R) (config : BucketConfig R) (now : R) : BucketState R :=
  let effectiveNow := max now state.lastRefillAt
  let elapsed := effectiveNow - state.lastRefillAt
  let newTokens := min (config.burst : R) (state.tokens + elapsed * config.refillRate)
  { tokens := newTokens, lastRefillAt := effectiveNow }

def resetAt (state : BucketState R) (config : BucketConfig R) (now : R) : R :=
  if ((0 : Int) : R) < config.refillRate then
    now + ((config.burst : R) - state.tokens) / config.refillRate
  else now

def retryAfter (state : BucketState R) (config : BucketConfig R) (cost : Int) : R :=
  let deficit := (cost : R) - state.tokens
  if ((0 : Int) : R) < config.refillRate then deficit / config.refillRate else ((3600 : Int) : R)

def checkAndConsume (state : BucketState R) (config : BucketConfig R) (cost : Int) (now : R) :
    CheckResult R × BucketState R :=
  let state := refill state config now
  if (cost : R) ≤ state.tokens then
    let newState : BucketState R :=
      { tokens := state.tokens - (cost : R), lastRefillAt := state.lastRefillAt }
    ({ allowed := true
       tokensRemaining := newState.tokens
       limit := config.burst
       retryAfterSeconds := 0
       resetAt := resetAt state config now }, newState)
  else
    ({ allowed := false
       tokensRemaining := state.tokens
       limit := config.burst
       retryAfterSeconds := max 1 (Truncate.trunc (retryAfter state config cost + (0.999 : R)))
       resetAt := resetAt state config now }, state)

omit [Add R] [Sub R] [Mul R] [Div R] [Max R] [Min R] [LE R] [DecidableLE R] [LT R]
  [DecidableLT R] [OfScientific R] [Truncate R] in
/-- A full bucket. -/
def newBucket (config : BucketConfig R) (now : R) : BucketState R :=
  { tokens := (config.burst : R), lastRefillAt := now }

/-- What a check is asked: its cost and what the clock reads. -/
structure Check (R : Type) where
  cost : Int
  now : R

/-- A bucket answers one check after the other. -/
def bucket (config : BucketConfig R) : Automaton (BucketState R) (Check R) (CheckResult R) where
  step state check := checkAndConsume state config check.cost check.now

-- ---------------------------------------------------------------------------
-- The two outcomes of a check
-- ---------------------------------------------------------------------------

variable {state : BucketState R} {config : BucketConfig R} {cost : Int} {now : R}

theorem checkAndConsume_allowed :
    (checkAndConsume state config cost now).1.allowed = true ↔
      (cost : R) ≤ (refill state config now).tokens := by
  unfold checkAndConsume
  by_cases h : (cost : R) ≤ (refill state config now).tokens
  · exact iff_of_true (by simp only [if_pos h]) h
  · exact iff_of_false (by simp only [if_neg h]; exact Bool.false_ne_true) h

/-- What an allowed check costs is taken from the refilled bucket. -/
theorem checkAndConsume_state_allowed (h : (cost : R) ≤ (refill state config now).tokens) :
    (checkAndConsume state config cost now).2 =
      { refill state config now with tokens := (refill state config now).tokens - (cost : R) } := by
  simp only [checkAndConsume, if_pos h]

/-- A denied check only refills the bucket. -/
theorem checkAndConsume_state_denied (h : ¬ (cost : R) ≤ (refill state config now).tokens) :
    (checkAndConsume state config cost now).2 = refill state config now := by
  simp only [checkAndConsume, if_neg h]

theorem checkAndConsume_lastRefillAt :
    (checkAndConsume state config cost now).2.lastRefillAt = max now state.lastRefillAt := by
  unfold checkAndConsume
  dsimp only
  split <;> rfl

end Operations

-- ---------------------------------------------------------------------------
-- Exact arithmetic
-- ---------------------------------------------------------------------------

section Exact

variable {K : Type} [Field K] [LinearOrder K] [IsStrictOrderedRing K] [FloorRing K]

instance : Truncate K where
  trunc x := if 0 ≤ x then ⌊x⌋ else ⌈x⌉

/-- The bucket is neither overdrawn nor overfull. -/
def BucketState.WithinBurst (config : BucketConfig K) (state : BucketState K) : Prop :=
  0 ≤ state.tokens ∧ state.tokens ≤ config.burst

variable {config : BucketConfig K} {state : BucketState K} {cost : Int} {now : K}

omit [FloorRing K] in
theorem refill_withinBurst (hburst : 0 ≤ config.burst) (hrate : 0 ≤ config.refillRate)
    (h : state.WithinBurst config) : (refill state config now).WithinBurst config := by
  have helapsed : 0 ≤ max now state.lastRefillAt - state.lastRefillAt :=
    sub_nonneg.mpr (le_max_right _ _)
  have hgain := mul_nonneg helapsed hrate
  constructor
  · exact le_min (Int.cast_nonneg hburst) (add_nonneg h.1 hgain)
  · exact min_le_left _ _

theorem checkAndConsume_withinBurst (hburst : 0 ≤ config.burst) (hrate : 0 ≤ config.refillRate)
    (hcost : 0 ≤ cost) (h : state.WithinBurst config) :
    (checkAndConsume state config cost now).2.WithinBurst config := by
  have hrefill : (refill state config now).WithinBurst config := refill_withinBurst hburst hrate h
  by_cases hallowed : (cost : K) ≤ (refill state config now).tokens
  · rw [checkAndConsume_state_allowed hallowed]
    constructor
    · exact sub_nonneg.mpr hallowed
    · exact (sub_le_self _ (Int.cast_nonneg hcost)).trans hrefill.2
  · rw [checkAndConsume_state_denied hallowed]
    exact hrefill

/-- What a check admits: its cost, if it is allowed. -/
def admitted (config : BucketConfig K) (state : BucketState K) (check : Check K) : K :=
  if (checkAndConsume state config check.cost check.now).1.allowed then check.cost else 0

/-- What a check admits is paid out of the bucket and of what the passing time refills. -/
theorem admitted_le (check : Check K) :
    admitted config state check + (checkAndConsume state config check.cost check.now).2.tokens ≤
      state.tokens + (config.refillRate *
          (checkAndConsume state config check.cost check.now).2.lastRefillAt -
        config.refillRate * state.lastRefillAt) := by
  have hrefill : (refill state config check.now).tokens ≤
      state.tokens + (config.refillRate * max check.now state.lastRefillAt -
        config.refillRate * state.lastRefillAt) := by
    refine (min_le_right _ _).trans (le_of_eq ?_)
    ring
  rw [checkAndConsume_lastRefillAt, admitted]
  by_cases hallowed : (check.cost : K) ≤ (refill state config check.now).tokens
  · rw [if_pos (checkAndConsume_allowed.mpr hallowed), checkAndConsume_state_allowed hallowed]
    linarith
  · rw [if_neg fun h => hallowed (checkAndConsume_allowed.mp h),
      checkAndConsume_state_denied hallowed]
    linarith

/-- The readings of the clock up to now, with the time the bucket was made. -/
def readings (t₀ : K) (checks : List (Check K)) : Set K :=
  {t | t = t₀ ∨ ∃ check ∈ checks, check.now = t}

omit [IsStrictOrderedRing K] in
theorem lastRefillAt_isGreatest (t₀ : K) (checks : List (Check K)) :
    IsGreatest (readings t₀ checks)
      ((bucket config).after (newBucket config t₀) checks).lastRefillAt := by
  induction checks using List.reverseRecOn with
  | nil =>
    refine ⟨.inl rfl, ?_⟩
    rintro t (rfl | ⟨check, hcheck, -⟩)
    · exact le_refl t
    · cases hcheck
  | append_singleton checks check ih =>
    have hlast : ((bucket config).after (newBucket config t₀) (checks ++ [check])).lastRefillAt =
        max check.now ((bucket config).after (newBucket config t₀) checks).lastRefillAt := by
      rw [Automaton.after_snoc]
      exact checkAndConsume_lastRefillAt
    have hreadings : readings t₀ (checks ++ [check]) = insert check.now (readings t₀ checks) := by
      ext t
      simp only [readings, List.mem_append, List.mem_singleton, Set.mem_ofPred_eq,
        Set.mem_insert_iff, or_and_right, exists_or, exists_eq_left, @eq_comm _ t check.now]
      rw [← or_assoc]
      exact or_comm
    rw [hlast, hreadings]
    exact ih.insert check.now

/-- The rate bound: whatever the clock reads, the bucket stays within its burst, its time
    is the latest reading, a check is only denied what the refilled bucket does not hold,
    and a block of checks admits at most one burst and what its time refills. -/
theorem rate_bound (config : BucketConfig K) (hburst : 0 ≤ config.burst)
    (hrate : 0 ≤ config.refillRate) (t₀ : K) (checks : List (Check K))
    (hcost : ∀ check ∈ checks, 0 ≤ check.cost) :
    ((bucket config).after (newBucket config t₀) checks).WithinBurst config ∧
    IsGreatest (readings t₀ checks)
      ((bucket config).after (newBucket config t₀) checks).lastRefillAt ∧
    (∀ before check rest, checks = before ++ check :: rest →
      let state := (bucket config).after (newBucket config t₀) before
      (checkAndConsume state config check.cost check.now).1.allowed = false →
        (refill state config check.now).tokens < check.cost) ∧
    ∀ before block rest, checks = before ++ block ++ rest →
      let state := (bucket config).after (newBucket config t₀) before
      let state' := (bucket config).after (newBucket config t₀) (before ++ block)
      (bucket config).paid (admitted config) state block ≤
        config.burst + config.refillRate * (state'.lastRefillAt - state.lastRefillAt) := by
  have hkeep : ∀ (state : BucketState K) (check : Check K), 0 ≤ check.cost →
      state.WithinBurst config → ((bucket config).step state check).2.WithinBurst config :=
    fun _ _ hcheck h => checkAndConsume_withinBurst hburst hrate hcheck h
  have hnew : (newBucket config t₀).WithinBurst config :=
    ⟨Int.cast_nonneg hburst, le_refl _⟩
  refine ⟨Automaton.invariant hkeep hnew hcost, lastRefillAt_isGreatest t₀ checks, ?_, ?_⟩
  · intro before check rest _ state hdenied
    by_contra h
    rw [checkAndConsume_allowed.mpr (not_lt.mp h)] at hdenied
    cases hdenied
  · rintro before block rest rfl state state'
    rw [List.forall_mem_append, List.forall_mem_append] at hcost
    have hstate : state.WithinBurst config := Automaton.invariant hkeep hnew hcost.1.1
    have hstate' : state'.WithinBurst config :=
      Automaton.invariant hkeep hnew (List.forall_mem_append.mpr hcost.1)
    have hafter : (bucket config).after state block = state' :=
      (Automaton.after_append _ _ before block).symm
    have hpaid := Automaton.paid_le (admitted config) BucketState.tokens
      (fun state => config.refillRate * state.lastRefillAt) hkeep
      (fun state check _ _ => admitted_le check) hstate hcost.1.2
    rw [hafter] at hpaid
    have hempty := hstate'.1
    have hfull := hstate.2
    rw [mul_sub]
    linarith

/-- Five checks, the clock set back before the last. -/
theorem rate_bound_sample :
    ((bucket ⟨5, 1 / 2⟩).after (newBucket ⟨5, 1 / 2⟩ (0 : ℚ))
      [⟨2, 1⟩, ⟨2, 1⟩, ⟨2, 1⟩, ⟨1, 3⟩, ⟨2, 2⟩]).WithinBurst ⟨5, 1 / 2⟩ :=
  (rate_bound ⟨5, 1 / 2⟩ (by decide) (by norm_num) 0 _ (by decide)).1

end Exact

end RateLimiter
