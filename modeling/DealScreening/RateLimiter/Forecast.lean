-- SUMMARY: What the answer to a check says about later times: when the same check will be allowed, and when the bucket is full.
import DealScreening.RateLimiter.Bucket

/-!
# Forecasts

A denied check is answered with the seconds after which to retry, and every check with the
time at which the bucket is full. Both are held here against the refill they foretell.
-/

namespace RateLimiter

section

variable {K : Type} [Field K] [LinearOrder K] [IsStrictOrderedRing K] [FloorRing K]
  {config : BucketConfig K} {state : BucketState K} {cost : Int} {now : K}

-- ---------------------------------------------------------------------------
-- Retry-After
-- ---------------------------------------------------------------------------

/-- How long the refilled bucket takes to hold the cost, in seconds. -/
def waitTime (config : BucketConfig K) (state : BucketState K) (cost : Int) (now : K) : K :=
  ((cost : K) - (refill state config now).tokens) / config.refillRate

/-- A denied check is allowed after the seconds it was told, and not one second before. -/
def RetryHonest (config : BucketConfig K) (state : BucketState K) (cost : Int) (now : K) : Prop :=
  let (result, state') := checkAndConsume state config cost now
  let later (t : K) := (checkAndConsume state' config cost t).1.allowed
  result.allowed = false →
    1 ≤ result.retryAfterSeconds ∧ later (now + result.retryAfterSeconds) = true ∧
      (1 < result.retryAfterSeconds → later (now + result.retryAfterSeconds - 1) = false)

omit [IsStrictOrderedRing K] [FloorRing K] in
theorem refill_lastRefillAt (hnow : state.lastRefillAt ≤ now) :
    (refill state config now).lastRefillAt = now := max_eq_left hnow

/-- A check after a denied one. -/
theorem allowed_later_iff (hrate : 0 < config.refillRate) (hburst : cost ≤ config.burst)
    (hnow : state.lastRefillAt ≤ now) {d : K} (hd : 0 ≤ d) :
    (checkAndConsume (refill state config now) config cost (now + d)).1.allowed = true ↔
      waitTime config state cost now ≤ d := by
  have hlater : (refill (refill state config now) config (now + d)).tokens =
      min (config.burst : K) ((refill state config now).tokens + d * config.refillRate) := by
    show min _ (_ + (max (now + d) (refill state config now).lastRefillAt -
      (refill state config now).lastRefillAt) * _) = _
    rw [refill_lastRefillAt hnow, max_eq_left (le_add_of_nonneg_right hd), add_sub_cancel_left]
  rw [checkAndConsume_allowed, hlater, le_min_iff, waitTime, div_le_iff₀ hrate, sub_le_iff_le_add']
  exact and_iff_right (Int.cast_le.mpr hburst)

/-- Adding 0.999 and truncating rounds up, unless the fraction is under a thousandth. -/
theorem le_floor_add_iff {w : K} :
    w ≤ (⌊w + 0.999⌋ : K) ↔ Int.fract w = 0 ∨ 0.001 ≤ Int.fract w := by
  have hfract : w = ⌊w⌋ + Int.fract w := (Int.floor_add_fract w).symm
  have hlow := Int.fract_nonneg w
  have hhigh := Int.fract_lt_one w
  by_cases hsmall : Int.fract w < 0.001
  · have hfloor : ⌊w + 0.999⌋ = ⌊w⌋ := by
      refine Int.floor_eq_iff.mpr ⟨?_, ?_⟩ <;> norm_num at hsmall ⊢ <;> linarith
    rw [hfloor]
    constructor
    · intro h
      exact .inl (le_antisymm (by linarith) hlow)
    · rintro (h | h)
      · linarith
      · exact absurd h (not_le.mpr hsmall)
  · have hfloor : ⌊w + 0.999⌋ = ⌊w⌋ + 1 := by
      refine Int.floor_eq_iff.mpr ⟨?_, ?_⟩ <;> push_cast <;> norm_num at hsmall ⊢ <;> linarith
    rw [hfloor]
    refine iff_of_true ?_ (.inr (not_lt.mp hsmall))
    push_cast
    linarith

/-- The seconds that a denied check is told. -/
theorem retryAfterSeconds_eq (hrate : 0 < config.refillRate)
    (hdenied : (refill state config now).tokens < cost) :
    (checkAndConsume state config cost now).1.retryAfterSeconds =
      max 1 ⌊waitTime config state cost now + 0.999⌋ := by
  have hwait : retryAfter (refill state config now) config cost = waitTime config state cost now := by
    rw [retryAfter, Int.cast_zero, if_pos hrate, waitTime]
  have hpos : 0 ≤ waitTime config state cost now + 0.999 :=
    add_nonneg (div_nonneg (sub_nonneg.mpr hdenied.le) hrate.le) (by norm_num)
  simp only [checkAndConsume, if_neg (not_le.mpr hdenied), hwait, Truncate.trunc, if_pos hpos]

/-- The answer is honest exactly when the wait is at most a second, or whole, or a thousandth
    or more past a whole second. -/
theorem retry_honest_iff (hrate : 0 < config.refillRate) (hburst : cost ≤ config.burst)
    (hnow : state.lastRefillAt ≤ now) :
    RetryHonest config state cost now ↔
      waitTime config state cost now ≤ 1 ∨ Int.fract (waitTime config state cost now) = 0 ∨
        0.001 ≤ Int.fract (waitTime config state cost now) := by
  have hlater := fun {d : K} (hd : 0 ≤ d) => allowed_later_iff hrate hburst hnow hd
  by_cases hallowed : (cost : K) ≤ (refill state config now).tokens
  · -- The check is not denied, and there is nothing to wait for.
    refine iff_of_true (fun hdenied => ?_) (.inl ?_)
    · cases hdenied.symm.trans (checkAndConsume_allowed.mpr hallowed)
    · exact (div_nonpos_of_nonpos_of_nonneg (sub_nonpos.mpr hallowed) hrate.le).trans zero_le_one
  · have hdenied := not_le.mp hallowed
    have hresult : (checkAndConsume state config cost now).1.allowed = false :=
      Bool.eq_false_iff.mpr fun h => hallowed (checkAndConsume_allowed.mp h)
    unfold RetryHonest
    dsimp only
    rw [checkAndConsume_state_denied hallowed, retryAfterSeconds_eq hrate hdenied]
    generalize waitTime config state cost now = w at hlater
    have hone : (1 : Int) ≤ max 1 ⌊w + 0.999⌋ := le_max_left _ _
    have honeK : (1 : K) ≤ (max 1 ⌊w + 0.999⌋ : Int) := by exact_mod_cast hone
    have hretry : w ≤ (max 1 ⌊w + 0.999⌋ : Int) ↔ w ≤ 1 ∨ Int.fract w = 0 ∨ 0.001 ≤ Int.fract w := by
      rw [Int.cast_max, le_max_iff, Int.cast_one, le_floor_add_iff]
    have hbefore : 1 < max 1 ⌊w + 0.999⌋ → ¬ w ≤ (max 1 ⌊w + 0.999⌋ : Int) - 1 := by
      intro hmore
      have hmax : max 1 ⌊w + 0.999⌋ = ⌊w + 0.999⌋ := max_eq_right (by omega)
      have hfloor := Int.floor_le (w + 0.999)
      rw [hmax]
      norm_num at hfloor ⊢
      linarith
    rw [← hretry, ← hlater (zero_le_one.trans honeK)]
    constructor
    · exact fun h => (h hresult).2.1
    · refine fun h _ => ⟨hone, h, fun hmore => Bool.eq_false_iff.mpr fun hsooner => ?_⟩
      rw [add_sub_assoc] at hsooner
      exact hbefore hmore ((hlater (sub_nonneg.mpr honeK)).mp hsooner)

/-- A check that the bucket holds half of. -/
theorem retry_honest_iff_half :
    RetryHonest ⟨2, 1⟩ (⟨0, 0⟩ : BucketState ℚ) 2 1 ↔
      waitTime ⟨2, 1⟩ (⟨0, 0⟩ : BucketState ℚ) 2 1 ≤ 1 ∨
        Int.fract (waitTime ⟨2, 1⟩ (⟨0, 0⟩ : BucketState ℚ) 2 1) = 0 ∨
        0.001 ≤ Int.fract (waitTime ⟨2, 1⟩ (⟨0, 0⟩ : BucketState ℚ) 2 1) :=
  retry_honest_iff (by norm_num) (by decide) (by norm_num)

/-- The wait is 1.0005 seconds, and the answer one second. -/
theorem retry_too_early :
    ¬ ∀ (config : BucketConfig ℚ) (t₀ : ℚ) (checks : List (Check ℚ)) (cost : Int) (now : ℚ),
      0 < config.refillRate → 0 < cost → cost ≤ config.burst →
      ((bucket config).after (newBucket config t₀) checks).lastRefillAt ≤ now →
      RetryHonest config ((bucket config).after (newBucket config t₀) checks) cost now := by
  intro h
  have hhonest := h ⟨2, 1⟩ 0 [⟨2, 0⟩] 2 (1999 / 2000) (by norm_num) (by decide) (by decide)
    (by decide +kernel)
  have hlater := (hhonest (by decide +kernel)).2.1
  revert hlater
  decide +kernel

-- ---------------------------------------------------------------------------
-- The time of the reset
-- ---------------------------------------------------------------------------

/-- From `reset_at` on the bucket is full, and before it is not. -/
def ResetHonest (config : BucketConfig K) (state : BucketState K) (cost : Int) (now : K) : Prop :=
  let (result, state') := checkAndConsume state config cost now
  ∀ t, (result.resetAt ≤ t → (refill state' config t).tokens = config.burst) ∧
    (state'.lastRefillAt ≤ t → t < result.resetAt → (refill state' config t).tokens < config.burst)

/-- When a bucket is full if nothing more is taken from it. -/
def fullAt (config : BucketConfig K) (state : BucketState K) : K :=
  state.lastRefillAt + ((config.burst : K) - state.tokens) / config.refillRate

omit [FloorRing K] in
theorem full_iff (hrate : 0 < config.refillRate) (t : K) :
    (refill state config t).tokens = config.burst ↔ fullAt config state ≤ max t state.lastRefillAt := by
  show min (config.burst : K) _ = _ ↔ _
  rw [min_eq_left_iff, fullAt, ← le_sub_iff_add_le', div_le_iff₀ hrate, sub_le_iff_le_add']

omit [IsStrictOrderedRing K] [FloorRing K] in
theorem refill_le_burst (t : K) : (refill state config t).tokens ≤ config.burst := min_le_left _ _

omit [FloorRing K] in
/-- From `reset` on, and from no time before it, the bucket is full. -/
theorem full_from_iff (hrate : 0 < config.refillRate) (hfull : state.tokens ≤ config.burst) (reset : K) :
    (∀ t, (reset ≤ t → (refill state config t).tokens = config.burst) ∧
      (state.lastRefillAt ≤ t → t < reset → (refill state config t).tokens < config.burst)) ↔
      max reset state.lastRefillAt = fullAt config state := by
  have hlast : state.lastRefillAt ≤ fullAt config state :=
    le_add_of_nonneg_right (div_nonneg (sub_nonneg.mpr hfull) hrate.le)
  have hless : ∀ t, (refill state config t).tokens < config.burst ↔
      max t state.lastRefillAt < fullAt config state := by
    intro t
    rw [lt_iff_le_and_ne, and_iff_right (refill_le_burst t), ne_eq, full_iff hrate, not_le]
  simp only [full_iff hrate, hless]
  constructor
  · intro h
    refine le_antisymm (not_lt.mp fun hlate => ?_) ((h reset).1 le_rfl)
    have hreset : fullAt config state < reset := (lt_max_iff.mp hlate).resolve_right (not_lt.mpr hlast)
    have hearly := (h (fullAt config state)).2 hlast hreset
    rw [max_eq_left hlast] at hearly
    exact lt_irrefl _ hearly
  · refine fun h t => ⟨fun hle => ?_, fun hle hlt => ?_⟩
    · rw [← h]
      exact max_le_max_right _ hle
    · rw [← h, max_eq_left hle]
      exact lt_max_of_lt_left hlt

omit [IsStrictOrderedRing K] in
theorem checkAndConsume_untaken (h : cost = 0 ∨ (refill state config now).tokens < cost) :
    (checkAndConsume state config cost now).2 = refill state config now := by
  by_cases hallowed : (cost : K) ≤ (refill state config now).tokens
  · obtain rfl := h.resolve_right (not_lt.mpr hallowed)
    rw [checkAndConsume_state_allowed hallowed, Int.cast_zero, sub_zero]
  · exact checkAndConsume_state_denied hallowed

omit [IsStrictOrderedRing K] in
theorem checkAndConsume_resetAt (hrate : 0 < config.refillRate) :
    (checkAndConsume state config cost now).1.resetAt =
      now + ((config.burst : K) - (refill state config now).tokens) / config.refillRate := by
  unfold checkAndConsume resetAt
  simp only [Int.cast_zero, if_pos hrate]
  split <;> rfl

/-- `reset_at` is computed before the cost is taken, and from the clock as it reads. So it is
    right exactly when nothing is taken, and the clock does not lag unless the bucket is full. -/
theorem reset_honest_iff (hrate : 0 < config.refillRate) (hcost : 0 ≤ cost) :
    ResetHonest config state cost now ↔
      (cost = 0 ∨ (refill state config now).tokens < cost) ∧
        (state.lastRefillAt ≤ now ∨ (refill state config now).tokens = config.burst) := by
  have hfull : (refill state config now).tokens ≤ config.burst := refill_le_burst now
  have hgap : 0 ≤ ((config.burst : K) - (refill state config now).tokens) / config.refillRate :=
    div_nonneg (sub_nonneg.mpr hfull) hrate.le
  have hlast : (refill state config now).lastRefillAt = max now state.lastRefillAt := rfl
  unfold ResetHonest
  dsimp only
  rw [checkAndConsume_resetAt hrate]
  by_cases huntaken : cost = 0 ∨ (refill state config now).tokens < cost
  · rw [checkAndConsume_untaken huntaken, full_from_iff hrate hfull, fullAt, hlast,
      and_iff_right huntaken]
    by_cases hclock : state.lastRefillAt ≤ now
    · refine iff_of_true ?_ (.inl hclock)
      rw [max_eq_left hclock]
      exact max_eq_left (le_add_of_nonneg_right hgap)
    · have hlag := not_le.mp hclock
      rw [max_eq_right hlag.le, or_iff_right hclock]
      constructor
      · intro h
        have hsame : state.lastRefillAt = state.lastRefillAt +
            ((config.burst : K) - (refill state config now).tokens) / config.refillRate := by
          rcases max_choice (now + ((config.burst : K) - (refill state config now).tokens) /
            config.refillRate) state.lastRefillAt with heq | heq
          · rw [heq] at h
            exact absurd (add_right_cancel h) hlag.ne
          · rw [← h, heq]
        have hzero := left_eq_add.mp hsame
        rw [div_eq_zero_iff, or_iff_left hrate.ne', sub_eq_zero] at hzero
        exact hzero.symm
      · intro h
        rw [h, sub_self, zero_div, add_zero, add_zero, max_eq_right hlag.le]
  · -- The reset is too early by the time that refills the cost.
    rw [not_or, not_lt] at huntaken
    obtain ⟨hne, hallowed⟩ := huntaken
    refine iff_of_false (fun h => ?_) fun h => ?_
    · have hcostPos : (0 : K) < cost := Int.cast_pos.mpr (lt_of_le_of_ne hcost (Ne.symm hne))
      have hmore : 0 < (cost : K) / config.refillRate := div_pos hcostPos hrate
      rw [checkAndConsume_state_allowed hallowed, full_from_iff hrate
        ((sub_le_self _ hcostPos.le).trans hfull), fullAt] at h
      have hsplit : ((config.burst : K) - ((refill state config now).tokens - cost)) / config.refillRate =
          ((config.burst : K) - (refill state config now).tokens) / config.refillRate +
            cost / config.refillRate := by ring
      dsimp only at h
      rw [hsplit, hlast] at h
      have hnow := le_max_left now state.lastRefillAt
      refine absurd h (ne_of_lt (max_lt ?_ ?_))
      · linarith
      · linarith
    · rcases h.1 with hzero | hless
      · exact hne hzero
      · exact absurd hless (not_lt.mpr hallowed)

/-- A denied check. -/
theorem reset_honest_iff_denied :
    ResetHonest ⟨5, 1⟩ (⟨0, 0⟩ : BucketState ℚ) 3 1 ↔
      ((3 : Int) = 0 ∨ (refill (⟨0, 0⟩ : BucketState ℚ) ⟨5, 1⟩ 1).tokens < (3 : Int)) ∧
        ((0 : ℚ) ≤ 1 ∨ (refill (⟨0, 0⟩ : BucketState ℚ) ⟨5, 1⟩ 1).tokens = (5 : Int)) :=
  reset_honest_iff (by norm_num) (by decide)

/-- The first check of a full bucket says that it is full, and takes a token from it. -/
theorem reset_before_full :
    ¬ ∀ (config : BucketConfig ℚ) (t₀ : ℚ) (checks : List (Check ℚ)) (cost : Int) (now : ℚ),
      0 < config.refillRate → 0 ≤ cost →
      ResetHonest config ((bucket config).after (newBucket config t₀) checks) cost now := by
  intro h
  have hfull := (h ⟨5, 1⟩ 0 [] 1 0 (by norm_num) (by decide) 0).1 (by decide +kernel)
  revert hfull
  decide +kernel

end

end RateLimiter
