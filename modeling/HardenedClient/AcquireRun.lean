import HardenedClient.Foundation.Meter
import HardenedClient.Foundation.Transition
import HardenedClient.RateLimiter

/-!
# Coroutines drawing from one bucket

Any number of coroutines run `acquire` on one token bucket. The lock is never
held across an await, so one round of the loop is one step; between two rounds
a coroutine sleeps, and it may wake before or after the time it asked for.
-/

namespace HardenedClient

open Foundation

/-- Where a coroutine inside `acquire` is. -/
inductive AcquirePoint
  | contending
  | sleeping (wakeAt : ℚ)
  | returned (delay : ℚ)
  | raised
  deriving DecidableEq

/-- A coroutine that called `acquire(count)`, with its `delay_total`. -/
structure Acquirer where
  count : ℚ
  delayTotal : ℚ := 0
  point : AcquirePoint
  deriving DecidableEq

/-- A bucket, its clock and the coroutines that use it, beside the grants made
so far. -/
structure BucketState where
  now : ℚ
  bucket : TokenBucket
  acquirers : ℕ → Option Acquirer := fun _ => none
  spawned : ℕ := 0
  grants : List (Draw ℚ) := []

/-- What can happen to a bucket. -/
inductive BucketLabel
  | tick (elapsed : ℚ)
  | call (count : ℚ)
  | round (id : ℕ)
  | wake (id : ℕ)

namespace BucketState

/-- A coroutine as it is on entering `acquire(count)`. -/
def enter (bucket : TokenBucket) (count : ℚ) : Acquirer where
  count := count
  point := if bucket.capacity < count then .raised else .contending

/-- Store a coroutine. -/
def setAcquirer (state : BucketState) (id : ℕ) (acquirer : Acquirer) : BucketState :=
  { state with acquirers := Function.update state.acquirers id (some acquirer) }

/-- One round of a coroutine's loop, under the lock. -/
def runRound (state : BucketState) (id : ℕ) (acquirer : Acquirer) : BucketState :=
  let (bucket, result) := state.bucket.tryAcquire acquirer.count state.now
  match result with
  | .granted =>
      { state.setAcquirer id { acquirer with point := .returned acquirer.delayTotal } with
        bucket := bucket
        grants := ⟨state.now, acquirer.count⟩ :: state.grants }
  | .wait seconds =>
      { state.setAcquirer id
          { acquirer with
            delayTotal := acquirer.delayTotal + seconds
            point := .sleeping (state.now + seconds) } with
        bucket := bucket }

/-- One move of the system. -/
def step (label : BucketLabel) (state : BucketState) : Option BucketState :=
  match label with
  | .tick elapsed =>
      if 0 ≤ elapsed then some { state with now := state.now + elapsed } else none
  | .call count =>
      some { state.setAcquirer state.spawned (enter state.bucket count) with
        spawned := state.spawned + 1 }
  | .round id =>
      (state.acquirers id).bind fun acquirer =>
        if acquirer.point = .contending then some (state.runRound id acquirer) else none
  | .wake id =>
      (state.acquirers id).bind fun acquirer =>
        match acquirer.point with
        | .sleeping _ => some (state.setAcquirer id { acquirer with point := .contending })
        | _ => none

/-- A bucket as it was built, with nobody using it. -/
def initial (now : ℚ) (bucket : TokenBucket) : BucketState where
  now := now
  bucket := bucket

/-- Callers ask for a positive number of tokens that fits the burst. -/
def CountsFit (burst : ℚ) (_ : BucketState) : BucketLabel → Prop
  | .call count => 0 < count ∧ count ≤ burst
  | _ => True

instance (burst : ℚ) (state : BucketState) (label : BucketLabel) :
    Decidable (CountsFit burst state label) :=
  match label with
  | .call count => inferInstanceAs (Decidable (0 < count ∧ count ≤ burst))
  | .tick _ => .isTrue trivial
  | .round _ => .isTrue trivial
  | .wake _ => .isTrue trivial

/-- What a round does, in terms of the bucket it finds. -/
theorem runRound_cases
    (state : BucketState)
    (id : ℕ)
    (acquirer : Acquirer) :
    (acquirer.count ≤ (state.bucket.refill state.now).tokens ∧
      state.runRound id acquirer =
        { state.setAcquirer id { acquirer with point := .returned acquirer.delayTotal } with
          bucket := { state.bucket.refill state.now with
            tokens := (state.bucket.refill state.now).tokens - acquirer.count }
          grants := ⟨state.now, acquirer.count⟩ :: state.grants }) ∨
    ((state.bucket.refill state.now).tokens < acquirer.count ∧
      ∃ seconds, seconds =
          (acquirer.count - (state.bucket.refill state.now).tokens) / state.bucket.rate ∧
        state.runRound id acquirer =
          { state.setAcquirer id
              { acquirer with
                delayTotal := acquirer.delayTotal + seconds
                point := .sleeping (state.now + seconds) } with
            bucket := state.bucket.refill state.now }) := by
  rcases le_or_gt acquirer.count (state.bucket.refill state.now).tokens with enough | short
  · left
    exact ⟨enough, by rw [runRound, TokenBucket.tryAcquire_of_le enough]⟩
  · right
    exact ⟨short, _, rfl, by rw [runRound, TokenBucket.tryAcquire_of_lt short]⟩

/-! ## The bound -/

/-- The bucket is metered: its level and its grants fit the rate and the burst,
and everyone asks for a count it could be given. -/
structure WithinRate (rate burst : ℚ) (state : BucketState) : Prop where
  rate_eq : state.bucket.rate = rate
  capacity_eq : state.bucket.capacity = burst
  clock : state.bucket.last ≤ state.now
  metered : Metered rate burst state.bucket.tokens state.bucket.last state.grants
  counts : ∀ id acquirer, state.acquirers id = some acquirer → 0 < acquirer.count

namespace WithinRate

variable {rate burst : ℚ} {state : BucketState}

/-- The refilled bucket of a round. -/
theorem refilled
    (holds : WithinRate rate burst state)
    (ratePositive : 0 < rate) :
    (state.bucket.refill state.now).last = state.now ∧
      Metered rate burst (state.bucket.refill state.now).tokens state.now state.grants := by
  have capped : state.bucket.tokens ≤ state.bucket.capacity := by
    rw [holds.capacity_eq]
    exact holds.metered.le_capacity
  rw [TokenBucket.refill_of_le holds.clock capped]
  refine ⟨rfl, ?_⟩
  simpa only [holds.rate_eq, holds.capacity_eq] using
    holds.metered.refill ratePositive holds.clock

/-- Storing a coroutine with a positive count keeps the counts positive. -/
theorem counts_update
    (holds : WithinRate rate burst state)
    (id : ℕ)
    {acquirer : Acquirer}
    (positive : 0 < acquirer.count) :
    ∀ other stored, Function.update state.acquirers id (some acquirer) other = some stored →
      0 < stored.count := by
  intro other stored found
  by_cases same : other = id
  · subst same
    rw [Function.update_self, Option.some.injEq] at found
    rwa [← found]
  · rw [Function.update_of_ne same] at found
    exact holds.counts other stored found

/-- A round keeps the bucket metered, whether it grants or waits. -/
theorem runRound
    (holds : WithinRate rate burst state)
    (ratePositive : 0 < rate)
    {id : ℕ}
    {acquirer : Acquirer}
    (found : state.acquirers id = some acquirer) :
    WithinRate rate burst (state.runRound id acquirer) := by
  have positive : 0 < acquirer.count := holds.counts id acquirer found
  obtain ⟨atNow, metered⟩ := holds.refilled ratePositive
  have rateKept : (state.bucket.refill state.now).rate = rate := by
    rw [TokenBucket.refill_rate, holds.rate_eq]
  have capacityKept : (state.bucket.refill state.now).capacity = burst := by
    rw [TokenBucket.refill_capacity, holds.capacity_eq]
  rcases state.runRound_cases id acquirer with ⟨enough, granted⟩ | ⟨_, seconds, _, waits⟩
  · rw [granted]
    refine ⟨rateKept, capacityKept, atNow.le, ?_, holds.counts_update id positive⟩
    simpa only [atNow] using metered.draw ratePositive positive.le enough
  · rw [waits]
    refine ⟨rateKept, capacityKept, atNow.le, ?_, holds.counts_update id positive⟩
    change Metered rate burst _ (state.bucket.refill state.now).last state.grants
    rw [atNow]
    exact metered

/-- One move keeps the bucket metered. -/
theorem step
    (holds : WithinRate rate burst state)
    (ratePositive : 0 < rate)
    {label : BucketLabel}
    {after : BucketState}
    (fits : CountsFit burst state label)
    (moved : state.step label = some after) :
    WithinRate rate burst after := by
  cases label with
  | tick elapsed =>
      simp only [BucketState.step, Option.ite_none_right_eq_some, Option.some.injEq] at moved
      obtain ⟨forward, rfl⟩ := moved
      have clock := holds.clock
      exact { holds with clock := by simp only; linarith }
  | call count =>
      simp only [BucketState.step, Option.some.injEq] at moved
      subst moved
      exact { holds with counts := holds.counts_update state.spawned fits.1 }
  | round id =>
      simp only [BucketState.step, Option.bind_eq_some_iff,
        Option.ite_none_right_eq_some, Option.some.injEq] at moved
      obtain ⟨acquirer, found, _, rfl⟩ := moved
      exact holds.runRound ratePositive found
  | wake id =>
      simp only [BucketState.step, Option.bind_eq_some_iff] at moved
      obtain ⟨acquirer, found, woken⟩ := moved
      split at woken <;> simp only [Option.some.injEq, reduceCtorEq] at woken
      subst woken
      exact { holds with counts := holds.counts_update id (holds.counts id acquirer found) }

end WithinRate

/-- The rate limit is never exceeded: in every state that coroutines drawing
from a fresh bucket can reach, the stored tokens lie between zero and the
burst, and no window of time saw more granted than the burst and the refill of
that window. -/
theorem grants_within_rate
    (config : RateLimitConfig)
    (start : ℚ)
    (ratePositive : 0 < config.ratePerSecond)
    (burstPositive : 1 ≤ config.burst) :
    ∃ bucket, TokenBucket.create? config start = some bucket ∧
      ∀ state, Run step (CountsFit config.burst) (initial start bucket) state →
        0 ≤ state.bucket.tokens ∧ state.bucket.tokens ≤ config.burst ∧
        ∀ first final, first ≤ final →
          drawn (within first final) state.grants ≤
            config.burst + config.ratePerSecond * (final - first) := by
  have burst : (1 : ℚ) ≤ config.burst := by exact_mod_cast burstPositive
  refine ⟨⟨config.ratePerSecond, config.burst, config.burst, start⟩, ?_, ?_⟩
  · have burstNotSmall : ¬ config.burst ≤ 0 := by omega
    simp [TokenBucket.create?, not_le_of_gt ratePositive, burstNotSmall]
  · intro state run
    have holds : WithinRate config.ratePerSecond config.burst state := by
      apply run.invariant (WithinRate config.ratePerSecond config.burst)
      · exact ⟨rfl, rfl, le_refl start,
          Metered.initial ratePositive (by linarith) start, fun _ _ absent => by cases absent⟩
      · intro before label after holds fits moved
        exact holds.step ratePositive fits moved
    exact ⟨holds.metered.nonneg, holds.metered.le_capacity, holds.metered.drawn_within⟩

/-- Two coroutines share a bucket of two tokens: one is granted both, the other
one sleeps until the first of its tokens is there. -/
def sharedBucketLabels : List BucketLabel :=
  [.call 2, .call 1, .round 0, .round 1, .wake 1, .round 1, .tick 1, .wake 1, .round 1]

theorem grants_within_rate_shared :
    ∃ bucket, TokenBucket.create? ⟨1, 2⟩ 0 = some bucket ∧
      ∃ state, Run step (CountsFit ((2 : ℤ) : ℚ)) (initial 0 bucket) state ∧
        state.grants.length = 2 ∧
        drawn (within 0 1) state.grants ≤ ((2 : ℤ) : ℚ) + 1 * (1 - 0) := by
  obtain ⟨bucket, created, bounded⟩ := grants_within_rate ⟨1, 2⟩ 0 (by decide) (by decide)
  obtain rfl : ⟨1, 2, 2, 0⟩ = bucket := Option.some.inj created
  have passes : (executeChecked step (fun state label => decide (CountsFit ((2 : ℤ) : ℚ) state label))
      sharedBucketLabels (initial 0 ⟨1, 2, 2, 0⟩)).any
        (fun state => decide (state.grants.length = 2)) = true := by
    decide +kernel
  obtain ⟨state, run, tested⟩ :=
    exists_run_of_executeChecked (fun _ _ => of_decide_eq_true) passes
  exact ⟨_, created, state, run, of_decide_eq_true tested,
    (bounded state run).2.2 0 1 (by decide)⟩

end BucketState

end HardenedClient
