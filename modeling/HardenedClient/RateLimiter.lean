import HardenedClient.Config
import HardenedClient.Errors
import Mathlib.Logic.Function.Basic
import Mathlib.Algebra.Order.Field.Rat
import Mathlib.Tactic.Linarith

/-!
# Per-host token buckets

A bucket is refilled from the clock and drawn from under its lock; a caller
that finds too few tokens sleeps outside the lock for the time the deficit
takes and tries again. One round of that loop is one step here. Buckets are
kept by identity, because a caller asleep on a bucket still holds it after
`set_override` has dropped it from the registry.
-/

namespace HardenedClient

/-- `TokenBucket`. -/
structure TokenBucket where
  rate : ℚ
  capacity : ℚ
  tokens : ℚ
  last : ℚ
  deriving DecidableEq

namespace TokenBucket

/-- `TokenBucket.__init__`; `none` is the ValueError on a rate or a burst that
is not positive. -/
def create? (config : RateLimitConfig) (now : ℚ) : Option TokenBucket :=
  if config.ratePerSecond ≤ 0 then none
  else if config.burst ≤ 0 then none
  else some {
    rate := config.ratePerSecond
    capacity := config.burst
    tokens := config.burst
    last := now }

/-- `_refill`. -/
def refill (now : ℚ) (bucket : TokenBucket) : TokenBucket :=
  let elapsed := now - bucket.last
  if 0 < elapsed then
    { bucket with
      tokens := min bucket.capacity (bucket.tokens + elapsed * bucket.rate)
      last := now }
  else bucket

/-- What one round of the `acquire` loop finds. -/
inductive Round
  | granted
  | wait (seconds : ℚ)
  deriving DecidableEq

/-- One lock-protected round of `acquire(count)`. -/
def tryAcquire (count now : ℚ) (bucket : TokenBucket) : TokenBucket × Round :=
  let bucket := bucket.refill now
  if count ≤ bucket.tokens then
    ({ bucket with tokens := bucket.tokens - count }, .granted)
  else (bucket, .wait ((count - bucket.tokens) / bucket.rate))

@[simp] theorem refill_rate (now : ℚ) (bucket : TokenBucket) :
    (bucket.refill now).rate = bucket.rate := by
  simp only [refill]
  split_ifs <;> rfl

@[simp] theorem refill_capacity (now : ℚ) (bucket : TokenBucket) :
    (bucket.refill now).capacity = bucket.capacity := by
  simp only [refill]
  split_ifs <;> rfl

/-- A clock that has not run back since the last refill. -/
theorem refill_of_le
    {now : ℚ}
    {bucket : TokenBucket}
    (later : bucket.last ≤ now)
    (capped : bucket.tokens ≤ bucket.capacity) :
    bucket.refill now =
      { bucket with
        tokens := min bucket.capacity (bucket.tokens + (now - bucket.last) * bucket.rate)
        last := now } := by
  by_cases moved : 0 < now - bucket.last
  · simp [refill, moved]
  · obtain rfl : now = bucket.last := by linarith
    simp [refill, capped]

/-- A round ends with a grant when the refilled bucket holds the count. -/
theorem tryAcquire_of_le
    {count now : ℚ}
    {bucket : TokenBucket}
    (enough : count ≤ (bucket.refill now).tokens) :
    bucket.tryAcquire count now =
      ({ bucket.refill now with tokens := (bucket.refill now).tokens - count },
        .granted) := by
  simp [tryAcquire, enough]

/-- A round ends with a wait when the refilled bucket holds too little. -/
theorem tryAcquire_of_lt
    {count now : ℚ}
    {bucket : TokenBucket}
    (short : (bucket.refill now).tokens < count) :
    bucket.tryAcquire count now =
      (bucket.refill now,
        .wait ((count - (bucket.refill now).tokens) / bucket.rate)) := by
  simp [tryAcquire, not_le_of_gt short]

/-- A new bucket has a token. -/
theorem one_le_of_create?
    {config : RateLimitConfig}
    {now : ℚ}
    {bucket : TokenBucket}
    (built : create? config now = some bucket) :
    1 ≤ (bucket.refill now).tokens := by
  simp only [create?] at built
  split_ifs at built with slow small
  obtain rfl := Option.some.inj built
  have : (1 : ℤ) ≤ config.burst := by omega
  simpa [refill] using (by exact_mod_cast this : (1 : ℚ) ≤ config.burst)

end TokenBucket

/-- `HostRateLimiter`, with its buckets by identity. -/
structure HostRateLimiter where
  overrides : PyStr → Option RateLimitConfig := fun _ => none
  buckets : PyStr → Option ℕ := fun _ => none
  cells : ℕ → Option TokenBucket := fun _ => none
  created : ℕ := 0

namespace HostRateLimiter

/-- `set_override`. -/
def setOverride
    (limiter : HostRateLimiter)
    (host : PyStr)
    (config : RateLimitConfig) : HostRateLimiter :=
  { limiter with
    overrides := Function.update limiter.overrides host (some config)
    buckets := Function.update limiter.buckets host none }

/-- The configuration a new bucket of a host is built from. -/
def configFor
    (default : RateLimitConfig)
    (limiter : HostRateLimiter)
    (host : PyStr) : RateLimitConfig :=
  (limiter.overrides host).getD default

/-- The bucket of a host, built on first use. `none` is the ValueError of the
bucket's constructor. -/
def bucketFor?
    (default : RateLimitConfig)
    (now : ℚ)
    (limiter : HostRateLimiter)
    (host : PyStr) : Option (HostRateLimiter × ℕ) :=
  match limiter.buckets host with
  | some bucket => some (limiter, bucket)
  | none =>
      (TokenBucket.create? (limiter.configFor default host) now).map fun bucket =>
        ({ limiter with
            buckets := Function.update limiter.buckets host (some limiter.created)
            cells := Function.update limiter.cells limiter.created (some bucket)
            created := limiter.created + 1 },
          limiter.created)

/-- One round of `bucket.acquire()` on a bucket that a caller holds. -/
def round
    (now : ℚ)
    (limiter : HostRateLimiter)
    (bucket : ℕ) : HostRateLimiter × TokenBucket.Round :=
  match limiter.cells bucket with
  | some cell =>
      let (after, result) := cell.tryAcquire 1 now
      ({ limiter with cells := Function.update limiter.cells bucket (some after) }, result)
  | none => (limiter, .granted)

/-- Building a host's bucket raises exactly when the host has none yet and its
rate or burst is not positive. -/
theorem bucketFor?_eq_none_iff
    (default : RateLimitConfig)
    (now : ℚ)
    (limiter : HostRateLimiter)
    (host : PyStr) :
    limiter.bucketFor? default now host = none ↔
      limiter.buckets host = none ∧
        ((limiter.configFor default host).ratePerSecond ≤ 0 ∨
          (limiter.configFor default host).burst ≤ 0) := by
  unfold bucketFor? TokenBucket.create?
  cases limiter.buckets host with
  | some bucket => simp
  | none =>
      simp only [Option.map_eq_none_iff, true_and]
      split_ifs with slow small <;> simp_all

end HostRateLimiter

end HardenedClient
