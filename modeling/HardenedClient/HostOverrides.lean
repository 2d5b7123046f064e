import HardenedClient.Client.Replay
import HardenedClient.Foundation.History
import HardenedClient.Foundation.Meter

/-!
# Per-host overrides

Callers acquire from a registry while overrides are installed. Up to its first sleep
`HostRateLimiter.acquire` is not suspended, so looking the bucket up and playing the first
round is one step; a caller that has to wait sleeps on the bucket it was given, whatever
the registry holds later. An override meters every later grant to its host when it is
spelled the way `host_of` spells hosts and nobody sleeps on the bucket it replaces.
-/

namespace HardenedClient

open Foundation

/-- A caller asleep inside `acquire`, with the bucket it was given. -/
structure Waiter where
  url : PyStr
  bucket : ℕ
  delayTotal : ℚ
  wakeAt : ℚ
  deriving DecidableEq

/-- What callers and operators see of a registry. -/
inductive LimiterEvent
  | granted (url : PyStr) (time delay : ℚ)
  | overridden (host : PyStr) (config : RateLimitConfig)
  deriving DecidableEq

/-- A registry, its clock and the callers asleep in it, beside what happened so far,
newest first. -/
structure LimiterState where
  now : ℚ
  limiter : HostRateLimiter := {}
  waiters : ℕ → Option Waiter := fun _ => none
  spawned : ℕ := 0
  history : List LimiterEvent := []

/-- What can happen to a registry. -/
inductive LimiterLabel
  | tick (elapsed : ℚ)
  | setOverride (host : PyStr) (config : RateLimitConfig)
  | acquire (url : PyStr)
  | wake (id : ℕ)

namespace LimiterEvent

/-- A grant in a window of time for a URL whose authority is a host up to letter case. -/
def grantsTo
    (env : Env)
    (host : PyStr)
    (first final : ℚ) : LimiterEvent → Bool
  | .granted url time _ =>
      decide ((env.urlparse url).map env.lower = some (env.lower host)) &&
        within first final time
  | .overridden _ _ => false

end LimiterEvent

namespace LimiterState

/-- A registry as it was built, with nobody using it. -/
def initial (now : ℚ) : LimiterState where
  now := now

/-- One round of a caller's loop. -/
def runRound (state : LimiterState) (id : ℕ) (waiter : Waiter) : LimiterState :=
  let (limiter, result) := state.limiter.round state.now waiter.bucket
  match result with
  | .granted =>
      { state with
        limiter := limiter
        waiters := Function.update state.waiters id none
        history := .granted waiter.url state.now waiter.delayTotal :: state.history }
  | .wait seconds =>
      { state with
        limiter := limiter
        waiters := Function.update state.waiters id (some { waiter with
          delayTotal := waiter.delayTotal + seconds
          wakeAt := state.now + seconds }) }

/-- `HostRateLimiter.acquire` up to its first sleep. -/
def enter (env : Env) (state : LimiterState) (url : PyStr) : LimiterState :=
  match (env.hostOf? url).bind
      (state.limiter.bucketFor? env.config.rateLimit state.now) with
  | some (limiter, bucket) =>
      { state with limiter := limiter, spawned := state.spawned + 1 }.runRound state.spawned
        { url := url, bucket := bucket, delayTotal := 0, wakeAt := state.now }
  | none => state

/-- One move of the system. -/
def step (env : Env) (label : LimiterLabel) (state : LimiterState) : Option LimiterState :=
  match label with
  | .tick elapsed =>
      if 0 ≤ elapsed then some { state with now := state.now + elapsed } else none
  | .setOverride host config =>
      some { state with
        limiter := state.limiter.setOverride host config
        history := .overridden host config :: state.history }
  | .acquire url => some (state.enter env url)
  | .wake id => (state.waiters id).map (state.runRound id)

end LimiterState

/-- An override that lookups can find, of a budget that is not negative. -/
structure Readable (env : Env) (host : PyStr) (config : RateLimitConfig) : Prop where
  named : host ≠ []
  lower : env.lower host = host
  rate : 0 ≤ config.ratePerSecond
  burst : 0 ≤ config.burst

instance (env : Env) (host : PyStr) (config : RateLimitConfig) :
    Decidable (Readable env host config) :=
  decidable_of_iff
    (host ≠ [] ∧ env.lower host = host ∧ 0 ≤ config.ratePerSecond ∧ 0 ≤ config.burst)
    ⟨fun ⟨named, lower, rate, burst⟩ => ⟨named, lower, rate, burst⟩,
      fun ⟨named, lower, rate, burst⟩ => ⟨named, lower, rate, burst⟩⟩

/-- An override is readable and replaces no bucket that a caller sleeps on. -/
def Honors (env : Env) (state : LimiterState) : LimiterLabel → Prop
  | .setOverride host config =>
      Readable env host config ∧
        ∀ id waiter, state.waiters id = some waiter → env.hostOf? waiter.url ≠ some host
  | _ => True

/-- The label installs an override. -/
def LimiterLabel.overrides : LimiterLabel → Bool
  | .setOverride _ _ => true
  | _ => false

theorem honors_of_not_overrides
    (env : Env)
    (state : LimiterState)
    {label : LimiterLabel}
    (other : (!label.overrides) = true) :
    Honors env state label := by
  cases label with
  | setOverride host config => cases other
  | tick elapsed => trivial
  | acquire url => trivial
  | wake id => trivial

/-! ## A bucket that keeps to a configuration -/

/-- A bucket built from a configuration, metered by the draws from it. -/
structure TokenBucket.KeepsTo
    (config : RateLimitConfig)
    (bucket : TokenBucket)
    (draws : List (Draw ℚ)) : Prop where
  positive : 0 < config.ratePerSecond
  rate : bucket.rate = config.ratePerSecond
  capacity : bucket.capacity = config.burst
  metered : Metered config.ratePerSecond config.burst bucket.tokens bucket.last draws

namespace TokenBucket

variable {config : RateLimitConfig} {bucket : TokenBucket} {draws : List (Draw ℚ)}

theorem last_of_create?
    {now : ℚ}
    (built : create? config now = some bucket) :
    bucket.last = now := by
  simp only [create?] at built
  split_ifs at built
  rw [← Option.some.inj built]

theorem KeepsTo.of_create?
    {now : ℚ}
    (built : create? config now = some bucket) :
    bucket.KeepsTo config [] := by
  simp only [create?] at built
  split_ifs at built with slow small
  rw [← Option.some.inj built]
  have burst : (0 : ℚ) ≤ config.burst := by
    exact_mod_cast (not_le.mp small).le
  exact ⟨not_le.mp slow, rfl, rfl, Metered.initial (not_le.mp slow) burst now⟩

/-- The clock of a bucket follows the refills. -/
theorem refill_last_le
    {now : ℚ}
    (clocked : bucket.last ≤ now) :
    (bucket.refill now).last ≤ now := by
  simp only [refill]
  split_ifs
  · exact le_refl now
  · exact clocked

theorem KeepsTo.refill
    (keeps : bucket.KeepsTo config draws)
    {now : ℚ}
    (clocked : bucket.last ≤ now) :
    (bucket.refill now).KeepsTo config draws ∧ (bucket.refill now).last = now := by
  have capped : bucket.tokens ≤ bucket.capacity := by
    rw [keeps.capacity]
    exact keeps.metered.le_capacity
  rw [refill_of_le clocked capped]
  refine ⟨⟨keeps.positive, keeps.rate, keeps.capacity, ?_⟩, rfl⟩
  simpa only [keeps.rate, keeps.capacity] using keeps.metered.refill keeps.positive clocked

/-- A round that grants is one draw, and a round that waits is none. -/
theorem KeepsTo.tryAcquire
    (keeps : bucket.KeepsTo config draws)
    {now : ℚ}
    (clocked : bucket.last ≤ now) :
    (bucket.tryAcquire 1 now).1.KeepsTo config
      (if (bucket.tryAcquire 1 now).2 = .granted then ⟨now, 1⟩ :: draws else draws) := by
  obtain ⟨refilled, atNow⟩ := keeps.refill clocked
  rcases le_or_gt 1 (bucket.refill now).tokens with enough | short
  · rw [tryAcquire_of_le enough, if_pos rfl]
    refine ⟨refilled.positive, refilled.rate, refilled.capacity, ?_⟩
    have drawn := refilled.metered.draw refilled.positive zero_le_one enough
    rwa [atNow] at drawn ⊢
  · rw [tryAcquire_of_lt short, if_neg (by simp)]
    exact refilled

theorem tryAcquire_last_le
    {now : ℚ}
    (clocked : bucket.last ≤ now) :
    (bucket.tryAcquire 1 now).1.last ≤ now := by
  simp only [tryAcquire]
  split_ifs <;> exact refill_last_le clocked

end TokenBucket

/-! ## The registry -/

/-- What a table with a stored entry holds. -/
theorem update_eq_some_iff
    [DecidableEq α]
    {table : α → Option β}
    {key other : α}
    {value stored : β} :
    Function.update table key (some value) other = some stored ↔
      (other = key ∧ value = stored) ∨ (other ≠ key ∧ table other = some stored) := by
  by_cases same : other = key
  · simp [same]
  · simp [same, Function.update_of_ne]

namespace HostRateLimiter

/-- Buckets are numbered as they are built, no two hosts share one, and none was refilled
after now. -/
structure Registered (now : ℚ) (limiter : HostRateLimiter) : Prop where
  fresh : ∀ bucket cell, limiter.cells bucket = some cell → bucket < limiter.created
  built : ∀ host bucket, limiter.buckets host = some bucket →
    ∃ cell, limiter.cells bucket = some cell
  distinct : ∀ host other bucket, limiter.buckets host = some bucket →
    limiter.buckets other = some bucket → host = other
  clocked : ∀ bucket cell, limiter.cells bucket = some cell → cell.last ≤ now

/-- The bucket of a host is the one it has, or a new one built from the override that is
read or from the default. -/
theorem bucketFor?_cases
    {default : RateLimitConfig}
    {now : ℚ}
    {limiter after : HostRateLimiter}
    {host : PyStr}
    {bucket : ℕ}
    (found : limiter.bucketFor? default now host = some (after, bucket)) :
    (limiter.buckets host = some bucket ∧ after = limiter) ∨
    (limiter.buckets host = none ∧ bucket = limiter.created ∧
      ∃ cell, TokenBucket.create? (limiter.configFor default host) now = some cell ∧
        after = { limiter with
          buckets := Function.update limiter.buckets host (some limiter.created)
          cells := Function.update limiter.cells limiter.created (some cell)
          created := limiter.created + 1 }) := by
  unfold bucketFor? at found
  cases current : limiter.buckets host with
  | some known =>
      left
      simp only [current, Option.some.injEq, Prod.mk.injEq] at found
      exact ⟨congrArg some found.2, found.1.symm⟩
  | none =>
      right
      simp only [current, Option.map_eq_some_iff, Prod.mk.injEq] at found
      obtain ⟨cell, created, rfl, rfl⟩ := found
      exact ⟨rfl, rfl, cell, created, rfl⟩

/-- One round on a bucket that was built. -/
theorem round_of_cell
    {limiter : HostRateLimiter}
    {bucket : ℕ}
    {cell : TokenBucket}
    (now : ℚ)
    (found : limiter.cells bucket = some cell) :
    limiter.round now bucket =
      ({ limiter with
          cells := Function.update limiter.cells bucket (some (cell.tryAcquire 1 now).1) },
        (cell.tryAcquire 1 now).2) := by
  rw [round, found]

namespace Registered

variable {now : ℚ} {limiter : HostRateLimiter}

theorem later
    (registered : limiter.Registered now)
    {after : ℚ}
    (forward : now ≤ after) :
    limiter.Registered after :=
  { registered with
    clocked := fun bucket cell found => (registered.clocked bucket cell found).trans forward }

theorem setOverride
    (registered : limiter.Registered now)
    (host : PyStr)
    (config : RateLimitConfig) :
    (limiter.setOverride host config).Registered now := by
  have kept : ∀ other bucket, (limiter.setOverride host config).buckets other = some bucket →
      limiter.buckets other = some bucket := by
    intro other bucket found
    by_cases same : other = host
    · simp [HostRateLimiter.setOverride, same] at found
    · simpa [HostRateLimiter.setOverride, Function.update_of_ne same] using found
  constructor
  · exact registered.fresh
  · intro other bucket found
    exact registered.built other bucket (kept other bucket found)
  · intro first second bucket found again
    exact registered.distinct first second bucket (kept first bucket found)
      (kept second bucket again)
  · exact registered.clocked

/-- Building the bucket of a host that has none. -/
theorem build
    (registered : limiter.Registered now)
    {host : PyStr}
    {config : RateLimitConfig}
    {cell : TokenBucket}
    (created : TokenBucket.create? config now = some cell) :
    Registered now { limiter with
      buckets := Function.update limiter.buckets host (some limiter.created)
      cells := Function.update limiter.cells limiter.created (some cell)
      created := limiter.created + 1 } := by
  have old : ∀ other bucket, limiter.buckets other = some bucket →
      bucket < limiter.created := by
    intro other bucket found
    obtain ⟨held, stored⟩ := registered.built other bucket found
    exact registered.fresh bucket held stored
  constructor
  · intro bucket stored found
    apply Nat.lt_succ_of_le
    rcases update_eq_some_iff.mp found with ⟨same, _⟩ | ⟨_, before⟩
    · exact same.le
    · exact (registered.fresh bucket stored before).le
  · intro other bucket found
    rcases update_eq_some_iff.mp found with ⟨_, number⟩ | ⟨_, before⟩
    · exact ⟨cell, update_eq_some_iff.mpr (Or.inl ⟨number.symm, rfl⟩)⟩
    · obtain ⟨held, stored⟩ := registered.built other bucket before
      exact ⟨held, update_eq_some_iff.mpr (Or.inr ⟨(old other bucket before).ne, stored⟩)⟩
  · intro first second bucket found again
    -- a bucket that a host had before has a smaller number than the new one
    rcases update_eq_some_iff.mp found with ⟨firstSame, number⟩ | ⟨_, first'⟩ <;>
      rcases update_eq_some_iff.mp again with ⟨secondSame, number'⟩ | ⟨_, second'⟩
    · rw [firstSame, secondSame]
    · exact absurd (old second bucket second') (by omega)
    · exact absurd (old first bucket first') (by omega)
    · exact registered.distinct first second bucket first' second'
  · intro bucket stored found
    rcases update_eq_some_iff.mp found with ⟨_, new⟩ | ⟨_, before⟩
    · rw [← new, TokenBucket.last_of_create? created]
    · exact registered.clocked bucket stored before

/-- Storing a bucket that was not refilled after now. -/
theorem store
    (registered : limiter.Registered now)
    {bucket : ℕ}
    {cell after : TokenBucket}
    (found : limiter.cells bucket = some cell)
    (clocked : after.last ≤ now) :
    Registered now
      { limiter with cells := Function.update limiter.cells bucket (some after) } := by
  constructor
  · intro other stored present
    rcases update_eq_some_iff.mp present with ⟨same, _⟩ | ⟨_, before⟩
    · rw [same]
      exact registered.fresh bucket cell found
    · exact registered.fresh other stored before
  · intro host other held
    by_cases same : other = bucket
    · exact ⟨after, update_eq_some_iff.mpr (Or.inl ⟨same, rfl⟩)⟩
    · obtain ⟨stored, before⟩ := registered.built host other held
      exact ⟨stored, update_eq_some_iff.mpr (Or.inr ⟨same, before⟩)⟩
  · exact registered.distinct
  · intro other stored present
    rcases update_eq_some_iff.mp present with ⟨_, new⟩ | ⟨_, before⟩
    · rwa [← new]
    · exact registered.clocked other stored before

end Registered

end HostRateLimiter

/-! ## An override in force -/

/-- The draws from the bucket of a host that a history records. -/
def drawsOf (env : Env) (host : PyStr) : List LimiterEvent → List (Draw ℚ)
  | [] => []
  | .granted url time _ :: history =>
      if env.hostOf? url = some host then ⟨time, 1⟩ :: drawsOf env host history
      else drawsOf env host history
  | .overridden _ _ :: history => drawsOf env host history

/-- An override is the one a lookup reads, and the bucket of its host keeps to it. -/
structure InForce
    (limiter : HostRateLimiter)
    (host : PyStr)
    (config : RateLimitConfig)
    (draws : List (Draw ℚ)) : Prop where
  read : limiter.overrides host = some config
  idle : limiter.buckets host = none → draws = []
  metered : ∀ bucket cell, limiter.buckets host = some bucket →
    limiter.cells bucket = some cell → cell.KeepsTo config draws

namespace InForce

variable {now : ℚ} {limiter : HostRateLimiter} {host other : PyStr} {config : RateLimitConfig}
  {draws : List (Draw ℚ)}

/-- An override is in force once it is installed. -/
theorem install
    (limiter : HostRateLimiter)
    (host : PyStr)
    (config : RateLimitConfig) :
    InForce (limiter.setOverride host config) host config [] := by
  constructor
  · exact Function.update_self host (some config) limiter.overrides
  · intro _
    rfl
  · intro bucket cell held
    simp [HostRateLimiter.setOverride] at held

/-- Overriding another host leaves it in force. -/
theorem install_of_ne
    (inForce : InForce limiter host config draws)
    (apart : host ≠ other)
    (replacement : RateLimitConfig) :
    InForce (limiter.setOverride other replacement) host config draws := by
  have bucket : (limiter.setOverride other replacement).buckets host = limiter.buckets host := by
    simp [HostRateLimiter.setOverride, Function.update_of_ne apart]
  constructor
  · simpa [HostRateLimiter.setOverride, Function.update_of_ne apart] using inForce.read
  · rw [bucket]
    exact inForce.idle
  · rw [bucket]
    exact inForce.metered

/-- The bucket that is built for the host is built from the override. -/
theorem build
    (inForce : InForce limiter host config draws)
    (registered : limiter.Registered now)
    {default : RateLimitConfig}
    {cell : TokenBucket}
    (absent : limiter.buckets other = none)
    (created : TokenBucket.create? (limiter.configFor default other) now = some cell) :
    InForce { limiter with
      buckets := Function.update limiter.buckets other (some limiter.created)
      cells := Function.update limiter.cells limiter.created (some cell)
      created := limiter.created + 1 } host config draws := by
  refine ⟨inForce.read, ?_, ?_⟩
  · intro none
    apply inForce.idle
    by_cases same : host = other
    · rwa [same]
    · exact (Function.update_of_ne same _ _).symm.trans none
  · intro bucket stored held found
    rcases update_eq_some_iff.mp held with ⟨same, number⟩ | ⟨_, before⟩
    · rcases update_eq_some_iff.mp found with ⟨_, new⟩ | ⟨different, _⟩
      · rw [← same] at absent created
        rw [HostRateLimiter.configFor, inForce.read, Option.getD_some] at created
        rw [← new, inForce.idle absent]
        exact TokenBucket.KeepsTo.of_create? created
      · exact absurd number.symm different
    · rcases update_eq_some_iff.mp found with ⟨number, _⟩ | ⟨_, stored'⟩
      · obtain ⟨held, stored⟩ := registered.built host bucket before
        exact absurd (registered.fresh bucket held stored) (by omega)
      · exact inForce.metered bucket stored before stored'

/-- A round on the bucket of a host is a draw of that host when it grants. -/
theorem round
    (inForce : InForce limiter host config draws)
    (registered : limiter.Registered now)
    {bucket : ℕ}
    {cell : TokenBucket}
    (held : limiter.buckets other = some bucket)
    (found : limiter.cells bucket = some cell) :
    InForce
      { limiter with
        cells := Function.update limiter.cells bucket (some (cell.tryAcquire 1 now).1) }
      host config
      (if other = host ∧ (cell.tryAcquire 1 now).2 = .granted then ⟨now, 1⟩ :: draws
        else draws) := by
  refine ⟨inForce.read, ?_, ?_⟩
  · intro none
    have apart : other ≠ host := by
      intro same
      rw [same] at held
      cases none.symm.trans held
    rw [if_neg fun both => apart both.1]
    exact inForce.idle none
  · intro own stored ownHeld ownFound
    rcases update_eq_some_iff.mp ownFound with ⟨same, new⟩ | ⟨different, before⟩
    · obtain rfl : other = host := by
        apply registered.distinct other host bucket held
        rwa [← same]
      rw [← new]
      simpa only [true_and] using
        (inForce.metered bucket cell held found).tryAcquire (registered.clocked bucket cell found)
    · have apart : other ≠ host := by
        intro same
        rw [same] at held
        exact different (Option.some.inj (ownHeld.symm.trans held))
      rw [if_neg fun both => apart both.1]
      exact inForce.metered own stored ownHeld before

end InForce

/-! ## Runs -/

/-- What is owed to an override: while no other one of its host follows, it is in force. -/
def Owed
    (env : Env)
    (limiter : HostRateLimiter)
    (host : PyStr)
    (config : RateLimitConfig)
    (later : List LimiterEvent) : Prop :=
  Readable env host config ∧
    ((∀ replacement, .overridden host replacement ∉ later) →
      InForce limiter host config (drawsOf env host later))

/-- Callers sleep on the bucket of their host, and every override gets what it is owed. -/
structure Honored (env : Env) (state : LimiterState) : Prop where
  registered : state.limiter.Registered state.now
  waiting : ∀ id waiter, state.waiters id = some waiter →
    ∃ host, env.hostOf? waiter.url = some host ∧
      state.limiter.buckets host = some waiter.bucket
  owed : ∀ host config,
    Since (· = .overridden host config) (Owed env state.limiter host config) state.history

namespace Honored

variable {env : Env} {state : LimiterState}

theorem initial (env : Env) (now : ℚ) : Honored env (LimiterState.initial now) := by
  refine ⟨⟨?_, ?_, ?_, ?_⟩, ?_, fun host config => since_nil _ _⟩ <;>
    intros <;> simp_all [LimiterState.initial]

/-- Installing an override that is read, on a bucket that nobody sleeps on. -/
theorem setOverride
    (honored : Honored env state)
    {host : PyStr}
    {config : RateLimitConfig}
    (honors : Honors env state (.setOverride host config)) :
    Honored env { state with
      limiter := state.limiter.setOverride host config
      history := .overridden host config :: state.history } := by
  refine ⟨honored.registered.setOverride host config, ?_, ?_⟩
  · intro id waiter found
    obtain ⟨key, parsed, held⟩ := honored.waiting id waiter found
    refine ⟨key, parsed, ?_⟩
    have apart : key ≠ host := by
      intro same
      rw [same] at parsed
      exact honors.2 id waiter found parsed
    simpa [HostRateLimiter.setOverride, Function.update_of_ne apart] using held
  · intro other wanted
    refine (since_cons _ _ _ _).mpr ⟨fun same => ?_, (honored.owed other wanted).mono ?_⟩
    · obtain ⟨rfl, rfl⟩ := LimiterEvent.overridden.inj same
      exact ⟨honors.1, fun _ => InForce.install _ _ _⟩
    · rintro later ⟨readable, inForce⟩
      refine ⟨readable, fun last => ?_⟩
      have apart : other ≠ host := by
        intro same
        rw [same] at last
        exact last config List.mem_cons_self
      exact (inForce fun replacement member =>
        last replacement (List.mem_cons_of_mem _ member)).install_of_ne apart config

/-- Looking the bucket of a host up. -/
theorem lookup
    (honored : Honored env state)
    {host : PyStr}
    {after : HostRateLimiter}
    {bucket : ℕ}
    (spawned : ℕ)
    (found : state.limiter.bucketFor? env.config.rateLimit state.now host =
      some (after, bucket)) :
    Honored env { state with limiter := after, spawned := spawned } ∧
      after.buckets host = some bucket := by
  rcases HostRateLimiter.bucketFor?_cases found with
    ⟨held, rfl⟩ | ⟨absent, rfl, cell, created, rfl⟩
  · exact ⟨⟨honored.registered, honored.waiting, honored.owed⟩, held⟩
  · refine ⟨⟨honored.registered.build created, ?_, ?_⟩, Function.update_self _ _ _⟩
    · intro id waiter asleep
      obtain ⟨key, parsed, held⟩ := honored.waiting id waiter asleep
      have apart : key ≠ host := by
        intro same
        rw [same, absent] at held
        cases held
      exact ⟨key, parsed, update_eq_some_iff.mpr (Or.inr ⟨apart, held⟩)⟩
    · intro other config
      refine (honored.owed other config).mono ?_
      rintro later ⟨readable, inForce⟩
      exact ⟨readable, fun last => (inForce last).build honored.registered absent created⟩

/-- One round of a caller that was given the bucket of its host. -/
theorem runRound
    (honored : Honored env state)
    (id : ℕ)
    {waiter : Waiter}
    {key : PyStr}
    (parsed : env.hostOf? waiter.url = some key)
    (held : state.limiter.buckets key = some waiter.bucket) :
    Honored env (state.runRound id waiter) := by
  obtain ⟨cell, found⟩ := honored.registered.built key waiter.bucket held
  have registered := honored.registered.store found
    (TokenBucket.tryAcquire_last_le (honored.registered.clocked waiter.bucket cell found))
  have awake : ∀ (kept : Option Waiter), (∀ other ∈ kept, other.url = waiter.url ∧
      other.bucket = waiter.bucket) → ∀ other stored,
        Function.update state.waiters id kept other = some stored →
          ∃ host, env.hostOf? stored.url = some host ∧
            state.limiter.buckets host = some stored.bucket := by
    intro kept same other stored present
    by_cases own : other = id
    · rw [own, Function.update_self] at present
      obtain ⟨url, bucket⟩ := same stored present
      exact ⟨key, by rw [url, parsed], by rw [bucket, held]⟩
    · rw [Function.update_of_ne own] at present
      exact honored.waiting other stored present
  rw [LimiterState.runRound, HostRateLimiter.round_of_cell state.now found]
  cases result : (cell.tryAcquire 1 state.now).2 with
  | granted =>
      refine ⟨registered, awake none (by simp), fun host config => ?_⟩
      refine (since_cons _ _ _ _).mpr
        ⟨fun same => LimiterEvent.noConfusion same, (honored.owed host config).mono ?_⟩
      rintro later ⟨readable, inForce⟩
      refine ⟨readable, fun last => ?_⟩
      have drawn := (inForce fun replacement member =>
        last replacement (List.mem_cons_of_mem _ member)).round honored.registered held found
      simpa only [drawsOf, parsed, Option.some.injEq, result, and_true] using drawn
  | wait seconds =>
      refine ⟨registered, awake (some _) (by simp), fun host config => ?_⟩
      refine (honored.owed host config).mono ?_
      rintro later ⟨readable, inForce⟩
      refine ⟨readable, fun last => ?_⟩
      simpa [result] using (inForce last).round honored.registered held found

theorem enter
    (honored : Honored env state)
    (url : PyStr) :
    Honored env (state.enter env url) := by
  rw [LimiterState.enter]
  cases found : (env.hostOf? url).bind
      (state.limiter.bucketFor? env.config.rateLimit state.now) with
  | none => exact honored
  | some lookedUp =>
      obtain ⟨host, parsed, lookup⟩ := Option.bind_eq_some_iff.mp found
      obtain ⟨entered, held⟩ := honored.lookup (state.spawned + 1) lookup
      exact entered.runRound state.spawned parsed held

/-- One move keeps every override in force. -/
theorem step
    (honored : Honored env state)
    {label : LimiterLabel}
    {after : LimiterState}
    (honors : Honors env state label)
    (moved : state.step env label = some after) :
    Honored env after := by
  cases label with
  | tick elapsed =>
      simp only [LimiterState.step, Option.ite_none_right_eq_some, Option.some.injEq] at moved
      obtain ⟨forward, rfl⟩ := moved
      exact { honored with registered := honored.registered.later (by linarith) }
  | setOverride host config =>
      simp only [LimiterState.step, Option.some.injEq] at moved
      rw [← moved]
      exact honored.setOverride honors
  | acquire url =>
      simp only [LimiterState.step, Option.some.injEq] at moved
      rw [← moved]
      exact honored.enter url
  | wake id =>
      simp only [LimiterState.step, Option.map_eq_some_iff] at moved
      obtain ⟨waiter, asleep, rfl⟩ := moved
      obtain ⟨host, parsed, held⟩ := honored.waiting id waiter asleep
      exact honored.runRound id parsed held

end Honored

/-! ## The bound -/

/-- The grants for the URLs of a host are among the draws from its bucket. -/
theorem grants_le_drawn
    (env : Env)
    {host : PyStr}
    (named : host ≠ [])
    (lower : env.lower host = host)
    (first final : ℚ)
    (history : List LimiterEvent) :
    (history.countP (LimiterEvent.grantsTo env host first final) : ℚ) ≤
      drawn (within first final) (drawsOf env host history) := by
  have drawnFrom : ∀ url, (env.urlparse url).map env.lower = some (env.lower host) →
      env.hostOf? url = some host := by
    intro url authority
    obtain ⟨netloc, parsed, same⟩ := Option.map_eq_some_iff.mp authority
    rw [Env.hostOf?, parsed, Option.map_some, same, lower, if_neg named]
  have more : ∀ time history, drawn (within first final) (drawsOf env host history) ≤
      drawn (within first final) (⟨time, 1⟩ :: drawsOf env host history) := by
    intro time history
    by_cases inside : within first final time = true
    · rw [drawn_cons_of_mem _ inside]
      linarith
    · exact (drawn_cons_of_not_mem _ (by simpa using inside)).ge
  induction history with
  | nil => simp [drawsOf]
  | cons event history inductionHypothesis =>
      cases event with
      | overridden other replacement =>
          simpa [drawsOf, LimiterEvent.grantsTo] using inductionHypothesis
      | granted url time delay =>
          by_cases counted : LimiterEvent.grantsTo env host first final
              (.granted url time delay) = true
          · rw [List.countP_cons_of_pos counted, Nat.cast_add, Nat.cast_one]
            simp only [LimiterEvent.grantsTo, Bool.and_eq_true, decide_eq_true_eq] at counted
            rw [drawsOf, if_pos (drawnFrom url counted.1), drawn_cons_of_mem _ counted.2]
            linarith
          · rw [List.countP_cons_of_neg counted, drawsOf]
            split_ifs
            · exact inductionHypothesis.trans (more time history)
            · exact inductionHypothesis

/-- While every override is installed under a lower-case, non-empty host name, has no
negative rate or burst and replaces no bucket that a caller sleeps on, every override is
honored: from the event on, and until another override of its host in any letter case,
the grants for URLs of that host in any window are at most its burst and the refill of
the window. -/
theorem override_honored
    (env : Env)
    (start : ℚ)
    (state : LimiterState)
    (run : Run (LimiterState.step env) (Honors env) (LimiterState.initial start) state)
    (host : PyStr)
    (config : RateLimitConfig)
    (later earlier : List LimiterEvent)
    (split : state.history = later ++ .overridden host config :: earlier)
    (last : ∀ other replacement, .overridden other replacement ∈ later →
      env.lower other ≠ env.lower host)
    (first final : ℚ)
    (ordered : first ≤ final) :
    (later.countP (LimiterEvent.grantsTo env host first final) : ℚ) ≤
      config.burst + config.ratePerSecond * (final - first) := by
  have honored : Honored env state := by
    apply run.invariant (Honored env)
    · exact Honored.initial env start
    · intro before label after honored honors moved
      exact honored.step honors moved
  obtain ⟨readable, owed⟩ := honored.owed host config later _ earlier split rfl
  have inForce := owed fun replacement member => last host replacement member rfl
  have granted := grants_le_drawn env readable.named readable.lower first final later
  cases held : state.limiter.buckets host with
  | none =>
      have burst : (0 : ℚ) ≤ config.burst := by
        exact_mod_cast readable.burst
      have refilled : 0 ≤ config.ratePerSecond * (final - first) := by
        apply mul_nonneg readable.rate
        linarith
      rw [inForce.idle held, drawn_nil] at granted
      linarith
  | some bucket =>
      obtain ⟨cell, found⟩ := honored.registered.built host bucket held
      exact granted.trans
        ((inForce.metered bucket cell held found).metered.drawn_within first final ordered)

/-! ## Overrides that are not honored -/

/-- Some window after an override and before the next one of its host saw more grants than
the override allows. -/
def ExceedsOverride
    (env : Env)
    (host : PyStr)
    (config : RateLimitConfig)
    (history : List LimiterEvent) : Prop :=
  ∃ later earlier first final,
    history = later ++ .overridden host config :: earlier ∧
    (∀ other replacement, .overridden other replacement ∈ later →
      env.lower other ≠ env.lower host) ∧
    first ≤ final ∧
    config.burst + config.ratePerSecond * (final - first) <
      (later.countP (LimiterEvent.grantsTo env host first final) : ℚ)

/-- Two grants at one time after an override of one token. -/
def overGrants (env : Env) (host : PyStr) (config : RateLimitConfig) (time : ℚ) : List LimiterEvent → Bool
  | .granted url second _ :: .granted url' first _ :: .overridden other replacement :: _ =>
      decide (config.burst = 1 ∧ url = url' ∧ (env.urlparse url).map env.lower =
        some (env.lower host) ∧ first = time ∧ second = time ∧ other = host ∧ replacement = config)
  | _ => false

/-- A registry that grants every host one request a second. -/
def oneEach : Env where
  config := { rateLimit := ⟨1, 1⟩ }
  urlparse := netloc?
  lower := List.map lowerAscii

theorem exceedsOverride_of_overGrants
    {env : Env}
    {host : PyStr}
    {config : RateLimitConfig}
    {time : ℚ}
    {history : List LimiterEvent}
    (grants : overGrants env host config time history = true) :
    ExceedsOverride env host config history := by
  unfold overGrants at grants
  split at grants
  · obtain ⟨one, rfl, authority, atFirst, atSecond, rfl, rfl⟩ := of_decide_eq_true grants
    refine ⟨[_, _], _, time, time, rfl, by simp, le_refl time, ?_⟩
    simp only [one, sub_self, mul_zero, add_zero, List.countP_cons, List.countP_nil,
      LimiterEvent.grantsTo, authority, atFirst, atSecond, within, le_refl, and_self,
      decide_true, Bool.and_self, if_true]
    norm_num
  · cases grants

/-- An override under the spelling of the documentation's URLs is never read: the host gets
the default. -/
def capitalisedLabels : List LimiterLabel :=
  [.setOverride "API.Example.com" ⟨1, 1⟩,
    .acquire "https://API.Example.com/a", .acquire "https://API.Example.com/a"]

/-- A caller sleeps on the bucket that an override replaces, and is granted from it beside
the grant of the new bucket. -/
def replacedBucketLabels : List LimiterLabel :=
  [.acquire "https://api.example.com/a", .acquire "https://api.example.com/a",
    .setOverride "api.example.com" ⟨1 / 10, 1⟩, .tick 1, .wake 1,
    .acquire "https://api.example.com/a"]

theorem override_not_honored :
    (∃ state, Reachable (LimiterState.step oneWorker) (LimiterState.initial 0) state ∧
      ExceedsOverride oneWorker "API.Example.com" ⟨1, 1⟩ state.history) ∧
    ∃ state, Reachable (LimiterState.step oneEach) (LimiterState.initial 0) state ∧
      ExceedsOverride oneEach "api.example.com" ⟨1 / 10, 1⟩ state.history := by
  have capitalised : (executeChecked (LimiterState.step oneWorker) (fun _ _ => true)
      capitalisedLabels (LimiterState.initial 0)).any
        (fun state => overGrants oneWorker "API.Example.com" ⟨1, 1⟩ 0 state.history) = true := by
    decide +kernel
  have asleep : (executeChecked (LimiterState.step oneEach) (fun _ _ => true)
      replacedBucketLabels (LimiterState.initial 0)).any
        (fun state => overGrants oneEach "api.example.com" ⟨1 / 10, 1⟩ 1 state.history) = true := by
    decide +kernel
  constructor
  · obtain ⟨state, run, grants⟩ :=
      exists_run_of_executeChecked (fun _ _ _ => trivial) capitalised
    exact ⟨state, run, exceedsOverride_of_overGrants grants⟩
  · obtain ⟨state, run, grants⟩ :=
      exists_run_of_executeChecked (fun _ _ _ => trivial) asleep
    exact ⟨state, run, exceedsOverride_of_overGrants grants⟩

/-- After an override of one token a second, a caller is granted at once and the next one
sleeps a second. -/
def secondCallerLabels : List LimiterLabel :=
  [.acquire "https://API.example.com/a", .acquire "https://api.example.com/a", .tick 1, .wake 1]

/-- Two grants and the override before them are all that happened. -/
def twoGrantsAfter (host : PyStr) (config : RateLimitConfig) : List LimiterEvent → Bool
  | [.granted _ _ _, .granted _ _ _, .overridden other replacement] =>
      decide (other = host ∧ replacement = config)
  | _ => false

theorem split_of_twoGrantsAfter
    {host : PyStr}
    {config : RateLimitConfig}
    {history : List LimiterEvent}
    (granted : twoGrantsAfter host config history = true) :
    ∃ later, history = later ++ [.overridden host config] ∧ later.length = 2 ∧
      ∀ other replacement, .overridden other replacement ∉ later := by
  unfold twoGrantsAfter at granted
  split at granted
  · obtain ⟨rfl, rfl⟩ := of_decide_eq_true granted
    exact ⟨[_, _], rfl, rfl, by simp⟩
  · cases granted

/-- A registry in which the first thing that happened is an override. -/
def overriddenState : LimiterState where
  now := 0
  limiter := HostRateLimiter.setOverride {} "api.example.com" ⟨1, 1⟩
  history := [.overridden "api.example.com" ⟨1, 1⟩]

theorem secondCaller_replayed :
    (executeChecked (LimiterState.step oneWorker) (fun _ label => !label.overrides)
      secondCallerLabels overriddenState).any
        (fun state => twoGrantsAfter "api.example.com" ⟨1, 1⟩ state.history) = true := by
  decide +kernel

theorem override_honored_second_caller :
    ∃ state, Run (LimiterState.step oneWorker) (Honors oneWorker) (LimiterState.initial 0) state ∧
      ∃ later, state.history = later ++ [.overridden "api.example.com" ⟨1, 1⟩] ∧
        later.length = 2 ∧
        (later.countP (LimiterEvent.grantsTo oneWorker "api.example.com" 0 1) : ℚ) ≤
          ((1 : ℤ) : ℚ) + 1 * (1 - 0) := by
  have honors : Honors oneWorker (LimiterState.initial 0)
      (.setOverride "api.example.com" ⟨1, 1⟩) := by
    refine ⟨by decide +kernel, fun id waiter absent => ?_⟩
    cases absent
  have installed : Run (LimiterState.step oneWorker) (Honors oneWorker) (LimiterState.initial 0)
      overriddenState :=
    .single honors rfl
  obtain ⟨state, run, granted⟩ := exists_run_of_executeChecked
    (fun state label => honors_of_not_overrides oneWorker state) secondCaller_replayed
  obtain ⟨later, split, two, grants⟩ := split_of_twoGrantsAfter granted
  have whole := installed.trans run
  refine ⟨state, whole, later, split, two, ?_⟩
  apply override_honored oneWorker 0 state whole "api.example.com" ⟨1, 1⟩ later [] split _ 0 1
    (by decide)
  intro other replacement member
  exact absurd member (grants other replacement)

end HardenedClient
