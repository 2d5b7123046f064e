import HardenedClient.Config
import HardenedClient.Errors
import Mathlib.Logic.Function.Basic

/-!
# Per-host circuit breaker

The three-state breaker and the lazily filled registry of breakers. The
breaker never awaits inside its lock, so each operation is one step on its
fields. `beforeCall` returns the breaker beside the raised CircuitOpenError,
since the transition to HALF_OPEN is kept when the probe slots are full. The clock
and the failure rate, floats in the source, are exact rationals here.
-/

namespace HardenedClient

/-- `CircuitState`. -/
inductive CircuitState
  | closed
  | open
  | halfOpen
  deriving DecidableEq

/-- A breaker for a single host, on an exact clock. -/
structure CircuitBreaker where
  host : PyStr
  state : CircuitState := .closed
  consecutiveFailures : ℕ := 0
  openedAt : ℚ := 0
  inflightProbes : ℕ := 0
  outcomes : List Bool := []
  deriving DecidableEq

/-- `deque(maxlen=bound).append`. -/
def appendBounded (bound : ℕ) (items : List α) (item : α) : List α :=
  (items ++ [item]).drop ((items ++ [item]).length - bound)

namespace CircuitBreaker

/-- The cool-down of an OPEN breaker is still running. -/
def coolingDown (config : CircuitBreakerConfig) (now : ℚ) (breaker : CircuitBreaker) : Bool :=
  decide (breaker.state = .open ∧ now - breaker.openedAt < config.openSeconds)

/-- `before_call`: the breaker afterwards, and the CircuitOpenError when the
call is blocked. -/
def beforeCall
    (config : CircuitBreakerConfig)
    (now : ℚ)
    (breaker : CircuitBreaker) : CircuitBreaker × Option PyException :=
  if breaker.state = .open ∧ now - breaker.openedAt < config.openSeconds then
    (breaker, some (.circuitOpenError breaker.host
      (config.openSeconds - (now - breaker.openedAt))))
  else
    let breaker :=
      if breaker.state = .open then
        { breaker with state := .halfOpen, inflightProbes := 0 }
      else breaker
    if breaker.state = .halfOpen then
      if config.halfOpenMaxProbes ≤ breaker.inflightProbes then
        (breaker, some (.circuitOpenError breaker.host 0))
      else ({ breaker with inflightProbes := breaker.inflightProbes + 1 }, none)
    else (breaker, none)

/-- `on_success`. -/
def onSuccess (config : CircuitBreakerConfig) (breaker : CircuitBreaker) : CircuitBreaker :=
  let breaker :=
    { breaker with
      consecutiveFailures := 0
      outcomes := appendBounded config.rollingWindow.toNat breaker.outcomes true }
  if breaker.state = .halfOpen then
    { breaker with state := .closed, inflightProbes := 0, outcomes := [] }
  else breaker

/-- `_failure_rate`. -/
def currentFailureRate (breaker : CircuitBreaker) : ℚ :=
  if breaker.outcomes = [] then 0
  else (breaker.outcomes.countP fun ok => !ok : ℚ) / breaker.outcomes.length

/-- `_open_now`. -/
def openNow (now : ℚ) (breaker : CircuitBreaker) : CircuitBreaker :=
  { breaker with state := .open, openedAt := now, inflightProbes := 0 }

/-- `on_failure`. -/
def onFailure
    (config : CircuitBreakerConfig)
    (now : ℚ)
    (breaker : CircuitBreaker) : CircuitBreaker :=
  let breaker :=
    { breaker with
      consecutiveFailures := breaker.consecutiveFailures + 1
      outcomes := appendBounded config.rollingWindow.toNat breaker.outcomes false }
  match breaker.state with
  | .halfOpen => breaker.openNow now
  | .open => breaker
  | .closed =>
      if config.failureThreshold ≤ breaker.consecutiveFailures then breaker.openNow now
      else if (breaker.outcomes.length : ℤ) = config.rollingWindow ∧
          config.failureRate ≤ breaker.currentFailureRate then breaker.openNow now
      else breaker

/-! ## What one operation can do to the state -/

/-- Every way `before_call` can end. -/
theorem beforeCall_cases
    (config : CircuitBreakerConfig)
    (now : ℚ)
    (breaker : CircuitBreaker) :
    (breaker.coolingDown config now = true ∧
      beforeCall config now breaker = (breaker, some (.circuitOpenError breaker.host
        (config.openSeconds - (now - breaker.openedAt))))) ∨
    (breaker.state = .closed ∧ beforeCall config now breaker = (breaker, none)) ∨
    (breaker.coolingDown config now = false ∧ breaker.state ≠ .closed ∧
      ∃ probes, probes = (if breaker.state = .open then 0 else breaker.inflightProbes) ∧
        ((config.halfOpenMaxProbes ≤ (probes : ℤ) ∧
          beforeCall config now breaker =
            ({ breaker with state := .halfOpen, inflightProbes := probes },
              some (.circuitOpenError breaker.host 0))) ∨
        ((probes : ℤ) < config.halfOpenMaxProbes ∧
          beforeCall config now breaker =
            ({ breaker with state := .halfOpen, inflightProbes := probes + 1 }, none)))) := by
  obtain ⟨host, state, failures, openedAt, probes, outcomes⟩ := breaker
  cases state with
  | closed => simp [beforeCall, coolingDown]
  | «open» =>
      by_cases cooling : now - openedAt < config.openSeconds
      · simp [beforeCall, coolingDown, cooling]
      · by_cases full : config.halfOpenMaxProbes ≤ 0 <;>
          simp [beforeCall, coolingDown, cooling, full]
        omega
  | halfOpen =>
      by_cases full : config.halfOpenMaxProbes ≤ (probes : ℤ) <;>
        simp [beforeCall, coolingDown, full]
      omega

/-- The cool-down is over, and every probe slot is taken. -/
def full (config : CircuitBreakerConfig) (now : ℚ) (breaker : CircuitBreaker) : Prop :=
  breaker.coolingDown config now = false ∧ breaker.state ≠ .closed ∧
    config.halfOpenMaxProbes ≤
      ((if breaker.state = .open then 0 else breaker.inflightProbes : ℕ) : ℤ)

/-- A call is blocked during the cool-down, with a positive hint, or by full
probe slots, with the hint 0. -/
theorem beforeCall_blocked_iff
    (config : CircuitBreakerConfig)
    (now : ℚ)
    (breaker : CircuitBreaker)
    (exc : PyException) :
    (beforeCall config now breaker).2 = some exc ↔
      (breaker.coolingDown config now = true ∧
        exc = .circuitOpenError breaker.host
          (config.openSeconds - (now - breaker.openedAt))) ∨
      (breaker.full config now ∧ exc = .circuitOpenError breaker.host 0) := by
  rcases beforeCall_cases config now breaker with
    ⟨cooling, same⟩ | ⟨closed, same⟩ | ⟨warm, notClosed, probes, isCount, full | free⟩
  · simp [same, cooling, full, eq_comm]
  · have : breaker.coolingDown config now = false := by simp [coolingDown, closed]
    simp [same, this, full, closed]
  · have isFull : breaker.full config now := ⟨warm, notClosed, isCount ▸ full.1⟩
    simp [full.2, warm, isFull, eq_comm]
  · have notFull : ¬ breaker.full config now := fun isFull =>
      absurd (isCount ▸ isFull.2.2) (not_le_of_gt free.1)
    simp [free.2, warm, notFull]

/-- A call is admitted when neither blocks it. -/
theorem beforeCall_admits_iff
    (config : CircuitBreakerConfig)
    (now : ℚ)
    (breaker : CircuitBreaker) :
    (beforeCall config now breaker).2 = none ↔
      breaker.coolingDown config now = false ∧ ¬ breaker.full config now := by
  rw [Option.eq_none_iff_forall_ne_some]
  simp only [ne_eq, beforeCall_blocked_iff]
  constructor
  · intro admitted
    refine ⟨?_, fun isFull => admitted _ (Or.inr ⟨isFull, rfl⟩)⟩
    by_contra cooling
    exact admitted _ (Or.inl ⟨by simpa using cooling, rfl⟩)
  · rintro ⟨warm, notFull⟩ exc (⟨cooling, _⟩ | ⟨isFull, _⟩)
    · simp [warm] at cooling
    · exact notFull isFull

/-- A CLOSED or HALF_OPEN breaker keeps its state when it is asked. -/
theorem beforeCall_state_of_ne_open
    (config : CircuitBreakerConfig)
    (now : ℚ)
    {breaker : CircuitBreaker}
    (notOpen : breaker.state ≠ .open) :
    (beforeCall config now breaker).1.state = breaker.state := by
  rcases beforeCall_cases config now breaker with
    ⟨_, same⟩ | ⟨_, same⟩ | ⟨_, notClosed, _, _, ⟨_, same⟩ | ⟨_, same⟩⟩
  · rw [same]
  · rw [same]
  all_goals
    rw [same]
    cases current : breaker.state <;> simp_all

/-- A call that is admitted leaves the breaker CLOSED or HALF_OPEN. -/
theorem beforeCall_state_of_admitted
    {config : CircuitBreakerConfig}
    {now : ℚ}
    {breaker : CircuitBreaker}
    (admitted : (beforeCall config now breaker).2 = none) :
    (beforeCall config now breaker).1.state = .closed ∨
      (beforeCall config now breaker).1.state = .halfOpen := by
  rcases beforeCall_cases config now breaker with
    ⟨_, same⟩ | ⟨closed, same⟩ | ⟨_, _, _, _, ⟨_, same⟩ | ⟨_, same⟩⟩
  · rw [same] at admitted
    cases admitted
  · rw [same]
    exact Or.inl closed
  · rw [same] at admitted
    cases admitted
  · rw [same]
    exact Or.inr rfl

/-- A success leaves HALF_OPEN and otherwise keeps state and probe count. -/
theorem onSuccess_state
    (config : CircuitBreakerConfig)
    (breaker : CircuitBreaker) :
    (breaker.state = .halfOpen → (onSuccess config breaker).state = .closed) ∧
    (breaker.state ≠ .halfOpen →
      (onSuccess config breaker).state = breaker.state) := by
  constructor <;> intro current <;> simp [onSuccess, current]

/-- A success closes a HALF_OPEN breaker and otherwise keeps what decides about
admission. -/
theorem onSuccess_cases
    (config : CircuitBreakerConfig)
    (breaker : CircuitBreaker) :
    (onSuccess config breaker).openedAt = breaker.openedAt ∧
      ((breaker.state ≠ .halfOpen ∧
          (onSuccess config breaker).state = breaker.state ∧
          (onSuccess config breaker).inflightProbes = breaker.inflightProbes) ∨
        (breaker.state = .halfOpen ∧
          (onSuccess config breaker).state = .closed ∧
          (onSuccess config breaker).inflightProbes = 0)) := by
  by_cases current : breaker.state = .halfOpen <;> simp [onSuccess, current]

/-- A failure opens the breaker now, or keeps what decides about admission;
in HALF_OPEN it opens the breaker, in OPEN it keeps it. -/
theorem onFailure_cases
    (config : CircuitBreakerConfig)
    (now : ℚ)
    (breaker : CircuitBreaker) :
    (breaker.state ≠ .halfOpen ∧
      (onFailure config now breaker).state = breaker.state ∧
      (onFailure config now breaker).openedAt = breaker.openedAt ∧
      (onFailure config now breaker).inflightProbes = breaker.inflightProbes) ∨
    (breaker.state ≠ .open ∧
      (onFailure config now breaker).state = .open ∧
      (onFailure config now breaker).openedAt = now ∧
      (onFailure config now breaker).inflightProbes = 0) := by
  obtain ⟨host, state, failures, openedAt, probes, outcomes⟩ := breaker
  cases state with
  | closed =>
      simp only [onFailure]
      split_ifs <;> simp [openNow]
  | «open» => simp [onFailure]
  | halfOpen => simp [onFailure, openNow]

/-- The breaker with one more failure counted. -/
def countFailure (config : CircuitBreakerConfig) (breaker : CircuitBreaker) : CircuitBreaker :=
  { breaker with
    consecutiveFailures := breaker.consecutiveFailures + 1
    outcomes := appendBounded config.rollingWindow.toNat breaker.outcomes false }

/-- The next failure opens the breaker: it is HALF_OPEN, or CLOSED and one
failure short of a threshold. -/
def brittle (config : CircuitBreakerConfig) (breaker : CircuitBreaker) : Prop :=
  breaker.state = .halfOpen ∨
    breaker.state = .closed ∧
      (config.failureThreshold ≤ (breaker.countFailure config).consecutiveFailures ∨
        ((breaker.countFailure config).outcomes.length : ℤ) = config.rollingWindow ∧
          config.failureRate ≤ (breaker.countFailure config).currentFailureRate)

/-- A failure opens exactly the breakers that are about to. -/
theorem onFailure_opens_iff
    (config : CircuitBreakerConfig)
    (now : ℚ)
    {breaker : CircuitBreaker}
    (notOpen : breaker.state ≠ .open) :
    (onFailure config now breaker).state = .open ↔ breaker.brittle config := by
  obtain ⟨host, state, failures, openedAt, probes, outcomes⟩ := breaker
  cases state with
  | closed =>
      simp only [onFailure, brittle, countFailure]
      split_ifs with many rate
      · exact iff_of_true rfl (Or.inr ⟨trivial, Or.inl many⟩)
      · exact iff_of_true rfl (Or.inr ⟨trivial, Or.inr rate⟩)
      · apply iff_of_false (by simp)
        rintro (halfOpen | ⟨_, enough | often⟩)
        · cases halfOpen
        · exact many enough
        · exact rate often
  | «open» => exact absurd rfl notOpen
  | halfOpen => simp [onFailure, brittle, openNow]

/-- A failure leaves the breaker OPEN, or CLOSED when it was. -/
theorem onFailure_state_ne_halfOpen
    (config : CircuitBreakerConfig)
    (now : ℚ)
    (breaker : CircuitBreaker) :
    (onFailure config now breaker).state ≠ .halfOpen := by
  obtain ⟨host, state, failures, openedAt, probes, outcomes⟩ := breaker
  cases state with
  | closed =>
      simp only [onFailure]
      split_ifs <;> simp [openNow]
  | «open» => simp [onFailure]
  | halfOpen => simp [onFailure, openNow]

/-- A success leaves the breaker CLOSED or OPEN. -/
theorem onSuccess_state_ne_halfOpen
    (config : CircuitBreakerConfig)
    (breaker : CircuitBreaker) :
    (onSuccess config breaker).state ≠ .halfOpen := by
  by_cases current : breaker.state = .halfOpen
  · rw [(onSuccess_state config breaker).1 current]
    decide
  · rwa [(onSuccess_state config breaker).2 current]

end CircuitBreaker

/-! ## The per-host registry -/

/-- `HostCircuitBreakers`: the breakers created so far, by host. -/
structure HostCircuitBreakers where
  breakers : PyStr → Option CircuitBreaker := fun _ => none

namespace HostCircuitBreakers

/-- The breaker a call to a host goes through, created on first use. `none` is
the ValueError of `deque(maxlen=..)` on a negative window. -/
def forHost?
    (config : CircuitBreakerConfig)
    (registry : HostCircuitBreakers)
    (host : PyStr) : Option CircuitBreaker :=
  match registry.breakers host with
  | some breaker => some breaker
  | none => if 0 ≤ config.rollingWindow then some { host := host } else none

/-- Store the state of a host's breaker. -/
def store
    (registry : HostCircuitBreakers)
    (host : PyStr)
    (breaker : CircuitBreaker) : HostCircuitBreakers where
  breakers := Function.update registry.breakers host (some breaker)

@[simp] theorem store_breakers
    (registry : HostCircuitBreakers)
    (host : PyStr)
    (breaker : CircuitBreaker) :
    (registry.store host breaker).breakers =
      Function.update registry.breakers host (some breaker) := rfl

/-- Apply an outcome callback to the breaker a call was admitted through. -/
def report
    (registry : HostCircuitBreakers)
    (host : PyStr)
    (callback : CircuitBreaker → CircuitBreaker) : HostCircuitBreakers :=
  match registry.breakers host with
  | some breaker => registry.store host (callback breaker)
  | none => registry

/-- The state every host's breaker is in, an absent one counting as new. -/
def lookup (registry : HostCircuitBreakers) (host : PyStr) : CircuitBreaker :=
  (registry.breakers host).getD { host := host }

@[simp] theorem lookup_store_self
    (registry : HostCircuitBreakers)
    (host : PyStr)
    (breaker : CircuitBreaker) :
    (registry.store host breaker).lookup host = breaker := by
  simp [lookup]

theorem lookup_store_of_ne
    (registry : HostCircuitBreakers)
    {host other : PyStr}
    (breaker : CircuitBreaker)
    (different : other ≠ host) :
    (registry.store host breaker).lookup other = registry.lookup other := by
  simp [lookup, Function.update_of_ne different]

theorem forHost?_eq_some
    {config : CircuitBreakerConfig}
    {registry : HostCircuitBreakers}
    {host : PyStr}
    {breaker : CircuitBreaker}
    (found : registry.forHost? config host = some breaker) :
    breaker = registry.lookup host := by
  unfold forHost? at found
  unfold lookup
  split at found
  · next stored => simp [stored, Option.some.inj found]
  · next absent =>
      split_ifs at found
      simp [absent, ← Option.some.inj found]

end HostCircuitBreakers

end HardenedClient
