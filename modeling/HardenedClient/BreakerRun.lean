import HardenedClient.CircuitBreaker
import HardenedClient.Foundation.Transition
import Mathlib.Algebra.Order.Field.Rat
import Mathlib.Tactic.Linarith

/-!
# Runs of one breaker

A breaker under any sequence of its three operations and a clock that never
runs back. The HALF_OPEN periods are numbered, and for each one the calls
admitted in it are counted. Outcomes carry no identity in the code, so an
outcome may arrive in any state.
-/

namespace HardenedClient

open Foundation

/-- A breaker and its clock, beside what a bystander counts: the HALF_OPEN
periods begun so far, when they began, and the calls admitted in each. -/
structure BreakerState where
  now : ℚ
  breaker : CircuitBreaker
  periods : ℕ := 0
  halfOpenings : List ℚ := []
  admittedIn : ℕ → ℕ := fun _ => 0

/-- What can happen to a breaker. -/
inductive BreakerLabel
  | tick (elapsed : ℚ)
  | beforeCall
  | onSuccess
  | onFailure
  deriving DecidableEq

namespace BreakerState

/-- The bystander's view of a `before_call` that left the breaker as given. -/
def afterCall (state : BreakerState) (breaker : CircuitBreaker) (admitted : Bool) :
    BreakerState :=
  let began := breaker.state = .halfOpen ∧ state.breaker.state ≠ .halfOpen
  let periods := if began then state.periods + 1 else state.periods
  { now := state.now
    breaker := breaker
    periods := periods
    halfOpenings := if began then state.now :: state.halfOpenings else state.halfOpenings
    admittedIn :=
      if admitted ∧ breaker.state = .halfOpen then
        Function.update state.admittedIn periods (state.admittedIn periods + 1)
      else state.admittedIn }

/-- One operation, or the passing of time. -/
def step
    (config : CircuitBreakerConfig)
    (label : BreakerLabel)
    (state : BreakerState) : Option BreakerState :=
  match label with
  | .tick elapsed =>
      if 0 ≤ elapsed then some { state with now := state.now + elapsed } else none
  | .beforeCall =>
      let (breaker, raised) := state.breaker.beforeCall config state.now
      some (state.afterCall breaker raised.isNone)
  | .onSuccess => some { state with breaker := state.breaker.onSuccess config }
  | .onFailure => some { state with breaker := state.breaker.onFailure config state.now }

/-- A new breaker. -/
def initial (host : PyStr) (now : ℚ) : BreakerState where
  now := now
  breaker := { host := host }

/-! ## What a step can do -/

/-- The step keeps what decides about admission, and admits nobody in
HALF_OPEN. -/
structure Steady (state after : BreakerState) : Prop where
  now : state.now ≤ after.now
  breaker : after.breaker.state = state.breaker.state
  openedAt : after.breaker.openedAt = state.breaker.openedAt
  probes : after.breaker.inflightProbes = state.breaker.inflightProbes
  periods : after.periods = state.periods
  halfOpenings : after.halfOpenings = state.halfOpenings
  admittedIn : after.admittedIn = state.admittedIn

/-- The step leaves HALF_OPEN or CLOSED by an outcome. -/
structure Decided (state after : BreakerState) : Prop where
  now : after.now = state.now
  moved : after.breaker.state ≠ state.breaker.state
  left : state.breaker.state ≠ .open
  breaker :
    after.breaker.state = .closed ∧ after.breaker.openedAt = state.breaker.openedAt ∨
      after.breaker.state = .open ∧ after.breaker.openedAt = state.now
  periods : after.periods = state.periods
  halfOpenings : after.halfOpenings = state.halfOpenings
  admittedIn : after.admittedIn = state.admittedIn

/-- The step ends a cool-down and admits the first probe of a new period. -/
structure Began (config : CircuitBreakerConfig) (state after : BreakerState) : Prop where
  now : after.now = state.now
  warm : config.openSeconds ≤ state.now - state.breaker.openedAt
  was : state.breaker.state = .open
  breaker : after.breaker.state = .halfOpen
  probes : after.breaker.inflightProbes = 1
  periods : after.periods = state.periods + 1
  halfOpenings : after.halfOpenings = state.now :: state.halfOpenings
  admittedIn : after.admittedIn =
    Function.update state.admittedIn after.periods (state.admittedIn after.periods + 1)

/-- The step admits one more probe of the current period. -/
structure Probed (config : CircuitBreakerConfig) (state after : BreakerState) : Prop where
  now : after.now = state.now
  free : (state.breaker.inflightProbes : ℤ) < config.halfOpenMaxProbes
  was : state.breaker.state = .halfOpen
  breaker : after.breaker.state = .halfOpen
  probes : after.breaker.inflightProbes = state.breaker.inflightProbes + 1
  periods : after.periods = state.periods
  halfOpenings : after.halfOpenings = state.halfOpenings
  admittedIn : after.admittedIn =
    Function.update state.admittedIn after.periods (state.admittedIn after.periods + 1)

/-- A `before_call` keeps the breaker, begins a period or admits one more
probe. -/
theorem beforeCall_step
    {config : CircuitBreakerConfig}
    (probes : 1 ≤ config.halfOpenMaxProbes)
    {state after : BreakerState}
    (moved : state.step config .beforeCall = some after) :
    Steady state after ∨ Began config state after ∨ Probed config state after := by
  simp only [step, Option.some.injEq] at moved
  rcases CircuitBreaker.beforeCall_cases config state.now state.breaker with
    ⟨cooling, blocked⟩ | ⟨closed, passed⟩ | ⟨warm, notClosed, count, isCount, full | free⟩
  · have current : state.breaker.state = .open := by
      simp only [CircuitBreaker.coolingDown, decide_eq_true_eq] at cooling
      exact cooling.1
    left
    rw [blocked] at moved
    subst moved
    constructor <;> simp [afterCall, current]
  · left
    rw [passed] at moved
    subst moved
    constructor <;> simp [afterCall, closed]
  · rw [full.2] at moved
    subst moved
    by_cases wasOpen : state.breaker.state = .open
    · -- A new period has room for its first probe.
      rw [if_pos wasOpen] at isCount
      omega
    · have current : state.breaker.state = .halfOpen := by
        cases found : state.breaker.state <;> simp_all
      rw [if_neg wasOpen] at isCount
      left
      constructor <;> simp [afterCall, current, isCount]
  · rw [free.2] at moved
    subst moved
    by_cases wasOpen : state.breaker.state = .open
    · rw [if_pos wasOpen] at isCount
      right
      left
      have elapsed : config.openSeconds ≤ state.now - state.breaker.openedAt := by
        simpa [CircuitBreaker.coolingDown, wasOpen] using warm
      constructor <;> simp [afterCall, wasOpen, isCount, elapsed]
    · have current : state.breaker.state = .halfOpen := by
        cases found : state.breaker.state <;> simp_all
      rw [if_neg wasOpen] at isCount
      right
      right
      rw [isCount] at free
      constructor <;> simp [afterCall, current, isCount, free.1]

/-- An outcome keeps the breaker or decides. -/
theorem outcome_step
    {config : CircuitBreakerConfig}
    {label : BreakerLabel}
    {state after : BreakerState}
    (outcome : label = .onSuccess ∨ label = .onFailure)
    (moved : state.step config label = some after) :
    Steady state after ∨ Decided state after := by
  rcases outcome with rfl | rfl
  · simp only [step, Option.some.injEq] at moved
    subst moved
    obtain ⟨openedAt, ⟨_, kept, probes⟩ | ⟨wasHalfOpen, closed, _⟩⟩ :=
      CircuitBreaker.onSuccess_cases config state.breaker
    · exact Or.inl ⟨le_rfl, kept, openedAt, probes, rfl, rfl, rfl⟩
    · right
      refine ⟨rfl, ?_, ?_, Or.inl ⟨closed, openedAt⟩, rfl, rfl, rfl⟩ <;>
        simp [closed, wasHalfOpen]
  · simp only [step, Option.some.injEq] at moved
    subst moved
    rcases CircuitBreaker.onFailure_cases config state.now state.breaker with
      ⟨_, kept, openedAt, probes⟩ | ⟨notOpen, opened, openedAt, _⟩
    · exact Or.inl ⟨le_rfl, kept, openedAt, probes, rfl, rfl, rfl⟩
    · right
      refine ⟨rfl, ?_, notOpen, Or.inr ⟨opened, openedAt⟩, rfl, rfl, rfl⟩
      simpa [opened] using notOpen.symm

/-- Every step keeps what decides about admission, decides by an outcome,
begins a HALF_OPEN period or admits a probe. -/
theorem step_cases
    {config : CircuitBreakerConfig}
    (probes : 1 ≤ config.halfOpenMaxProbes)
    {label : BreakerLabel}
    {state after : BreakerState}
    (moved : state.step config label = some after) :
    Steady state after ∨
      (Decided state after ∧ (label = .onSuccess ∨ label = .onFailure)) ∨
      Began config state after ∨ Probed config state after := by
  cases label with
  | tick elapsed =>
      simp only [step, Option.ite_none_right_eq_some, Option.some.injEq] at moved
      obtain ⟨forward, rfl⟩ := moved
      left
      exact ⟨by simp only; linarith, rfl, rfl, rfl, rfl, rfl, rfl⟩
  | beforeCall =>
      rcases beforeCall_step probes moved with steady | began
      · exact Or.inl steady
      · exact Or.inr (Or.inr began)
  | onSuccess =>
      have outcome : BreakerLabel.onSuccess = .onSuccess ∨
          BreakerLabel.onSuccess = .onFailure := Or.inl rfl
      rcases outcome_step outcome moved with steady | decided
      · exact Or.inl steady
      · exact Or.inr (Or.inl ⟨decided, outcome⟩)
  | onFailure =>
      have outcome : BreakerLabel.onFailure = .onSuccess ∨
          BreakerLabel.onFailure = .onFailure := Or.inr rfl
      rcases outcome_step outcome moved with steady | decided
      · exact Or.inl steady
      · exact Or.inr (Or.inl ⟨decided, outcome⟩)

/-- A step into HALF_OPEN begins a period after the cool-down of an OPEN
breaker; every other step keeps the number of periods. -/
theorem period_cases
    {config : CircuitBreakerConfig}
    {label : BreakerLabel}
    {state after : BreakerState}
    (moved : state.step config label = some after) :
    (after.periods = state.periods ∧
      (after.breaker.state = .halfOpen → state.breaker.state = .halfOpen)) ∨
    (label = .beforeCall ∧ state.breaker.state = .open ∧
      state.breaker.coolingDown config state.now = false ∧
      after.breaker.state = .halfOpen ∧ after.periods = state.periods + 1) := by
  cases label with
  | tick elapsed =>
      simp only [step, Option.ite_none_right_eq_some, Option.some.injEq] at moved
      obtain ⟨_, rfl⟩ := moved
      exact Or.inl ⟨rfl, id⟩
  | beforeCall =>
      simp only [step, Option.some.injEq] at moved
      subst moved
      rcases CircuitBreaker.beforeCall_cases config state.now state.breaker with
        ⟨_, same⟩ | ⟨_, same⟩ | ⟨warm, notClosed, count, _, same⟩
      · left
        constructor <;> simp [afterCall, same]
      · left
        constructor <;> simp [afterCall, same]
      · have halfOpen :
            (state.breaker.beforeCall config state.now).1.state = .halfOpen := by
          rcases same with ⟨_, full⟩ | ⟨_, free⟩
          · rw [full]
          · rw [free]
        cases current : state.breaker.state with
        | closed => exact absurd current notClosed
        | halfOpen =>
            left
            constructor <;> simp [afterCall, current]
        | «open» =>
            right
            refine ⟨rfl, rfl, warm, halfOpen, ?_⟩
            simp [afterCall, current, halfOpen]
  | onSuccess =>
      simp only [step, Option.some.injEq] at moved
      subst moved
      refine Or.inl ⟨rfl, fun halfOpen => ?_⟩
      exact absurd halfOpen
        (CircuitBreaker.onSuccess_state_ne_halfOpen config state.breaker)
  | onFailure =>
      simp only [step, Option.some.injEq] at moved
      subst moved
      refine Or.inl ⟨rfl, fun halfOpen => ?_⟩
      exact absurd halfOpen
        (CircuitBreaker.onFailure_state_ne_halfOpen config state.now state.breaker)

/-- A `before_call` after the cool-down begins a period, whether or not it is
admitted. -/
theorem began_of_warm
    {config : CircuitBreakerConfig}
    {state after : BreakerState}
    (wasOpen : state.breaker.state = .open)
    (warm : state.breaker.coolingDown config state.now = false)
    (moved : state.step config .beforeCall = some after) :
    after.breaker.state = .halfOpen ∧ after.periods = state.periods + 1 := by
  simp only [step, Option.some.injEq] at moved
  subst moved
  rcases CircuitBreaker.beforeCall_cases config state.now state.breaker with
    ⟨cooling, _⟩ | ⟨closed, _⟩ | ⟨_, _, count, _, ⟨_, same⟩ | ⟨_, same⟩⟩
  · simp [warm] at cooling
  · simp [wasOpen] at closed
  · simp [afterCall, same, wasOpen]
  · simp [afterCall, same, wasOpen]

/-- Only an outcome leaves HALF_OPEN. -/
theorem outcome_of_leaves
    {config : CircuitBreakerConfig}
    {label : BreakerLabel}
    {state after : BreakerState}
    (moved : state.step config label = some after)
    (wasHalfOpen : state.breaker.state = .halfOpen)
    (leaves : after.breaker.state ≠ .halfOpen) :
    label = .onSuccess ∨ label = .onFailure := by
  cases label with
  | tick elapsed =>
      simp only [step, Option.ite_none_right_eq_some, Option.some.injEq] at moved
      obtain ⟨_, rfl⟩ := moved
      exact absurd wasHalfOpen leaves
  | beforeCall =>
      simp only [step, Option.some.injEq] at moved
      subst moved
      apply absurd _ leaves
      rcases CircuitBreaker.beforeCall_cases config state.now state.breaker with
        ⟨_, same⟩ | ⟨_, same⟩ | ⟨_, _, count, _, ⟨_, same⟩ | ⟨_, same⟩⟩ <;>
        simp [afterCall, same, wasHalfOpen]
  | onSuccess => exact Or.inl rfl
  | onFailure => exact Or.inr rfl

/-! ## Admission is safe -/

/-- The counts of a bystander fit the breaker's own. -/
structure Sound (config : CircuitBreakerConfig) (state : BreakerState) : Prop where
  openedAt : state.breaker.state = .open → state.breaker.openedAt ≤ state.now
  past : ∀ opening ∈ state.halfOpenings, opening ≤ state.now
  beforeOpening : state.breaker.state = .open →
    ∀ opening ∈ state.halfOpenings, opening ≤ state.breaker.openedAt
  spaced : state.halfOpenings.Pairwise fun later earlier =>
    earlier + config.openSeconds ≤ later
  current : state.breaker.state = .halfOpen →
    state.admittedIn state.periods = state.breaker.inflightProbes
  future : ∀ period, state.periods < period → state.admittedIn period = 0
  limited : ∀ period, (state.admittedIn period : ℤ) ≤ config.halfOpenMaxProbes

theorem Sound.initial
    {config : CircuitBreakerConfig}
    (probes : 1 ≤ config.halfOpenMaxProbes)
    (host : PyStr)
    (now : ℚ) :
    Sound config (BreakerState.initial host now) where
  openedAt opened := by cases opened
  past _ absent := by cases absent
  beforeOpening opened := by cases opened
  spaced := List.Pairwise.nil
  current halfOpen := by cases halfOpen
  future _ _ := rfl
  limited _ := by
    simp only [BreakerState.initial, Nat.cast_zero]
    omega

theorem Sound.step
    {config : CircuitBreakerConfig}
    (probes : 1 ≤ config.halfOpenMaxProbes)
    {label : BreakerLabel}
    {state after : BreakerState}
    (holds : Sound config state)
    (moved : state.step config label = some after) :
    Sound config after := by
  rcases step_cases probes moved with steady | ⟨decided, _⟩ | began | probed
  · have now := steady.now
    refine ⟨?_, ?_, ?_, steady.halfOpenings ▸ holds.spaced, ?_, ?_, ?_⟩
    · intro opened
      rw [steady.openedAt]
      exact (holds.openedAt (steady.breaker ▸ opened)).trans now
    · intro opening member
      exact (holds.past opening (steady.halfOpenings ▸ member)).trans now
    · intro opened opening member
      rw [steady.openedAt]
      exact holds.beforeOpening (steady.breaker ▸ opened) opening
        (steady.halfOpenings ▸ member)
    · intro halfOpen
      rw [steady.admittedIn, steady.periods, steady.probes]
      exact holds.current (steady.breaker ▸ halfOpen)
    · rw [steady.admittedIn, steady.periods]
      exact holds.future
    · rw [steady.admittedIn]
      exact holds.limited
  · -- An outcome that opens the breaker does so now, after every period so far.
    have openedNow : after.breaker.state = .open → after.breaker.openedAt = state.now := by
      intro opened
      rcases decided.breaker with ⟨closed, _⟩ | ⟨_, openedAt⟩
      · simp [closed] at opened
      · exact openedAt
    refine ⟨?_, ?_, ?_, decided.halfOpenings ▸ holds.spaced, ?_, ?_, ?_⟩
    · intro opened
      rw [openedNow opened, decided.now]
    · rw [decided.halfOpenings, decided.now]
      exact holds.past
    · intro opened opening member
      rw [openedNow opened]
      exact holds.past opening (decided.halfOpenings ▸ member)
    · intro halfOpen
      rcases decided.breaker with ⟨other, _⟩ | ⟨other, _⟩ <;> simp [other] at halfOpen
    · rw [decided.admittedIn, decided.periods]
      exact holds.future
    · rw [decided.admittedIn]
      exact holds.limited
  · have fresh : state.admittedIn after.periods = 0 := by
      apply holds.future
      rw [began.periods]
      omega
    have notOpen : after.breaker.state ≠ .open := by simp [began.breaker]
    refine ⟨fun opened => absurd opened notOpen, ?_,
      fun opened => absurd opened notOpen, ?_, ?_, ?_, ?_⟩
    · rw [began.halfOpenings, began.now]
      intro opening member
      rcases List.mem_cons.mp member with rfl | old
      · exact le_rfl
      · exact holds.past opening old
    · rw [began.halfOpenings, List.pairwise_cons]
      refine ⟨?_, holds.spaced⟩
      intro opening member
      have := holds.beforeOpening began.was opening member
      have := began.warm
      linarith
    · intro _
      rw [began.admittedIn, Function.update_self, fresh, began.probes]
    · intro period above
      rw [began.admittedIn, Function.update_of_ne (by omega)]
      apply holds.future
      have := began.periods
      omega
    · intro period
      rw [began.admittedIn]
      by_cases same : period = after.periods
      · rw [same, Function.update_self, fresh]
        simpa using probes
      · rw [Function.update_of_ne same]
        exact holds.limited period
  · have counted := holds.current probed.was
    have notOpen : after.breaker.state ≠ .open := by simp [probed.breaker]
    refine ⟨fun opened => absurd opened notOpen, ?_,
      fun opened => absurd opened notOpen, probed.halfOpenings ▸ holds.spaced, ?_, ?_, ?_⟩
    · rw [probed.halfOpenings, probed.now]
      exact holds.past
    · intro _
      rw [probed.admittedIn, Function.update_self, probed.probes, probed.periods, counted]
    · intro period above
      rw [probed.admittedIn, Function.update_of_ne (by omega)]
      apply holds.future
      rwa [← probed.periods]
    · intro period
      rw [probed.admittedIn]
      by_cases same : period = after.periods
      · have := probed.free
        rw [same, Function.update_self, probed.periods, counted]
        push_cast
        omega
      · rw [Function.update_of_ne same]
        exact holds.limited period

/-- The clock of a step does not run back. -/
theorem now_le_of_step
    {config : CircuitBreakerConfig}
    (probes : 1 ≤ config.halfOpenMaxProbes)
    {label : BreakerLabel}
    {state after : BreakerState}
    (moved : state.step config label = some after) :
    state.now ≤ after.now := by
  rcases step_cases probes moved with steady | ⟨decided, _⟩ | began | probed
  · exact steady.now
  · exact decided.now.ge
  · exact began.now.ge
  · exact probed.now.ge

/-- An opened breaker stays as it was opened while its cool-down runs. -/
theorem stays_open
    {config : CircuitBreakerConfig}
    (probes : 1 ≤ config.halfOpenMaxProbes)
    {opened later : BreakerState}
    {time : ℚ}
    (isOpen : opened.breaker.state = .open)
    (openedAt : opened.breaker.openedAt = time)
    (run : Reachable (step config) opened later)
    (cooling : later.now - time < config.openSeconds) :
    later.breaker.state = .open ∧ later.breaker.openedAt = time := by
  have holds : later.now - time < config.openSeconds →
      later.breaker.state = .open ∧ later.breaker.openedAt = time := by
    apply run.invariant fun state => state.now - time < config.openSeconds →
      state.breaker.state = .open ∧ state.breaker.openedAt = time
    · exact fun _ => ⟨isOpen, openedAt⟩
    · intro before label after inductionHypothesis _ moved stillCooling
      have clock := now_le_of_step probes moved
      obtain ⟨wasOpen, atTime⟩ := inductionHypothesis (by linarith)
      rcases step_cases probes moved with steady | ⟨decided, _⟩ | began | probed
      · exact ⟨steady.breaker.trans wasOpen, steady.openedAt.trans atTime⟩
      · exact absurd wasOpen decided.left
      · have warm := began.warm
        rw [atTime] at warm
        linarith
      · rw [probed.was] at wasOpen
        cases wasOpen
  exact holds cooling

/-- A breaker that is cooling down: calls are refused with the rest of the
cool-down, and outcomes change neither its state nor its opening time. -/
structure Refusing (config : CircuitBreakerConfig) (time : ℚ) (state : BreakerState) : Prop where
  isOpen : state.breaker.state = .open
  openedAt : state.breaker.openedAt = time
  raises : state.breaker.beforeCall config state.now =
    (state.breaker, some (.circuitOpenError state.breaker.host
      (config.openSeconds - (state.now - time))))
  positive : 0 < config.openSeconds - (state.now - time)
  bounded : config.openSeconds - (state.now - time) ≤ config.openSeconds
  success : (state.breaker.onSuccess config).state = .open ∧
    (state.breaker.onSuccess config).openedAt = time
  failure : (state.breaker.onFailure config state.now).state = .open ∧
    (state.breaker.onFailure config state.now).openedAt = time

theorem refusing_of_isOpen
    {config : CircuitBreakerConfig}
    {time : ℚ}
    {state : BreakerState}
    (isOpen : state.breaker.state = .open)
    (openedAt : state.breaker.openedAt = time)
    (past : time ≤ state.now)
    (cooling : state.now - time < config.openSeconds) :
    Refusing config time state := by
  refine ⟨isOpen, openedAt, ?_, by linarith, by linarith, ?_, ?_⟩
  · simp [CircuitBreaker.beforeCall, isOpen, openedAt, cooling]
  · obtain ⟨kept, ⟨_, same, _⟩ | ⟨halfOpen, _⟩⟩ :=
      CircuitBreaker.onSuccess_cases config state.breaker
    · exact ⟨same.trans isOpen, kept.trans openedAt⟩
    · rw [isOpen] at halfOpen
      cases halfOpen
  · rcases CircuitBreaker.onFailure_cases config state.now state.breaker with
      ⟨_, same, kept, _⟩ | ⟨notOpen, _⟩
    · exact ⟨same.trans isOpen, kept.trans openedAt⟩
    · exact absurd isOpen notOpen

/-- Admission is safe over whole runs: a breaker that opens refuses every call
until its cool-down is over, whatever outcomes arrive meanwhile; no HALF_OPEN
period admits more than the configured probes; and two periods begin at least
a cool-down apart. -/
theorem breaker_admission_safe
    (config : CircuitBreakerConfig)
    (probes : 1 ≤ config.halfOpenMaxProbes)
    (host : PyStr)
    (start : ℚ)
    (state : BreakerState)
    (run : Reachable (step config) (initial host start) state) :
    (∀ label opened, state.step config label = some opened →
      state.breaker.state ≠ .open → opened.breaker.state = .open →
      ∀ later, Reachable (step config) opened later →
        later.now - opened.now < config.openSeconds →
          Refusing config opened.now later) ∧
    (∀ period, (state.admittedIn period : ℤ) ≤ config.halfOpenMaxProbes) ∧
    (state.halfOpenings.Pairwise fun later earlier =>
      earlier + config.openSeconds ≤ later) := by
  have holds : Sound config state := by
    apply run.invariant (Sound config) (Sound.initial probes host start)
    intro before label after inductionHypothesis _ moved
    exact inductionHypothesis.step probes moved
  refine ⟨?_, holds.limited, holds.spaced⟩
  intro label opened moved wasNotOpen isOpen later continued cooling
  have openedAt : opened.breaker.openedAt = opened.now := by
    rcases step_cases probes moved with steady | ⟨decided, _⟩ | began | probed
    · exact absurd (steady.breaker ▸ isOpen) wasNotOpen
    · rcases decided.breaker with ⟨closed, _⟩ | ⟨_, atNow⟩
      · simp [closed] at isOpen
      · exact atNow.trans decided.now.symm
    · exact absurd began.was wasNotOpen
    · simp [probed.breaker] at isOpen
  have past : opened.now ≤ later.now := by
    apply continued.invariant (fun state => opened.now ≤ state.now) le_rfl
    intro before label after inductionHypothesis _ stepped
    exact inductionHypothesis.trans (now_le_of_step probes stepped)
  obtain ⟨stillOpen, sameTime⟩ := stays_open probes isOpen openedAt continued cooling
  exact refusing_of_isOpen stillOpen sameTime past cooling

/-- A breaker that one failure opens. -/
def oneFailure : CircuitBreakerConfig := { failureThreshold := 1 }

/-- Two cool-downs: a failure, a probe that fails, and a second probe. -/
def reopenedLabels : List BreakerLabel :=
  [.onFailure, .beforeCall, .tick 30, .beforeCall, .onFailure, .tick 30, .beforeCall]

theorem breaker_admission_safe_reopened :
    ∃ state, Reachable (step oneFailure) (initial "example.org" 0) state ∧
      state.halfOpenings = [60, 30] ∧
      (∀ period, (state.admittedIn period : ℤ) ≤ oneFailure.halfOpenMaxProbes) ∧
      state.halfOpenings.Pairwise fun later earlier =>
        earlier + oneFailure.openSeconds ≤ later := by
  have passes : (executeChecked (step oneFailure) (fun _ _ => true) reopenedLabels
      (initial "example.org" 0)).any
        (fun state => decide (state.halfOpenings = [60, 30])) = true := by
    decide +kernel
  obtain ⟨state, run, tested⟩ :=
    exists_run_of_executeChecked (fun _ _ _ => trivial) passes
  exact ⟨state, run, of_decide_eq_true tested,
    (breaker_admission_safe oneFailure (by decide) "example.org" 0 state run).2⟩

end BreakerState

end HardenedClient
