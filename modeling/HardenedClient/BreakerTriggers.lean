import HardenedClient.BreakerRun
import Mathlib.Algebra.Order.Field.Basic

/-!
# Triggers of a CLOSED breaker

A failure checks both triggers and a success checks none. So a CLOSED breaker is below
both thresholds until a success is the outcome that fills a window in which enough
calls have failed.
-/

namespace HardenedClient

open Foundation

theorem length_appendBounded
    (bound : ℕ)
    (items : List α)
    (item : α) :
    (appendBounded bound items item).length = min (items.length + 1) bound := by
  simp only [appendBounded, List.length_drop, List.length_append, List.length_singleton]
  omega

/-- A bounded append drops nothing while there is room. -/
theorem appendBounded_of_lt
    {bound : ℕ}
    {items : List α}
    (item : α)
    (room : items.length < bound) :
    appendBounded bound items item = items ++ [item] := by
  have none : (items ++ [item]).length - bound = 0 := by
    simp only [List.length_append, List.length_singleton]
    omega
  rw [appendBounded, none, List.drop_zero]

/-- What is left of the items satisfies a predicate no more often than before. -/
theorem countP_appendBounded_le
    (bound : ℕ)
    (items : List α)
    {item : α}
    {check : α → Bool}
    (fails : check item = false) :
    (appendBounded bound items item).countP check ≤ items.countP check := by
  calc (appendBounded bound items item).countP check
      ≤ (items ++ [item]).countP check := (List.drop_sublist _ _).countP_le
    _ = items.countP check := by simp [fails]

namespace CircuitBreaker

/-- How many calls in the window failed. -/
def failures (breaker : CircuitBreaker) : ℕ :=
  breaker.outcomes.countP fun ok => !ok

/-- The window holds as many outcomes as it can. -/
def Filled (config : CircuitBreakerConfig) (breaker : CircuitBreaker) : Prop :=
  (breaker.outcomes.length : ℤ) = config.rollingWindow

/-- Neither trigger is met. -/
structure Untriggered (config : CircuitBreakerConfig) (breaker : CircuitBreaker) : Prop where
  consecutive : (breaker.consecutiveFailures : ℤ) < config.failureThreshold
  rate : breaker.Filled config → breaker.currentFailureRate < config.failureRate

/-- A success fills the window of a CLOSED breaker in which enough calls have failed. -/
def fillsFailing (config : CircuitBreakerConfig) (breaker : CircuitBreaker) : Prop :=
  breaker.state = .closed ∧ (breaker.outcomes.length : ℤ) + 1 = config.rollingWindow ∧
    config.failureRate * config.rollingWindow ≤ breaker.failures

/-- The failure rate of a full window is the share of its failures. -/
theorem rate_lt_iff
    {config : CircuitBreakerConfig}
    {breaker : CircuitBreaker}
    (window : 1 ≤ config.rollingWindow)
    (filled : breaker.Filled config) :
    breaker.currentFailureRate < config.failureRate ↔
      (breaker.failures : ℚ) < config.failureRate * config.rollingWindow := by
  have length : (breaker.outcomes.length : ℚ) = config.rollingWindow := by
    exact_mod_cast filled
  have positive : (0 : ℚ) < config.rollingWindow := by
    exact_mod_cast window
  have notEmpty : breaker.outcomes ≠ [] := by
    intro empty
    rw [empty, List.length_nil, Nat.cast_zero] at length
    exact absurd length positive.ne
  rw [currentFailureRate, if_neg notEmpty, length, div_lt_iff₀ positive]
  rfl

/-- Failure rates count outcomes in any order. -/
theorem currentFailureRate_of_perm
    {first second : CircuitBreaker}
    (same : first.outcomes.Perm second.outcomes) :
    first.currentFailureRate = second.currentFailureRate := by
  have empty : first.outcomes = [] ↔ second.outcomes = [] := by
    rw [← List.length_eq_zero_iff, same.length_eq, List.length_eq_zero_iff]
  unfold currentFailureRate
  rw [same.countP_eq, same.length_eq]
  exact if_congr empty rfl rfl

/-! ## The operations -/

variable {config : CircuitBreakerConfig} {breaker : CircuitBreaker}

theorem untriggered_beforeCall
    (now : ℚ)
    (closed : (beforeCall config now breaker).1.state = .closed)
    (untriggered : breaker.state = .closed → breaker.Untriggered config) :
    (beforeCall config now breaker).1.Untriggered config := by
  rcases beforeCall_cases config now breaker with
    ⟨_, same⟩ | ⟨_, same⟩ | ⟨_, _, _, _, ⟨_, same⟩ | ⟨_, same⟩⟩ <;> rw [same] at closed ⊢
  · exact untriggered closed
  · exact untriggered closed
  · cases closed
  · cases closed

/-- A failure that leaves the breaker CLOSED has checked both triggers. -/
theorem untriggered_onFailure
    (now : ℚ)
    (closed : (onFailure config now breaker).state = .closed) :
    (onFailure config now breaker).Untriggered config := by
  unfold onFailure at closed ⊢
  cases current : breaker.state with
  | closed =>
      simp only [current] at closed ⊢
      split_ifs at closed ⊢ with many often
      · cases closed
      · cases closed
      · refine ⟨lt_of_not_ge many, fun filled => lt_of_not_ge fun rate => ?_⟩
        exact often ⟨filled, rate⟩
  | «open» => simp [current] at closed
  | halfOpen => simp [current, openNow] at closed

/-- A success in HALF_OPEN starts with an empty window, and one in CLOSED leaves both
triggers unmet unless it fills the window. -/
theorem untriggered_onSuccess_iff
    (threshold : 1 ≤ config.failureThreshold)
    (window : 1 ≤ config.rollingWindow)
    (bounded : (breaker.outcomes.length : ℤ) ≤ config.rollingWindow)
    (closed : (onSuccess config breaker).state = .closed)
    (untriggered : breaker.state = .closed → breaker.Untriggered config) :
    (onSuccess config breaker).Untriggered config ↔ ¬ breaker.fillsFailing config := by
  by_cases current : breaker.state = .halfOpen
  · have reset : (onSuccess config breaker).Untriggered config := by
      constructor
      · simp only [onSuccess, current, if_true, Nat.cast_zero]
        omega
      · intro filled
        simp only [Filled, onSuccess, current, if_true, List.length_nil, Nat.cast_zero] at filled
        omega
    refine iff_of_true reset fun fills => ?_
    rw [fills.1] at current
    cases current
  have wasClosed : breaker.state = .closed :=
    ((onSuccess_state config breaker).2 current).symm.trans closed
  have result : onSuccess config breaker = { breaker with
      consecutiveFailures := 0
      outcomes := appendBounded config.rollingWindow.toNat breaker.outcomes true } := by
    rw [onSuccess, if_neg current]
  have consecutive : ((onSuccess config breaker).consecutiveFailures : ℤ) <
      config.failureThreshold := by
    rw [result, Nat.cast_zero]
    omega
  have filledIff : (onSuccess config breaker).Filled config ↔
      config.rollingWindow ≤ (breaker.outcomes.length : ℤ) + 1 := by
    rw [Filled, result, length_appendBounded]
    omega
  by_cases fresh : (breaker.outcomes.length : ℤ) + 1 = config.rollingWindow
  · -- the success fills the window: its failures are those counted so far
    have appended : (onSuccess config breaker).failures = breaker.failures := by
      rw [failures, failures, result]
      simp only
      rw [appendBounded_of_lt true (by omega)]
      simp
    have filled := filledIff.mpr fresh.ge
    constructor
    · rintro after ⟨_, _, often⟩
      have := (rate_lt_iff window filled).mp (after.rate filled)
      rw [appended] at this
      exact absurd this (not_lt_of_ge often)
    · intro notFills
      refine ⟨consecutive, fun filled => (rate_lt_iff window filled).mpr ?_⟩
      rw [appended]
      exact lt_of_not_ge fun often => notFills ⟨wasClosed, fresh, often⟩
  · refine iff_of_true ⟨consecutive, fun filled => ?_⟩ fun fills => fresh fills.2.1
    -- the window was full before, and a success does not add to its failures
    have was : breaker.Filled config := by
      have := filledIff.mp filled
      rw [Filled]
      omega
    have before := (rate_lt_iff window was).mp ((untriggered wasClosed).rate was)
    rw [rate_lt_iff window filled]
    refine lt_of_le_of_lt ?_ before
    rw [failures, failures, result]
    exact_mod_cast countP_appendBounded_le _ breaker.outcomes rfl

/-- The window never holds more outcomes than it can. -/
theorem bounded_report
    (window : 1 ≤ config.rollingWindow)
    (ok : Bool) :
    ((appendBounded config.rollingWindow.toNat breaker.outcomes ok).length : ℤ) ≤
      config.rollingWindow := by
  rw [length_appendBounded]
  omega

end CircuitBreaker

/-! ## Runs -/

namespace BreakerState

/-- A success arrives at a CLOSED breaker and fills a failing window. -/
def FillsFailing
    (config : CircuitBreakerConfig)
    (state : BreakerState)
    (label : BreakerLabel) : Prop :=
  label = .onSuccess ∧ state.breaker.fillsFailing config

/-- The window is bounded, and a CLOSED breaker meets neither trigger. -/
structure Calm (config : CircuitBreakerConfig) (state : BreakerState) : Prop where
  bounded : (state.breaker.outcomes.length : ℤ) ≤ config.rollingWindow
  untriggered : state.breaker.state = .closed → state.breaker.Untriggered config

theorem Calm.initial
    {config : CircuitBreakerConfig}
    (threshold : 1 ≤ config.failureThreshold)
    (window : 1 ≤ config.rollingWindow)
    (host : PyStr)
    (now : ℚ) :
    Calm config (initial host now) := by
  refine ⟨?_, fun _ => ⟨?_, fun filled => ?_⟩⟩
  · simp only [BreakerState.initial, List.length_nil, Nat.cast_zero]
    omega
  · simp only [BreakerState.initial, Nat.cast_zero]
    omega
  · simp only [CircuitBreaker.Filled, BreakerState.initial, List.length_nil,
      Nat.cast_zero] at filled
    omega

variable {config : CircuitBreakerConfig} {label : BreakerLabel} {state after : BreakerState}

theorem Calm.bounded_step
    (calm : Calm config state)
    (window : 1 ≤ config.rollingWindow)
    (moved : state.step config label = some after) :
    (after.breaker.outcomes.length : ℤ) ≤ config.rollingWindow := by
  cases label with
  | tick elapsed =>
      simp only [BreakerState.step, Option.ite_none_right_eq_some, Option.some.injEq] at moved
      rw [← moved.2]
      exact calm.bounded
  | beforeCall =>
      simp only [BreakerState.step, Option.some.injEq] at moved
      rw [← moved]
      change ((CircuitBreaker.beforeCall config state.now state.breaker).1.outcomes.length : ℤ) ≤ _
      rcases CircuitBreaker.beforeCall_cases config state.now state.breaker with
        ⟨_, same⟩ | ⟨_, same⟩ | ⟨_, _, _, _, ⟨_, same⟩ | ⟨_, same⟩⟩ <;> rw [same] <;>
        exact calm.bounded
  | onSuccess =>
      simp only [BreakerState.step, Option.some.injEq] at moved
      rw [← moved]
      simp only [CircuitBreaker.onSuccess]
      split_ifs
      · simp only [List.length_nil, Nat.cast_zero]
        omega
      · exact CircuitBreaker.bounded_report window true
  | onFailure =>
      simp only [BreakerState.step, Option.some.injEq] at moved
      rw [← moved]
      have reported := @CircuitBreaker.bounded_report config state.breaker window false
      unfold CircuitBreaker.onFailure
      simp only
      split
      · exact reported
      · exact reported
      · split_ifs <;> exact reported

/-- A step leaves a CLOSED breaker with a met trigger exactly when it is a success that
fills a failing window. -/
theorem Calm.untriggered_iff
    (calm : Calm config state)
    (threshold : 1 ≤ config.failureThreshold)
    (window : 1 ≤ config.rollingWindow)
    (moved : state.step config label = some after) :
    (after.breaker.state = .closed → after.breaker.Untriggered config) ↔
      ¬ FillsFailing config state label := by
  cases label with
  | tick elapsed =>
      simp only [BreakerState.step, Option.ite_none_right_eq_some, Option.some.injEq] at moved
      rw [← moved.2]
      exact iff_of_true calm.untriggered (by simp [FillsFailing])
  | beforeCall =>
      simp only [BreakerState.step, Option.some.injEq] at moved
      rw [← moved]
      refine iff_of_true (fun closed => ?_) (by simp [FillsFailing])
      exact CircuitBreaker.untriggered_beforeCall state.now closed calm.untriggered
  | onFailure =>
      simp only [BreakerState.step, Option.some.injEq] at moved
      rw [← moved]
      refine iff_of_true (fun closed => ?_) (by simp [FillsFailing])
      exact CircuitBreaker.untriggered_onFailure state.now closed
  | onSuccess =>
      simp only [BreakerState.step, Option.some.injEq] at moved
      rw [← moved]
      have decides := fun closed =>
        CircuitBreaker.untriggered_onSuccess_iff threshold window calm.bounded closed
          calm.untriggered
      constructor
      · rintro after ⟨_, fills⟩
        have closed : (state.breaker.onSuccess config).state = .closed := by
          rw [(CircuitBreaker.onSuccess_state config state.breaker).2 (by rw [fills.1]; decide),
            fills.1]
        exact (decides closed).mp (after closed) fills
      · intro notFills closed
        exact (decides closed).mpr fun fills => notFills ⟨rfl, fills⟩

/-- In every run in which no success fills a failing window: a CLOSED breaker is below
the consecutive trigger and, with a full window, below the rate trigger, in whatever
order the outcomes came; and the next step keeps it so exactly when it is no such
success. -/
theorem closed_breaker_untriggered
    (config : CircuitBreakerConfig)
    (threshold : 1 ≤ config.failureThreshold)
    (window : 1 ≤ config.rollingWindow)
    (host : PyStr)
    (start : ℚ)
    (state : BreakerState)
    (run : Run (step config) (fun before label => ¬ FillsFailing config before label)
      (initial host start) state) :
    (state.breaker.state = .closed → state.breaker.Untriggered config) ∧
    (∀ breaker : CircuitBreaker, breaker.outcomes.Perm state.breaker.outcomes →
      breaker.Filled config → config.failureRate ≤ breaker.currentFailureRate →
        state.breaker.state ≠ .closed) ∧
    ∀ label after, state.step config label = some after →
      ((after.breaker.state = .closed → after.breaker.Untriggered config) ↔
        ¬ FillsFailing config state label) := by
  have calm : Calm config state := by
    apply run.invariant (Calm config) (.initial threshold window host start)
    intro before label after calm notFills moved
    exact ⟨calm.bounded_step window moved,
      (calm.untriggered_iff threshold window moved).mpr notFills⟩
  refine ⟨calm.untriggered, ?_, fun label after moved =>
    calm.untriggered_iff threshold window moved⟩
  intro breaker same filled often closed
  rw [CircuitBreaker.Filled, same.length_eq] at filled
  have below := (calm.untriggered closed).rate filled
  rw [CircuitBreaker.currentFailureRate_of_perm same] at often
  exact absurd below (not_lt_of_ge often)

/-- A breaker with a window of two outcomes. -/
def windowOfTwo : CircuitBreakerConfig := { rollingWindow := 2 }

/-- A failure and then a success leave the breaker CLOSED with half of its full window
failed; in the other order they open it. -/
theorem closed_breaker_triggered :
    (∃ state, Reachable (step windowOfTwo) (initial "example.org" 0) state ∧
      state.breaker.state = .closed ∧ state.breaker.Filled windowOfTwo ∧
      windowOfTwo.failureRate ≤ state.breaker.currentFailureRate) ∧
    ∃ state, Reachable (step windowOfTwo) (initial "example.org" 0) state ∧
      state.breaker.state = .open ∧ state.breaker.outcomes = [true, false] := by
  constructor
  · have passes : (executeChecked (step windowOfTwo) (fun _ _ => true) [.onFailure, .onSuccess]
        (initial "example.org" 0)).any (fun state => decide (state.breaker.state = .closed ∧
          (state.breaker.outcomes.length : ℤ) = windowOfTwo.rollingWindow ∧
          windowOfTwo.failureRate ≤ state.breaker.currentFailureRate)) = true := by
      decide +kernel
    obtain ⟨state, run, tested⟩ := exists_run_of_executeChecked (fun _ _ _ => trivial) passes
    obtain ⟨closed, filled, often⟩ := of_decide_eq_true tested
    exact ⟨state, run, closed, filled, often⟩
  · have passes : (executeChecked (step windowOfTwo) (fun _ _ => true) [.onSuccess, .onFailure]
        (initial "example.org" 0)).any (fun state => decide (state.breaker.state = .open ∧
          state.breaker.outcomes = [true, false])) = true := by
      decide +kernel
    obtain ⟨state, run, tested⟩ := exists_run_of_executeChecked (fun _ _ _ => trivial) passes
    exact ⟨state, run, of_decide_eq_true tested⟩

/-- A check for `FillsFailing` on replayed runs. -/
def fillsNothing (state : BreakerState) : BreakerLabel → Bool
  | .onSuccess => decide (state.breaker.failures = 0)
  | _ => true

theorem fillsNothing_sound
    (state : BreakerState)
    (label : BreakerLabel)
    (passes : fillsNothing state label = true) :
    ¬ FillsFailing windowOfTwo state label := by
  rintro ⟨rfl, _, _, often⟩
  rw [of_decide_eq_true passes] at often
  exact absurd often (by norm_num [windowOfTwo])

/-- After two successes the window is full and the breaker below both triggers. -/
theorem closed_breaker_untriggered_full :
    ∃ state, Run (step windowOfTwo)
        (fun before label => ¬ FillsFailing windowOfTwo before label)
        (initial "example.org" 0) state ∧
      state.breaker.Filled windowOfTwo ∧ state.breaker.Untriggered windowOfTwo := by
  have passes : (executeChecked (step windowOfTwo) fillsNothing [.onSuccess, .onSuccess]
      (initial "example.org" 0)).any (fun state => decide (state.breaker.state = .closed ∧
        (state.breaker.outcomes.length : ℤ) = windowOfTwo.rollingWindow)) = true := by
    decide +kernel
  obtain ⟨state, run, tested⟩ := exists_run_of_executeChecked fillsNothing_sound passes
  obtain ⟨closed, filled⟩ := of_decide_eq_true tested
  exact ⟨state, run, filled, (closed_breaker_untriggered windowOfTwo (by decide) (by decide)
    "example.org" 0 state run).1 closed⟩

end BreakerState

end HardenedClient
