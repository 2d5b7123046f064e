import HardenedClient.CircuitBreaker
import Mathlib.Algebra.Order.Field.Rat
import Mathlib.Data.List.DropRight

/-!
# A breaker's counters as functions of its history

The breaker updates a count of failures, a bounded deque and a count of probe slots in
place. A bystander who notes every operation, with the state before and after it,
computes the same three from the notes alone: the failures since the last success, the
last outcomes since the breaker was last closed by a probe, and the calls admitted in the
current HALF_OPEN period. The clock is read anew by each operation and may run anyhow.
-/

namespace HardenedClient

/-- An operation on a breaker, with the reading of the clock it makes. -/
inductive BreakerCall
  | beforeCall (now : ℚ)
  | onSuccess
  | onFailure (now : ℚ)

/-- The outcome an operation reports. -/
def BreakerCall.outcome? : BreakerCall → Option Bool
  | .beforeCall _ => none
  | .onSuccess => some true
  | .onFailure _ => some false

/-- Perform an operation: the breaker afterwards, and whether a call was admitted. -/
def CircuitBreaker.perform
    (config : CircuitBreakerConfig)
    (breaker : CircuitBreaker) : BreakerCall → CircuitBreaker × Bool
  | .beforeCall now =>
      ((breaker.beforeCall config now).1, (breaker.beforeCall config now).2.isNone)
  | .onSuccess => (breaker.onSuccess config, false)
  | .onFailure now => (breaker.onFailure config now, false)

/-- What a bystander notes of an operation. -/
structure BreakerNote where
  outcome? : Option Bool
  admitted : Bool
  before : CircuitState
  after : CircuitState

namespace BreakerNote

/-- The operation closes a HALF_OPEN breaker. -/
def closes (note : BreakerNote) : Bool :=
  decide (note.before = .halfOpen ∧ note.after = .closed)

/-- The failures reported since the last success, in notes kept newest first. -/
def failuresSinceSuccess (notes : List BreakerNote) : ℕ :=
  (notes.takeWhile fun note => note.outcome? != some true).countP
    fun note => note.outcome? == some false

/-- The outcomes reported since the breaker was last closed by a probe, oldest
first. -/
def outcomesSinceClosing (notes : List BreakerNote) : List Bool :=
  ((notes.takeWhile fun note => !note.closes).filterMap outcome?).reverse

/-- The last outcomes since the breaker was last closed by a probe, as many as fit the
window. -/
def lastOutcomes (config : CircuitBreakerConfig) (notes : List BreakerNote) : List Bool :=
  (outcomesSinceClosing notes).rtake config.rollingWindow.toNat

/-- The calls admitted in the current HALF_OPEN period. -/
def admittedInPeriod (notes : List BreakerNote) : ℕ :=
  (notes.takeWhile fun note => note.after == .halfOpen).countP admitted

theorem failuresSinceSuccess_cons (note : BreakerNote) (notes : List BreakerNote) :
    failuresSinceSuccess (note :: notes) =
      if note.outcome? = some true then 0
      else failuresSinceSuccess notes + if note.outcome? = some false then 1 else 0 := by
  unfold failuresSinceSuccess
  by_cases succeeded : note.outcome? = some true
  · simp [succeeded]
  · simp [List.countP_cons, succeeded]

theorem outcomesSinceClosing_cons (note : BreakerNote) (notes : List BreakerNote) :
    outcomesSinceClosing (note :: notes) =
      if note.closes = true then []
      else outcomesSinceClosing notes ++ note.outcome?.toList := by
  unfold outcomesSinceClosing
  by_cases closing : note.closes = true
  · simp [closing]
  · cases reported : note.outcome? <;> simp [closing, reported]

theorem admittedInPeriod_cons (note : BreakerNote) (notes : List BreakerNote) :
    admittedInPeriod (note :: notes) =
      if note.after = .halfOpen then
        admittedInPeriod notes + if note.admitted = true then 1 else 0
      else 0 := by
  unfold admittedInPeriod
  by_cases probing : note.after = .halfOpen
  · simp [List.countP_cons, probing]
  · simp [probing]

end BreakerNote

/-- Appending to the last items and appending to all of them leaves the same last
items. -/
theorem appendBounded_rtake
    (bound : ℕ)
    (items : List α)
    (item : α) :
    appendBounded bound (items.rtake bound) item = (items ++ [item]).rtake bound := by
  change (items.rtake bound ++ [item]).rtake bound = (items ++ [item]).rtake bound
  cases bound with
  | zero => simp
  | succ bound =>
      rw [List.rtake_concat_succ, List.rtake_concat_succ]
      congr 1
      simp only [List.rtake_eq_reverse_take_reverse, List.reverse_reverse, List.take_take]
      rw [Nat.min_eq_left (Nat.le_succ bound)]

/-- A failure is counted and reported, whatever the state. -/
theorem CircuitBreaker.onFailure_counters
    (config : CircuitBreakerConfig)
    (now : ℚ)
    (breaker : CircuitBreaker) :
    (breaker.onFailure config now).consecutiveFailures = breaker.consecutiveFailures + 1 ∧
      (breaker.onFailure config now).outcomes =
        appendBounded config.rollingWindow.toNat breaker.outcomes false := by
  obtain ⟨host, state, failures, openedAt, probes, outcomes⟩ := breaker
  cases state with
  | closed =>
      simp only [onFailure]
      split_ifs <;> exact ⟨rfl, rfl⟩
  | «open» | halfOpen => exact ⟨rfl, rfl⟩

/-- The share of failures among outcomes. -/
def failureRatio (outcomes : List Bool) : ℚ :=
  outcomes.countP (fun ok => !ok) / outcomes.length

/-- `_failure_rate` is the share of failures in the window, 0 for an empty one. -/
theorem CircuitBreaker.currentFailureRate_eq (breaker : CircuitBreaker) :
    breaker.currentFailureRate = failureRatio breaker.outcomes := by
  unfold currentFailureRate failureRatio
  split_ifs with empty
  · simp [empty]
  · rfl

/-! ## A breaker beside its notes -/

/-- A breaker and the notes a bystander has taken of it, newest first. -/
structure ObservedBreaker where
  breaker : CircuitBreaker
  notes : List BreakerNote := []

namespace ObservedBreaker

open BreakerNote

/-- Perform an operation and note it. -/
def observe
    (config : CircuitBreakerConfig)
    (observed : ObservedBreaker)
    (call : BreakerCall) : ObservedBreaker where
  breaker := (observed.breaker.perform config call).1
  notes :=
    { outcome? := call.outcome?
      admitted := (observed.breaker.perform config call).2
      before := observed.breaker.state
      after := (observed.breaker.perform config call).1.state } :: observed.notes

/-- A new breaker after a sequence of operations. -/
def run
    (config : CircuitBreakerConfig)
    (host : PyStr)
    (calls : List BreakerCall) : ObservedBreaker :=
  calls.foldl (observe config) { breaker := { host := host } }

/-- The counters are what the notes say. -/
structure Faithful (config : CircuitBreakerConfig) (observed : ObservedBreaker) : Prop where
  consecutive : observed.breaker.consecutiveFailures = failuresSinceSuccess observed.notes
  window : observed.breaker.outcomes = lastOutcomes config observed.notes
  probes : observed.breaker.inflightProbes = admittedInPeriod observed.notes
  probing : observed.breaker.state = .halfOpen →
    1 ≤ observed.breaker.inflightProbes ∧
      (observed.breaker.inflightProbes : ℤ) ≤ config.halfOpenMaxProbes
  idle : observed.breaker.state ≠ .halfOpen → observed.breaker.inflightProbes = 0

theorem Faithful.initial (config : CircuitBreakerConfig) (host : PyStr) :
    Faithful config { breaker := { host := host } } where
  consecutive := rfl
  window := by simp [lastOutcomes, outcomesSinceClosing]
  probes := rfl
  probing := fun halfOpen => by cases halfOpen
  idle := fun _ => rfl

variable {config : CircuitBreakerConfig} {observed : ObservedBreaker}

/-- Asking the breaker changes the probe slots only. -/
theorem Faithful.beforeCall
    (faithful : observed.Faithful config)
    (slots : 1 ≤ config.halfOpenMaxProbes)
    (now : ℚ) :
    (observed.observe config (.beforeCall now)).Faithful config := by
  have consecutive := faithful.consecutive
  have window := faithful.window
  have probes := faithful.probes
  unfold lastOutcomes at window
  rcases observed.breaker.beforeCall_cases config now with
    ⟨cooling, same⟩ | ⟨closed, same⟩ | ⟨warm, notClosed, count, isCount, full | free⟩
  · -- the breaker is OPEN and keeps everything
    have isOpen : observed.breaker.state = .open := by
      simp only [CircuitBreaker.coolingDown, decide_eq_true_eq] at cooling
      exact cooling.1
    have none := faithful.idle (by simp [isOpen])
    constructor <;> simp [observe, CircuitBreaker.perform, same, failuresSinceSuccess_cons,
      lastOutcomes, outcomesSinceClosing_cons, admittedInPeriod_cons, BreakerCall.outcome?,
      closes, isOpen, consecutive, window, none]
  · have none := faithful.idle (by simp [closed])
    constructor <;> simp [observe, CircuitBreaker.perform, same, failuresSinceSuccess_cons,
      lastOutcomes, outcomesSinceClosing_cons, admittedInPeriod_cons, BreakerCall.outcome?,
      closes, closed, consecutive, window, none]
  · -- with a slot for the first probe, full slots are those of a period in progress
    have halfOpen : observed.breaker.state = .halfOpen := by
      cases current : observed.breaker.state with
      | closed => exact absurd current notClosed
      | halfOpen => rfl
      | «open» =>
          rw [if_pos current] at isCount
          omega
    have bounds := faithful.probing halfOpen
    rw [if_neg (by simp [halfOpen])] at isCount
    constructor <;> simp [observe, CircuitBreaker.perform, full.2, failuresSinceSuccess_cons,
      lastOutcomes, outcomesSinceClosing_cons, admittedInPeriod_cons, BreakerCall.outcome?,
      closes, consecutive, window, probes, isCount]
    omega
  · have counted : count = admittedInPeriod observed.notes := by
      rw [isCount, ← probes]
      split_ifs with isOpen
      · exact (faithful.idle (by simp [isOpen])).symm
      · rfl
    constructor <;> simp [observe, CircuitBreaker.perform, free.2, failuresSinceSuccess_cons,
      lastOutcomes, outcomesSinceClosing_cons, admittedInPeriod_cons, BreakerCall.outcome?,
      closes, consecutive, window, counted]
    omega

/-- A success ends the run of failures, and closes a HALF_OPEN breaker with an empty
window. -/
theorem Faithful.onSuccess
    (faithful : observed.Faithful config) :
    (observed.observe config .onSuccess).Faithful config := by
  have window := faithful.window
  have probes := faithful.probes
  unfold lastOutcomes at window
  by_cases halfOpen : observed.breaker.state = .halfOpen
  · constructor <;> simp [observe, CircuitBreaker.perform, CircuitBreaker.onSuccess, halfOpen,
      failuresSinceSuccess_cons, lastOutcomes, outcomesSinceClosing_cons,
      admittedInPeriod_cons, BreakerCall.outcome?, closes]
  · have none := faithful.idle halfOpen
    constructor <;> simp [observe, CircuitBreaker.perform, CircuitBreaker.onSuccess, halfOpen,
      failuresSinceSuccess_cons, lastOutcomes, outcomesSinceClosing_cons,
      admittedInPeriod_cons, BreakerCall.outcome?, closes, window, appendBounded_rtake, none]

/-- A failure is counted and reported, and ends a HALF_OPEN period. -/
theorem Faithful.onFailure
    (faithful : observed.Faithful config)
    (now : ℚ) :
    (observed.observe config (.onFailure now)).Faithful config := by
  have consecutive := faithful.consecutive
  have window := faithful.window
  unfold lastOutcomes at window
  have notHalfOpen := observed.breaker.onFailure_state_ne_halfOpen config now
  obtain ⟨failures, outcomes⟩ := observed.breaker.onFailure_counters config now
  have none : (observed.breaker.onFailure config now).inflightProbes = 0 := by
    rcases observed.breaker.onFailure_cases config now with
      ⟨idle, _, _, same⟩ | ⟨_, _, _, none⟩
    · exact same.trans (faithful.idle idle)
    · exact none
  have notClosing : ¬ (observed.breaker.state = .halfOpen ∧
      (observed.breaker.onFailure config now).state = .closed) := by
    rintro ⟨halfOpen, closed⟩
    simp [CircuitBreaker.onFailure, CircuitBreaker.openNow, halfOpen] at closed
  constructor
  · simp [observe, CircuitBreaker.perform, failuresSinceSuccess_cons, BreakerCall.outcome?,
      failures, consecutive]
  · simp [observe, CircuitBreaker.perform, lastOutcomes, outcomesSinceClosing_cons,
      BreakerCall.outcome?, closes, outcomes, window, appendBounded_rtake, notClosing]
  · simp [observe, CircuitBreaker.perform, admittedInPeriod_cons, notHalfOpen, none]
  · exact fun halfOpen => absurd halfOpen notHalfOpen
  · exact fun _ => none

theorem Faithful.observe
    (faithful : observed.Faithful config)
    (slots : 1 ≤ config.halfOpenMaxProbes)
    (call : BreakerCall) :
    (observed.observe config call).Faithful config := by
  cases call with
  | beforeCall now => exact faithful.beforeCall slots now
  | onSuccess => exact faithful.onSuccess
  | onFailure now => exact faithful.onFailure now

/-- The counters of a run are what its notes say. -/
theorem faithful_run
    (slots : 1 ≤ config.halfOpenMaxProbes)
    (host : PyStr)
    (calls : List BreakerCall) :
    (run config host calls).Faithful config := by
  induction calls using List.reverseRecOn with
  | nil => exact .initial config host
  | append_singleton calls call inductionHypothesis =>
      rw [run, List.foldl_append]
      exact inductionHypothesis.observe slots call

/-- The notes call for opening a CLOSED breaker: the failures in a row reach the threshold,
or enough outcomes of a full window are failures. -/
def Trips (config : CircuitBreakerConfig) (notes : List BreakerNote) : Prop :=
  config.failureThreshold ≤ failuresSinceSuccess notes ∨
    ((lastOutcomes config notes).length : ℤ) = config.rollingWindow ∧
      config.failureRate ≤ failureRatio (lastOutcomes config notes)

/-- A CLOSED breaker opens on a failure after which the notes call for it. -/
theorem Faithful.opens_iff
    (faithful : observed.Faithful config)
    (closed : observed.breaker.state = .closed)
    (call : BreakerCall) :
    (observed.observe config call).breaker.state = .open ↔
      (∃ now, call = .onFailure now) ∧ Trips config (observed.observe config call).notes := by
  have notOpen : observed.breaker.state ≠ .open := by simp [closed]
  cases call with
  | beforeCall now =>
      have stays := observed.breaker.beforeCall_state_of_ne_open config now notOpen
      simp [ObservedBreaker.observe, CircuitBreaker.perform, stays, closed]
  | onSuccess =>
      have stays := (observed.breaker.onSuccess_state config).2 (by simp [closed])
      simp [ObservedBreaker.observe, CircuitBreaker.perform, stays, closed]
  | onFailure now =>
      have after := faithful.onFailure now
      obtain ⟨failures, outcomes⟩ := observed.breaker.onFailure_counters config now
      have opens : (observed.breaker.onFailure config now).state = .open ↔ _ :=
        observed.breaker.onFailure_opens_iff config now notOpen
      have trips : Trips config (observed.observe config (.onFailure now)).notes ↔
          config.failureThreshold ≤ (observed.breaker.onFailure config now).consecutiveFailures ∨
            ((observed.breaker.onFailure config now).outcomes.length : ℤ) =
                config.rollingWindow ∧
              config.failureRate ≤
                failureRatio (observed.breaker.onFailure config now).outcomes := by
        unfold Trips
        rw [← after.consecutive, ← after.window]
        rfl
      rw [trips, failures, outcomes]
      refine opens.trans ?_
      simp [CircuitBreaker.brittle, closed, CircuitBreaker.countFailure,
        CircuitBreaker.currentFailureRate_eq]

end ObservedBreaker

/-- After every sequence of operations and readings of the clock: the consecutive failures
are those reported since the last success, the deque holds the last outcomes reported since
the breaker was last closed by a probe, the probe slots are the calls admitted in the
current HALF_OPEN period, which has room for each, and none outside of one; and the next
operation opens a CLOSED breaker exactly when it is a failure with which the failures in a
row reach the threshold or the share of failures in a full window reaches the rate. -/
theorem breaker_counts_its_history
    (config : CircuitBreakerConfig)
    (slots : 1 ≤ config.halfOpenMaxProbes)
    (host : PyStr)
    (calls : List BreakerCall)
    (observed : ObservedBreaker)
    (isRun : observed = ObservedBreaker.run config host calls) :
    observed.breaker.consecutiveFailures = BreakerNote.failuresSinceSuccess observed.notes ∧
    observed.breaker.outcomes = BreakerNote.lastOutcomes config observed.notes ∧
    (observed.breaker.state = .halfOpen →
      1 ≤ observed.breaker.inflightProbes ∧
        (observed.breaker.inflightProbes : ℤ) ≤ config.halfOpenMaxProbes ∧
        observed.breaker.inflightProbes = BreakerNote.admittedInPeriod observed.notes) ∧
    (observed.breaker.state ≠ .halfOpen → observed.breaker.inflightProbes = 0) ∧
    (observed.breaker.state = .closed → ∀ call,
      (observed.observe config call).breaker.state = .open ↔
        (∃ now, call = .onFailure now) ∧
          ObservedBreaker.Trips config (observed.observe config call).notes) := by
  have faithful : observed.Faithful config :=
    isRun ▸ ObservedBreaker.faithful_run slots host calls
  refine ⟨faithful.consecutive, faithful.window, fun halfOpen => ?_, faithful.idle, ?_⟩
  · obtain ⟨some, bounded⟩ := faithful.probing halfOpen
    exact ⟨some, bounded, faithful.probes⟩
  · exact fun closed call => faithful.opens_iff closed call

/-- Two failures open a breaker, which is asked again after its cool-down: the failures
still count, and one probe is under way. -/
theorem breaker_counts_its_history_probing :
    (ObservedBreaker.run { failureThreshold := 2 } "example.org"
        [.onFailure 0, .onFailure 1, .beforeCall 40]).breaker.consecutiveFailures =
      BreakerNote.failuresSinceSuccess (ObservedBreaker.run { failureThreshold := 2 }
        "example.org" [.onFailure 0, .onFailure 1, .beforeCall 40]).notes ∧
    BreakerNote.failuresSinceSuccess (ObservedBreaker.run { failureThreshold := 2 }
      "example.org" [.onFailure 0, .onFailure 1, .beforeCall 40]).notes = 2 ∧
    BreakerNote.admittedInPeriod (ObservedBreaker.run { failureThreshold := 2 }
      "example.org" [.onFailure 0, .onFailure 1, .beforeCall 40]).notes = 1 := by
  refine ⟨(breaker_counts_its_history { failureThreshold := 2 } (by decide) "example.org"
    [.onFailure 0, .onFailure 1, .beforeCall 40] _ rfl).1, ?_, ?_⟩
  · decide +kernel
  · decide +kernel

end HardenedClient
