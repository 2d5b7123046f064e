import HardenedClient.BreakerRun

/-!
# Who decides a HALF_OPEN period

Concurrent calls through one breaker, each with the identity that the code does
not give it: how it was admitted, and whether its outcome is still due. A call
may also end without an outcome for the breaker.
-/

namespace HardenedClient

open Foundation

/-- How a call got through `before_call`. -/
inductive Admission
  | closed
  | probe (period : ℕ)
  deriving DecidableEq

/-- A breaker and the calls through it whose outcome is still due. -/
structure CallsState where
  base : BreakerState
  outstanding : ℕ → Option Admission := fun _ => none
  admitted : ℕ := 0

/-- What can happen to a breaker with its calls. -/
inductive CallsLabel
  | tick (elapsed : ℚ)
  | beforeCall
  | report (id : ℕ) (success : Bool)
  | abandon (id : ℕ)
  deriving DecidableEq

namespace CallsState

/-- The operation an outcome is reported by. -/
def outcomeLabel (success : Bool) : BreakerLabel :=
  if success then .onSuccess else .onFailure

/-- How a call that passes now was admitted. -/
def admission (state : BreakerState) : Admission :=
  if state.breaker.state = .halfOpen then .probe state.periods else .closed

/-- A call ends. -/
def finish (state : CallsState) (id : ℕ) : CallsState :=
  { state with outstanding := Function.update state.outstanding id none }

/-- The calls after a `before_call`: the new one is outstanding if it passed. -/
def enter
    (config : CircuitBreakerConfig)
    (state : CallsState)
    (base : BreakerState) : CallsState :=
  if (state.base.breaker.beforeCall config state.base.now).2 = none then
    { base := base
      outstanding := Function.update state.outstanding state.admitted (some (admission base))
      admitted := state.admitted + 1 }
  else { state with base := base }

/-- One move: time passes, a call asks to pass, an outstanding call reports its
outcome or ends without one. -/
def step
    (config : CircuitBreakerConfig)
    (label : CallsLabel)
    (state : CallsState) : Option CallsState :=
  match label with
  | .tick elapsed =>
      (state.base.step config (.tick elapsed)).map fun base => { state with base := base }
  | .beforeCall => (state.base.step config .beforeCall).map (state.enter config)
  | .report id success =>
      if (state.outstanding id).isSome then
        (state.base.step config (outcomeLabel success)).map fun base =>
          { state.finish id with base := base }
      else none
  | .abandon id =>
      if (state.outstanding id).isSome then some (state.finish id) else none

/-- A new breaker that nobody called yet. -/
def initial (host : PyStr) (now : ℚ) : CallsState where
  base := BreakerState.initial host now

/-- Every move out of HALF_OPEN is the outcome of a call admitted in that same
period. -/
def DecidedByProbes (config : CircuitBreakerConfig) (state : CallsState) : Prop :=
  ∀ label after, state.step config label = some after →
    state.base.breaker.state = .halfOpen → after.base.breaker.state ≠ .halfOpen →
      ∃ id success, label = .report id success ∧
        state.outstanding id = some (.probe state.base.periods)

/-- A HALF_OPEN period begins while the outcome of an earlier call is due. -/
def BeginsBeside (config : CircuitBreakerConfig) (state : CallsState) (label : CallsLabel) :
    Prop :=
  label = .beforeCall ∧ state.base.breaker.state = .open ∧
    state.base.breaker.coolingDown config state.base.now = false ∧
    ∃ id admission, state.outstanding id = some admission

/-! ## The exact condition -/

theorem outstanding_of_finish
    {state : CallsState}
    {id other : ℕ}
    {admission : Admission}
    (found : (state.finish id).outstanding other = some admission) :
    state.outstanding other = some admission := by
  simp only [finish] at found
  by_cases same : other = id
  · subst same
    rw [Function.update_self] at found
    cases found
  · rwa [Function.update_of_ne same] at found

/-- A move other than a `before_call` begins no period and no call. -/
structure Quiet (state after : CallsState) : Prop where
  periods : after.base.periods = state.base.periods
  current : after.base.breaker.state = .halfOpen → state.base.breaker.state = .halfOpen
  admitted : after.admitted = state.admitted
  outstanding : ∀ id admission, after.outstanding id = some admission →
    state.outstanding id = some admission

theorem quiet_of_ne_beforeCall
    {config : CircuitBreakerConfig}
    {label : CallsLabel}
    {state after : CallsState}
    (moved : state.step config label = some after)
    (noCall : label ≠ .beforeCall) :
    Quiet state after := by
  have kept : ∀ {operation base}, operation ≠ BreakerLabel.beforeCall →
      state.base.step config operation = some base →
        base.periods = state.base.periods ∧
          (base.breaker.state = .halfOpen → state.base.breaker.state = .halfOpen) := by
    intro operation base noCall stepped
    rcases BreakerState.period_cases stepped with same | ⟨isCall, _⟩
    · exact same
    · exact absurd isCall noCall
  cases label with
  | tick elapsed =>
      simp only [step, Option.map_eq_some_iff] at moved
      obtain ⟨base, stepped, rfl⟩ := moved
      obtain ⟨periods, current⟩ := kept (by simp) stepped
      exact ⟨periods, current, rfl, fun _ _ found => found⟩
  | beforeCall => exact absurd rfl noCall
  | report id success =>
      simp only [step, Option.ite_none_right_eq_some, Option.map_eq_some_iff] at moved
      obtain ⟨_, base, stepped, rfl⟩ := moved
      obtain ⟨periods, current⟩ := kept (by cases success <;> simp [outcomeLabel]) stepped
      exact ⟨periods, current, rfl, fun _ _ found => outstanding_of_finish found⟩
  | abandon id =>
      simp only [step, Option.ite_none_right_eq_some, Option.some.injEq] at moved
      obtain ⟨_, rfl⟩ := moved
      exact ⟨rfl, fun halfOpen => halfOpen, rfl, fun _ _ found => outstanding_of_finish found⟩

@[simp] theorem enter_base
    (config : CircuitBreakerConfig)
    (state : CallsState)
    (base : BreakerState) :
    (state.enter config base).base = base := by
  unfold enter
  split_ifs <;> rfl

/-- An outstanding call after a `before_call` was outstanding, or just passed. -/
theorem enter_outstanding
    {config : CircuitBreakerConfig}
    {state : CallsState}
    {base : BreakerState}
    {id : ℕ}
    {found : Admission}
    (outstanding : (state.enter config base).outstanding id = some found) :
    state.outstanding id = some found ∨
      id = state.admitted ∧ found = admission base := by
  unfold enter at outstanding
  split_ifs at outstanding with passed
  · simp only at outstanding
    by_cases same : id = state.admitted
    · subst same
      rw [Function.update_self, Option.some.injEq] at outstanding
      exact Or.inr ⟨rfl, outstanding.symm⟩
    · rw [Function.update_of_ne same] at outstanding
      exact Or.inl outstanding
  · exact Or.inl outstanding

theorem enter_outstanding_of_ne
    {config : CircuitBreakerConfig}
    {state : CallsState}
    {base : BreakerState}
    {id : ℕ}
    (old : id ≠ state.admitted) :
    (state.enter config base).outstanding id = state.outstanding id := by
  unfold enter
  split_ifs
  · simp only
    rw [Function.update_of_ne old]
  · rfl

theorem enter_fresh
    (config : CircuitBreakerConfig)
    {state : CallsState}
    (base : BreakerState)
    (fresh : ∀ id, state.admitted ≤ id → state.outstanding id = none)
    (id : ℕ)
    (above : (state.enter config base).admitted ≤ id) :
    (state.enter config base).outstanding id = none := by
  unfold enter at above ⊢
  split_ifs at above ⊢
  · simp only at above ⊢
    rw [Function.update_of_ne (by omega)]
    exact fresh id (by omega)
  · exact fresh id above

/-- The part of the matching that every move keeps. -/
structure Numbered (state : CallsState) : Prop where
  begun : ∀ id period, state.outstanding id = some (.probe period) →
    period ≤ state.base.periods
  fresh : ∀ id, state.admitted ≤ id → state.outstanding id = none

theorem Numbered.initial (host : PyStr) (now : ℚ) :
    Numbered (CallsState.initial host now) where
  begun _ _ absent := by cases absent
  fresh _ _ := rfl

theorem Numbered.step
    {config : CircuitBreakerConfig}
    {label : CallsLabel}
    {state after : CallsState}
    (holds : Numbered state)
    (moved : state.step config label = some after) :
    Numbered after := by
  by_cases isCall : label = .beforeCall
  · subst isCall
    simp only [CallsState.step, Option.map_eq_some_iff] at moved
    obtain ⟨base, stepped, rfl⟩ := moved
    have grows : state.base.periods ≤ base.periods := by
      rcases BreakerState.period_cases stepped with ⟨same, _⟩ | ⟨_, _, _, _, next⟩ <;> omega
    refine ⟨?_, enter_fresh config base holds.fresh⟩
    intro id period outstanding
    rw [enter_base]
    rcases enter_outstanding outstanding with old | ⟨_, new⟩
    · exact (holds.begun id period old).trans grows
    · unfold admission at new
      split_ifs at new
      simp_all
  · have quiet := quiet_of_ne_beforeCall moved isCall
    refine ⟨?_, ?_⟩
    · intro id period outstanding
      rw [quiet.periods]
      exact holds.begun id period (quiet.outstanding _ _ outstanding)
    · intro id above
      rw [Option.eq_none_iff_forall_ne_some]
      intro found outstanding
      have := holds.fresh id (quiet.admitted ▸ above)
      rw [quiet.outstanding id found outstanding] at this
      cases this

/-- In HALF_OPEN every outstanding call is a probe of the current period. -/
def OnlyProbes (state : CallsState) : Prop :=
  state.base.breaker.state = .halfOpen → ∀ id found,
    state.outstanding id = some found → found = .probe state.base.periods

theorem OnlyProbes.step
    {config : CircuitBreakerConfig}
    {label : CallsLabel}
    {state after : CallsState}
    (holds : OnlyProbes state)
    (alone : ¬ BeginsBeside config state label)
    (moved : state.step config label = some after) :
    OnlyProbes after := by
  intro halfOpen id found outstanding
  by_cases isCall : label = .beforeCall
  · subst isCall
    simp only [CallsState.step, Option.map_eq_some_iff] at moved
    obtain ⟨base, stepped, rfl⟩ := moved
    rw [enter_base] at halfOpen ⊢
    rcases enter_outstanding outstanding with old | ⟨_, new⟩
    · rcases BreakerState.period_cases stepped with ⟨same, before⟩ | ⟨_, wasOpen, warm, _, _⟩
      · rw [same]
        exact holds (before halfOpen) id found old
      · exact absurd ⟨rfl, wasOpen, warm, id, found, old⟩ alone
    · simpa [admission, halfOpen] using new
  · have quiet := quiet_of_ne_beforeCall moved isCall
    rw [quiet.periods]
    exact holds (quiet.current halfOpen) id found (quiet.outstanding id found outstanding)

/-- With probes only, a period is decided by one of them. -/
theorem OnlyProbes.decided
    {config : CircuitBreakerConfig}
    {state : CallsState}
    (holds : OnlyProbes state) :
    DecidedByProbes config state := by
  intro label after moved halfOpen leaves
  cases label with
  | tick elapsed =>
      simp only [CallsState.step, Option.map_eq_some_iff] at moved
      obtain ⟨base, stepped, rfl⟩ := moved
      have := BreakerState.outcome_of_leaves stepped halfOpen leaves
      simp at this
  | beforeCall =>
      simp only [CallsState.step, Option.map_eq_some_iff] at moved
      obtain ⟨base, stepped, rfl⟩ := moved
      rw [enter_base] at leaves
      have := BreakerState.outcome_of_leaves stepped halfOpen leaves
      simp at this
  | report id success =>
      simp only [CallsState.step, Option.ite_none_right_eq_some] at moved
      obtain ⟨found, outstanding⟩ := Option.isSome_iff_exists.mp moved.1
      exact ⟨id, success, rfl, holds halfOpen id found outstanding ▸ outstanding⟩
  | abandon id =>
      simp only [CallsState.step, Option.ite_none_right_eq_some, Option.some.injEq] at moved
      obtain ⟨_, rfl⟩ := moved
      exact absurd halfOpen leaves

/-- A success reported in HALF_OPEN closes the breaker. -/
theorem report_success_closes
    {config : CircuitBreakerConfig}
    {state : CallsState}
    {id : ℕ}
    {found : Admission}
    (halfOpen : state.base.breaker.state = .halfOpen)
    (outstanding : state.outstanding id = some found) :
    ∃ after, state.step config (.report id true) = some after ∧
      after.base.breaker.state = .closed := by
  refine ⟨_, by simp only [CallsState.step, outstanding]; rfl, ?_⟩
  exact (CircuitBreaker.onSuccess_state config state.base.breaker).1 halfOpen

/-- A period that begins beside an outstanding call can be decided by it. -/
theorem BeginsBeside.not_decided
    {config : CircuitBreakerConfig}
    {label : CallsLabel}
    {state after : CallsState}
    (numbered : Numbered state)
    (begins : BeginsBeside config state label)
    (moved : state.step config label = some after) :
    ¬ DecidedByProbes config after := by
  obtain ⟨rfl, wasOpen, warm, id, found, outstanding⟩ := begins
  simp only [CallsState.step, Option.map_eq_some_iff] at moved
  obtain ⟨base, stepped, rfl⟩ := moved
  have began := BreakerState.began_of_warm wasOpen warm stepped
  intro decided
  have old : (state.enter config base).outstanding id = some found := by
    rw [enter_outstanding_of_ne, outstanding]
    rintro rfl
    rw [numbered.fresh state.admitted le_rfl] at outstanding
    cases outstanding
  have halfOpen : (state.enter config base).base.breaker.state = .halfOpen := by
    rw [enter_base]
    exact began.1
  obtain ⟨after, reported, closed⟩ := @report_success_closes config _ _ _ halfOpen old
  obtain ⟨other, success, same, isProbe⟩ :=
    decided _ after reported halfOpen (by rw [closed]; decide)
  obtain ⟨rfl, _⟩ := CallsLabel.report.inj same
  rw [old, enter_base, Option.some.injEq] at isProbe
  subst isProbe
  have := numbered.begun id _ outstanding
  omega

/-- Two calls are admitted while the breaker is CLOSED, the second one opens it,
and the first one is still waiting when the probe of the next period is sent. -/
def staleLabels : List CallsLabel :=
  [.beforeCall, .beforeCall, .report 1 false, .tick 30, .beforeCall]

/-- The late success of a call admitted while CLOSED closes the breaker in the
middle of a HALF_OPEN period whose probe has not reported. -/
theorem stale_outcome_decides :
    ∃ state, Reachable (step BreakerState.oneFailure) (initial "example.org" 0) state ∧
      ¬ DecidedByProbes BreakerState.oneFailure state := by
  have passes : (executeChecked (step BreakerState.oneFailure) (fun _ _ => true) staleLabels
      (initial "example.org" 0)).any (fun state =>
        decide (state.base.breaker.state = .halfOpen ∧ state.outstanding 0 = some .closed)) =
        true := by
    decide +kernel
  obtain ⟨state, run, tested⟩ :=
    exists_run_of_executeChecked (fun _ _ _ => trivial) passes
  obtain ⟨halfOpen, stale⟩ := of_decide_eq_true tested
  refine ⟨state, run, fun decided => ?_⟩
  obtain ⟨after, reported, closed⟩ := report_success_closes halfOpen stale
  obtain ⟨id, success, same, isProbe⟩ :=
    decided _ after reported halfOpen (by rw [closed]; decide)
  obtain ⟨rfl, _⟩ := CallsLabel.report.inj same
  rw [stale] at isProbe
  cases isProbe

/-- Where no HALF_OPEN period begins while an earlier call is outstanding, every
period is decided by one of its own probes; and the first one that does can be
decided by the earlier call. -/
theorem decided_by_probes_iff
    (config : CircuitBreakerConfig)
    (host : PyStr)
    (start : ℚ)
    (state : CallsState)
    (run : Run (step config) (fun before label => ¬ BeginsBeside config before label)
      (initial host start) state) :
    DecidedByProbes config state ∧
      ∀ label after, state.step config label = some after →
        (DecidedByProbes config after ↔ ¬ BeginsBeside config state label) := by
  have numbered : Numbered state := by
    apply run.invariant Numbered
    · exact Numbered.initial host start
    · intro before label after inductionHypothesis _ moved
      exact inductionHypothesis.step moved
  have onlyProbes : OnlyProbes state := by
    apply run.invariant OnlyProbes
    · intro halfOpen
      cases halfOpen
    · intro before label after inductionHypothesis alone moved
      exact inductionHypothesis.step alone moved
  refine ⟨onlyProbes.decided, ?_⟩
  intro label after moved
  constructor
  · intro decided begins
    exact begins.not_decided numbered moved decided
  · intro alone
    exact (onlyProbes.step alone moved).decided

/-- The only call outstanding when a period begins is its own probe. -/
def freshProbeLabels : List CallsLabel :=
  [.beforeCall, .report 0 false, .tick 30, .beforeCall]

/-- No period begins beside a call, decided for replays of few calls. -/
def beginsAlone (state : CallsState) (label : CallsLabel) : Bool :=
  label ≠ .beforeCall || state.base.breaker.state ≠ .open ||
    (List.range state.admitted).all fun id => state.outstanding id = none

theorem decided_by_probes_after_cool_down :
    ∃ state, Run (step BreakerState.oneFailure)
        (fun before label => ¬ BeginsBeside BreakerState.oneFailure before label)
        (initial "example.org" 0) state ∧
      state.base.breaker.state = .halfOpen ∧
      DecidedByProbes BreakerState.oneFailure state := by
  have passes : (executeChecked (step BreakerState.oneFailure) beginsAlone freshProbeLabels
      (initial "example.org" 0)).any (fun state =>
        decide (state.base.breaker.state = .halfOpen)) = true := by
    decide +kernel
  obtain ⟨state, replayed, tested⟩ :=
    exists_run_of_executeChecked (fun _ _ passes => passes) passes
  have run : Run (step BreakerState.oneFailure)
      (fun before label => ¬ BeginsBeside BreakerState.oneFailure before label)
      (initial "example.org" 0) state := by
    apply (replayed.with_invariant Numbered (Numbered.initial _ _) ?_).mono
    · rintro before label ⟨numbered, alone⟩ ⟨rfl, wasOpen, _, id, found, outstanding⟩
      simp only [beginsAlone, ne_eq, not_true_eq_false, decide_false, wasOpen,
        Bool.false_or, List.all_eq_true, List.mem_range, decide_eq_true_eq] at alone
      rcases lt_or_ge id before.admitted with known | unknown
      · simp [alone id known] at outstanding
      · simp [numbered.fresh id unknown] at outstanding
    · intro before label after numbered _ moved
      exact numbered.step moved
  exact ⟨state, run, of_decide_eq_true tested,
    (decided_by_probes_iff BreakerState.oneFailure "example.org" 0 state run).1⟩

end CallsState

end HardenedClient
