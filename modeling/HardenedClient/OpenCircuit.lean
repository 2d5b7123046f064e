import HardenedClient.BreakerRecovery
import HardenedClient.Client.Arrivals
import Mathlib.Data.Finset.Card

/-!
# Calls that start through an open breaker

The gate is checked before the wait in the rate limiter, so a breaker can open
between the check and the call. As long as no failure opens a breaker beside a
worker that waits behind it, every call starts with its breaker CLOSED, or
HALF_OPEN with one of the probe slots.
-/

namespace HardenedClient

open Foundation

namespace State

/-- A worker that passed the host's breaker waits in the rate limiter. -/
def Waits (state : State) (host : PyStr) (probe : Option ℕ) (id : ℕ) : Prop :=
  ∃ item bucket delayTotal wakeAt, state.tasks id =
    some (.worker (.handling item (.acquiring host probe bucket delayTotal wakeAt)))

/-- A worker has started the HTTP call of a request. -/
def Sends (state : State) (host : PyStr) (probe : Option ℕ) (id : ℕ) : Prop :=
  ∃ item, state.tasks id = some (.worker (.handling item (.executing host probe)))

/-- A step starts the HTTP call of a worker's request to a host. -/
def StartsCall
    (state next : State)
    (item : QueueItem)
    (host : PyStr)
    (id : ℕ) : Prop :=
  state.tasks id ≠ next.tasks id ∧
    ∃ probe, next.tasks id = some (.worker (.handling item (.executing host probe)))

/-- The breaker lets the worker's call through: it is CLOSED, or HALF_OPEN and
the worker has one of at most as many slots as there may be probes. -/
def LetsThrough (env : Env) (state : State) (host : PyStr) (id : ℕ) : Prop :=
  (state.breakers.lookup host).state = .closed ∨
    (state.breakers.lookup host).state = .halfOpen ∧ state.HoldsSlot host id ∧
      ∀ ids : Finset ℕ, (∀ other ∈ ids, state.HoldsSlot host other) →
        (ids.card : ℤ) ≤ env.config.circuitBreaker.halfOpenMaxProbes

end State

/-- The call ends with an error its breaker is told of. -/
def ReportsFailure (item : QueueItem) (event : HttpEvent) : Prop :=
  ∃ exc error, execute item.request.request item.attempt event = .error exc ∧
    caught? exc = some (error, true)

/-- A failing call opens the host's breaker while a worker that passed it waits
in the rate limiter. -/
def OpensBeside (env : Env) (state : State) (label : Label) : Prop :=
  ∃ id item host probe event draw, label = .step id (.http event draw) ∧
    state.tasks id = some (.worker (.handling item (.executing host probe))) ∧
    ReportsFailure item event ∧
    (state.breakers.lookup host).brittle env.config.circuitBreaker ∧
    ∃ other waiting, state.Waits host waiting other

namespace State

variable {env : Env} {state next : State} {label : Label} {id : ℕ}

/-! ## What a step does to the breakers -/

/-- A step other than a crash leaves the breakers alone, asks one at the gate,
or reports an outcome. -/
theorem breakers_cases
    (moved : HardenedClient.step env label state = some next) :
    label = .crash ∨
      (next.breakers = state.breakers ∧ next.periods = state.periods) ∨
      (∃ id item draw, label = .step id (.jitter draw) ∧
        state.tasks id = some (.worker (.handling item .gating)) ∧
        next = state.gate env id item draw) ∨
      ∃ id item host probe event draw, label = .step id (.http event draw) ∧
        state.tasks id = some (.worker (.handling item (.executing host probe))) ∧
        next = state.receive env id item host event draw := by
  have handling : ∀ {id choice item point}, label = .step id choice →
      state.tasks id = some (.worker (.handling item point)) →
      state.stepHandle env id item point choice = some next := by
    rintro id choice item point rfl current
    simpa [HardenedClient.step, stepTask, current, stepWorker] using moved
  have inside : ∀ {id choice item point}, label = .step id choice →
      state.tasks id = some (.worker (.handling item point)) →
      (next.breakers = state.breakers ∧ next.periods = state.periods) ∨
      (∃ id item draw, label = .step id (.jitter draw) ∧
        state.tasks id = some (.worker (.handling item .gating)) ∧
        next = state.gate env id item draw) ∨
      ∃ id item host probe event draw, label = .step id (.http event draw) ∧
        state.tasks id = some (.worker (.handling item (.executing host probe))) ∧
        next = state.receive env id item host event draw := by
    intro id choice item point isStep current
    have stepped := handling isStep current
    cases point with
    | gating =>
        cases choice <;> simp only [stepHandle, reduceCtorEq] at stepped
        split_ifs at stepped
        exact Or.inr (Or.inl ⟨id, item, _, isStep, current, (Option.some.inj stepped).symm⟩)
    | executing host probe =>
        cases choice <;> simp only [stepHandle, reduceCtorEq] at stepped
        split_ifs at stepped
        exact Or.inr (Or.inr ⟨id, item, host, probe, _, _, isStep, current,
          (Option.some.inj stepped).symm⟩)
    | _ => exact Or.inl (stepHandle_breakers stepped (by simp) (by simp))
  cases step_stepped moved with
  | crash => exact Or.inl rfl
  | handled current | escaped current => exact Or.inr (inside rfl current)
  | _ => exact Or.inr (Or.inl ⟨rfl, rfl⟩)

/-- The outcome of an HTTP exchange is reported to the host's breaker as a
success or as a failure, or not at all. -/
theorem receive_reports
    (env : Env)
    (state : State)
    (id : ℕ)
    (item : QueueItem)
    (host : PyStr)
    (event : HttpEvent)
    (draw : ℚ) :
    (state.receive env id item host event draw).periods = state.periods ∧
      ((state.receive env id item host event draw).breakers = state.breakers ∨
        (state.receive env id item host event draw).breakers =
          state.breakers.report host
            (CircuitBreaker.onSuccess env.config.circuitBreaker) ∨
        ReportsFailure item event ∧
          (state.receive env id item host event draw).breakers =
            state.breakers.report host
              (CircuitBreaker.onFailure env.config.circuitBreaker state.now)) := by
  unfold receive
  cases executed : execute item.request.request item.attempt event with
  | ok response => exact ⟨rfl, Or.inr (Or.inl rfl)⟩
  | error exc =>
      simp only
      cases handler : caught? exc with
      | none => exact ⟨rfl, Or.inl rfl⟩
      | some handled =>
          obtain ⟨error, reported⟩ := handled
          simp only [retryOrDlq_breakers]
          refine ⟨rfl, ?_⟩
          cases reported with
          | false => simp
          | true => exact Or.inr (Or.inr ⟨⟨exc, error, executed, handler⟩, by simp⟩)

/-! ## How a call gets to the limiter and out of it -/

/-- A worker in the limiter was there, or has just passed the gate. -/
theorem waits_origin
    {host : PyStr}
    {probe : Option ℕ}
    (tidy : state.Tidy)
    (moved : HardenedClient.step env label state = some next)
    (waits : next.Waits host probe id) :
    state.Waits host probe id ∨
      ∃ item draw, label = .step id (.jitter draw) ∧
        state.tasks id = some (.worker (.handling item .gating)) ∧
        next = state.gate env id item draw := by
  obtain ⟨item, bucket, delayTotal, wakeAt, current⟩ := waits
  rcases worker_cases tidy moved current with
    ⟨before, _⟩ | ⟨_, _, _, isGating⟩ | ⟨choice, before, rfl, present, stepped, handled⟩
  · exact Or.inl ⟨item, bucket, delayTotal, wakeAt, before⟩
  · cases isGating
  · cases handled with
    | advanced advances =>
        cases advances with
        | waits =>
            simp only [moveTo_tasks_self] at current
            cases current
            exact Or.inl ⟨item, _, _, _, present⟩
        | admitted =>
            cases choice <;> simp only [stepHandle, reduceCtorEq] at stepped
            split_ifs at stepped
            exact Or.inr ⟨item, _, rfl, present, (Option.some.inj stepped).symm⟩
        | blocked disposes => cases disposes <;> simp at current
        | answered response chosen => rcases chosen with rfl | rfl <;> simp at current
        | granted | hooked => simp at current
    | failed disposes => cases disposes <;> simp at current
    | _ => simp at current

/-- A worker with a started call had started it, or has just left the limiter. -/
theorem sends_origin
    {host : PyStr}
    {probe : Option ℕ}
    (tidy : state.Tidy)
    (moved : HardenedClient.step env label state = some next)
    (sends : next.Sends host probe id) :
    state.tasks id = next.tasks id ∨ state.Waits host probe id := by
  obtain ⟨item, current⟩ := sends
  rcases worker_cases tidy moved current with
    ⟨before, _⟩ | ⟨_, _, _, isGating⟩ | ⟨choice, before, rfl, present, stepped, handled⟩
  · exact Or.inl (before.trans current.symm)
  · cases isGating
  · cases handled with
    | advanced advances =>
        cases advances with
        | granted =>
            simp only [moveTo_tasks_self] at current
            cases current
            exact Or.inr ⟨item, _, _, _, present⟩
        | blocked disposes => cases disposes <;> simp at current
        | answered response chosen => rcases chosen with rfl | rfl <;> simp at current
        | admitted | waits | hooked => simp at current
    | failed disposes => cases disposes <;> simp at current
    | _ => simp at current

theorem holdsSlot_iff (host : PyStr) :
    state.HoldsSlot host id ↔
      state.Waits host (some (state.periods host)) id ∨
        state.Sends host (some (state.periods host)) id := by
  constructor
  · rintro ⟨item, point, current, slot⟩
    cases point with
    | acquiring other probe bucket delayTotal wakeAt =>
        cases probe <;> simp only [HandlePoint.slot?, Option.some.injEq, Prod.mk.injEq,
          reduceCtorEq] at slot
        obtain ⟨rfl, rfl⟩ := slot
        exact Or.inl ⟨item, bucket, delayTotal, wakeAt, current⟩
    | executing other probe =>
        cases probe <;> simp only [HandlePoint.slot?, Option.some.injEq, Prod.mk.injEq,
          reduceCtorEq] at slot
        obtain ⟨rfl, rfl⟩ := slot
        exact Or.inr ⟨item, current⟩
    | _ => cases slot
  · rintro (⟨item, bucket, delayTotal, wakeAt, current⟩ | ⟨item, current⟩)
    · exact ⟨item, _, current, rfl⟩
    · exact ⟨item, _, current, rfl⟩

/-! ## Waiting behind a breaker -/

/-- Every worker in the limiter is behind a breaker that still lets it through:
CLOSED, or HALF_OPEN in the period of its slot. -/
def Behind (state : State) : Prop :=
  ∀ host probe id, state.Waits host probe id →
    (state.breakers.lookup host).state = .closed ∨
      (state.breakers.lookup host).state = .halfOpen ∧ probe = some (state.periods host)

/-- A worker that has just passed the gate was admitted by the host's breaker,
and has a slot of the current period if the breaker is HALF_OPEN. -/
theorem gate_waits
    {item : QueueItem}
    {draw : ℚ}
    {host : PyStr}
    {probe : Option ℕ}
    (waits : (state.gate env id item draw).Waits host probe id) :
    ∃ after, env.hostOf? item.request.request.url = some host ∧
      (state.gate env id item draw).breakers = state.breakers.store host after ∧
      (state.breakers.lookup host).beforeCall env.config.circuitBreaker state.now =
        (after, none) ∧
      probe = if after.state = .halfOpen then
        some ((state.gate env id item draw).periods host) else none := by
  obtain ⟨own, bucket, delayTotal, wakeAt, current⟩ := waits
  cases parsed : env.hostOf? item.request.request.url with
  | none => simp [gate, parsed] at current
  | some asked =>
      cases found : state.breakers.forHost? env.config.circuitBreaker asked with
      | none => simp [gate, parsed, found] at current
      | some breaker =>
          obtain rfl := HostCircuitBreakers.forHost?_eq_some found
          cases called : ((state.breakers.lookup asked).beforeCall env.config.circuitBreaker
              state.now).2 with
          | some exc =>
              simp only [gate, parsed, found, called, retryOrDlq] at current
              split at current <;> simp at current
          | none =>
              simp only [gate, parsed, found, called, moveTo_tasks_self, Option.some.injEq,
                Task.worker.injEq, WorkerPoint.handling.injEq,
                HandlePoint.acquiring.injEq] at current ⊢
              obtain ⟨rfl, rfl, rfl, rfl, rfl, rfl⟩ := current
              refine ⟨_, rfl, rfl, Prod.ext rfl called, ?_⟩
              simp [moveTo, setTask]

/-- The host's breaker after an outcome, and every other one. -/
theorem lookup_report
    (registry : HostCircuitBreakers)
    (host other : PyStr)
    (callback : CircuitBreaker → CircuitBreaker) :
    (registry.report host callback).lookup other = registry.lookup other ∧
        (other ≠ host ∨ (registry.lookup other).state = .closed) ∨
      other = host ∧
        (registry.report host callback).lookup other = callback (registry.lookup other) := by
  by_cases same : other = host
  · subst same
    cases stored : registry.breakers other with
    | none => simp [HostCircuitBreakers.report, HostCircuitBreakers.lookup, stored]
    | some breaker => simp [HostCircuitBreakers.report, HostCircuitBreakers.lookup, stored]
  · exact Or.inl ⟨registry.lookup_report_of_ne callback same, Or.inl same⟩

theorem Behind.step
    (holds : state.Behind)
    (tidy : state.Tidy)
    (beside : ¬ OpensBeside env state label)
    (moved : HardenedClient.step env label state = some next) :
    next.Behind := by
  intro host probe id waits
  rcases waits_origin tidy moved waits with old | ⟨item, draw, _, _, rfl⟩
  swap
  · obtain ⟨after, _, stored, called, slot⟩ := gate_waits waits
    have admitted := CircuitBreaker.beforeCall_state_of_admitted (congrArg Prod.snd called)
    rw [called] at admitted
    rw [stored, HostCircuitBreakers.lookup_store_self]
    exact admitted.imp_right fun halfOpen => ⟨halfOpen, slot.trans (if_pos halfOpen)⟩
  have through := holds host probe id old
  have notOpen : (state.breakers.lookup host).state ≠ .open := by
    rcases through with closed | ⟨halfOpen, _⟩
    · simp [closed]
    · simp [halfOpen]
  rcases breakers_cases moved with
    rfl | ⟨breakers, periods⟩ | ⟨actor, item, draw, _, _, rfl⟩ |
      ⟨actor, item, answered, slot, event, draw, rfl, executing, rfl⟩
  · rw [(step_stepped moved).boot_of_crash] at waits
    obtain ⟨_, _, _, _, current⟩ := waits
    cases current
  · rw [breakers, periods]
    exact through
  · rcases gate_breakers env state actor item draw with
      ⟨breakers, periods, _⟩ | ⟨asked, after, period, _, breakers, periods, isAfter, kept, _⟩
    · rw [breakers, periods]
      exact through
    · rw [breakers, periods]
      by_cases same : host = asked
      · subst same
        have samePeriod : period = state.periods host :=
          (kept.resolve_right fun opened => notOpen opened.1).1
        have sameState : after.state = (state.breakers.lookup host).state := by
          rw [isAfter]
          exact CircuitBreaker.beforeCall_state_of_ne_open _ _ notOpen
        rw [HostCircuitBreakers.lookup_store_self, Function.update_self, samePeriod, sameState]
        exact through
      · rw [HostCircuitBreakers.lookup_store_of_ne _ _ same, Function.update_of_ne same]
        exact through
  · obtain ⟨periods, reports⟩ := receive_reports env state actor item answered event draw
    rw [periods]
    rcases reports with breakers | breakers | ⟨failed, breakers⟩
    · rw [breakers]
      exact through
    · rw [breakers]
      rcases lookup_report state.breakers answered host
          (CircuitBreaker.onSuccess env.config.circuitBreaker) with
        ⟨same, _⟩ | ⟨rfl, reported⟩
      · rw [same]
        exact through
      · left
        rw [reported]
        obtain ⟨closes, keeps⟩ := CircuitBreaker.onSuccess_state env.config.circuitBreaker
          (state.breakers.lookup host)
        rcases through with closed | ⟨halfOpen, _⟩
        · rw [keeps (by simp [closed]), closed]
        · exact closes halfOpen
    · rw [breakers]
      rcases lookup_report state.breakers answered host
          (CircuitBreaker.onFailure env.config.circuitBreaker state.now) with
        ⟨same, _⟩ | ⟨rfl, reported⟩
      · rw [same]
        exact through
      · -- The failure does not open the breaker, because somebody waits behind it.
        left
        have sturdy := fun brittle =>
          beside ⟨actor, item, host, slot, event, draw, rfl, executing, failed, brittle,
            id, probe, old⟩
        rw [reported]
        rcases CircuitBreaker.onFailure_cases env.config.circuitBreaker state.now
            (state.breakers.lookup host) with
          ⟨notHalfOpen, kept, _⟩ | ⟨_, opened, _⟩
        · rw [kept]
          exact through.resolve_right fun halfOpen => notHalfOpen halfOpen.1
        · exact absurd ((CircuitBreaker.onFailure_opens_iff _ _ notOpen).mp opened) sturdy

/-! ## How many slots are held -/

/-- Slots are of periods that have begun, and a HALF_OPEN breaker counts at
least those of its period, and no more than it may. -/
structure SlotsCounted (env : Env) (state : State) : Prop where
  begun : ∀ host period id, state.Waits host (some period) id ∨
    state.Sends host (some period) id → period ≤ state.periods host
  counted : ∀ host, (state.breakers.lookup host).state = .halfOpen →
    ∀ ids : Finset ℕ, (∀ id ∈ ids, state.HoldsSlot host id) →
      ids.card ≤ (state.breakers.lookup host).inflightProbes
  limited : ∀ host, (state.breakers.lookup host).state = .halfOpen →
    (state.breakers.lookup host).inflightProbes = 0 ∨
      ((state.breakers.lookup host).inflightProbes : ℤ) ≤
        env.config.circuitBreaker.halfOpenMaxProbes

/-- A slot of a period that had begun was held before the step. -/
theorem slot_origin
    {host : PyStr}
    {period : ℕ}
    (tidy : state.Tidy)
    (moved : HardenedClient.step env label state = some next)
    (slot : next.Waits host (some period) id ∨ next.Sends host (some period) id) :
    (state.Waits host (some period) id ∨ state.Sends host (some period) id) ∨
      ∃ item draw, label = .step id (.jitter draw) ∧ next = state.gate env id item draw ∧
        next.Waits host (some period) id := by
  rcases slot with waits | sends
  · rcases waits_origin tidy moved waits with old | ⟨item, draw, isStep, _, isGate⟩
    · exact Or.inl (Or.inl old)
    · exact Or.inr ⟨item, draw, isStep, isGate, waits⟩
  · rcases sends_origin tidy moved sends with same | old
    · obtain ⟨item, current⟩ := sends
      exact Or.inl (Or.inr ⟨item, same.trans current⟩)
    · exact Or.inl (Or.inl old)

/-- The gate keeps the slots of its host counted. -/
theorem SlotsCounted.gate
    {item : QueueItem}
    {draw : ℚ}
    {host : PyStr}
    {after : CircuitBreaker}
    (holds : SlotsCounted env state)
    (tidy : state.Tidy)
    (moved : HardenedClient.step env (.step id (.jitter draw)) state =
      some (state.gate env id item draw))
    (isAfter : after =
      ((state.breakers.lookup host).beforeCall env.config.circuitBreaker state.now).1)
    (period : (state.gate env id item draw).periods host = state.periods host ∧
        ((state.breakers.lookup host).state = .open → after.state ≠ .halfOpen) ∨
      (state.breakers.lookup host).state = .open ∧ after.state = .halfOpen ∧
        (state.gate env id item draw).periods host = state.periods host + 1)
    (halfOpen : after.state = .halfOpen) :
    (∀ ids : Finset ℕ, (∀ other ∈ ids, (state.gate env id item draw).HoldsSlot host other) →
        ids.card ≤ after.inflightProbes) ∧
      (after.inflightProbes = 0 ∨
        (after.inflightProbes : ℤ) ≤ env.config.circuitBreaker.halfOpenMaxProbes) := by
  -- A slot of the host is an old one of the same period, or the one just given out.
  have origin : ∀ other, (state.gate env id item draw).HoldsSlot host other →
      (state.HoldsSlot host other ∧
        (state.gate env id item draw).periods host = state.periods host) ∨
      other = id ∧ ((state.breakers.lookup host).beforeCall env.config.circuitBreaker
        state.now).2 = none := by
    intro other slot
    rw [holdsSlot_iff] at slot
    rcases slot_origin tidy moved slot with old | ⟨_, _, isStep, _, waits⟩
    · left
      have begun := holds.begun host _ other old
      have same : (state.gate env id item draw).periods host = state.periods host := by
        rcases period with ⟨same, _⟩ | ⟨_, _, more⟩ <;> omega
      rw [same] at old
      exact ⟨(holdsSlot_iff host).mpr old, same⟩
    · right
      obtain ⟨rfl, _⟩ := Label.step.inj isStep
      obtain ⟨_, _, _, called, _⟩ := gate_waits waits
      exact ⟨rfl, congrArg Prod.snd called⟩
  rcases CircuitBreaker.beforeCall_cases env.config.circuitBreaker state.now
      (state.breakers.lookup host) with
    ⟨cooling, same⟩ | ⟨closed, same⟩ | ⟨warm, notClosed, count, isCount, full | free⟩
  · obtain rfl : after = state.breakers.lookup host := by rw [isAfter, same]
    simp only [CircuitBreaker.coolingDown, halfOpen, reduceCtorEq, false_and,
      decide_false, Bool.false_eq_true] at cooling
  · rw [isAfter, same, closed] at halfOpen
    cases halfOpen
  all_goals
    have counts : (count = 0 ∧
        (state.gate env id item draw).periods host = state.periods host + 1) ∨
        ((state.breakers.lookup host).state = .halfOpen ∧
          count = (state.breakers.lookup host).inflightProbes) := by
      cases was : (state.breakers.lookup host).state with
      | closed => exact absurd was notClosed
      | «open» =>
          rw [if_pos was] at isCount
          rcases period with ⟨_, never⟩ | ⟨_, _, more⟩
          · exact absurd halfOpen (never was)
          · exact Or.inl ⟨isCount, more⟩
      | halfOpen =>
          rw [if_neg (by simp [was])] at isCount
          exact Or.inr ⟨rfl, isCount⟩
    have stillHeld : ∀ ids : Finset ℕ, (∀ other ∈ ids, state.HoldsSlot host other ∧
        (state.gate env id item draw).periods host = state.periods host) →
        ids.card ≤ count := by
      intro ids old
      rcases counts with ⟨_, more⟩ | ⟨was, same⟩
      · have none : ids = ∅ := by
          apply Finset.eq_empty_of_forall_notMem
          intro other member
          have := (old other member).2
          omega
        simp [none]
      · rw [same]
        exact holds.counted host was ids fun other member => (old other member).1
  · -- A blocked call gets no slot.
    have blocked : ((state.breakers.lookup host).beforeCall env.config.circuitBreaker
        state.now).2 ≠ none := by simp [full.2]
    have probes : after.inflightProbes = count := by rw [isAfter, full.2]
    rw [probes]
    constructor
    · intro ids held
      exact stillHeld ids fun other member =>
        (origin other (held other member)).resolve_right fun new => blocked new.2
    · rcases counts with ⟨zero, _⟩ | ⟨was, same⟩
      · exact Or.inl zero
      · rw [same]
        exact holds.limited host was
  · have probes : after.inflightProbes = count + 1 := by rw [isAfter, free.2]
    rw [probes]
    constructor
    · intro ids held
      have others := stillHeld (ids.erase id) fun other member =>
        (origin other (held other (Finset.mem_of_mem_erase member))).resolve_right fun new =>
          Finset.ne_of_mem_erase member new.1
      have := @Finset.pred_card_le_card_erase _ ids id _
      omega
    · right
      have := free.1
      push_cast
      omega

theorem SlotsCounted.step
    (holds : SlotsCounted env state)
    (tidy : state.Tidy)
    (moved : HardenedClient.step env label state = some next) :
    SlotsCounted env next := by
  by_cases crashed : label = .crash
  · subst crashed
    rw [(step_stepped moved).boot_of_crash]
    refine ⟨?_, ?_, ?_⟩
    · rintro host period id (⟨_, _, _, _, current⟩ | ⟨_, current⟩) <;> cases current
    · intro host halfOpen
      cases halfOpen
    · intro host halfOpen
      cases halfOpen
  have periodsGrow : ∀ host, state.periods host ≤ next.periods host := by
    intro host
    rcases breakers_cases moved with
      isCrash | ⟨_, periods⟩ | ⟨actor, item, draw, _, _, rfl⟩ |
        ⟨actor, item, answered, slot, event, draw, _, _, rfl⟩
    · exact absurd isCrash crashed
    · rw [periods]
    · rcases gate_breakers env state actor item draw with
        ⟨_, periods, _⟩ | ⟨asked, _, period, _, _, periods, _, kept, _⟩
      · rw [periods]
      · rw [periods, Function.update_apply]
        split_ifs with same
        · subst same
          rcases kept with ⟨same, _⟩ | ⟨_, _, more⟩ <;> omega
        · exact le_rfl
    · rw [(receive_reports env state actor item answered event draw).1]
  have begun : ∀ host period id, next.Waits host (some period) id ∨
      next.Sends host (some period) id → period ≤ next.periods host := by
    intro host period id slot
    rcases slot_origin tidy moved slot with old | ⟨item, draw, _, rfl, waits⟩
    · exact (holds.begun host period id old).trans (periodsGrow host)
    · obtain ⟨after, _, _, _, isPeriod⟩ := gate_waits waits
      split_ifs at isPeriod
      exact (Option.some.inj isPeriod).le
  -- A host whose breaker and period stay, and of which no slot is given out.
  have unchanged : ∀ host, next.breakers.lookup host = state.breakers.lookup host →
      next.periods host = state.periods host →
      (∀ id item draw, label = .step id (.jitter draw) → next = state.gate env id item draw →
        ∀ probe, ¬ next.Waits host (some probe) id) →
      (next.breakers.lookup host).state = .halfOpen →
      (∀ ids : Finset ℕ, (∀ id ∈ ids, next.HoldsSlot host id) →
        ids.card ≤ (next.breakers.lookup host).inflightProbes) ∧
      ((next.breakers.lookup host).inflightProbes = 0 ∨
        ((next.breakers.lookup host).inflightProbes : ℤ) ≤
          env.config.circuitBreaker.halfOpenMaxProbes) := by
    intro host breaker period noneGiven halfOpen
    rw [breaker] at halfOpen ⊢
    refine ⟨fun ids held => holds.counted host halfOpen ids fun id member => ?_,
      holds.limited host halfOpen⟩
    have slot := (holdsSlot_iff host).mp (held id member)
    rcases slot_origin tidy moved slot with old | ⟨item, draw, isStep, isGate, waits⟩
    · rw [period] at old
      exact (holdsSlot_iff host).mpr old
    · exact absurd waits (noneGiven id item draw isStep isGate _)
  have both : ∀ host, (next.breakers.lookup host).state = .halfOpen →
      (∀ ids : Finset ℕ, (∀ id ∈ ids, next.HoldsSlot host id) →
        ids.card ≤ (next.breakers.lookup host).inflightProbes) ∧
      ((next.breakers.lookup host).inflightProbes = 0 ∨
        ((next.breakers.lookup host).inflightProbes : ℤ) ≤
          env.config.circuitBreaker.halfOpenMaxProbes) := by
    intro host halfOpen
    by_cases isGate : ∃ id item draw, label = .step id (.jitter draw) ∧
        next = state.gate env id item draw
    · obtain ⟨actor, item, draw, rfl, rfl⟩ := isGate
      rcases gate_breakers env state actor item draw with
        ⟨breakers, periods, exc, raised⟩ |
          ⟨asked, after, period, parsed, breakers, periods, isAfter, kept, _⟩
      · apply unchanged host (by rw [breakers]) (by rw [periods]) _ halfOpen
        rintro id _ _ isStep _ probe ⟨_, _, _, _, current⟩
        obtain ⟨rfl, _⟩ := Label.step.inj isStep
        rw [raised] at current
        cases current
      · by_cases same : host = asked
        · subst same
          have isPeriod : (state.gate env actor item draw).periods host = period := by
            rw [periods, Function.update_self]
          rw [breakers, HostCircuitBreakers.lookup_store_self] at halfOpen ⊢
          rw [← isPeriod] at kept
          exact holds.gate tidy moved isAfter kept halfOpen
        · apply unchanged host
            (by rw [breakers, HostCircuitBreakers.lookup_store_of_ne _ _ same])
            (by rw [periods, Function.update_of_ne same]) _ halfOpen
          intro id own _ isStep _ probe waits
          obtain ⟨rfl, _⟩ := Label.step.inj isStep
          obtain ⟨_, isHost, _⟩ := gate_waits waits
          exact same (Option.some.inj (isHost.symm.trans parsed))
    · have noneGiven : ∀ id item draw, label = .step id (.jitter draw) →
          next = state.gate env id item draw → ∀ probe, ¬ next.Waits host (some probe) id :=
        fun id item draw isStep gated => absurd ⟨id, item, draw, isStep, gated⟩ isGate
      rcases breakers_cases moved with
        isCrash | ⟨breakers, periods⟩ | ⟨actor, item, draw, isStep, _, gated⟩ |
          ⟨actor, item, answered, slot, event, draw, rfl, executing, rfl⟩
      · exact absurd isCrash crashed
      · exact unchanged host (by rw [breakers]) (by rw [periods]) noneGiven halfOpen
      · exact absurd ⟨actor, item, draw, isStep, gated⟩ isGate
      · obtain ⟨periods, reports⟩ := receive_reports env state actor item answered event draw
        have settled : ∀ callback, (∀ breaker, (callback breaker).state ≠ .halfOpen) →
            (state.receive env actor item answered event draw).breakers =
              state.breakers.report answered callback →
            (state.receive env actor item answered event draw).breakers.lookup host =
              state.breakers.lookup host := by
          intro callback leaves breakers
          rw [breakers] at halfOpen ⊢
          rcases lookup_report state.breakers answered host callback with
            ⟨same, _⟩ | ⟨_, reported⟩
          · exact same
          · rw [reported] at halfOpen
            exact absurd halfOpen (leaves _)
        apply unchanged host _ (by rw [periods]) noneGiven halfOpen
        rcases reports with breakers | breakers | ⟨_, breakers⟩
        · rw [breakers]
        · exact settled _ (CircuitBreaker.onSuccess_state_ne_halfOpen _) breakers
        · exact settled _ (CircuitBreaker.onFailure_state_ne_halfOpen _ _) breakers
  exact ⟨begun, fun host halfOpen => (both host halfOpen).1,
    fun host halfOpen => (both host halfOpen).2⟩

/-- Workers wait for, and call, the host of their request's URL. -/
def Routed (env : Env) (state : State) : Prop :=
  ∀ id item point host, state.tasks id = some (.worker (.handling item point)) →
    point.host? = some host → env.hostOf? item.request.request.url = some host

theorem Routed.step
    (holds : state.Routed env)
    (tidy : state.Tidy)
    (moved : HardenedClient.step env label state = some next) :
    next.Routed env := by
  intro id item point host current isHost
  rcases worker_cases tidy moved current with
    ⟨before, _⟩ | ⟨_, _, _, rfl⟩ | ⟨choice, before, rfl, present, _, handled⟩
  · exact holds id item point host before isHost
  · cases isHost
  · have routed := fun asked => holds id item before asked present
    cases point with
    | acquiring asked probe bucket delayTotal wakeAt =>
        obtain rfl : asked = host := Option.some.inj isHost
        have waits : next.Waits asked probe id := ⟨item, bucket, delayTotal, wakeAt, current⟩
        rcases waits_origin tidy moved waits with
          ⟨_, _, _, _, old⟩ | ⟨own, _, _, old, rfl⟩
        all_goals
          rw [present] at old
          cases old
        · exact routed asked rfl
        · obtain ⟨_, parsed, _⟩ := gate_waits waits
          exact parsed
    | executing asked probe =>
        obtain rfl : asked = host := Option.some.inj isHost
        have sends : next.Sends asked probe id := ⟨item, current⟩
        rcases sends_origin tidy moved sends with same | ⟨_, _, _, _, old⟩
        · rw [← same, present] at current
          cases current
          exact routed asked rfl
        · rw [present] at old
          cases old
          exact routed asked rfl
    | _ => cases isHost

/-! ## A call that starts -/

/-- A call starts through the breaker its worker waited behind. -/
theorem StartsCall.letsThrough
    {item : QueueItem}
    {host : PyStr}
    (starts : state.StartsCall next item host id)
    (behind : state.Behind)
    (counted : SlotsCounted env state)
    (tidy : state.Tidy)
    (moved : HardenedClient.step env label state = some next) :
    next.LetsThrough env host id := by
  obtain ⟨moves, probe, current⟩ := starts
  have sends : next.Sends host probe id := ⟨item, current⟩
  have waits := (sends_origin tidy moved sends).resolve_left moves
  -- It is this worker that steps, from the limiter, where no breaker is written.
  have same : next.breakers = state.breakers ∧ next.periods = state.periods := by
    obtain ⟨held, _, _, _, waiting⟩ := waits
    have isActor : ∃ choice, label = .step id choice := by
      rcases worker_cases tidy moved current with ⟨before, _⟩ | ⟨isStep, _⟩ | ⟨_, _, isStep, _⟩
      · exact absurd (before.trans current.symm) moves
      · exact ⟨_, isStep⟩
      · exact ⟨_, isStep⟩
    obtain ⟨choice, rfl⟩ := isActor
    rcases breakers_cases moved with
      isCrash | same | ⟨_, _, _, isStep, gating, _⟩ | ⟨_, _, _, _, _, _, isStep, executing, _⟩
    · cases isCrash
    · exact same
    all_goals
      obtain ⟨rfl, _⟩ := Label.step.inj isStep
      simp_all
  have nextCounted := counted.step tidy moved
  unfold LetsThrough
  rw [same.1]
  refine (behind host probe id waits).imp_right fun ⟨halfOpen, isSlot⟩ => ?_
  have slot : next.HoldsSlot host id := by
    rw [holdsSlot_iff, same.2, ← isSlot]
    exact Or.inr sends
  refine ⟨halfOpen, slot, fun ids held => ?_⟩
  rw [← same.1] at halfOpen
  have some := nextCounted.counted host halfOpen {id} (by simpa using slot)
  have all := nextCounted.counted host halfOpen ids held
  have few := nextCounted.limited host halfOpen
  simp only [Finset.card_singleton] at some
  omega

end State

/-- A client of two workers whose breakers open at the first failure, and that
sends one request a second to a host. -/
def hasty : Env where
  config := {
    rateLimit := { ratePerSecond := 1, burst := 1 }
    circuitBreaker := { failureThreshold := 1 }
    retry := { maxRetries := 0 }
    queue := { workers := 2 } }
  urlparse := netloc?
  lower := List.map lowerAscii

/-- The second of two admitted calls waits for a token when the first one fails. -/
def waitingLabels : List Label :=
  startLabels ++ requestLabels 3 "http://example.org/first" ++
    requestLabels 4 "http://example.org/second" ++ sendLabels 1 ++ sendLabels 2 ++
    answerLabels 1 500 0 ++ [.tick 1]

/-- The URL and the host of the call a worker has started. -/
def State.sent? (state : State) (id : ℕ) : Option (PyStr × PyStr) :=
  match state.tasks id with
  | some (.worker (.handling item (.executing host _))) =>
      some (item.request.request.url, host)
  | _ => none

theorem State.startsCall_of_sent?
    {state next : State}
    {id : ℕ}
    {url host : PyStr}
    (before : state.sent? id = none)
    (after : next.sent? id = some (url, host)) :
    ∃ item, item.request.request.url = url ∧ state.StartsCall next item host id := by
  unfold State.sent? at after
  split at after
  · next item called probe current =>
      obtain ⟨rfl, rfl⟩ := Prod.mk.inj (Option.some.inj after)
      refine ⟨item, rfl, fun same => ?_, probe, current⟩
      rw [← same] at current
      simp [State.sent?, current] at before
  · cases after

/-- A call that was admitted while the breaker was CLOSED gets its token after
another worker's failure has opened it, and starts. -/
theorem call_through_open_breaker :
    ∃ state label next item host id, Reachable (step hasty) (State.boot {}) state ∧
      step hasty label state = some next ∧ state.StartsCall next item host id ∧
      (next.breakers.lookup host).state = .open ∧ ¬ next.LetsThrough hasty host id := by
  have passes : (executeChecked (step hasty) (fun _ _ => true) waitingLabels
      (State.boot {})).any (fun state => decide (state.sent? 2 = none) &&
        (step hasty (.step 2 .proceed) state).any (fun next =>
          decide (next.sent? 2 = some
            (PyStr.ofString "http://example.org/second", PyStr.ofString "example.org")) &&
          decide ((next.breakers.lookup "example.org").state = .open))) = true := by
    decide +kernel
  obtain ⟨state, run, tested⟩ := exists_run_of_executeChecked (fun _ _ _ => trivial) passes
  simp only [Bool.and_eq_true, decide_eq_true_eq, Option.any_eq_true] at tested
  obtain ⟨before, next, moved, after, opened⟩ := tested
  obtain ⟨item, _, starts⟩ := State.startsCall_of_sent? before after
  refine ⟨state, _, next, item, "example.org", 2, run, moved, starts, opened, ?_⟩
  rintro (closed | ⟨halfOpen, _⟩)
  · simp [opened] at closed
  · simp [opened] at halfOpen

/-- Where no failure opens a breaker beside a worker that waits behind it, every
call starts with the breaker of its request's host CLOSED, or HALF_OPEN with one
of at most as many slots as there may be probes. -/
theorem no_call_through_open_breaker
    (env : Env)
    (tables : Tables)
    (now : ℚ)
    (state : State)
    (run : Run (step env) (fun before label => ¬ OpensBeside env before label)
      (State.boot tables now) state)
    (label : Label)
    (next : State)
    (moved : step env label state = some next)
    (item : QueueItem)
    (host : PyStr)
    (id : ℕ)
    (starts : state.StartsCall next item host id) :
    env.hostOf? item.request.request.url = some host ∧ next.LetsThrough env host id := by
  have invariant : state.Tidy ∧ state.Behind ∧ State.SlotsCounted env state ∧
      state.Routed env := by
    apply run.invariant (fun state =>
      state.Tidy ∧ state.Behind ∧ State.SlotsCounted env state ∧ state.Routed env)
    · refine ⟨State.tidy_boot tables now [], ?_, ⟨?_, ?_, ?_⟩, ?_⟩
      · rintro host probe id ⟨_, _, _, _, current⟩
        cases current
      · rintro host period id (⟨_, _, _, _, current⟩ | ⟨_, current⟩) <;> cases current
      · intro host halfOpen
        cases halfOpen
      · intro host halfOpen
        cases halfOpen
      · intro id item point host current
        cases current
    · rintro before label after ⟨tidy, behind, counted, routed⟩ beside moved
      exact ⟨(step_stepped moved).tidy tidy, behind.step tidy beside moved,
        counted.step tidy moved, routed.step tidy moved⟩
  obtain ⟨tidy, behind, counted, routed⟩ := invariant
  refine ⟨?_, starts.letsThrough behind counted tidy moved⟩
  obtain ⟨_, probe, current⟩ := starts
  exact routed.step tidy moved id item (.executing host probe) host current rfl

/-- No worker waits in the rate limiter. -/
def notWaiting : Task → Bool
  | .worker (.handling _ (.acquiring _ _ _ _ _)) => false
  | _ => true

/-- A check for steps in which no breaker opens beside a waiting worker. -/
def opensAlone (state : State) (label : Label) : Bool :=
  match label with
  | .step _ (.http _ _) => (List.range state.spawned).all fun id =>
      (state.tasks id).all notWaiting
  | _ => true

theorem opensAlone_sound
    {env : Env}
    {state : State}
    {label : Label}
    (tidy : state.Tidy)
    (passes : opensAlone state label = true) :
    ¬ OpensBeside env state label := by
  rintro ⟨_, _, _, _, _, _, rfl, _, _, _, other, _, _, _, _, _, waiting⟩
  cases tidy.forall_task passes other _ waiting

theorem probe_starts_through_half_open_breaker :
    ∃ state next item id,
      Run (step fragile) (fun before label => ¬ OpensBeside fragile before label)
        (State.boot {}) state ∧
      step fragile (.step id .proceed) state = some next ∧
      state.StartsCall next item "example.org" id ∧
      (next.breakers.lookup "example.org").state = .halfOpen ∧
      next.LetsThrough fragile "example.org" id := by
  have passes : (executeChecked (step fragile) opensAlone
      (openedLabels ++ requestLabels 3 "http://example.org/second" ++
        [.step 1 .proceed, .step 1 (.jitter 0)])
      (State.boot {})).any (fun state => decide (state.sent? 1 = none) &&
        (step fragile (.step 1 .proceed) state).any (fun next =>
          decide (next.sent? 1 = some
            (PyStr.ofString "http://example.org/second", PyStr.ofString "example.org")) &&
          decide ((next.breakers.lookup "example.org").state = .halfOpen))) = true := by
    decide +kernel
  obtain ⟨state, replayed, tested⟩ := exists_run_of_executeChecked
    (fun _ _ passes => passes) passes
  have run : Run (step fragile) (fun before label => ¬ OpensBeside fragile before label)
      (State.boot {}) state := by
    apply (replayed.with_invariant State.Tidy (State.tidy_boot {} 0 []) ?_).mono
    · rintro before label ⟨tidy, alone⟩
      exact opensAlone_sound tidy alone
    · intro before label after tidy _ moved
      exact (step_stepped moved).tidy tidy
  simp only [Bool.and_eq_true, decide_eq_true_eq, Option.any_eq_true] at tested
  obtain ⟨before, next, moved, after, halfOpen⟩ := tested
  obtain ⟨item, _, starts⟩ := State.startsCall_of_sent? before after
  exact ⟨state, next, item, 1, run, moved, starts, halfOpen,
    (no_call_through_open_breaker fragile {} 0 state run _ next moved item _ 1 starts).2⟩

end HardenedClient
