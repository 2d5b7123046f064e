import HardenedClient.Client.Frame
import HardenedClient.Client.Replay

/-!
# Breaker recovery

A HALF_OPEN breaker counts the probes it has admitted and is left by their
outcomes. Its slots come back as long as every probe of the current half-open
period reports an outcome; a probe that ends without one keeps its slot taken.
-/

namespace HardenedClient

open Foundation

/-- The host whose breaker has admitted the call, between `before_call` and the
end of the HTTP exchange. -/
def HandlePoint.host? : HandlePoint → Option PyStr
  | .acquiring host _ _ _ _ | .executing host _ => some host
  | _ => none

/-- The probe slot the call was given: its host and half-open period. -/
def HandlePoint.slot? : HandlePoint → Option (PyStr × ℕ)
  | .acquiring host (some period) _ _ _ | .executing host (some period) => some (host, period)
  | _ => none

theorem HandlePoint.host?_of_slot?
    {point : HandlePoint}
    {host : PyStr}
    {period : ℕ}
    (slot : point.slot? = some (host, period)) :
    point.host? = some host := by
  cases point with
  | acquiring _ probe | executing _ probe => cases probe <;> simp_all [slot?, host?]
  | _ => cases slot

namespace State

/-- A call admitted by the host's breaker is outstanding in a worker. -/
def Admitted (state : State) (host : PyStr) (id : ℕ) : Prop :=
  ∃ item point, state.tasks id = some (.worker (.handling item point)) ∧
    point.host? = some host

/-- A worker has a probe slot of the host's current half-open period. -/
def HoldsSlot (state : State) (host : PyStr) (id : ℕ) : Prop :=
  ∃ item point, state.tasks id = some (.worker (.handling item point)) ∧
    point.slot? = some (host, state.periods host)

/-- Used probe slots of a HALF_OPEN breaker belong to some worker. -/
def SlotsHeld (state : State) : Prop :=
  ∀ host, (state.breakers.lookup host).state = .halfOpen →
    (state.breakers.lookup host).inflightProbes ≠ 0 → ∃ id, state.HoldsSlot host id

end State

/-- The call ends without an outcome for the breaker: a 429, an exception
outside `Exception`, or an exception that escapes before the request is sent. -/
def EndsUnreported (env : Env) (state : State) (item : QueueItem) :
    HandlePoint → Choice → Prop
  | .executing _ _, .http event _ => ∃ exc,
      execute item.request.request item.attempt event = .error exc ∧
        (isThrottle exc = true ∨ exc.isException = false)
  | .acquiring host probe bucket delayTotal wakeAt, choice =>
      Escapes env state item (.acquiring host probe bucket delayTotal wakeAt) choice
  | _, _ => False

/-- A worker with a probe slot of a HALF_OPEN breaker ends its call without an
outcome, or is cancelled. -/
def LeaksSlot (env : Env) (state : State) (label : Label) : Prop :=
  ∃ id host item point, state.tasks id = some (.worker (.handling item point)) ∧
    point.slot? = some (host, state.periods host) ∧
    (state.breakers.lookup host).state = .halfOpen ∧
    (label = .cancelWorker id ∨
      ∃ choice, label = .step id choice ∧ EndsUnreported env state item point choice)

/-! ## Writes to the breakers -/

theorem HostCircuitBreakers.lookup_report_of_ne
    (registry : HostCircuitBreakers)
    {host other : PyStr}
    (callback : CircuitBreaker → CircuitBreaker)
    (different : other ≠ host) :
    (registry.report host callback).lookup other = registry.lookup other := by
  unfold report
  split
  · exact registry.lookup_store_of_ne _ different
  · rfl

/-- After a callback that leaves HALF_OPEN, the host's breaker is not in it. -/
theorem HostCircuitBreakers.report_ne_halfOpen
    (registry : HostCircuitBreakers)
    (host : PyStr)
    {callback : CircuitBreaker → CircuitBreaker}
    (leaves : ∀ breaker, (callback breaker).state ≠ .halfOpen) :
    ((registry.report host callback).lookup host).state ≠ .halfOpen := by
  unfold report
  split
  · rw [lookup_store_self]
    exact leaves _
  · next absent => simp [lookup, absent]

namespace State

variable {env : Env} {state next : State} {id : ℕ} {item : QueueItem}

theorem retryOrDlq_breakers
    (env : Env)
    (state : State)
    (id : ℕ)
    (item : QueueItem)
    (exc : PyException)
    (retryAfter : Option PyFloat)
    (draw : ℚ) :
    (state.retryOrDlq env id item exc retryAfter draw).breakers = state.breakers ∧
      (state.retryOrDlq env id item exc retryAfter draw).periods = state.periods := by
  unfold retryOrDlq
  split <;> exact ⟨rfl, rfl⟩

/-- The gate leaves the breakers alone when it raises, and otherwise stores what
`before_call` makes of the host's breaker; an admitted call gets a slot of the
period when the breaker is HALF_OPEN. -/
theorem gate_breakers
    (env : Env)
    (state : State)
    (id : ℕ)
    (item : QueueItem)
    (draw : ℚ) :
    ((state.gate env id item draw).breakers = state.breakers ∧
      (state.gate env id item draw).periods = state.periods ∧
      ∃ exc, (state.gate env id item draw).tasks id = some (.worker (.ended exc))) ∨
    ∃ host after period, env.hostOf? item.request.request.url = some host ∧
      (state.gate env id item draw).breakers = state.breakers.store host after ∧
      (state.gate env id item draw).periods =
        Function.update state.periods host period ∧
      after =
        ((state.breakers.lookup host).beforeCall env.config.circuitBreaker state.now).1 ∧
      (period = state.periods host ∧
          ((state.breakers.lookup host).state = .open → after.state ≠ .halfOpen) ∨
        (state.breakers.lookup host).state = .open ∧ after.state = .halfOpen ∧
          period = state.periods host + 1) ∧
      (((state.breakers.lookup host).beforeCall env.config.circuitBreaker state.now).2 =
          none → after.state = .halfOpen →
        (state.gate env id item draw).HoldsSlot host id) := by
  cases parsed : env.hostOf? item.request.request.url with
  | none =>
      simp only [gate, parsed]
      exact Or.inl ⟨rfl, rfl, _, escape_tasks_self _ _ _⟩
  | some host =>
      cases found : state.breakers.forHost? env.config.circuitBreaker host with
      | none =>
          simp only [gate, parsed, found]
          exact Or.inl ⟨rfl, rfl, _, escape_tasks_self _ _ _⟩
      | some breaker =>
          have isLookup := HostCircuitBreakers.forHost?_eq_some found
          refine Or.inr ⟨host,
            (breaker.beforeCall env.config.circuitBreaker state.now).1,
            if breaker.state = .open ∧
                (breaker.beforeCall env.config.circuitBreaker state.now).1.state = .halfOpen
              then state.periods host + 1 else state.periods host, ?_⟩
          simp only [gate, parsed, found, ← isLookup]
          have counts : ∀ opened halfOpen : Prop, ∀ [Decidable (opened ∧ halfOpen)],
              ((if opened ∧ halfOpen then state.periods host + 1 else state.periods host) =
                  state.periods host ∧ (opened → ¬ halfOpen)) ∨
                opened ∧ halfOpen ∧
                  (if opened ∧ halfOpen then state.periods host + 1
                    else state.periods host) = state.periods host + 1 := by
            intro opened halfOpen _
            by_cases both : opened ∧ halfOpen
            · simp [both]
            · simpa [both] using fun isOpen isHalfOpen => both ⟨isOpen, isHalfOpen⟩
          cases called : (breaker.beforeCall env.config.circuitBreaker state.now).2 with
          | some exc =>
              simp only [retryOrDlq_breakers]
              exact ⟨trivial, trivial, trivial, trivial, counts _ _, by simp⟩
          | none =>
              refine ⟨trivial, rfl, rfl, trivial, counts _ _, fun _ halfOpen => ?_⟩
              · refine ⟨item, _, by simp [moveTo, setTask]; rfl, ?_⟩
                simp [HandlePoint.slot?, halfOpen, moveTo, setTask]

/-- The end of an HTTP exchange is reported to the host's breaker, unless the
call ends unreported. -/
theorem receive_breakers
    (env : Env)
    (state : State)
    (id : ℕ)
    (item : QueueItem)
    (host : PyStr)
    (probe : Option ℕ)
    (event : HttpEvent)
    (draw : ℚ) :
    (state.receive env id item host event draw).periods = state.periods ∧
      (((state.receive env id item host event draw).breakers = state.breakers ∧
          EndsUnreported env state item (.executing host probe) (.http event draw)) ∨
        ∃ callback : CircuitBreaker → CircuitBreaker,
          (∀ breaker, (callback breaker).state ≠ .halfOpen) ∧
          (state.receive env id item host event draw).breakers =
            state.breakers.report host callback) := by
  unfold receive
  cases executed : execute item.request.request item.attempt event with
  | ok response =>
      exact ⟨rfl, Or.inr ⟨_, CircuitBreaker.onSuccess_state_ne_halfOpen _, rfl⟩⟩
  | error exc =>
      simp only
      cases handler : caught? exc with
      | none =>
          exact ⟨rfl, Or.inl ⟨rfl, exc, executed, Or.inr ((caught?_eq_none_iff exc).mp handler)⟩⟩
      | some handled =>
          obtain ⟨error, reported⟩ := handled
          simp only [retryOrDlq_breakers]
          refine ⟨rfl, ?_⟩
          cases reported with
          | true =>
              exact Or.inr ⟨_, CircuitBreaker.onFailure_state_ne_halfOpen
                env.config.circuitBreaker state.now, by simp⟩
          | false =>
              refine Or.inl ⟨by simp, exc, executed, Or.inl ?_⟩
              unfold caught? at handler
              split_ifs at handler
              · simpa using congrArg Prod.snd (Option.some.inj handler)
              · cases handler
              · cases handler

/-- A step of `_handle` before the gate or after the HTTP exchange leaves the
breakers alone. -/
theorem stepHandle_breakers
    {point : HandlePoint}
    {choice : Choice}
    (moved : state.stepHandle env id item point choice = some next)
    (notGating : point ≠ .gating)
    (notExecuting : ∀ host probe, point ≠ .executing host probe) :
    next.breakers = state.breakers ∧ next.periods = state.periods := by
  cases point <;> cases choice <;> simp only [stepHandle, reduceCtorEq] at moved
  case gating => exact absurd rfl notGating
  case executing => exact absurd rfl (notExecuting _ _)
  case acquiring.proceed host probe bucket delayTotal wakeAt =>
    have round : ∀ (limiter : HostRateLimiter) (held : ℕ),
        ({ state with limiter := limiter }.acquireRound id item host probe held
          delayTotal).breakers = state.breakers ∧
        ({ state with limiter := limiter }.acquireRound id item host probe held
          delayTotal).periods = state.periods := by
      intro limiter held
      unfold acquireRound
      split <;> exact ⟨rfl, rfl⟩
    unfold acquire at moved
    split_ifs at moved
    cases bucket with
    | some held =>
        rw [← Option.some.inj moved]
        exact round state.limiter held
    | none =>
        simp only at moved
        split at moved <;> rw [← Option.some.inj moved]
        · exact ⟨rfl, rfl⟩
        · exact round _ _
  case hooking.hook response raised =>
    cases raised with
    | none =>
        rw [← Option.some.inj moved]
        exact ⟨rfl, rfl⟩
    | some exc =>
        simp only at moved
        split at moved <;> rw [← Option.some.inj moved] <;> exact ⟨rfl, rfl⟩
  case resolving.proceed | failing.proceed =>
    rw [← Option.some.inj moved]
    rw [settleKey_eq]
    exact ⟨rfl, rfl⟩
  all_goals
    try split at moved
    all_goals
      rw [← Option.some.inj moved]
      exact ⟨rfl, rfl⟩

/-- A slot stays with a worker that a step does not move. -/
theorem HoldsSlot.of_frame
    {host : PyStr}
    {actor : ℕ}
    (holds : state.HoldsSlot host id)
    (frame : Frame actor state next)
    (tidy : state.Tidy)
    (different : id ≠ actor)
    (periods : next.periods host = state.periods host) :
    next.HoldsSlot host id := by
  obtain ⟨item, point, current, slot⟩ := holds
  refine ⟨item, point, ?_, periods ▸ slot⟩
  rw [frame.others id (tidy.lt_of_task current) different, current]

/-- The worker of a host's slot, when the breaker of the host keeps its state. -/
theorem SlotsHeld.of_same
    {actor : ℕ}
    (held : state.SlotsHeld)
    (frame : Frame actor state next)
    (tidy : state.Tidy)
    (breakers : next.breakers = state.breakers)
    (periods : next.periods = state.periods)
    (actorHolds : ∀ host, (state.breakers.lookup host).state = .halfOpen →
      state.HoldsSlot host actor → next.HoldsSlot host actor) :
    next.SlotsHeld := by
  intro host halfOpen used
  rw [breakers] at halfOpen used
  obtain ⟨id, holds⟩ := held host halfOpen used
  by_cases isActor : id = actor
  · subst isActor
    exact ⟨id, actorHolds host halfOpen holds⟩
  · exact ⟨id, holds.of_frame frame tidy isActor (congrFun periods host)⟩

/-- A step of a worker at the gate keeps the used slots held. -/
theorem SlotsHeld.gate
    {draw : ℚ}
    (held : state.SlotsHeld)
    (probes : 1 ≤ env.config.circuitBreaker.halfOpenMaxProbes)
    (current : state.tasks id = some (.worker (.handling item .gating)))
    (tidy : state.Tidy)
    (frame : Frame id state (state.gate env id item draw)) :
    (state.gate env id item draw).SlotsHeld := by
  have actorFree : ∀ host, ¬ state.HoldsSlot host id := by
    rintro host ⟨item, point, present, slot⟩
    rw [current] at present
    cases present
    cases slot
  rcases gate_breakers env state id item draw with
    ⟨breakers, periods, _⟩ | ⟨host, after, period, _, breakers, periods, isAfter, step, admitted⟩
  · exact held.of_same frame tidy breakers periods fun host _ holds =>
      absurd holds (actorFree host)
  intro other halfOpen used
  rw [breakers] at halfOpen used
  by_cases isHost : other = host
  · subst isHost
    rw [HostCircuitBreakers.lookup_store_self] at halfOpen used
    cases called : ((state.breakers.lookup other).beforeCall env.config.circuitBreaker
        state.now).2 with
    | none => exact ⟨id, admitted called halfOpen⟩
    | some exc =>
        -- a blocked call finds the breaker HALF_OPEN and leaves its count alone
        have unchanged : (state.breakers.lookup other).state = .halfOpen ∧
            after = state.breakers.lookup other := by
          rcases CircuitBreaker.beforeCall_cases env.config.circuitBreaker state.now
              (state.breakers.lookup other) with
            ⟨cooling, same⟩ | ⟨closed, same⟩ | ⟨warm, notClosed, count, isCount, full | free⟩
          · rw [same] at isAfter
            have isLookup : after = state.breakers.lookup other := isAfter
            exact ⟨isLookup ▸ halfOpen, isLookup⟩
          · rw [same] at called
            cases called
          · by_cases opened : (state.breakers.lookup other).state = .open
            · rw [if_pos opened] at isCount
              have := full.1
              omega
            · have wasHalfOpen : (state.breakers.lookup other).state = .halfOpen := by
                cases current : (state.breakers.lookup other).state <;> simp_all
              rw [if_neg opened] at isCount
              rw [full.2, isCount, ← wasHalfOpen] at isAfter
              exact ⟨wasHalfOpen, isAfter⟩
          · rw [free.2] at called
            cases called
        obtain ⟨wasHalfOpen, same⟩ := unchanged
        rw [same] at used
        obtain ⟨holder, holds⟩ := held other wasHalfOpen used
        refine ⟨holder, holds.of_frame frame tidy ?_ ?_⟩
        · rintro rfl
          exact actorFree other holds
        · rw [periods, Function.update_self]
          rcases step with ⟨kept, _⟩ | ⟨opened, _⟩
          · exact kept
          · rw [wasHalfOpen] at opened
            cases opened
  · rw [HostCircuitBreakers.lookup_store_of_ne _ _ isHost] at halfOpen used
    obtain ⟨holder, holds⟩ := held other halfOpen used
    refine ⟨holder, holds.of_frame frame tidy ?_ ?_⟩
    · rintro rfl
      exact actorFree other holds
    · rw [periods, Function.update_of_ne isHost]

/-- A step of a worker at the end of an HTTP exchange keeps the used slots held,
unless it ends a slot's call unreported. -/
theorem SlotsHeld.receive
    {host : PyStr}
    {probe : Option ℕ}
    {event : HttpEvent}
    {draw : ℚ}
    (held : state.SlotsHeld)
    (current : state.tasks id = some (.worker (.handling item (.executing host probe))))
    (reports : ¬ LeaksSlot env state (.step id (.http event draw)))
    (tidy : state.Tidy)
    (frame : Frame id state (state.receive env id item host event draw)) :
    (state.receive env id item host event draw).SlotsHeld := by
  obtain ⟨periods, reported⟩ := receive_breakers env state id item host probe event draw
  rcases reported with ⟨breakers, unreported⟩ | ⟨callback, leaves, breakers⟩
  · refine held.of_same frame tidy breakers periods fun other halfOpen holds => ?_
    obtain ⟨own, point, present, slot⟩ := holds
    rw [current] at present
    cases present
    exact absurd ⟨id, other, item, _, current, slot, halfOpen,
      Or.inr ⟨_, rfl, unreported⟩⟩ reports
  · intro other halfOpen used
    rw [breakers] at halfOpen used
    by_cases isHost : other = host
    · subst isHost
      exact absurd halfOpen (state.breakers.report_ne_halfOpen other leaves)
    · rw [HostCircuitBreakers.lookup_report_of_ne _ _ isHost] at halfOpen used
      obtain ⟨holder, holds⟩ := held other halfOpen used
      refine ⟨holder, holds.of_frame frame tidy ?_ (congrFun periods other)⟩
      rintro rfl
      obtain ⟨own, point, present, slot⟩ := holds
      rw [current] at present
      cases present
      have := HandlePoint.host?_of_slot? slot
      exact isHost (Option.some.inj this).symm

/-- A step of a worker inside `_handle` keeps the used slots held, unless it
leaks one. -/
theorem SlotsHeld.handle
    {point : HandlePoint}
    {choice : Choice}
    (held : state.SlotsHeld)
    (probes : 1 ≤ env.config.circuitBreaker.halfOpenMaxProbes)
    (current : state.tasks id = some (.worker (.handling item point)))
    (reports : ¬ LeaksSlot env state (.step id choice))
    (tidy : state.Tidy)
    (frame : Frame id state next)
    (moved : state.stepHandle env id item point choice = some next) :
    next.SlotsHeld := by
  have noSlot : point.slot? = none → ∀ host, ¬ state.HoldsSlot host id := by
    rintro free host ⟨own, there, present, slot⟩
    rw [current] at present
    cases present
    rw [free] at slot
    cases slot
  cases point with
  | gating =>
      cases choice <;> simp only [stepHandle, reduceCtorEq] at moved
      split_ifs at moved
      obtain rfl := Option.some.inj moved
      exact held.gate probes current tidy frame
  | executing host probe =>
      cases choice <;> simp only [stepHandle, reduceCtorEq] at moved
      split_ifs at moved
      obtain rfl := Option.some.inj moved
      exact held.receive current reports tidy frame
  | acquiring host probe bucket delayTotal wakeAt =>
      obtain ⟨breakers, periods⟩ := stepHandle_breakers moved (by simp) (by simp)
      refine held.of_same frame tidy breakers periods fun other halfOpen holds => ?_
      obtain ⟨own, there, present, slot⟩ := holds
      rw [current] at present
      cases present
      rcases stepHandle_ends moved with ⟨escapes, _⟩ | ⟨_, handled⟩
      · exact absurd ⟨id, other, item, _, current, slot, halfOpen,
          Or.inr ⟨choice, rfl, escapes⟩⟩ reports
      · cases handled with
        | advanced advances =>
            cases advances with
            | waits | granted =>
                refine ⟨item, _, by simp only [moveTo, setTask, Function.update_self]; rfl, ?_⟩
                cases probe with
                | none => cases slot
                | some period => exact slot.trans (by rw [periods])
  | _ =>
      obtain ⟨breakers, periods⟩ := stepHandle_breakers moved (by simp) (by simp)
      exact held.of_same frame tidy breakers periods fun other _ holds =>
        absurd holds (noSlot rfl other)

end State

/-- Every step that leaks no slot keeps the used slots held. -/
theorem State.SlotsHeld.step
    {env : Env}
    {state next : State}
    {label : Label}
    (held : state.SlotsHeld)
    (probes : 1 ≤ env.config.circuitBreaker.halfOpenMaxProbes)
    (tidy : state.Tidy)
    (reports : ¬ LeaksSlot env state label)
    (moved : HardenedClient.step env label state = some next) :
    next.SlotsHeld := by
  have stepped := step_stepped moved
  by_cases crashed : label = .crash
  · subst crashed
    rw [← Option.some.inj moved]
    intro host halfOpen
    cases halfOpen
  have frame := stepped.frame tidy crashed
  -- the actor of a step outside `_handle` holds no slot
  have outside : next.breakers = state.breakers → next.periods = state.periods →
      (∀ item point,
        state.tasks (label.actor state) ≠ some (.worker (.handling item point))) →
      next.SlotsHeld := by
    intro breakers periods free
    refine held.of_same frame tidy breakers periods fun host _ holds => ?_
    obtain ⟨item, point, current, _⟩ := holds
    exact absurd current (free item point)
  have unborn : state.tasks state.spawned = none := tidy _ (Nat.le_refl _)
  cases stepped with
  | crash => exact absurd rfl crashed
  | outside isOutside =>
      have actor : label.actor state = state.spawned := by
        cases label <;> first | rfl | cases isOutside
      exact outside rfl rfl (by simp [actor, unborn])
  | purged | request | replay | drain | start | stop =>
      exact outside rfl rfl (by simp [Label.actor, unborn])
  | caller current | upserted current | removed current | cancelCaller current
    | cancelStarter current | reschedule current | starter current | drainer current
    | stopper current | taken current | cancelIdle current | online current =>
      exact outside rfl rfl (by simp [Label.actor, current])
  | @cancelHandling id item point current requested =>
      refine held.of_same frame tidy rfl rfl fun host halfOpen holds => ?_
      obtain ⟨item, point, present, slot⟩ := holds
      exact absurd ⟨id, host, item, point, present, slot, halfOpen, Or.inl rfl⟩ reports
  | handled current _ _ | escaped current _ _ =>
      refine held.handle probes current reports tidy frame ?_
      simpa [HardenedClient.step, State.stepTask, current, State.stepWorker] using moved

/-! ## Runs -/

/-- In every run that leaks no probe slot, a host without an outstanding call
whose cool-down is over admits the next call. -/
theorem breaker_recovers
    (env : Env)
    (probes : 1 ≤ env.config.circuitBreaker.halfOpenMaxProbes)
    (tables : Tables)
    (now : ℚ)
    (state : State)
    (run : Run (step env) (fun before label => ¬ LeaksSlot env before label)
      (State.boot tables now) state)
    (host : PyStr)
    (idle : ∀ id, ¬ state.Admitted host id)
    (warm : (state.breakers.lookup host).coolingDown env.config.circuitBreaker state.now =
      false) :
    ((state.breakers.lookup host).beforeCall env.config.circuitBreaker state.now).2 = none := by
  have invariant : state.Tidy ∧ state.SlotsHeld := by
    refine run.invariant (fun state => state.Tidy ∧ state.SlotsHeld) ⟨?_, ?_⟩ ?_
    · exact State.tidy_boot tables now []
    · intro host halfOpen
      cases halfOpen
    · intro before label after holds reports moved
      exact ⟨(step_stepped moved).tidy holds.1, holds.2.step probes holds.1 reports moved⟩
  rw [CircuitBreaker.beforeCall_admits_iff]
  refine ⟨warm, fun isFull => ?_⟩
  obtain ⟨_, notClosed, enough⟩ := isFull
  by_cases opened : (state.breakers.lookup host).state = .open
  · rw [if_pos opened] at enough
    omega
  · have halfOpen : (state.breakers.lookup host).state = .halfOpen := by
      cases current : (state.breakers.lookup host).state <;> simp_all
    rw [if_neg opened] at enough
    obtain ⟨id, item, point, current, slot⟩ := invariant.2 host halfOpen (by omega)
    exact idle id ⟨item, point, current, HandlePoint.host?_of_slot? slot⟩

/-- A client whose breaker opens at the first failure, and that never retries. -/
def fragile : Env where
  config := {
    circuitBreaker := { failureThreshold := 1 }
    retry := { maxRetries := 0 }
    queue := { workers := 1 } }
  urlparse := netloc?
  lower := List.map lowerAscii

/-- A request that is answered with 500, and the cool-down it causes. -/
def openedLabels : List Label :=
  startLabels ++ requestLabels 2 "http://example.org/first" ++ sendLabels 1 ++
    answerLabels 1 500 3 ++ [.tick 30]

/-- A second request, which becomes the probe and is answered with a status, and
the worker's steps until it waits again. -/
def probeLabels (status steps : ℕ) : List Label :=
  requestLabels 3 "http://example.org/second" ++ sendLabels 1 ++ answerLabels 1 status steps

/-- No worker is inside `_handle`. -/
def noHandling : Task → Bool
  | .worker (.handling _ _) => false
  | _ => true

/-- A probe that is answered with 429 keeps its slot: with nothing outstanding
and no cool-down, the breaker blocks every further call. -/
theorem breaker_not_recovers :
    ∃ state, Reachable (step fragile) (State.boot {}) state ∧
      (∀ host id, ¬ state.Admitted host id) ∧
      (state.breakers.lookup "example.org").coolingDown fragile.config.circuitBreaker
        state.now = false ∧
      ((state.breakers.lookup "example.org").beforeCall fragile.config.circuitBreaker
        state.now).2.isSome = true := by
  have passes : (executeChecked (step fragile) (fun _ _ => true)
      (openedLabels ++ probeLabels 429 3) (State.boot {})).any (fun state =>
        ((List.range state.spawned).all fun id => (state.tasks id).all noHandling) &&
        decide ((state.breakers.lookup "example.org").coolingDown
          fragile.config.circuitBreaker state.now = false) &&
        ((state.breakers.lookup "example.org").beforeCall fragile.config.circuitBreaker
          state.now).2.isSome) = true := by
    decide +kernel
  obtain ⟨state, run, tested⟩ := exists_run_of_executeChecked (fun _ _ _ => trivial) passes
  simp only [Bool.and_eq_true, decide_eq_true_eq] at tested
  refine ⟨state, run, ?_, tested.1.2, tested.2⟩
  rintro host id ⟨item, point, current, _⟩
  have tidy := State.Tidy.of_run (State.tidy_boot {} 0 []) run
  cases tidy.forall_task tested.1.1 id _ current

/-- A check for steps that leak no slot on replayed runs. -/
def reportsOutcome (env : Env) (state : State) : Label → Bool
  | .cancelWorker _ => false
  | .step id choice =>
      match state.tasks id with
      | some (.worker (.handling _ point)) =>
          match point, choice with
          | .acquiring host _ _ _ _, _ =>
              decide (0 < (state.limiter.configFor env.config.rateLimit host).ratePerSecond) &&
              decide (0 < (state.limiter.configFor env.config.rateLimit host).burst)
          | .executing _ _, .http (.reply reply) _ =>
              decide (reply.text = [] ∧ reply.status ≠ 429)
          | .executing _ _, _ => false
          | _, _ => true
      | _ => true
  | _ => true

theorem reportsOutcome_sound
    (env : Env)
    (state : State)
    (label : Label)
    (passes : reportsOutcome env state label = true) :
    ¬ LeaksSlot env state label := by
  rintro ⟨id, host, item, point, current, slot, halfOpen, rfl | ⟨choice, rfl, unreported⟩⟩
  · cases passes
  · simp only [reportsOutcome, current] at passes
    cases point <;> try exact unreported
    case acquiring probe bucket delayTotal wakeAt =>
      simp only [Bool.and_eq_true, decide_eq_true_eq] at passes
      cases bucket with
      | some held => exact unreported
      | none =>
          rcases unreported.2 with slow | small
          · exact absurd passes.1 (not_lt_of_ge slow)
          · exact absurd passes.2 (not_lt_of_ge small)
    case executing =>
      cases choice <;> try exact unreported
      case http event draw =>
        cases event with
        | raises exc => cases passes
        | reply reply =>
            obtain ⟨exc, raised, throttled | outside⟩ := unreported
            all_goals
              simp only [decide_eq_true_eq] at passes
              simp only [execute, readResponse, passes.1, if_true] at raised
              split_ifs at raised <;> cases raised <;> simp_all [isThrottle,
                PyException.isException]

theorem breaker_recovers_after_probe :
    ∃ state, Run (step fragile) (fun before label => ¬ LeaksSlot fragile before label)
        (State.boot {}) state ∧
      ((state.breakers.lookup "example.org").beforeCall fragile.config.circuitBreaker
        state.now).2 = none := by
  have passes : (executeChecked (step fragile) (reportsOutcome fragile)
      (openedLabels ++ probeLabels 200 3) (State.boot {})).any (fun state =>
        ((List.range state.spawned).all fun id => (state.tasks id).all noHandling) &&
        decide ((state.breakers.lookup "example.org").coolingDown
          fragile.config.circuitBreaker state.now = false)) = true := by
    decide +kernel
  obtain ⟨state, run, tested⟩ :=
    exists_run_of_executeChecked (reportsOutcome_sound fragile) passes
  simp only [Bool.and_eq_true, decide_eq_true_eq] at tested
  refine ⟨state, run, breaker_recovers fragile (by decide) {} 0 state run "example.org" ?_
    tested.2⟩
  rintro id ⟨item, point, current, _⟩
  have tidy := State.Tidy.of_run (State.tidy_boot {} 0 []) run
  cases tidy.forall_task tested.1 id _ current

end HardenedClient
