import HardenedClient.CallerCancellation
import HardenedClient.Client.Replay
import HardenedClient.Conservation
import HardenedClient.Life
import HardenedClient.StoredIdentity

/-!
# Every item lives as the closed form says

One step takes a live item one stage further, or leaves it where it is, and what the
journal shows of it is what the stages say. An item stays live until the worker at the
end of `_handle` settles its future, as long as no task loses its item and recovered
rows hold requests of their own key.
-/

namespace HardenedClient

open Foundation

/-! ## One step of one item -/

/-- What a step makes of a live item and its stage, and what it shows. -/
inductive Onward (policy : RetryPolicy) (item : QueueItem) :
    Option HandlePoint → List LifeEvent → QueueItem → Option HandlePoint → Prop
  | stays {stage : Option HandlePoint} : Onward policy item stage [] item stage
  | taken : Onward policy item none [.handled] item (some .gating)
  | works {point next : HandlePoint}
      (working : point.works = true)
      (still : next.works = true) :
      Onward policy item (some point) [] item (some next)
  | retried {point : HandlePoint} {exc : PyException} {delay : PyFloat}
      (working : point.works = true)
      (more : (item.attempt : ℤ) < policy.maxRetries) :
      Onward policy item (some point) [.passed .retryable (.error exc)] item
        (some (.incrementing exc (item.attempt + 1) delay))
  | failed {point : HandlePoint} {outcome : PassOutcome} {exc : PyException}
      (working : point.works = true)
      (terminal : Terminal policy item.attempt outcome exc) :
      Onward policy item (some point) [.passed outcome (.error exc)] item
        (some (.deadLettering exc))
  | succeeded {point : HandlePoint} {response : Response}
      (working : point.works = true)
      (retries : response.retries = item.attempt) :
      Onward policy item (some point) [.passed .success (.ok response)] item
        (some (.deleting response))
  | deleted {response : Response} :
      Onward policy item (some (.deleting response)) [.deleted] item (some (.deleted response))
  | answered {point next : HandlePoint} {response : Response}
      (past : point = .deleted response ∨ point = .hooking response)
      (later : next = .hooking response ∨ next = .resolving response) :
      Onward policy item (some point) [] item (some next)
  | incremented {exc : PyException} {newAttempt : ℕ} {delay : PyFloat} :
      Onward policy item (some (.incrementing exc newAttempt delay)) [] item
        (some (.scheduling newAttempt delay))
  | rescheduled {newAttempt : ℕ} {delay : PyFloat} :
      Onward policy item (some (.scheduling newAttempt delay)) []
        { item with attempt := newAttempt } none
  | pushed {exc : PyException} :
      Onward policy item (some (.deadLettering exc)) [.deadLettered item.attempt] item
        (some (.retiring exc))
  | retired {exc : PyException} :
      Onward policy item (some (.retiring exc)) [.deleted] item (some (.failing exc))

/-- The await of `_handle` at which a task has its item. -/
def Task.stage? : Task → Option HandlePoint
  | .worker (.handling _ point) => some point
  | _ => none

/-- The await of `_handle` at which the item at a place is; none while it waits. -/
def State.stageAt (state : State) : Place → Option HandlePoint
  | .queue _ => none
  | .agent id => (state.tasks id).bind Task.stage?

/-- What the future of an item is settled with at the end of `_handle`. -/
inductive EndsWith : HandlePoint → Future Response → Prop
  | resolving (response : Response) : EndsWith (.resolving response) (.result response)
  | failing (exc : PyException) : EndsWith (.failing exc) (.exception (terminalError exc))

variable {policy : RetryPolicy} {start : ℕ} {item : QueueItem} {events : List LifeEvent}
  {point : HandlePoint}

theorem Underway.of_works
    (underway : Underway policy start item (some point) events)
    (working : point.works = true) :
    ∃ past, Underway policy start item none past ∧ events = past ++ [.handled] := by
  cases underway with
  | working waited => exact ⟨_, waited, rfl⟩
  | retrying _ _ isPoint | answered _ _ isPoint => rcases isPoint with rfl | rfl | rfl <;> cases working
  | _ => cases working

/-- The stages of an item follow each other. -/
theorem Underway.onward
    {after : QueueItem}
    {stage next : Option HandlePoint}
    {more : List LifeEvent}
    (underway : Underway policy start item stage events)
    (onward : Onward policy item stage more after next) :
    Underway policy start after next (events ++ more) := by
  cases onward with
  | stays => rwa [List.append_nil]
  | taken => exact .working underway rfl
  | works working still =>
      obtain ⟨past, waited, rfl⟩ := underway.of_works working
      rw [List.append_nil]
      exact .working waited still
  | retried working more =>
      obtain ⟨past, waited, rfl⟩ := underway.of_works working
      rw [List.append_assoc]
      exact .retrying waited more (Or.inl rfl)
  | failed working terminal =>
      obtain ⟨past, waited, rfl⟩ := underway.of_works working
      rw [List.append_assoc]
      exact .failed waited terminal
  | succeeded working retries =>
      obtain ⟨past, waited, rfl⟩ := underway.of_works working
      rw [List.append_assoc]
      exact .succeeded waited retries
  | deleted =>
      cases underway with
      | working _ works => cases works
      | retrying _ _ isPoint | answered _ _ isPoint => rcases isPoint with h | h | h <;> cases h
      | succeeded waited retries =>
          rw [List.append_assoc]
          exact .answered waited retries (Or.inl rfl)
  | answered past later =>
      rw [List.append_nil]
      cases underway with
      | working _ works => rcases past with rfl | rfl <;> cases works
      | retrying _ _ isPoint => rcases past with rfl | rfl <;> rcases isPoint with h | h <;> cases h
      | answered waited retries isPoint =>
          rcases past with rfl | rfl <;> rcases isPoint with h | h | h <;> cases h <;>
            exact .answered waited retries (Or.inr later)
      | _ => rcases past with h | h <;> cases h
  | incremented =>
      rw [List.append_nil]
      cases underway with
      | working _ works => cases works
      | answered _ _ isPoint => rcases isPoint with h | h | h <;> cases h
      | retrying waited more isPoint =>
          rcases isPoint with same | same <;> cases same
          exact .retrying waited more (Or.inr rfl)
  | rescheduled =>
      rw [List.append_nil]
      cases underway with
      | working _ works => cases works
      | answered _ _ isPoint => rcases isPoint with h | h | h <;> cases h
      | retrying waited more isPoint =>
          rcases isPoint with same | same <;> cases same
          obtain ⟨retried, attempt, within, rfl⟩ := waited.behind
          rw [List.cons_append, ← retriedPasses_concat]
          refine .waiting ?_ ?_
          · rw [List.length_append]
            exact congrArg (· + 1) attempt
          · unfold retriesLeft at within ⊢
            rw [List.length_append, List.length_singleton]
            omega
  | pushed =>
      cases underway with
      | working _ works => cases works
      | retrying _ _ isPoint | answered _ _ isPoint => rcases isPoint with h | h | h <;> cases h
      | failed waited terminal =>
          rw [List.append_assoc]
          exact .pushed waited terminal
  | retired =>
      cases underway with
      | working _ works => cases works
      | retrying _ _ isPoint | answered _ _ isPoint => rcases isPoint with h | h | h <;> cases h
      | pushed waited terminal =>
          rw [List.append_assoc]
          exact .retired waited terminal

/-- An item whose future is settled at the end of `_handle`. -/
theorem Underway.settle
    {future : Future Response}
    (underway : Underway policy start item (some point) events)
    (ends : EndsWith point future) :
    Settled policy start (events ++ [.settled future]) future := by
  cases ends with
  | resolving response =>
      cases underway with
      | working _ works => cases works
      | retrying _ _ isPoint => rcases isPoint with h | h <;> cases h
      | answered waited retries isPoint =>
          rcases isPoint with h | h | h <;> cases h
          rw [List.append_assoc]
          exact .succeeded waited retries
  | failing exc =>
      cases underway with
      | working _ works => cases works
      | retrying _ _ isPoint | answered _ _ isPoint => rcases isPoint with h | h | h <;> cases h
      | retired waited terminal =>
          rw [List.append_assoc]
          exact .failed waited terminal

/-! ## The step of a worker -/

/-- An error that ends a pass with an outcome. -/
inductive Fails : PassOutcome → PyException → Prop
  | retryable {exc : PyException}
      (retries : (exc.isRetryableError || exc.isCircuitOpenError) = true) :
      Fails .retryable exc
  | permanent {exc : PyException}
      (isPermanent : exc.isNonRetryableError = true) :
      Fails .permanent exc

/-- The classes of errors exclude each other. -/
theorem isNonRetryableError_eq_not
    {exc : PyException}
    (retries : (exc.isRetryableError || exc.isCircuitOpenError) = true) :
    exc.isNonRetryableError = false := by
  cases exc <;> first | rfl | cases retries

/-- A response is a success. -/
theorem outcome_of_response
    {request : Request}
    {attempt : ℕ}
    {event : HttpEvent}
    {response : Response}
    (executed : execute request attempt event = .ok response) :
    event.outcome = .success ∧ response.retries = attempt := by
  unfold execute at executed
  unfold HttpEvent.outcome
  cases event with
  | raises exc => cases executed
  | reply answered =>
      dsimp only at executed ⊢
      cases read : readResponse answered with
      | error exc =>
          rw [read] at executed
          cases executed
      | ok data =>
          rw [read] at executed
          dsimp only at executed ⊢
          split_ifs at executed with success
          · rw [if_pos success]
            cases executed
            exact ⟨rfl, rfl⟩

/-- An exception that is caught ends the pass with an error of its class. -/
theorem fails_of_caught
    {exc error : PyException}
    {reported : Bool}
    (caught : caught? exc = some (error, reported)) :
    Fails (if isRetryableException exc then .retryable else .permanent) error := by
  cases exc <;> cases caught <;> first | exact .retryable rfl | exact .permanent rfl

/-- The error that a pass is ended with is of the class that the exchange says. -/
theorem fails_of_execute
    {request : Request}
    {attempt : ℕ}
    {event : HttpEvent}
    {exc error : PyException}
    {reported : Bool}
    (executed : execute request attempt event = .error exc)
    (caught : caught? exc = some (error, reported)) :
    Fails event.outcome error := by
  have fails := fails_of_caught caught
  unfold execute at executed
  unfold HttpEvent.outcome
  cases event with
  | raises raised =>
      cases executed
      exact fails
  | reply answered =>
      dsimp only at executed ⊢
      cases read : readResponse answered with
      | error raised =>
          rw [read] at executed
          cases executed
          exact fails
      | ok data =>
          rw [read] at executed
          dsimp only at executed ⊢
          split_ifs at executed with success again <;> cases executed
          · rw [if_neg success, if_pos again]
            exact fails
          · rw [if_neg success, if_neg again]
            exact fails

namespace State

variable {env : Env} {state next : State} {label : Label} {id : ℕ}

/-- `_handle_retry_or_dlq` retries what may be retried while attempts are left. -/
theorem retryOrDlq_onward
    {outcome : PassOutcome}
    {exc : PyException}
    {retryAfter : Option PyFloat}
    {draw : ℚ}
    (working : point.works = true)
    (fails : Fails outcome exc)
    (given : retryAfter.or exc.retryAfter? = exc.retryAfter?)
    (fits : ¬ Overflows env item exc) :
    ∃ after, (state.retryOrDlq env id item exc retryAfter draw).tasks id =
        some (.worker (.handling item after)) ∧
      Onward env.config.retry item (some point) [.passed outcome (.error exc)] item
        (some after) := by
  unfold retryOrDlq
  have decision := dispose?_eq_none_iff env.config.retry item.attempt exc retryAfter draw
  rw [given] at decision
  cases decided : dispose? env.config.retry item.attempt exc retryAfter draw with
  | none => exact absurd (decision.mp decided) fits
  | some disposition =>
      unfold dispose? at decided
      split_ifs at decided with retries
      · obtain ⟨delay, _, rfl⟩ := Option.map_eq_some_iff.mp decided
        obtain ⟨class_, more⟩ := Bool.and_eq_true_iff.mp retries
        refine ⟨_, moveTo_tasks_self _ _ _ _, ?_⟩
        cases fails with
        | retryable => exact .retried working (of_decide_eq_true more)
        | permanent isPermanent =>
            rw [isNonRetryableError_eq_not class_] at isPermanent
            cases isPermanent
      · rw [← Option.some.inj decided]
        refine ⟨_, moveTo_tasks_self _ _ _ _, .failed working ?_⟩
        cases fails with
        | retryable class_ =>
            refine .exhausted (isNonRetryableError_eq_not class_) ?_
            rw [willRetry, class_, Bool.true_and, shouldRetry, decide_eq_true_eq] at retries
            omega
        | permanent isPermanent => exact .permanent isPermanent

/-- The gate of the breaker ends the pass with its exception, or lets it on. -/
theorem gate_onward
    {draw : ℚ}
    (inside : ¬ Escapes env state item .gating (.jitter draw)) :
    ∃ after, (state.gate env id item draw).tasks id = some (.worker (.handling item after)) ∧
      Onward env.config.retry item (some .gating)
        (observeHandle env state next item .gating (.jitter draw)) item (some after) := by
  cases parsed : env.hostOf? item.request.request.url with
  | none => simp only [Escapes, parsed, not_true_eq_false] at inside
  | some host =>
      cases found : state.breakers.forHost? env.config.circuitBreaker host with
      | none => simp only [Escapes, parsed, found, not_true_eq_false] at inside
      | some breaker =>
          cases called : (breaker.beforeCall env.config.circuitBreaker state.now).2 with
          | none =>
              simp only [gate, observeHandle, shortCircuit?, parsed, found, called]
              exact ⟨_, moveTo_tasks_self _ _ _ _, .works rfl rfl⟩
          | some exc =>
              simp only [Escapes, parsed, found, called, Option.some.injEq, exists_eq_left'] at inside
              simp only [gate, observeHandle, shortCircuit?, parsed, found, called]
              have isOpen : exc.isCircuitOpenError = true := by
                rcases (CircuitBreaker.beforeCall_blocked_iff _ _ _ _).mp called with
                  ⟨_, rfl⟩ | ⟨_, rfl⟩ <;> rfl
              exact retryOrDlq_onward rfl (.retryable (by rw [isOpen, Bool.or_true]))
                (by cases exc.retryAfter? <;> rfl) inside

/-- The end of the HTTP exchange ends the pass as the exchange says. -/
theorem receive_onward
    {host : PyStr}
    {probe : Option ℕ}
    {event : HttpEvent}
    {draw : ℚ}
    (inside : ¬ Escapes env state item (.executing host probe) (.http event draw)) :
    ∃ after, (state.receive env id item host event draw).tasks id =
        some (.worker (.handling item after)) ∧
      Onward env.config.retry item (some (.executing host probe))
        (observeHandle env state next item (.executing host probe) (.http event draw)) item
        (some after) := by
  simp only [Escapes] at inside
  simp only [receive, observeHandle, passResult]
  cases executed : execute item.request.request item.attempt event with
  | ok response =>
      obtain ⟨success, retries⟩ := outcome_of_response executed
      rw [success]
      exact ⟨_, moveTo_tasks_self _ _ _ _, .succeeded rfl retries⟩
  | error exc =>
      rw [executed] at inside
      dsimp only
      cases handler : caught? exc with
      | none => exact absurd ⟨exc, rfl, Or.inl ((caught?_eq_none_iff exc).mp handler)⟩ inside
      | some handled =>
          obtain ⟨error, reported⟩ := handled
          exact retryOrDlq_onward rfl (fails_of_execute executed handler) rfl fun overflows =>
            inside ⟨exc, rfl, Or.inr ⟨error, reported, handler, overflows⟩⟩

theorem itemAt_of_task
    {task : Task}
    (current : state.tasks id = some task) :
    state.itemAt (.agent id) = task.item? ∧ state.stageAt (.agent id) = task.stage? := by
  simp [itemAt, stageAt, current]

/-- A live item is at a stage that it came to by one step from another. -/
def Reaches
    (policy : RetryPolicy)
    (item : QueueItem)
    (stage : Option HandlePoint)
    (events : List LifeEvent)
    (next : State) : Prop :=
  ∃ place after, next.itemAt place = some after ∧ after.flight = item.flight ∧
    Onward policy item stage events after (next.stageAt place)

/-- An item is at the end of `_handle`, and its future is settled. -/
def Settles
    (item : QueueItem)
    (stage : Option HandlePoint)
    (events : List LifeEvent)
    (next : State) : Prop :=
  ∃ point future, stage = some point ∧ EndsWith point future ∧ events = [.settled future] ∧
    next.dedup.futures item.flight = future

theorem reaches_of_task
    {task : Task}
    {after : QueueItem}
    {stage : Option HandlePoint}
    (current : next.tasks id = some task)
    (carries : task.item? = some after)
    (same : after.flight = item.flight)
    (onward : Onward policy item stage events after task.stage?) :
    Reaches policy item stage events next := by
  obtain ⟨found, isStage⟩ := itemAt_of_task current
  exact ⟨.agent id, after, found.trans carries, same, isStage ▸ onward⟩

/-- The worker at the end of `_handle` settles the future of its item. -/
theorem settles_of_settleKey
    {future : Future Response}
    {choice : Choice}
    (single : state.SingleFlight)
    (current : state.tasks id = some (.worker (.handling item point)))
    (ends : EndsWith point future) :
    Settles item (some point) (observeHandle env state ((state.settleKey item.key future).endHandle id)
      item point choice) ((state.settleKey item.key future).endHandle id) := by
  have registered := single.registered (itemAt_of_task current).1
  have pending := (state.dedup.pendingFuture?_eq_some_iff item.key item.flight).mpr registered
  have after : ((state.settleKey item.key future).endHandle id).dedup.futures item.flight =
      future := by
    rw [settleKey_endHandle_dedup, InFlightRegistry.settle_futures, if_pos pending]
  refine ⟨point, future, rfl, ends, ?_, after⟩
  cases ends <;> simp only [observeHandle, after, registered.2] <;> rfl

/-- A worker takes its item to the next stage, or settles its future. -/
theorem stepHandle_onward
    {choice : Choice}
    (custody : Custody env state)
    (current : state.tasks id = some (.worker (.handling item point)))
    (inside : ¬ Escapes env state item point choice)
    (moved : state.stepHandle env id item point choice = some next) :
    Reaches env.config.retry item (some point) (observeHandle env state next item point choice) next ∨
      Settles item (some point) (observeHandle env state next item point choice) next := by
  have goes : ∀ {base : State} {after : HandlePoint} {events : List LifeEvent},
      Onward env.config.retry item (some point) events item (some after) →
      Reaches env.config.retry item (some point) events (base.moveTo id item after) :=
    fun onward => reaches_of_task (moveTo_tasks_self _ _ _ _) rfl rfl onward
  -- the row of an item that counts on it is there, and gone after the delete
  have deletes : ∀ after : State, point.backed? item = some item →
      after.tables.inflight = (state.tables.deleteInflight item.key).inflight →
      (if state.tables.inflight.Has item.key ∧ ¬ after.tables.inflight.Has item.key then
        [LifeEvent.deleted] else []) = [.deleted] := by
    intro after backed inflight
    obtain ⟨row, present, sameKey, _⟩ := custody.mirrored (.agent id) item
      ((backedAt_agent current).trans backed)
    rw [if_pos]
    refine ⟨⟨row, present, sameKey⟩, ?_⟩
    rw [inflight, Tables.has_deleteInflight]
    exact fun stays => stays.2 rfl
  cases point <;> cases choice <;> simp only [stepHandle, reduceCtorEq] at moved
  case gating.jitter draw =>
    split_ifs at moved
    rw [← Option.some.inj moved]
    obtain ⟨after, there, onward⟩ := gate_onward inside
    exact Or.inl (reaches_of_task there rfl rfl onward)
  case acquiring.proceed host probe bucket delayTotal wakeAt =>
    left
    rcases acquire_ends moved with ⟨escapes, _⟩ | ⟨_, handled⟩
    · exact absurd escapes inside
    · cases handled with
      | advanced advances =>
          cases advances with
          | waits | granted => exact goes (.works rfl rfl)
  case executing.http host probe event draw =>
    split_ifs at moved
    rw [← Option.some.inj moved]
    obtain ⟨after, there, onward⟩ := receive_onward inside
    exact Or.inl (reaches_of_task there rfl rfl onward)
  case deleting.proceed response =>
    split_ifs at moved with connected
    · rw [← Option.some.inj moved, observeHandle, deletes _ rfl rfl]
      exact Or.inl (goes .deleted)
    · exact absurd (by simpa [Escapes] using connected) inside
  case deleted.proceed response =>
    rw [← Option.some.inj moved]
    refine Or.inl (goes (.answered (Or.inl rfl) ?_))
    cases state.hook
    · exact Or.inr rfl
    · exact Or.inl rfl
  case hooking.hook response raised =>
    left
    cases raised with
    | none =>
        rw [← Option.some.inj moved]
        exact goes (.answered (Or.inr rfl) (Or.inr rfl))
    | some exc =>
        cases outside : exc.isException with
        | false => exact absurd outside inside
        | true =>
            simp only [outside, if_true] at moved
            rw [← Option.some.inj moved]
            exact goes (.answered (Or.inr rfl) (Or.inr rfl))
  case resolving.proceed response =>
    rw [← Option.some.inj moved]
    exact Or.inr (settles_of_settleKey custody.toSingleFlight current (.resolving response))
  case incrementing.proceed exc newAttempt delay =>
    split_ifs at moved with connected
    · rw [← Option.some.inj moved]
      exact Or.inl (goes .incremented)
    · exact absurd (by simpa [Escapes] using connected) inside
  case scheduling.proceed newAttempt delay =>
    rw [← Option.some.inj moved]
    have different : state.spawned ≠ id := (custody.tidy.lt_of_task current).ne'
    refine Or.inl (@reaches_of_task _ _ _ _ state.spawned
      (.reschedule (.sleeping { item with attempt := newAttempt }
        (PyFloat.add (.finite state.now) delay))) _ _ ?_ rfl rfl .rescheduled)
    rw [endHandle, setTask_tasks_of_ne _ _ different]
    exact spawn_tasks_self _ _
  case deadLettering.proceed exc =>
    split_ifs at moved with connected
    · rw [← Option.some.inj moved]
      have shown : (observeHandle env state
          ((({ state with
            tables := state.tables.pushDeadLetter item.request exc.message item.attempt
              state.now }.record
            (.deadLettered item.key state.tables.nextDeadLetterId)).moveTo id item
              (.retiring exc))) item (.deadLettering exc) .proceed) =
          [.deadLettered item.attempt] := by
        simp only [observeHandle, moveTo, State.setTask, State.record, Tables.pushDeadLetter,
          List.drop_left]
        rfl
      rw [shown]
      exact Or.inl (goes .pushed)
    · exact absurd (by simpa [Escapes] using connected) inside
  case retiring.proceed exc =>
    split_ifs at moved with connected
    · rw [← Option.some.inj moved, observeHandle, deletes _ rfl rfl]
      exact Or.inl (goes .retired)
    · exact absurd (by simpa [Escapes] using connected) inside
  case failing.proceed exc =>
    rw [← Option.some.inj moved]
    exact Or.inr (settles_of_settleKey custody.toSingleFlight current (.failing exc))
  all_goals exact absurd trivial inside

/-! ## What a step shows of which item -/

/-- The item that a step of a worker is about. -/
def actsOn? (state : State) : Label → Option QueueItem
  | .step id _ =>
      match state.tasks id with
      | some (.worker .idle) => state.queue.items.head?
      | some (.worker (.handling item _)) => some item
      | _ => none
  | _ => none

/-- A worker takes the first item of the queue, or has its item. -/
theorem actsOn?_cases
    (acts : state.actsOn? label = some item) :
    ∃ id choice, label = .step id choice ∧
      ((state.tasks id = some (.worker .idle) ∧ ∃ rest, state.queue.items = item :: rest) ∨
        ∃ point, state.tasks id = some (.worker (.handling item point))) := by
  unfold actsOn? at acts
  split at acts
  · next id choice =>
      refine ⟨id, choice, rfl, ?_⟩
      split at acts
      · next idle =>
          cases waiting : state.queue.items with
          | nil =>
              rw [waiting] at acts
              cases acts
          | cons head rest =>
              rw [waiting] at acts
              cases acts
              exact Or.inl ⟨idle, rest, rfl⟩
      · next held point current =>
          cases acts
          exact Or.inr ⟨point, current⟩
      · cases acts
  · cases acts

/-- The item that a step is about is at the head of the queue, or its worker has it. -/
theorem place_of_actsOn?
    (acts : state.actsOn? label = some item) :
    state.itemAt (.queue 0) = some item ∨ state.itemAt (.agent (label.actor state)) = some item := by
  obtain ⟨id, choice, rfl, ⟨_, rest, waiting⟩ | ⟨point, current⟩⟩ := actsOn?_cases acts
  · exact Or.inl (by simp [itemAt, waiting])
  · exact Or.inr (itemAt_of_task current).1

theorem life_begun_of_lt
    {flight : ℕ}
    (state next : State)
    (id : ℕ)
    (known : flight < state.dedup.created) :
    life flight (state.begun next id) = [] := by
  unfold begun
  split
  · next item _ =>
      split_ifs with new
      · have other : item.flight ≠ flight := (known.trans_le new).ne'
        simp [life, other]
      · rfl
  · rfl

/-- A step shows nothing of the items it is not about. -/
theorem life_observe_of_ne
    {flight : ℕ}
    (env : Env)
    (next : State)
    (known : flight < state.dedup.created)
    (other : ∀ item, state.actsOn? label = some item → item.flight ≠ flight) :
    life flight (observe env state label next) = [] := by
  cases label with
  | step id choice =>
      simp only [observe]
      simp only [actsOn?] at other
      split
      · next current =>
          simp only [current] at other
          cases waiting : state.queue.items with
          | nil => rfl
          | cons head rest =>
              have different := other head (by rw [waiting]; rfl)
              simp [life, different]
      · next held point current =>
          simp only [current] at other
          rw [life_map, if_neg (other held rfl)]
      · exact life_begun_of_lt state next id known
  | _ => exact life_begun_of_lt state next _ known

/-! ## Live items go on -/

/-- A work item that waits stays on the queue, unless a worker takes it. -/
theorem queue_kept
    (alive : label ≠ .crash)
    (moved : HardenedClient.step env label state = some next)
    (present : item ∈ state.queue.items) :
    item ∈ next.queue.items ∨ state.actsOn? label = some item := by
  have puts : ∀ {queue : RequestQueue}, Puts env state.queue queue → item ∈ queue.items := by
    intro queue puts
    cases puts with
    | same => exact present
    | put added room => exact List.mem_append_left _ present
  cases step_stepped moved with
  | crash => exact absurd rfl alive
  | caller _ _ fills | reschedule _ fills | starter _ _ fills => exact Or.inl (puts fills)
  | taken current waiting =>
      rw [waiting] at present
      rcases List.mem_cons.mp present with rfl | later
      · right
        simp [actsOn?, current, waiting]
      · exact Or.inl later
  | handled _ _ handled =>
      cases handled with
      | resolved | rejected =>
          rw [settleKey_eq]
          exact Or.inl present
      | _ => exact Or.inl present
  | escaped _ _ escaped =>
      obtain ⟨_⟩ := escaped
      exact Or.inl present
  | _ => exact Or.inl present

/-- An item at a place it stays at is left alone. -/
theorem reaches_of_kept
    {place target : Place}
    (found : next.itemAt target = some item)
    (same : next.stageAt target = state.stageAt place) :
    Reaches policy item (state.stageAt place) [] next :=
  ⟨target, item, found, rfl, same ▸ .stays⟩

/-- An item that is put on the queue waits there. -/
theorem reaches_of_put
    {base : State}
    {task : Task}
    (queue : base.queue = state.queue.put item) :
    Reaches policy item none [] (base.setTask id task) := by
  refine ⟨.queue state.queue.items.length, item, ?_, rfl, .stays⟩
  change base.queue.items[state.queue.items.length]? = some item
  rw [queue, RequestQueue.put_items, List.getElem?_append_right (Nat.le_refl _), Nat.sub_self]
  rfl

/-- The item a task carries outside `_handle` is handed on. -/
theorem carried_onward
    {choice : Choice}
    {task : Task}
    (keeps : ∀ agent, ¬ Spills env state (.step id choice) agent)
    (current : state.tasks id = some task)
    (carries : task.item? = some item)
    (outside : ∀ point, task ≠ .worker point)
    (moved : state.stepTask env id choice = some next) :
    Reaches policy item (state.stageAt (.agent id)) [] next := by
  have waits : state.stageAt (.agent id) = none := by
    rw [(itemAt_of_task current).2]
    cases task with
    | worker point => exact absurd rfl (outside point)
    | _ => rfl
  rw [waits]
  have stays : ∀ {base : State} {after : Task}, after.item? = some item → after.stage? = none →
      Reaches policy item none [] (base.setTask id after) := by
    intro base after still none
    exact reaches_of_task (setTask_tasks_self _ _ _) still rfl (none ▸ .stays)
  simp only [stepTask, current] at moved
  cases task with
  | caller replayed point =>
      cases point <;> cases carries
      case caller.upserting.refl request future =>
        cases choice <;> simp only [stepCaller, reduceCtorEq] at moved
        · split_ifs at moved with connected
          · rw [← Option.some.inj moved]
            exact stays rfl rfl
          · exact absurd (.unsaved current fun _ => by simpa using connected) (keeps id)
        · exact absurd (.unsaved current fun same => by cases same) (keeps id)
      case caller.upserted.refl request future =>
        cases choice <;> simp only [stepCaller, reduceCtorEq] at moved
        rw [← Option.some.inj moved]
        exact stays rfl rfl
      case caller.enqueueing.refl request future =>
        cases choice <;> simp only [stepCaller, reduceCtorEq] at moved
        split_ifs at moved
        rw [← Option.some.inj moved]
        exact reaches_of_put rfl
  | worker point => exact absurd rfl (outside point)
  | reschedule point =>
      cases point <;> cases carries
      case reschedule.sleeping.refl wakeAt =>
        cases choice <;> simp only [stepReschedule, reduceCtorEq] at moved
        split_ifs at moved with early stopping
        · exact absurd (.stopping current stopping) (keeps id)
        · rw [← Option.some.inj moved]
          exact stays rfl rfl
      case reschedule.enqueueing.refl =>
        cases choice <;> simp only [stepReschedule, reduceCtorEq] at moved
        split_ifs at moved
        rw [← Option.some.inj moved]
        exact reaches_of_put rfl
  | starter point =>
      cases point <;> cases carries
      case starter.reenqueueing.refl rows =>
        cases choice <;> simp only [stepStarter, reduceCtorEq] at moved
        split_ifs at moved
        rw [← Option.some.inj moved]
        exact reaches_of_put rfl
  | drainer | stopper => cases carries

/-- A step takes a live item one stage further, settles its future, or leaves it alone,
and shows that of it. -/
theorem live_onward
    {place : Place}
    (custody : Custody env state)
    (alive : label ≠ .crash)
    (keeps : ∀ agent, ¬ Spills env state label agent)
    (moved : HardenedClient.step env label state = some next)
    (found : state.itemAt place = some item) :
    Reaches env.config.retry item (state.stageAt place)
        (life item.flight (observe env state label next)) next ∨
      Settles item (state.stageAt place) (life item.flight (observe env state label next)) next := by
  have job : state.flights.jobAt place = some item.job := by rw [jobAt_flights, found]; rfl
  have known : item.flight < state.dedup.created := custody.sound.job_lt place item.job job
  by_cases acts : ∃ other, state.actsOn? label = some other ∧ other.flight = item.flight
  swap
  · -- the step is about another item
    have quiet : life item.flight (observe env state label next) = [] :=
      life_observe_of_ne env next known fun other isActed same => acts ⟨other, isActed, same⟩
    rw [quiet]
    left
    cases place with
    | queue position =>
        rcases queue_kept alive moved (List.mem_of_getElem? found) with stays | isActed
        · obtain ⟨target, there⟩ := List.getElem?_of_mem stays
          exact @reaches_of_kept _ _ _ _ (.queue position) (.queue target) there rfl
        · exact absurd ⟨item, isActed, rfl⟩ acts
    | agent id =>
        obtain ⟨task, current, carries⟩ := Option.bind_eq_some_iff.mp found
        by_cases isActor : id = label.actor state
        · subst isActor
          have there := custody.tidy.lt_of_task current
          cases label with
          | step id choice =>
              simp only [Label.actor] at current ⊢
              refine carried_onward keeps current carries ?_ moved
              rintro point rfl
              cases point <;> cases carries
              exact acts ⟨item, by simp [actsOn?, current], rfl⟩
          | cancel | cancelWorker =>
              first | exact absurd .cancelled (keeps _) | exact absurd .workerCancelled (keeps _)
          | crash => exact absurd rfl alive
          | _ => exact absurd there (Nat.lt_irrefl _)
        · have kept := ((step_stepped moved).frame custody.tidy alive).others id
            (custody.tidy.lt_of_task current) isActor
          apply @reaches_of_kept _ _ _ _ (.agent id) (.agent id)
          · rw [← found]
            exact congrArg (Option.bind · Task.item?) kept
          · exact congrArg (Option.bind · Task.stage?) kept
  obtain ⟨other, isActed, same⟩ := acts
  -- the step is about the item at this place
  have mine : ∀ target, state.itemAt target = some other → target = place ∧ other = item := by
    intro target there
    have unique := custody.sound.job_unique target place other.job item.job
      (by rw [jobAt_flights, there]; rfl) job same
    subst unique
    exact ⟨rfl, Option.some.inj (there.symm.trans found)⟩
  obtain ⟨id, choice, rfl, ⟨idle, rest, waiting⟩ | ⟨point, current⟩⟩ := actsOn?_cases isActed
  · obtain ⟨rfl, rfl⟩ := mine (.queue 0) (by simp [itemAt, waiting])
    left
    have shown : life other.flight (observe env state (.step id choice) next) = [.handled] := by
      simp [observe, idle, waiting, life]
    rw [shown]
    simp only [HardenedClient.step, stepTask, idle] at moved
    cases choice <;> simp only [stepWorker, reduceCtorEq] at moved
    rw [waiting] at moved
    rw [← Option.some.inj moved]
    exact reaches_of_task (moveTo_tasks_self _ _ _ _) rfl rfl .taken
  · obtain ⟨rfl, rfl⟩ := mine (.agent id) (itemAt_of_task current).1
    have shown : life other.flight (observe env state (.step id choice) next) =
        observeHandle env state next other point choice := by
      simp only [observe, current]
      rw [life_map, if_pos rfl]
    rw [shown, (itemAt_of_task current).2]
    simp only [HardenedClient.step, stepTask, current] at moved
    exact stepHandle_onward custody current (fun escapes => keeps id (.escaped current escapes)) moved

/-- A task that has come by an item for a new future waits with it, and that is shown. -/
theorem begun_of_new
    {task : Task}
    (current : next.tasks id = some task)
    (carries : task.item? = some item)
    (outside : ∀ point, task ≠ .worker point)
    (new : state.dedup.created ≤ item.flight) :
    next.stageAt (.agent id) = none ∧ life item.flight (state.begun next id) = [.began item.attempt] := by
  constructor
  · rw [(itemAt_of_task current).2]
    cases task with
    | worker point => exact absurd rfl (outside point)
    | _ => rfl
  · simp [begun, current, carries, new, life]

/-- An item for a new future has just come into being, with a task that waits. -/
theorem new_onward
    {place : Place}
    (custody : Custody env state)
    (sound : next.flights.Sound)
    (alive : label ≠ .crash)
    (moved : HardenedClient.step env label state = some next)
    (found : next.itemAt place = some item)
    (new : state.dedup.created ≤ item.flight) :
    next.stageAt place = none ∧
      life item.flight (observe env state label next) = [.began item.attempt] := by
  have job : next.flights.jobAt place = some item.job := by rw [jobAt_flights, found]; rfl
  have grows : state.dedup.created < next.dedup.created :=
    new.trans_lt (sound.job_lt place item.job job)
  have old : ∀ target, state.itemAt target ≠ some item := by
    intro target there
    have known := custody.sound.job_lt target item.job (by rw [jobAt_flights, there]; rfl)
    exact absurd new (Nat.not_le_of_lt known)
  -- what is put on the queue was carried before
  cases place with
  | queue position =>
      exfalso
      rcases mem_queue moved (List.mem_of_getElem? found) with there | put
      · obtain ⟨before, isThere⟩ := List.getElem?_of_mem there
        exact old (.queue before) isThere
      · unfold enqueues? at put
        split at put <;> try cases put
        split at put <;> cases put
        all_goals
          next current => exact old (.agent _) (itemAt_of_task current).1
  | agent id =>
      obtain ⟨task, current, carries⟩ := Option.bind_eq_some_iff.mp found
      have mine : ∀ {base : State} {actor : ℕ} {after : Task}, base.tasks = state.tasks →
          (base.setTask actor after).tasks id = some task → id = actor ∧ task = after := by
        intro base actor after tasks present
        by_cases isActor : id = actor
        · subst isActor
          exact ⟨rfl, (Option.some.inj ((setTask_tasks_self _ _ _).symm.trans present)).symm⟩
        · rw [setTask_tasks_of_ne _ _ isActor, tasks] at present
          exact absurd ((itemAt_of_task present).1.trans carries) (old (.agent id))
      have reached := current
      cases step_stepped moved with
      | crash => exact absurd rfl alive
      | request =>
          obtain ⟨rfl, rfl⟩ := mine rfl reached
          exact begun_of_new current carries (by simp) new
      | caller before =>
          obtain ⟨rfl, rfl⟩ := mine rfl reached
          simp only [observe, before]
          exact begun_of_new current carries (by simp) new
      | starter before =>
          obtain ⟨rfl, rfl⟩ := mine rfl reached
          simp only [observe, before]
          exact begun_of_new current carries (by simp) new
      | handled _ _ handled =>
          cases handled with
          | resolved | rejected =>
              rw [settleKey_eq] at grows
              exact absurd grows (Nat.lt_irrefl _)
          | _ => exact absurd grows (Nat.lt_irrefl _)
      | escaped _ _ escaped =>
          obtain ⟨_⟩ := escaped
          exact absurd grows (Nat.lt_irrefl _)
      | cancelCaller _ cancels =>
          rcases cancels with rfl | ⟨future, rfl⟩
          · exact absurd grows (Nat.lt_irrefl _)
          · simp only [State.setTask, InFlightRegistry.cancel] at grows
            split_ifs at grows <;> exact absurd grows (Nat.lt_irrefl _)
      | _ => exact absurd grows (Nat.lt_irrefl _)

end State

/-! ## The run -/

/-- The process does not crash, no task loses its item, and a row that recovery turns to
holds a request of the row's key. -/
structure Carries (env : Env) (state : State) (label : Label) : Prop where
  alive : label ≠ .crash
  keeps : ∀ agent, ¬ Spills env state label agent
  recovers : RecoversOwnKey state label

theorem Carries.uncancelled
    {env : Env}
    {state : State}
    {label : Label}
    (carries : Carries env state label) :
    Uncancelled state label := by
  rintro id replayed point rfl
  exact absurd .cancelled (carries.keeps id)

namespace State

variable {env : Env} {state next : State} {label : Label} {log : List (ℕ × LifeEvent)}

/-- An item works for the future. -/
def Serves (state : State) (flight : ℕ) : Prop :=
  ∃ place item, state.itemAt place = some item ∧ item.flight = flight

/-- Of every live item the journal shows what its stage says, and an item that is no
longer live has ended by settling its future. -/
structure Chronicled (env : Env) (state : State) (log : List (ℕ × LifeEvent)) : Prop
    extends state.Custody env where
  underway : ∀ place item, state.itemAt place = some item →
    ∃ start, Underway env.config.retry start item (state.stageAt place) (life item.flight log)
  ended : ∀ flight, life flight log ≠ [] → state.Serves flight ∨
    ∃ start, Settled env.config.retry start (life flight log) (state.dedup.futures flight)
  unborn : ∀ flight, state.dedup.created ≤ flight → life flight log = []

theorem Chronicled.boot
    (env : Env)
    (tables : Tables)
    (now : ℚ) :
    Chronicled env (boot tables now) [] where
  toCustody := .boot env tables now []
  underway := by rintro (_ | _) item found <;> simp [itemAt, State.boot] at found
  ended := fun _ shown => absurd rfl shown
  unborn := fun _ _ => rfl

/-- The future that a live item works for exists. -/
theorem Custody.flight_lt
    {place : Place}
    {item : QueueItem}
    (custody : Custody env state)
    (found : state.itemAt place = some item) :
    item.flight < state.dedup.created :=
  custody.sound.job_lt place item.job (by rw [jobAt_flights, found]; rfl)

/-- What a step shows is about an item that is live before it or after it. -/
theorem shown_origin
    {flight : ℕ}
    (shown : life flight (observe env state label next) ≠ []) :
    state.Serves flight ∨ next.Serves flight := by
  have begins : ∀ id, life flight (state.begun next id) ≠ [] → next.Serves flight := by
    intro id begun
    unfold State.begun at begun
    split at begun
    · next item carries =>
        refine ⟨.agent id, item, carries, ?_⟩
        by_contra other
        split_ifs at begun <;> simp [life, other] at begun
    · exact absurd rfl begun
  by_cases acts : ∃ item, state.actsOn? label = some item ∧ item.flight = flight
  · obtain ⟨item, isActed, same⟩ := acts
    rcases place_of_actsOn? isActed with queued | carried
    · exact Or.inl ⟨_, item, queued, same⟩
    · exact Or.inl ⟨_, item, carried, same⟩
  right
  cases label with
  | step id choice =>
      simp only [observe] at shown
      split at shown
      · next idle =>
          exfalso
          cases waiting : state.queue.items with
          | nil => exact shown (by rw [waiting]; rfl)
          | cons head rest =>
              have other : head.flight ≠ flight := fun same =>
                acts ⟨head, by simp [actsOn?, idle, waiting], same⟩
              simp [life, waiting, other] at shown
      · next item point current =>
          have other : item.flight ≠ flight := fun same =>
            acts ⟨item, by simp [actsOn?, current], same⟩
          rw [life_map, if_neg other] at shown
          exact absurd rfl shown
      · exact begins id shown
  | _ => exact begins _ shown

theorem Chronicled.underway_step
    (chronicled : Chronicled env state log)
    (carries : Carries env state label)
    (custody : Custody env next)
    (moved : HardenedClient.step env label state = some next) :
    ∀ place item, next.itemAt place = some item →
      ∃ start, Underway env.config.retry start item (next.stageAt place)
        (life item.flight (log ++ observe env state label next)) := by
  intro place item found
  rw [life_append]
  by_cases new : state.dedup.created ≤ item.flight
  · obtain ⟨waits, begins⟩ :=
      new_onward chronicled.toCustody custody.sound carries.alive moved found new
    rw [chronicled.unborn _ new, begins, waits]
    exact ⟨item.attempt, @Underway.waiting _ _ item [] rfl (Nat.zero_le _)⟩
  · obtain ⟨before, old, there, same⟩ :=
      serves_of_old chronicled.tidy moved found (Nat.lt_of_not_le new)
    obtain ⟨start, underway⟩ := chronicled.underway before old there
    rcases live_onward chronicled.toCustody carries.alive carries.keeps moved there with
      ⟨target, after, reached, isSame, onward⟩ | ⟨point, future, _, ends, _, settled⟩
    · -- the item at the place is the one that was taken there
      have unique := custody.sound.job_unique target place after.job item.job
        (by rw [jobAt_flights, reached]; rfl) (by rw [jobAt_flights, found]; rfl)
        (isSame.trans same)
      subst unique
      obtain rfl := Option.some.inj (reached.symm.trans found)
      rw [← same]
      exact ⟨start, underway.onward onward⟩
    · rw [same, (custody.registered found).2] at settled
      cases ends <;> cases settled

theorem Chronicled.ended_step
    (chronicled : Chronicled env state log)
    (carries : Carries env state label)
    (moved : HardenedClient.step env label state = some next) :
    ∀ flight, life flight (log ++ observe env state label next) ≠ [] → next.Serves flight ∨
      ∃ start, Settled env.config.retry start (life flight (log ++ observe env state label next))
        (next.dedup.futures flight) := by
  intro flight shown
  rw [life_append] at shown ⊢
  by_cases serves : state.Serves flight
  · obtain ⟨place, item, found, rfl⟩ := serves
    obtain ⟨start, underway⟩ := chronicled.underway place item found
    rcases live_onward chronicled.toCustody carries.alive carries.keeps moved found with
      ⟨target, after, reached, same, _⟩ | ⟨point, future, isStage, ends, shows, settled⟩
    · exact Or.inl ⟨target, after, reached, same⟩
    · rw [isStage] at underway
      rw [shows, settled]
      exact Or.inr ⟨start, underway.settle ends⟩
  by_cases quiet : life flight (observe env state label next) = []
  · rw [quiet, List.append_nil] at shown ⊢
    obtain ⟨start, settled⟩ := (chronicled.ended flight shown).resolve_left serves
    have known : flight < state.dedup.created := by
      by_contra unborn
      exact shown (chronicled.unborn flight (Nat.le_of_not_lt unborn))
    rcases (step_stepped moved).futures carries.alive known with same | ⟨pending, _⟩
    · rw [same]
      exact Or.inr ⟨start, settled⟩
    · exact absurd pending settled.ne_pending
  · exact Or.inl ((shown_origin quiet).resolve_left serves)

theorem Chronicled.unborn_step
    (chronicled : Chronicled env state log)
    (carries : Carries env state label)
    (custody : Custody env next)
    (moved : HardenedClient.step env label state = some next) :
    ∀ flight, next.dedup.created ≤ flight →
      life flight (log ++ observe env state label next) = [] := by
  intro flight beyond
  have grows := (step_stepped moved).created_le carries.alive
  rw [life_append, chronicled.unborn flight (grows.trans beyond), List.nil_append]
  by_contra shown
  rcases shown_origin shown with ⟨place, item, found, rfl⟩ | ⟨place, item, found, rfl⟩
  · exact absurd (grows.trans beyond) (Nat.not_le_of_lt (chronicled.toCustody.flight_lt found))
  · exact absurd beyond (Nat.not_le_of_lt (custody.flight_lt found))

theorem Chronicled.step
    (chronicled : Chronicled env state log)
    (carries : Carries env state label)
    (moved : HardenedClient.step env label state = some next) :
    Chronicled env next (log ++ observe env state label next) := by
  have custody := chronicled.toCustody.step carries.uncancelled carries.recovers moved
  exact {
    toCustody := custody
    underway := chronicled.underway_step carries custody moved
    ended := chronicled.ended_step carries moved
    unborn := chronicled.unborn_step carries custody moved }

end State

/-- In every run without a crash, in which no task loses its item and every row that
recovery turns to holds a request of its own key: the item of a future that began at an
attempt is live, its future is pending and it has been handled as often as the policy
allows at most, or it is gone, and what happened to it and its future is the closed form
of how its passes ended. -/
theorem lifecycle_closed_form
    (env : Env)
    (tables : Tables)
    (now : ℚ)
    (journal : Journaled State (ℕ × LifeEvent))
    (run : Run (journalStep env) (fun before label => Carries env before.state label)
      ⟨State.boot tables now, []⟩ journal)
    (flight start : ℕ)
    (begins : (life flight journal.log).head?.bind LifeEvent.began? = some start)
    (outcomes : ℕ → PassOutcome)
    (follows : Follows outcomes (life flight journal.log)) :
    (journal.state.Serves flight ∧ journal.state.dedup.futures flight = .pending ∧
      (life flight journal.log).countP LifeEvent.isHandled ≤
        retriesLeft env.config.retry start + 1) ∨
    (¬ journal.state.Serves flight ∧
      ClosedForm env.config.retry start outcomes (life flight journal.log)
        (journal.state.dedup.futures flight)) := by
  have chronicled : State.Chronicled env journal.state journal.log :=
    run.invariant (fun reached => State.Chronicled env reached.state reached.log)
      (.boot env tables now) fun before label after chronicled carries moved => by
        obtain ⟨stepped, extended⟩ := record_eq_some_iff.mp moved
        rw [extended]
        exact chronicled.step carries stepped
  have isStart : ∀ {other}, (life flight journal.log).head? = some (.began other) →
      other = start := by
    intro other isHead
    rw [isHead] at begins
    exact Option.some.inj begins
  by_cases serves : journal.state.Serves flight
  · left
    obtain ⟨place, item, found, rfl⟩ := serves
    obtain ⟨other, underway⟩ := chronicled.underway place item found
    obtain rfl := isStart underway.head
    exact ⟨⟨place, item, found, rfl⟩, (chronicled.registered found).2, underway.handled_le⟩
  · right
    have shown : life flight journal.log ≠ [] := by
      intro empty
      rw [empty] at begins
      cases begins
    obtain ⟨other, settled⟩ := (chronicled.ended flight shown).resolve_left serves
    obtain rfl := isStart settled.head
    exact ⟨serves, settled.closedForm follows⟩

/-! ## Items that are lost -/

/-- A client loses the item of its first future without a crash: it is live no more, and
what was seen of it and of its future is no closed form. -/
def LosesItem (env : Env) (tables : Tables) : Prop :=
  ∃ journal : Journaled State (ℕ × LifeEvent),
    Run (journalStep env)
      (fun before label => Untroubled env before.state label ∧ label ≠ .crash)
      ⟨State.boot tables 0, []⟩ journal ∧
    (life 0 journal.log).countP LifeEvent.isHandled = 1 ∧ ¬ journal.state.Serves 0 ∧
    ∀ start outcomes, ¬ ClosedForm env.config.retry start outcomes (life 0 journal.log)
      (journal.state.dedup.futures 0)

theorem losesItem_of_replay
    {env : Env}
    {tables : Tables}
    {labels : List Label}
    (passes : (executeChecked (journalStep env)
      (fun before label => isUntroubled env before.state label && !label.isCrash) labels
      ⟨State.boot tables 0, []⟩).any (fun journal =>
        decide ((life 0 journal.log).countP LifeEvent.isHandled = 1) &&
          decide ((life 0 journal.log).countP LifeEvent.isDelete = 0) &&
          journal.state.queue.items.isEmpty &&
          (List.range journal.state.spawned).all fun id =>
            (journal.state.tasks id).all fun task => task.item?.isNone) = true) :
    LosesItem env tables := by
  have checks : ∀ (before : Journaled State (ℕ × LifeEvent)) (label : Label),
      (isUntroubled env before.state label && !label.isCrash) = true →
        Untroubled env before.state label ∧ label ≠ .crash := by
    intro before label passes
    obtain ⟨untroubled, alive⟩ := Bool.and_eq_true_iff.mp passes
    exact ⟨isUntroubled_sound env before.state label untroubled, Label.ne_crash_of_not_isCrash alive⟩
  obtain ⟨journal, run, tested⟩ := exists_run_of_executeChecked checks passes
  simp only [Bool.and_eq_true, decide_eq_true_eq, List.isEmpty_iff] at tested
  obtain ⟨⟨⟨handled, kept⟩, empty⟩, unladen⟩ := tested
  have plain : Run (step env) (fun _ _ => True) (State.boot tables 0) journal.state :=
    Run.forget (fun _ _ _ => trivial) run
  have tidy := State.Tidy.of_run (State.tidy_boot tables 0 []) plain
  refine ⟨journal, run, handled, ?_, ?_⟩
  · rintro ⟨place, item, found, _⟩
    rw [tidy.itemAt_eq_none empty unladen place] at found
    cases found
  · intro start outcomes closed
    have deleted := closed.deleted
    rw [kept] at deleted
    cases deleted

/-- The worker dies of the ValueError of a token bucket or of a breaker's window, or of what
an HTTP call raises outside `Exception`; or it works for a row that is stored under another
key than that of its request, and settles and deletes nothing. -/
theorem lifecycle_not_closed_form :
    LosesItem zeroRate {} ∧ LosesItem negativeWindow {} ∧ LosesItem oneWorker {} ∧
      ∃ durable, (postRequest numberedBody).durable? {} = some durable ∧
        LosesItem oneWorker (({} : Tables).upsertInflight durable 0) := by
  refine ⟨?_, ?_, ?_, ?_⟩
  · apply @losesItem_of_replay _ _
      (startLabels ++ requestLabels 2 "http://example.org/" ++ sendLabels 1)
    decide +kernel
  · apply @losesItem_of_replay _ _ (startLabels ++
      requestLabels 2 "http://example.org/" ++ [.step 1 .proceed, .step 1 (.jitter 0)])
    decide +kernel
  · apply @losesItem_of_replay _ _ (startLabels ++ requestLabels 2 "http://example.org/" ++
      sendLabels 1 ++ [.step 1 (.http (.raises .cancelledError) 0)])
    decide +kernel
  · have passes : ((postRequest numberedBody).durable? {}).any (fun durable =>
        (executeChecked (journalStep oneWorker)
          (fun before label => isUntroubled oneWorker before.state label && !label.isCrash)
          (.start :: proceedLabels 0 6 ++ sendLabels 1 ++ answerLabels 1 200 3)
          ⟨State.boot (({} : Tables).upsertInflight durable 0) 0, []⟩).any (fun journal =>
            decide ((life 0 journal.log).countP LifeEvent.isHandled = 1) &&
              decide ((life 0 journal.log).countP LifeEvent.isDelete = 0) &&
              journal.state.queue.items.isEmpty &&
              (List.range journal.state.spawned).all fun id =>
                (journal.state.tasks id).all fun task => task.item?.isNone)) = true := by
      decide +kernel
    obtain ⟨durable, packed, replayed⟩ := (Option.any_eq_true _ _).mp passes
    exact ⟨durable, packed, losesItem_of_replay replayed⟩

/-! ## A retried request -/

/-- A check for `Carries` on replayed runs. -/
def carries (env : Env) (state : State) (label : Label) : Bool :=
  (state.recovered? label).isNone &&
  match label with
  | .crash | .cancel _ | .cancelWorker _ => false
  | .step id choice =>
      match state.tasks id, choice with
      | some (.caller _ (.upserting _ _)), .proceed => state.connected
      | some (.caller _ (.upserting _ _)), _ => false
      | some (.worker _), choice =>
          (step env (.step id choice) state).any fun next => !next.workerEnded id
      | some (.reschedule _), _ => !state.stopping
      | _, _ => true
  | _ => true

theorem carries_sound
    (env : Env)
    (state : State)
    (label : Label)
    (passes : carries env state label = true) :
    Carries env state label := by
  simp only [carries, Bool.and_eq_true, Option.isNone_iff_eq_none] at passes
  obtain ⟨recovers, keeps⟩ := passes
  refine { alive := ?_, keeps := ?_, recovers := ?_ }
  · rintro rfl
    cases keeps
  · intro agent spills
    cases spills with
    | cancelled | workerCancelled => cases keeps
    | stopping current isStopping => simp [current, isStopping] at keeps
    | @unsaved _ _ _ _ choice current fails =>
        cases choice <;> simp only [current, Bool.false_eq_true] at keeps
        simp [fails rfl] at keeps
    | escaped current escapes =>
        simp only [current] at keeps
        obtain ⟨next, moved, alive⟩ := (Option.any_eq_true _ _).mp keeps
        simp only [step, State.stepTask, current, State.stepWorker] at moved
        rcases State.stepHandle_ends moved with ⟨_, escaped⟩ | ⟨inside, _⟩
        · obtain ⟨_⟩ := escaped
          simp [State.workerEnded, State.escape, State.setTask] at alive
        · exact absurd escapes inside
  · intro row recovered
    rw [recovers] at recovered
    cases recovered

/-- A request that is answered with 500 and, when it is retried, with 200. -/
def retriedLabels : List Label :=
  startLabels ++ requestLabels 2 "http://example.org/" ++ sendLabels 1 ++
    answerLabels 1 500 2 ++ [.tick 10] ++ proceedLabels 3 2 ++ sendLabels 1 ++ answerLabels 1 200 3

/-- One retry and a success are two passes. -/
theorem lifecycle_closed_form_retried :
    ∃ journal : Journaled State (ℕ × LifeEvent),
      Run (journalStep oneWorker) (fun before label => Carries oneWorker before.state label)
        ⟨State.boot {} 0, []⟩ journal ∧
      (life 0 journal.log).countP LifeEvent.isHandled = 2 ∧
      ((journal.state.Serves 0 ∧ journal.state.dedup.futures 0 = .pending ∧
          (life 0 journal.log).countP LifeEvent.isHandled ≤
            retriesLeft oneWorker.config.retry 0 + 1) ∨
        (¬ journal.state.Serves 0 ∧
          ClosedForm oneWorker.config.retry 0
            (fun index => if index = 0 then .retryable else .success) (life 0 journal.log)
            (journal.state.dedup.futures 0))) := by
  have checks : ∀ (before : Journaled State (ℕ × LifeEvent)) (label : Label),
      carries oneWorker before.state label = true → Carries oneWorker before.state label :=
    fun before label => carries_sound oneWorker before.state label
  have passes : (executeChecked (journalStep oneWorker)
      (fun before label => carries oneWorker before.state label) retriedLabels
      ⟨State.boot {} 0, []⟩).any (fun journal =>
        decide ((life 0 journal.log).head?.bind LifeEvent.began? = some 0) &&
        decide ((life 0 journal.log).filterMap LifeEvent.outcome? = [.retryable, .success]) &&
        decide ((life 0 journal.log).countP LifeEvent.isHandled = 2)) = true := by
    decide +kernel
  obtain ⟨journal, run, tested⟩ := exists_run_of_executeChecked checks passes
  simp only [Bool.and_eq_true, decide_eq_true_eq] at tested
  obtain ⟨⟨begins, outcomes⟩, handled⟩ := tested
  refine ⟨journal, run, handled, ?_⟩
  refine lifecycle_closed_form oneWorker {} 0 journal run 0 0 begins _ ?_
  intro index outcome found
  rw [outcomes] at found
  rcases index with _ | _ | index
  · exact Option.some.inj found
  · exact Option.some.inj found
  · cases found

end HardenedClient
