import HardenedClient.Client.Flights

/-!
# Steps are moves on the flights

Every step of the client is one of the moves of single-flight deduplication on
the flights of its state. `Traces` is what a move tells about the step: which
request an owner submitted, which call was cancelled, how an item was spilled.
-/

namespace HardenedClient

open Foundation

/-- The awaits of `_handle` after which the key is settled. -/
def HandlePoint.settles : HandlePoint → Bool
  | .resolving _ | .failing _ => true
  | _ => false

/-- The steps in which a task loses the work item it carries: the row of a
submission is not saved, the task is cancelled, an exception escapes from
`_handle`, or a retry wakes up while the client is stopping. -/
inductive Spills (env : Env) (state : State) : Label → ℕ → Prop
  | unsaved {id : ℕ} {replayed : Option ℕ} {request : DurableRequest} {future : ℕ}
      {choice : Choice}
      (current : state.tasks id = some (.caller replayed (.upserting request future)))
      (fails : choice = .proceed → state.connected = false) :
      Spills env state (.step id choice) id
  | cancelled {id : ℕ} : Spills env state (.cancel id) id
  | escaped {id : ℕ} {item : QueueItem} {point : HandlePoint} {choice : Choice}
      (current : state.tasks id = some (.worker (.handling item point)))
      (escapes : Escapes env state item point choice) :
      Spills env state (.step id choice) id
  | workerCancelled {id : ℕ} : Spills env state (.cancelWorker id) id
  | stopping {id : ℕ} {item : QueueItem} {wakeAt : PyFloat}
      (current : state.tasks id = some (.reschedule (.sleeping item wakeAt)))
      (isStopping : state.stopping = true) :
      Spills env state (.step id .proceed) id

/-- What a move tells about the step that made it. -/
def Traces (env : Env) (state : State) (label : Label) : Flights.Action Key → Prop
  | .own _ key carry _ =>
      (∃ request, state.submitted? label = some request ∧
        request.idempotencyKey? env.python = some key ∧
        carry = (request.durable? env.python).map DurableRequest.key) ∨
      ∃ row, state.recovered? label = some row ∧
        key = row.idempotencyKey ∧ carry = some row.payload.request.key
  | .cancel id => label = .cancel id ∧ ∃ replayed key future,
      state.tasks id = some (.caller replayed (.awaiting key future))
  | .drop id => Spills env state label id
  | .settle id => label = .step id .proceed ∧ ∃ item point,
      state.tasks id = some (.worker (.handling item point)) ∧ point.settles = true
  | .reset => label = .crash
  | _ => True

/-- The step from one state to another is a move on their flights. -/
def MovesFlights (env : Env) (state : State) (label : Label) (next : State) : Prop :=
  ∃ action, Flights.Move action state.flights next.flights ∧ Traces env state label action

namespace State

variable {env : Env} {state next : State} {id : ℕ} {label : Label}

theorem movesFlights_of_same
    (same : next.flights = state.flights) :
    MovesFlights env state label next :=
  ⟨.idle, same ▸ .idle, trivial⟩

/-- A task moves on to an await with the same item and claim. -/
theorem movesFlights_setTask
    {base : State}
    {old task : Task}
    (current : state.tasks id = some old)
    (same : base.flights = state.flights)
    (item : task.item?.map QueueItem.job = old.item?.map QueueItem.job)
    (claim : task.claim? = old.claim?) :
    MovesFlights env state label (base.setTask id task) :=
  movesFlights_of_same (flights_setTask_of_same current same item claim)

/-- A task ends without its item and its claim. -/
theorem movesFlights_drop
    {base : State}
    {task : Task}
    (same : base.flights = state.flights)
    (item : task.item? = none)
    (claim : task.claim? = none)
    (spills : Spills env state label id) :
    MovesFlights env state label (base.setTask id task) := by
  refine ⟨.drop id, ?_, spills⟩
  rw [flights_setTask, same, item, claim, Option.map_none]
  exact .drop

/-- A task puts its item on the queue and keeps its claim. -/
theorem movesFlights_put
    {old task : Task}
    {item : QueueItem}
    (current : state.tasks id = some old)
    (carries : old.item?.map QueueItem.job = some item.job)
    (unladen : task.item? = none)
    (claim : task.claim? = old.claim?) :
    MovesFlights env state label
      ({ state with queue := state.queue.put item }.setTask id task) := by
  have carried : state.flights.carried id = some item.job := by
    simpa [flights, current] using carries
  have held : Function.update state.flights.held id task.claim? = state.flights.held := by
    have : state.flights.held id = task.claim? := by simp [flights, current, claim]
    rw [← this, Function.update_eq_self]
  refine ⟨.put id, ?_, trivial⟩
  have moved := Flights.Move.put carried
  have same : ({ state with queue := state.queue.put item }.setTask id task).flights =
      { state.flights with
        queued := state.flights.queued ++ [item.job]
        carried := Function.update state.flights.carried id none } := by
    rw [flights_setTask, unladen, Option.map_none]
    simp only [flights, RequestQueue.put_items, List.map_append, List.map_cons,
      List.map_nil, Flights.mk.injEq, true_and]
    exact held
  rw [same]
  exact moved

/-- `_submit` on behalf of a task that carries and holds nothing. -/
theorem submit_movesFlights
    {replayed : Option ℕ}
    {request : Request}
    (unladen : state.flights.carried id = none)
    (empty : state.flights.held id = none)
    (submits : state.submitted? label = some request) :
    MovesFlights env state label (state.submit env id replayed request) := by
  unfold submit
  cases hashes : request.idempotencyKey? env.python with
  | none => exact movesFlights_of_same (flights_setTask_of_unladen unladen empty rfl rfl)
  | some key =>
      cases registered : state.dedup.pendingFuture? key with
      | some future =>
          refine ⟨.attach id key, ?_, trivial⟩
          have attached :=
            flights_attach (.caller replayed (.awaiting key future)) registered rfl unladen
          have pending := (state.dedup.pendingFuture?_eq_some_iff key future).mp registered
          simp only [InFlightRegistry.getOrCreate, registered] at attached ⊢
          rw [attached]
          exact .attach pending.1 ((Future.promise_eq_pending_iff _).mpr pending.2)
      | none =>
          have free : ¬ state.flights.Busy key := by
            rw [busy_iff, registered]
            simp
          cases packed : request.durable? env.python with
          | none =>
              refine ⟨.own id key none false, ?_, Or.inl ⟨request, submits, hashes, by simp [packed]⟩⟩
              have owned := flights_own id (.caller replayed (.raised jsonTypeError))
                none false registered rfl rfl
              simp only [InFlightRegistry.getOrCreate, registered] at owned ⊢
              rw [owned]
              exact .own free unladen
          | some durable =>
              have isKey := Request.key_of_durable? hashes packed
              refine ⟨.own id key (some key) true, ?_,
                Or.inl ⟨request, submits, hashes, by simp [packed, isKey]⟩⟩
              have owned := flights_own id
                (.caller replayed (.upserting durable state.dedup.created))
                (some key) true registered
                (by simp [Task.item?, QueueItem.job, QueueItem.key, isKey])
                (by simp [Task.claim?, isKey])
              simp only [InFlightRegistry.getOrCreate, registered] at owned ⊢
              rw [owned]
              exact .own free unladen

/-- `request()` on behalf of a task that carries and holds nothing. -/
theorem callRequest_movesFlights
    {replayed : Option ℕ}
    {request : Request}
    (unladen : state.flights.carried id = none)
    (empty : state.flights.held id = none)
    (submits : state.session = true →
      state.submitted? label = some { request with method := request.method.upper }) :
    MovesFlights env state label (state.callRequest env id replayed request) := by
  unfold callRequest
  split
  · next serving => exact submit_movesFlights unladen empty (submits serving)
  · exact movesFlights_of_same (flights_setTask_of_unladen unladen empty rfl rfl)

theorem stepCaller_movesFlights
    {replayed : Option ℕ}
    {point : CallerPoint}
    {choice : Choice}
    (current : state.tasks id = some (.caller replayed point))
    (moved : state.stepCaller env id replayed point choice = some next) :
    MovesFlights env state (.step id choice) next := by
  cases point <;> cases choice <;> simp only [stepCaller, reduceCtorEq] at moved
  case removing.proceed row =>
    split_ifs at moved <;> rw [← Option.some.inj moved] <;>
      exact movesFlights_setTask current rfl rfl rfl
  case removing.storageError =>
    rw [← Option.some.inj moved]
    exact movesFlights_setTask current rfl rfl rfl
  case removed.resubmit row requestId createdAt =>
    rw [← Option.some.inj moved]
    refine callRequest_movesFlights ?_ ?_ fun serving => ?_
    · simp [flights, current, Task.item?]
    · simp [flights, current, Task.claim?]
    · simp [submitted?, current, serving]
  case upserting.proceed request future =>
    split_ifs at moved with connected
    · rw [← Option.some.inj moved]
      exact movesFlights_setTask current rfl rfl rfl
    · rw [← Option.some.inj moved]
      exact movesFlights_drop rfl rfl rfl (.unsaved current fun _ => by simpa using connected)
  case upserting.storageError request future exc =>
    rw [← Option.some.inj moved]
    exact movesFlights_drop rfl rfl rfl (.unsaved current fun proceeds => by simp at proceeds)
  case upserted.proceed request future =>
    rw [← Option.some.inj moved]
    exact movesFlights_setTask current rfl rfl rfl
  case enqueueing.proceed request future =>
    split_ifs at moved
    rw [← Option.some.inj moved]
    exact movesFlights_put current rfl rfl rfl
  case awaiting.proceed key future =>
    split_ifs at moved
    rw [← Option.some.inj moved]
    have carried : Function.update state.flights.carried id none = state.flights.carried := by
      have : state.flights.carried id = none := by simp [flights, current, Task.item?]
      rw [← this, Function.update_eq_self]
    refine ⟨.release id, ?_, trivial⟩
    rw [flights_setTask]
    simp only [Task.item?, Task.claim?, Option.map_none, carried]
    exact .release

theorem cancelTask_movesFlights
    (moved : state.cancelTask id = some next) :
    MovesFlights env state (.cancel id) next := by
  unfold cancelTask at moved
  split at moved <;> try cases moved
  · next replayed key future current =>
      refine ⟨.cancel id, ?_, rfl, replayed, key, future, current⟩
      rw [flights_cancel current]
      have holding : state.flights.held id = some ⟨key, future⟩ := by
        simp [flights, current, Task.claim?]
      exact .cancel holding
  · exact movesFlights_drop rfl rfl rfl .cancelled
  · exact movesFlights_drop rfl rfl rfl .cancelled

/-- A key is settled in a step without any choice. -/
theorem choice_of_settles
    {item : QueueItem}
    {point : HandlePoint}
    {choice : Choice}
    (settles : point.settles = true)
    (moved : state.stepHandle env id item point choice = some next) :
    choice = .proceed := by
  cases point <;> cases settles <;> cases choice <;>
    simp only [stepHandle, reduceCtorEq] at moved <;> rfl

theorem stepWorker_movesFlights
    {point : WorkerPoint}
    {choice : Choice}
    (tidy : state.Tidy)
    (current : state.tasks id = some (.worker point))
    (moved : state.stepWorker env id point choice = some next) :
    MovesFlights env state (.step id choice) next := by
  have occupied : state.spawned ≠ id := by
    rintro rfl
    simp [tidy state.spawned (Nat.le_refl _)] at current
  cases point with
  | ended exc => cases choice <;> cases moved
  | cancelled => cases choice <;> cases moved
  | idle =>
      cases choice <;> simp only [stepWorker, reduceCtorEq] at moved
      split at moved
      · cases moved
      · next item rest waiting =>
          rw [← Option.some.inj moved]
          have unladen : state.flights.carried id = none := by
            simp [flights, current, Task.item?]
          have held : Function.update state.flights.held id none = state.flights.held := by
            have : state.flights.held id = none := by simp [flights, current, Task.claim?]
            rw [← this, Function.update_eq_self]
          refine ⟨.get id, ?_, trivial⟩
          have taken : (({ state with queue := { state.queue with items := rest } }.record
              (.handled item.key item.attempt)).moveTo id item .gating).flights =
              { state.flights with
                queued := rest.map QueueItem.job
                carried := Function.update state.flights.carried id (some item.job) } := by
            unfold moveTo
            rw [flights_setTask]
            simp only [record, flights, Task.item?, Task.claim?, Option.map_some,
              Flights.mk.injEq, true_and]
            exact held
          rw [taken]
          exact .get (by simp [flights, waiting]) unladen
  | handling item point =>
      rcases stepHandle_ends moved with ⟨escapes, escaped⟩ | ⟨_, handled⟩
      · obtain ⟨_⟩ := escaped
        exact movesFlights_drop rfl rfl rfl (.escaped current escapes)
      · cases handled with
        | advanced | succeeded | failed | deleted | incremented | pushed | retired =>
            exact movesFlights_setTask current rfl rfl rfl
        | resolved =>
            refine ⟨.settle id, ?_, ?_, item, _, current, rfl⟩
            · rw [flights_settle current rfl]
              exact .settle (by simp [flights, current, Task.item?])
            · rw [choice_of_settles rfl moved]
        | rejected =>
            refine ⟨.settle id, ?_, ?_, item, _, current, rfl⟩
            · rw [flights_settle current rfl]
              exact .settle (by simp [flights, current, Task.item?])
            · rw [choice_of_settles rfl moved]
        | @rescheduled newAttempt delay wakeAt =>
            have absent := flights_of_no_task (tidy state.spawned (Nat.le_refl _))
            refine ⟨.pass id state.spawned, ?_, trivial⟩
            have passed : ((state.spawn (.reschedule (.sleeping
                { item with attempt := newAttempt } wakeAt))).endHandle id).flights =
                { state.flights with
                  carried := Function.update (Function.update state.flights.carried
                    state.spawned (some item.job)) id none } := by
              have held : Function.update (Function.update state.flights.held state.spawned none)
                  id none = state.flights.held := by
                have : state.flights.held id = none := by simp [flights, current, Task.claim?]
                rw [← absent.2, Function.update_eq_self, absent.2, ← this,
                  Function.update_eq_self]
              change ((state.setTask state.spawned _).setTask id (.worker .idle)).flights = _
              rw [flights_setTask, flights_setTask]
              simp only [Task.item?, Task.claim?, Option.map_some, Option.map_none, held]
              rfl
            rw [passed]
            exact .pass (by simp [flights, current, Task.item?]) occupied absent.1

theorem cancelWorker_movesFlights
    (moved : state.cancelWorker id = some next) :
    MovesFlights env state (.cancelWorker id) next := by
  unfold cancelWorker at moved
  split at moved
  · split at moved
    · rw [← Option.some.inj moved]
      exact movesFlights_drop rfl rfl rfl .workerCancelled
    · rw [← Option.some.inj moved]
      exact movesFlights_drop rfl rfl rfl .workerCancelled
    · cases moved
  · cases moved

theorem stepReschedule_movesFlights
    {point : ReschedulePoint}
    {choice : Choice}
    (current : state.tasks id = some (.reschedule point))
    (moved : state.stepReschedule env id point choice = some next) :
    MovesFlights env state (.step id choice) next := by
  cases point <;> cases choice <;> simp only [stepReschedule, reduceCtorEq] at moved
  case sleeping.proceed item wakeAt =>
    split_ifs at moved with asleep stopping
    · rw [← Option.some.inj moved]
      exact movesFlights_drop rfl rfl rfl (.stopping current stopping)
    · rw [← Option.some.inj moved]
      exact movesFlights_setTask current rfl rfl rfl
  case enqueueing.proceed item =>
    split_ifs at moved
    rw [← Option.some.inj moved]
    exact movesFlights_put current rfl rfl rfl

theorem recoverRow_movesFlights
    {row : InflightRow}
    {rows : List InflightRow}
    (current : state.tasks id = some (.starter (.recovering (row :: rows)))) :
    MovesFlights env state (.step id .proceed) (state.recoverRow id row rows) := by
  have unladen : state.flights.carried id = none := by simp [flights, current, Task.item?]
  unfold recoverRow
  cases registered : state.dedup.pendingFuture? row.idempotencyKey with
  | some future =>
      simp only [InFlightRegistry.getOrCreate, registered]
      exact movesFlights_setTask current rfl rfl rfl
  | none =>
      have free : ¬ state.flights.Busy row.idempotencyKey := by
        rw [busy_iff, registered]
        simp
      refine ⟨.own id row.idempotencyKey (some row.payload.request.key) false, ?_,
        Or.inr ⟨row, by simp [recovered?, current], rfl, rfl⟩⟩
      have owned := flights_own id
        (.starter (.reenqueueing
          ⟨row.payload.request, row.retryCount, state.dedup.created⟩ rows))
        (some row.payload.request.key) false registered rfl rfl
      simp only [InFlightRegistry.getOrCreate, registered] at owned ⊢
      have same : ∀ metrics : Metrics, ∀ dedup : InFlightRegistry Response, ∀ task : Task,
          ({ state with dedup := dedup, metrics := metrics }.setTask id task).flights =
            ({ state with dedup := dedup }.setTask id task).flights := fun _ _ _ => rfl
      rw [same, owned]
      exact .own free unladen

theorem stepStarter_movesFlights
    {point : StartPoint}
    {choice : Choice}
    (tidy : state.Tidy)
    (current : state.tasks id = some (.starter point))
    (moved : state.stepStarter env id point choice = some next) :
    MovesFlights env state (.step id choice) next := by
  cases point <;> cases choice <;> simp only [stepStarter, failStart, reduceCtorEq] at moved
  case opening.proceed | preparing.proceed =>
    rw [← Option.some.inj moved]
    exact movesFlights_setTask current rfl rfl rfl
  case opening.storageError | preparing.storageError | listing.storageError =>
    rw [← Option.some.inj moved]
    exact movesFlights_setTask current rfl rfl rfl
  case listing.proceed =>
    split_ifs at moved <;> rw [← Option.some.inj moved] <;>
      exact movesFlights_setTask current rfl rfl rfl
  case recovering.proceed rows =>
    cases rows with
    | cons row rows =>
        rw [← Option.some.inj moved]
        exact recoverRow_movesFlights current
    | nil =>
        rw [← Option.some.inj moved]
        refine movesFlights_setTask current ?_ rfl rfl
        -- the workers are new tasks without item and claim
        have fresh : ∀ other, state.spawned ≤ other ∧
            other < state.spawned + env.config.queue.workers → state.tasks other = none :=
          fun other inRange => tidy other inRange.1
        simp only [flights, Flights.mk.injEq, true_and]
        constructor <;> funext other <;> split_ifs with isNew
        · simp [fresh other isNew, Task.item?]
        · rfl
        · simp [fresh other isNew, Task.claim?]
        · rfl
  case reenqueueing.proceed item rows =>
    split_ifs at moved
    rw [← Option.some.inj moved]
    exact movesFlights_put current rfl rfl rfl

theorem stepStopper_movesFlights
    {point : StopPoint}
    {choice : Choice}
    (current : state.tasks id = some (.stopper point))
    (moved : state.stepStopper id point choice = some next) :
    MovesFlights env state (.step id choice) next := by
  cases point <;> cases choice <;> simp only [stepStopper, reduceCtorEq] at moved
  case draining.proceed =>
    obtain ⟨after, _, rfl⟩ := Option.map_eq_some_iff.mp moved
    cases after <;> exact movesFlights_setTask current rfl rfl rfl
  case cancelling.proceed =>
    split_ifs at moved
    rw [← Option.some.inj moved]
    exact movesFlights_setTask current rfl rfl rfl
  case closingSession.proceed | closingStorage.proceed =>
    rw [← Option.some.inj moved]
    exact movesFlights_setTask current rfl rfl rfl

theorem stepTask_movesFlights
    {choice : Choice}
    (tidy : state.Tidy)
    (moved : state.stepTask env id choice = some next) :
    MovesFlights env state (.step id choice) next := by
  unfold stepTask at moved
  split at moved
  · next replayed point current => exact stepCaller_movesFlights current moved
  · next point current => exact stepWorker_movesFlights tidy current moved
  · next point current => exact stepReschedule_movesFlights current moved
  · next point current => exact stepStarter_movesFlights tidy current moved
  · next point current =>
      obtain ⟨_, after, _, rfl⟩ := stepDrainer_eq_some_iff.mp moved
      exact movesFlights_setTask current rfl rfl rfl
  · next point current => exact stepStopper_movesFlights current moved
  · cases moved

/-- A call adds a task without item and claim. -/
theorem movesFlights_call
    {base : State}
    {task : Task}
    (tidy : state.Tidy)
    (same : base.flights = state.flights)
    (item : task.item? = none)
    (claim : task.claim? = none) :
    MovesFlights env state label (base.setTask state.spawned task) := by
  obtain ⟨unladen, empty⟩ := flights_of_no_task (tidy state.spawned (Nat.le_refl _))
  apply movesFlights_of_same
  rw [flights_setTask, same, ← flights_setTask]
  exact flights_setTask_of_unladen unladen empty item claim

theorem callStart_movesFlights
    (tidy : state.Tidy)
    (moved : state.callStart = some next) :
    MovesFlights env state .start next := by
  unfold callStart at moved
  split_ifs at moved <;> rw [← Option.some.inj moved]
  · exact movesFlights_of_same rfl
  · exact movesFlights_call tidy rfl rfl rfl
  · exact movesFlights_call tidy rfl rfl rfl

theorem callStop_movesFlights
    (tidy : state.Tidy)
    (moved : state.callStop = some next) :
    MovesFlights env state .stop next := by
  unfold callStop at moved
  split_ifs at moved <;> rw [← Option.some.inj moved]
  · generalize state.enterDrain = drain
    cases drain <;> exact movesFlights_call tidy rfl rfl rfl
  · exact movesFlights_of_same rfl

end State

/-- Every step of the client is a move on its flights. -/
theorem step_movesFlights
    {env : Env}
    {label : Label}
    {state next : State}
    (tidy : state.Tidy)
    (moved : step env label state = some next) :
    MovesFlights env state label next := by
  cases label with
  | tick seconds =>
      simp only [step] at moved
      split_ifs at moved
      rw [← Option.some.inj moved]
      exact State.movesFlights_of_same rfl
  | setOverride | setResponseHook | purge =>
      rw [← Option.some.inj moved]
      exact State.movesFlights_of_same rfl
  | request request =>
      rw [← Option.some.inj moved]
      obtain ⟨unladen, empty⟩ :=
        State.flights_of_no_task (tidy state.spawned (Nat.le_refl _))
      let counted : State := { state with spawned := state.spawned + 1 }
      have called : MovesFlights env counted (.request request)
          (counted.callRequest env state.spawned none request) :=
        State.callRequest_movesFlights unladen empty fun serving => by
          simp [State.submitted?, serving]
      obtain ⟨action, move, traces⟩ := called
      refine ⟨action, move, ?_⟩
      cases action with
      | drop id => cases traces
      | _ => exact traces
  | replay row =>
      rw [← Option.some.inj moved]
      exact State.movesFlights_call tidy rfl rfl rfl
  | cancel id => exact State.cancelTask_movesFlights moved
  | step id choice => exact State.stepTask_movesFlights tidy moved
  | cancelWorker id => exact State.cancelWorker_movesFlights moved
  | start => exact State.callStart_movesFlights tidy moved
  | stop => exact State.callStop_movesFlights tidy moved
  | drain =>
      rw [← Option.some.inj moved]
      exact State.movesFlights_call tidy rfl rfl rfl
  | crash =>
      rw [← Option.some.inj moved]
      exact ⟨.reset, .reset, rfl⟩

/-- An item for an older future was live before the step. -/
theorem State.serves_of_old
    {env : Env}
    {label : Label}
    {state next : State}
    {place : Place}
    {item : QueueItem}
    (tidy : state.Tidy)
    (moved : step env label state = some next)
    (found : next.itemAt place = some item)
    (known : item.flight < state.dedup.created) :
    ∃ before old, state.itemAt before = some old ∧ old.flight = item.flight := by
  have job : next.flights.jobAt place = some item.job := by
    rw [State.jobAt_flights, found]
    rfl
  obtain ⟨action, move, _⟩ := step_movesFlights tidy moved
  obtain ⟨before, there⟩ : ∃ before, state.flights.jobAt before = some item.job := by
    by_cases owned : ∃ agent key carry hold, action = .own agent key carry hold
    · obtain ⟨agent, key, carry, hold, rfl⟩ := owned
      generalize next.flights = flights at move job
      cases move with
      | own =>
          rcases Flights.jobAt_own job with there | ⟨_, _, new⟩
          · exact ⟨place, there⟩
          · exact absurd new (Nat.ne_of_lt known)
    · obtain ⟨origin, relocates⟩ := move.relocates fun agent key carry hold isOwn =>
        owned ⟨agent, key, carry, hold, isOwn⟩
      exact ⟨origin place, relocates.kept place item.job job⟩
  rw [State.jobAt_flights] at there
  obtain ⟨old, isOld, same⟩ := Option.map_eq_some_iff.mp there
  exact ⟨before, old, isOld, congrArg Job.ticket same⟩

/-! ## Tickets over whole runs -/

/-- Tasks are numbered in order and tickets are sound. -/
structure State.Orderly (state : State) : Prop where
  tidy : state.Tidy
  sound : state.flights.Sound

namespace State.Orderly

theorem boot (tables : Tables) (now : ℚ) (history : List Event) :
    (State.boot tables now history).Orderly where
  tidy := State.tidy_boot tables now history
  sound := Flights.sound_initial

theorem step
    {env : Env}
    {label : Label}
    {state next : State}
    (orderly : state.Orderly)
    (moved : HardenedClient.step env label state = some next) :
    next.Orderly := by
  obtain ⟨action, move, _⟩ := step_movesFlights orderly.tidy moved
  exact ⟨(step_stepped moved).tidy orderly.tidy, orderly.sound.move move⟩

end State.Orderly

end HardenedClient
