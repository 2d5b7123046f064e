import HardenedClient.Client.Handling
import HardenedClient.Foundation.Transition

/-!
# What a step writes

`Stepped` lists the coroutines and calls with the fields of the state each may
write; the fields it does not list stay as they are. The lemmas after it say
which tasks a step moves and creates.
-/

namespace HardenedClient

open Foundation

namespace State

/-- The request a step hands to `_submit`. -/
def submitted? (state : State) : Label → Option Request
  | .request request =>
      if state.session then some { request with method := request.method.upper } else none
  | .step id (.resubmit requestId createdAt) =>
      match state.tasks id with
      | some (.caller _ (.removed row)) =>
          if state.session then
            let request := replayRequest row requestId createdAt
            some { request with method := request.method.upper }
          else none
      | _ => none
  | _ => none

/-- The row whose turn it is when a step runs the recovery loop. -/
def recovered? (state : State) : Label → Option InflightRow
  | .step id .proceed =>
      match state.tasks id with
      | some (.starter (.recovering (row :: _))) => some row
      | _ => none
  | _ => none

end State

/-- Moves that may leave every task and the tables alone: time, configuration,
and `start()` or `stop()` on a client that is already there. -/
def Label.isOutside : Label → Bool
  | .tick _ | .setOverride _ _ | .setResponseHook _ | .start | .stop => true
  | _ => false

/-- What a submission or the recovery of a row does to the registry. -/
inductive Registers (registry : InFlightRegistry Response) : InFlightRegistry Response → Prop
  | same : Registers registry registry
  | called (key : Key) : Registers registry (registry.getOrCreate key).1

/-- What a coroutine with an item does to the queue. -/
inductive Puts (env : Env) (queue : RequestQueue) : RequestQueue → Prop
  | same : Puts env queue queue
  | put (item : QueueItem) (room : queue.hasRoom env.config.queue.maxSize = true) :
      Puts env queue (queue.put item)

/-- The await a step brings a caller to: it persists the request the step
submitted under a key that was free, and does not replay. -/
structure Enters (env : Env) (state : State) (label : Label) (point : CallerPoint) : Prop where
  submits : ∀ request future, point = .upserting request future →
    ∃ submitted, state.submitted? label = some submitted ∧
      submitted.durable? env.python = some request
  free : ∀ request future, point = .upserting request future →
    state.dedup.pendingFuture? request.key = none
  notReplays : ∀ row, point ≠ .removing row ∧ point ≠ .removed row

/-- The rows a `start()` call has still to recover. -/
def StartPoint.rows : StartPoint → List InflightRow
  | .recovering rows | .reenqueueing _ rows => rows
  | _ => []

/-- A `start()` or `stop()` call that has not ended. -/
def Task.inLifecycle : Task → Bool
  | .starter .started | .starter (.failed _) | .stopper .stopped => false
  | .starter _ | .stopper _ => true
  | _ => false

/-- What each coroutine and each call may write. -/
inductive Stepped (env : Env) (state : State) : Label → State → Prop
  | outside {label : Label} {now : ℚ} {limiter : HostRateLimiter} {hook : Bool}
      (isOutside : label.isOutside = true) :
      Stepped env state label { state with now := now, limiter := limiter, hook := hook }
  | purged :
      Stepped env state .purge
        ({ state with tables := state.tables.purgeDeadLetter }.record .purged)
  | request {request : Request} {dedup : InFlightRegistry Response} {point : CallerPoint}
      (registers : Registers state.dedup dedup)
      (enters : Enters env state (.request request) point)
      (waits : ∀ key future outcome, point ≠ .received key future outcome) :
      Stepped env state (.request request)
        ({ state with spawned := state.spawned + 1, dedup := dedup }.setTask state.spawned
          (.caller none point))
  | replay {row : DeadLetterRow} :
      Stepped env state (.replay row)
        ({ state with spawned := state.spawned + 1 }.setTask state.spawned
          (.caller (some row.id) (.removing row)))
  | drain :
      Stepped env state .drain
        ({ state with spawned := state.spawned + 1 }.setTask state.spawned
          (.drainer state.enterDrain))
  | start {session : Bool} {point : StartPoint}
      (fresh : point = .opening ∨ point = .listing)
      (idle : state.lifecycle = false) :
      Stepped env state .start
        ({ state with
          spawned := state.spawned + 1, session := session, lifecycle := true }.setTask
            state.spawned (.starter point))
  | stop {cancelRequests : List ℕ} {point : StopPoint}
      (pool : cancelRequests = state.cancelRequests ∨ cancelRequests = state.workers)
      (idle : state.lifecycle = false) :
      Stepped env state .stop
        ({ state with
          spawned := state.spawned + 1, stopping := true, lifecycle := true
          cancelRequests := cancelRequests }.setTask state.spawned (.stopper point))
  | caller {id : ℕ} {choice : Choice} {replayed : Option ℕ} {point next : CallerPoint}
      {dedup : InFlightRegistry Response} {queue : RequestQueue} {metrics : Metrics}
      (current : state.tasks id = some (.caller replayed point))
      (registers : Registers state.dedup dedup)
      (puts : Puts env state.queue queue)
      (enters : Enters env state (.step id choice) next)
      (delivers : ∀ key future outcome, next = .received key future outcome →
        point = .awaiting key future ∧ outcome = state.dedup.futures future ∧
          outcome.done = true) :
      Stepped env state (.step id choice)
        ({ state with dedup := dedup, queue := queue, metrics := metrics }.setTask id
          (.caller replayed next))
  | upserted {id : ℕ} {replayed : Option ℕ} {request : DurableRequest} {future : ℕ}
      (current : state.tasks id = some (.caller replayed (.upserting request future)))
      (connected : state.connected = true) :
      Stepped env state (.step id .proceed)
        (({ state with tables := state.tables.upsertInflight request state.now }.record
          (.upserted request.key)).setTask id (.caller replayed (.upserted request future)))
  | removed {id : ℕ} {replayed : Option ℕ} {row : DeadLetterRow}
      (current : state.tasks id = some (.caller replayed (.removing row)))
      (connected : state.connected = true) :
      Stepped env state (.step id .proceed)
        (({ state with tables := state.tables.removeDeadLetter row.id }.record
          (.removedDeadLetter row.id)).setTask id (.caller replayed (.removed row)))
  | cancelCaller {id : ℕ} {replayed : Option ℕ} {point : CallerPoint}
      {dedup : InFlightRegistry Response}
      (current : state.tasks id = some (.caller replayed point))
      (cancels : dedup = state.dedup ∨ ∃ future, dedup = state.dedup.cancel future) :
      Stepped env state (.cancel id)
        ({ state with dedup := dedup }.setTask id (.caller replayed .cancelled))
  | cancelStarter {id : ℕ} {point : StartPoint}
      (current : state.tasks id = some (.starter point))
      (active : (Task.starter point).inLifecycle = true) :
      Stepped env state (.cancel id)
        ({ state with lifecycle := false }.setTask id (.starter (.failed .cancelledError)))
  | taken {id : ℕ} {item : QueueItem} {rest : List QueueItem}
      (current : state.tasks id = some (.worker .idle))
      (waiting : state.queue.items = item :: rest) :
      Stepped env state (.step id .proceed)
        (({ state with queue := { state.queue with items := rest } }.record
          (.handled item.key item.attempt)).moveTo id item .gating)
  | handled {id : ℕ} {choice : Choice} {item : QueueItem} {point : HandlePoint} {next : State}
      (current : state.tasks id = some (.worker (.handling item point)))
      (inside : ¬ Escapes env state item point choice)
      (handled : Handled state id item point next) :
      Stepped env state (.step id choice) next
  | escaped {id : ℕ} {choice : Choice} {item : QueueItem} {point : HandlePoint} {next : State}
      (current : state.tasks id = some (.worker (.handling item point)))
      (escapes : Escapes env state item point choice)
      (escaped : Escaped state id item next) :
      Stepped env state (.step id choice) next
  | cancelIdle {id : ℕ}
      (current : state.tasks id = some (.worker .idle))
      (requested : id ∈ state.cancelRequests) :
      Stepped env state (.cancelWorker id) (state.setTask id (.worker .cancelled))
  | cancelHandling {id : ℕ} {item : QueueItem} {point : HandlePoint}
      (current : state.tasks id = some (.worker (.handling item point)))
      (requested : id ∈ state.cancelRequests) :
      Stepped env state (.cancelWorker id)
        ({ state with queue := state.queue.taskDone }.setTask id (.worker .cancelled))
  | reschedule {id : ℕ} {choice : Choice} {point next : ReschedulePoint}
      {queue : RequestQueue}
      (current : state.tasks id = some (.reschedule point))
      (puts : Puts env state.queue queue) :
      Stepped env state (.step id choice)
        ({ state with queue := queue }.setTask id (.reschedule next))
  | starter {id : ℕ} {choice : Choice} {point next : StartPoint} {session connected : Bool}
      {dedup : InFlightRegistry Response} {queue : RequestQueue} {metrics : Metrics}
      {lifecycle : Bool}
      (current : state.tasks id = some (.starter point))
      (registers : Registers state.dedup dedup)
      (puts : Puts env state.queue queue)
      (lists : ∀ row ∈ next.rows, row ∈ point.rows ∨ row ∈ state.tables.inflight.rows)
      (active : (Task.starter point).inLifecycle = true)
      (guards : (Task.starter next).inLifecycle = true → lifecycle = state.lifecycle) :
      Stepped env state (.step id choice)
        ({ state with
          session := session, connected := connected, dedup := dedup, queue := queue
          metrics := metrics, lifecycle := lifecycle }.setTask id (.starter next))
  | online {id : ℕ}
      (current : state.tasks id = some (.starter (.recovering []))) :
      Stepped env state (.step id .proceed) (state.online env id)
  | drainer {id : ℕ} {choice : Choice} {point next : DrainPoint}
      (current : state.tasks id = some (.drainer point)) :
      Stepped env state (.step id choice) (state.setTask id (.drainer next))
  | stopper {id : ℕ} {choice : Choice} {point next : StopPoint} {session connected : Bool}
      {lifecycle : Bool} {workers cancelRequests : List ℕ}
      (current : state.tasks id = some (.stopper point))
      (pool : workers = [] ∨ workers = state.workers ∧
        (cancelRequests = state.cancelRequests ∨ cancelRequests = state.workers))
      (active : (Task.stopper point).inLifecycle = true)
      (guards : (Task.stopper next).inLifecycle = true → lifecycle = state.lifecycle) :
      Stepped env state (.step id choice)
        ({ state with
          session := session, connected := connected, lifecycle := lifecycle
          workers := workers, cancelRequests := cancelRequests }.setTask id (.stopper next))
  | crash :
      Stepped env state .crash (State.boot state.tables state.now (.crashed :: state.history))

namespace State

variable {env : Env} {state next : State} {id : ℕ} {label : Label} {choice : Choice}

/-- An await that is none of persisting and replaying. -/
theorem enters_of_ne
    {point : CallerPoint}
    (notUpserting : ∀ request future, point ≠ .upserting request future)
    (notReplays : ∀ row, point ≠ .removing row ∧ point ≠ .removed row) :
    Enters env state label point where
  submits := fun request future same => absurd same (notUpserting request future)
  free := fun request future same => absurd same (notUpserting request future)
  notReplays := notReplays

/-- `request()` writes the registry and one task. -/
theorem callRequest_eq
    (state : State)
    (env : Env)
    (id : ℕ)
    (replayed : Option ℕ)
    (request : Request)
    {label : Label}
    (submits : state.session = true →
      state.submitted? label = some { request with method := request.method.upper }) :
    ∃ dedup point,
      state.callRequest env id replayed request =
        { state with dedup := dedup }.setTask id (.caller replayed point) ∧
      Registers state.dedup dedup ∧ Enters env state label point ∧
      ∀ key future outcome, point ≠ .received key future outcome := by
  unfold callRequest submit
  split
  · next serving =>
      cases hashes : { request with method := request.method.upper }.idempotencyKey? env.python with
      | none =>
          exact ⟨state.dedup, _, rfl, .same, enters_of_ne (by simp) (by simp), by simp⟩
      | some key =>
          have called : Registers state.dedup (state.dedup.getOrCreate key).1 := .called key
          simp only
          split
          · next dedup future found =>
              rw [found] at called
              exact ⟨dedup, _, rfl, called, enters_of_ne (by simp) (by simp), by simp⟩
          · next dedup future found =>
              rw [found] at called
              split
              · exact ⟨dedup, _, rfl, called, enters_of_ne (by simp) (by simp), by simp⟩
              · next durable packed =>
                  refine ⟨dedup, _, rfl, called, ⟨?_, ?_, by simp⟩, by simp⟩
                  · intro request shared same
                    cases same
                    exact ⟨_, submits serving, packed⟩
                  · intro request shared same
                    cases same
                    rw [Request.key_of_durable? hashes packed,
                      ← state.dedup.getOrCreate_owner_iff, found]
  · exact ⟨state.dedup, _, rfl, .same, enters_of_ne (by simp) (by simp), by simp⟩

theorem stepCaller_stepped
    {replayed : Option ℕ}
    {point : CallerPoint}
    (current : state.tasks id = some (.caller replayed point))
    (moved : state.stepCaller env id replayed point choice = some next) :
    Stepped env state (.step id choice) next := by
  cases point <;> cases choice <;> simp only [stepCaller, reduceCtorEq] at moved
  case removing.proceed row =>
    split_ifs at moved with connected <;> rw [← Option.some.inj moved]
    · exact .removed current connected
    · exact .caller current .same .same (enters_of_ne (by simp) (by simp)) (by simp)
  case removed.resubmit row requestId createdAt =>
    rw [← Option.some.inj moved]
    let request := replayRequest row requestId createdAt
    have submits : state.session = true →
        state.submitted? (.step id (.resubmit requestId createdAt)) =
          some { request with method := request.method.upper } := by
      intro serving
      simp [submitted?, current, serving, request]
    obtain ⟨dedup, point, same, registers, enters, waits⟩ :=
      state.callRequest_eq env id replayed request submits
    rw [same]
    exact .caller current registers .same enters fun key future outcome isReceived =>
      absurd isReceived (waits key future outcome)
  case upserting.proceed request future =>
    split_ifs at moved with connected <;> rw [← Option.some.inj moved]
    · exact .upserted current connected
    · exact .caller current .same .same (enters_of_ne (by simp) (by simp)) (by simp)
  case removing.storageError | upserting.storageError | upserted.proceed =>
    rw [← Option.some.inj moved]
    exact .caller current .same .same (enters_of_ne (by simp) (by simp)) (by simp)
  case enqueueing.proceed request future =>
    split_ifs at moved with room
    rw [← Option.some.inj moved]
    exact .caller current .same (.put _ room) (enters_of_ne (by simp) (by simp)) (by simp)
  case awaiting.proceed key future =>
    split_ifs at moved with done
    rw [← Option.some.inj moved]
    refine .caller current .same .same (enters_of_ne (by simp) (by simp)) ?_
    intro other shared outcome isReceived
    cases isReceived
    exact ⟨rfl, rfl, done⟩

theorem cancelTask_stepped
    (moved : state.cancelTask id = some next) :
    Stepped env state (.cancel id) next := by
  unfold cancelTask at moved
  split at moved <;> cases moved
  · next current => exact .cancelCaller current (Or.inr ⟨_, rfl⟩)
  · next current => exact .cancelCaller current (Or.inl rfl)
  · next point _ _ current =>
      exact .cancelStarter current (by cases point <;> simp_all [Task.inLifecycle])

theorem stepWorker_stepped
    {point : WorkerPoint}
    (current : state.tasks id = some (.worker point))
    (moved : state.stepWorker env id point choice = some next) :
    Stepped env state (.step id choice) next := by
  cases point with
  | ended exc => cases choice <;> cases moved
  | cancelled => cases choice <;> cases moved
  | idle =>
      cases choice <;> simp only [stepWorker, reduceCtorEq] at moved
      split at moved
      · cases moved
      · next waiting =>
          rw [← Option.some.inj moved]
          exact .taken current waiting
  | handling item point =>
      rcases stepHandle_ends moved with ⟨escapes, escaped⟩ | ⟨inside, handled⟩
      · exact .escaped current escapes escaped
      · exact .handled current inside handled

theorem cancelWorker_stepped
    (moved : state.cancelWorker id = some next) :
    Stepped env state (.cancelWorker id) next := by
  unfold cancelWorker at moved
  split at moved
  · next requested =>
      split at moved <;> cases moved
      · next current => exact .cancelIdle current requested
      · next current => exact .cancelHandling current requested
  · cases moved

theorem stepReschedule_stepped
    {point : ReschedulePoint}
    (current : state.tasks id = some (.reschedule point))
    (moved : state.stepReschedule env id point choice = some next) :
    Stepped env state (.step id choice) next := by
  cases point <;> cases choice <;> simp only [stepReschedule, reduceCtorEq] at moved
  case sleeping.proceed =>
    split_ifs at moved <;> rw [← Option.some.inj moved] <;> exact .reschedule current .same
  case enqueueing.proceed item =>
    split_ifs at moved with room
    rw [← Option.some.inj moved]
    exact .reschedule current (.put item room)

theorem stepStarter_stepped
    {point : StartPoint}
    (current : state.tasks id = some (.starter point))
    (moved : state.stepStarter env id point choice = some next) :
    Stepped env state (.step id choice) next := by
  cases point <;> cases choice <;> simp only [stepStarter, failStart, reduceCtorEq] at moved
  case recovering.proceed rows =>
    cases rows with
    | nil =>
        rw [← Option.some.inj moved]
        exact .online current
    | cons row rows =>
        rw [← Option.some.inj moved]
        have called : Registers state.dedup
            (state.dedup.getOrCreate row.idempotencyKey).1 := .called row.idempotencyKey
        unfold recoverRow
        split
        all_goals
          next found =>
            rw [found] at called
            exact .starter current called .same
              (fun other present => Or.inl (List.mem_cons_of_mem _ present)) rfl fun _ => rfl
  case reenqueueing.proceed item rows =>
    split_ifs at moved with room
    rw [← Option.some.inj moved]
    exact .starter current .same (.put item room) (fun _ present => Or.inl present) rfl
      fun _ => rfl
  case listing.proceed =>
    split_ifs at moved <;> rw [← Option.some.inj moved]
    · exact .starter current .same .same (fun row present =>
        Or.inr (state.tables.listInflight_perm.mem_iff.mp present)) rfl fun _ => rfl
    · exact .starter current .same .same (by simp [StartPoint.rows]) rfl
        (by simp [Task.inLifecycle])
  all_goals
    rw [← Option.some.inj moved]
    exact .starter current .same .same (by simp [StartPoint.rows]) rfl
      (by simp [Task.inLifecycle])

theorem stepStopper_stepped
    {point : StopPoint}
    (current : state.tasks id = some (.stopper point))
    (moved : state.stepStopper id point choice = some next) :
    Stepped env state (.step id choice) next := by
  cases point <;> cases choice <;> simp only [stepStopper, reduceCtorEq] at moved
  case draining.proceed =>
    obtain ⟨after, _, rfl⟩ := Option.map_eq_some_iff.mp moved
    cases after with
    | drained => exact .stopper current (Or.inr ⟨rfl, Or.inr rfl⟩) rfl fun _ => rfl
    | joining | gathering => exact .stopper current (Or.inr ⟨rfl, Or.inl rfl⟩) rfl fun _ => rfl
  case cancelling.proceed =>
    split_ifs at moved
    rw [← Option.some.inj moved]
    exact .stopper current (Or.inl rfl) rfl fun _ => rfl
  case closingSession.proceed | closingStorage.proceed =>
    rw [← Option.some.inj moved]
    exact .stopper current (Or.inr ⟨rfl, Or.inl rfl⟩) rfl (by simp [Task.inLifecycle])

end State

/-- Every step is one of those listed. -/
theorem step_stepped
    {env : Env}
    {label : Label}
    {state next : State}
    (moved : step env label state = some next) :
    Stepped env state label next := by
  cases label with
  | crash =>
      rw [← Option.some.inj moved]
      exact .crash
  | tick seconds =>
      simp only [step] at moved
      split_ifs at moved
      rw [← Option.some.inj moved]
      exact .outside rfl
  | setOverride | setResponseHook =>
      rw [← Option.some.inj moved]
      exact .outside rfl
  | purge =>
      rw [← Option.some.inj moved]
      exact .purged
  | request request =>
      rw [← Option.some.inj moved]
      have submits : state.session = true → State.submitted?
          { state with spawned := state.spawned + 1 } (.request request) =
            some { request with method := request.method.upper } := by
        intro serving
        simp [State.submitted?, serving]
      obtain ⟨dedup, point, same, registers, enters, waits⟩ := State.callRequest_eq
        { state with spawned := state.spawned + 1 } env state.spawned none request submits
      rw [same]
      exact .request registers ⟨enters.submits, enters.free, enters.notReplays⟩ waits
  | replay row =>
      rw [← Option.some.inj moved]
      exact .replay
  | drain =>
      rw [← Option.some.inj moved]
      exact .drain
  | cancel id => exact State.cancelTask_stepped moved
  | cancelWorker id => exact State.cancelWorker_stepped moved
  | start =>
      simp only [step, State.callStart] at moved
      split_ifs at moved with busy <;> rw [← Option.some.inj moved]
      · exact .outside rfl
      · exact .start (Or.inr rfl) (by simpa using busy)
      · exact .start (Or.inl rfl) (by simpa using busy)
  | stop =>
      simp only [step, State.callStop] at moved
      split_ifs at moved with busy <;> rw [← Option.some.inj moved]
      · have idle : state.lifecycle = false := by simpa using busy
        generalize state.enterDrain = drain
        cases drain with
        | drained => exact .stop (Or.inr rfl) idle
        | joining | gathering => exact .stop (Or.inl rfl) idle
      · exact .outside rfl
  | step id choice =>
      simp only [step, State.stepTask] at moved
      split at moved
      · next current => exact State.stepCaller_stepped current moved
      · next current => exact State.stepWorker_stepped current moved
      · next current => exact State.stepReschedule_stepped current moved
      · next current => exact State.stepStarter_stepped current moved
      · next current =>
          obtain ⟨_, after, _, rfl⟩ := State.stepDrainer_eq_some_iff.mp moved
          exact .drainer current
      · next current => exact State.stepStopper_stepped current moved
      · cases moved

/-- A crash starts again from the tables. -/
theorem Stepped.boot_of_crash
    {env : Env}
    {state next : State}
    (stepped : Stepped env state .crash next) :
    next = State.boot state.tables state.now (.crashed :: state.history) := by
  cases stepped with
  | crash => rfl
  | outside isOutside => cases isOutside

/-! ## The tasks -/

/-- The task a step moves: the one the label names, or the one a call creates. -/
def Label.actor (state : State) : Label → ℕ
  | .step id _ | .cancel id | .cancelWorker id => id
  | _ => state.spawned

/-- The tasks a step creates beside the one it moves. -/
inductive Born : Task → Prop
  | worker : Born (.worker .idle)
  | reschedule (item : QueueItem) (wakeAt : PyFloat) :
      Born (.reschedule (.sleeping item wakeAt))

/-- A step that moves the task `id` and creates others. -/
structure Frame (id : ℕ) (state next : State) : Prop where
  grows : state.spawned ≤ next.spawned
  self : ∀ task, next.tasks id = some task → id < next.spawned
  others : ∀ other < state.spawned, other ≠ id → next.tasks other = state.tasks other
  born : ∀ other, state.spawned ≤ other → other ≠ id → ∀ task,
    next.tasks other = some task → other < next.spawned ∧ Born task

/-- A task that is there after a step that did not move it was there before, or
is one that the step created. -/
theorem Frame.origin
    {id other : ℕ}
    {state next : State}
    {task : Task}
    (frame : Frame id state next)
    (different : other ≠ id)
    (current : next.tasks other = some task) :
    state.tasks other = some task ∨ Born task := by
  by_cases known : other < state.spawned
  · exact Or.inl (frame.others other known different ▸ current)
  · exact Or.inr (frame.born other (Nat.le_of_not_lt known) different task current).2

/-- A step of `_handle` moves a worker. -/
theorem Handled.worker
    {state next : State}
    {id : ℕ}
    {item : QueueItem}
    {point : HandlePoint}
    (handled : Handled state id item point next) :
    ∃ after, next.tasks id = some (.worker after) := by
  cases handled with
  | resolved | rescheduled | rejected => exact ⟨.idle, State.endHandle_tasks_self _ _⟩
  | _ => exact ⟨.handling item _, State.moveTo_tasks_self _ _ _ _⟩

/-- An exception that escapes ends the worker. -/
theorem Escaped.worker
    {state next : State}
    {id : ℕ}
    {item : QueueItem}
    (escaped : Escaped state id item next) :
    ∃ exc, next.tasks id = some (.worker (.ended exc)) := by
  obtain ⟨_⟩ := escaped
  exact ⟨_, State.escape_tasks_self _ _ _⟩

namespace State

/-- Task numbers are used in order. -/
def Tidy (state : State) : Prop :=
  ∀ id, state.spawned ≤ id → state.tasks id = none

variable {env : Env} {state next : State} {id : ℕ} {label : Label}

theorem tidy_boot (tables : Tables) (now : ℚ) (history : List Event) :
    (boot tables now history).Tidy :=
  fun _ _ => rfl

theorem Tidy.lt_of_task
    {task : Task}
    (tidy : state.Tidy)
    (current : state.tasks id = some task) :
    id < state.spawned := by
  by_contra beyond
  rw [tidy id (Nat.le_of_not_lt beyond)] at current
  cases current

/-- What a check finds of the tasks created so far holds of every task. -/
theorem Tidy.forall_task
    {check : Task → Bool}
    (tidy : state.Tidy)
    (passes : ((List.range state.spawned).all fun id => (state.tasks id).all check) = true) :
    ∀ id task, state.tasks id = some task → check task = true := by
  intro id task current
  have checked := List.all_eq_true.mp passes id (List.mem_range.mpr (tidy.lt_of_task current))
  simpa [current] using checked

theorem Tidy.of_frame
    (frame : Frame id state next) :
    next.Tidy := by
  intro other beyond
  by_contra present
  obtain ⟨task, found⟩ := Option.ne_none_iff_exists'.mp present
  by_cases isActor : other = id
  · subst isActor
    exact absurd (frame.self task found) (Nat.not_lt_of_le beyond)
  · have new := frame.born other (frame.grows.trans beyond) isActor task found
    exact absurd new.1 (Nat.not_lt_of_le beyond)

theorem frame_setTask
    {base : State}
    {old task : Task}
    (tidy : state.Tidy)
    (current : state.tasks id = some old)
    (tasks : base.tasks = state.tasks)
    (spawned : base.spawned = state.spawned) :
    Frame id state (base.setTask id task) where
  grows := spawned ▸ Nat.le_refl _
  self := fun _ _ => spawned ▸ tidy.lt_of_task current
  others := fun other _ different => by simp [setTask, different, tasks]
  born := fun other beyond different found present => by
    simp [setTask, different, tasks, tidy other beyond] at present

theorem frame_call
    {base : State}
    {task : Task}
    (tidy : state.Tidy)
    (tasks : base.tasks = state.tasks)
    (spawned : base.spawned = state.spawned + 1) :
    Frame state.spawned state (base.setTask state.spawned task) where
  grows := by simp [setTask, spawned]
  self := fun _ _ => by simp [setTask, spawned]
  others := fun other _ different => by simp [setTask, different, tasks]
  born := fun other beyond different found present => by
    simp [setTask, different, tasks, tidy other beyond] at present

theorem frame_of_same
    (tidy : state.Tidy)
    (tasks : next.tasks = state.tasks)
    (spawned : next.spawned = state.spawned) :
    Frame state.spawned state next where
  grows := spawned ▸ Nat.le_refl _
  self := fun task found => by
    rw [tasks, tidy state.spawned (Nat.le_refl _)] at found
    cases found
  others := fun other _ _ => by rw [tasks]
  born := fun other beyond _ task found => by
    rw [tasks, tidy other beyond] at found
    cases found

theorem frame_online
    {old : Task}
    (env : Env)
    (tidy : state.Tidy)
    (current : state.tasks id = some old) :
    Frame id state (state.online env id) where
  grows := Nat.le_add_right _ _
  self := fun _ _ => Nat.lt_add_right _ (tidy.lt_of_task current)
  others := fun other earlier different => by
    simp [online, setTask, different, Nat.not_le_of_lt earlier]
  born := by
    intro other beyond different task found
    simp only [online, setTask, Function.update_of_ne different] at found
    split_ifs at found with new
    · rw [← Option.some.inj found]
      exact ⟨new.2, .worker⟩
    · rw [tidy other beyond] at found
      cases found

theorem frame_handled
    {item : QueueItem}
    {point : HandlePoint}
    (tidy : state.Tidy)
    (current : state.tasks id = some (.worker (.handling item point)))
    (handled : Handled state id item point next) :
    Frame id state next := by
  cases handled with
  | advanced | succeeded | failed | deleted | incremented | pushed | retired =>
      exact frame_setTask tidy current rfl rfl
  | resolved | rejected =>
      rw [settleKey_eq]
      exact frame_setTask tidy current rfl rfl
  | rescheduled =>
      have known := tidy.lt_of_task current
      refine ⟨Nat.le_succ _, fun _ _ => Nat.lt_succ_of_lt known, ?_, ?_⟩
      · intro other earlier different
        simp [endHandle, spawn, setTask, different, earlier.ne]
      · intro other beyond different task found
        simp only [endHandle, spawn, setTask, Function.update_of_ne different,
          Function.update_apply] at found
        split_ifs at found with new
        · rw [← Option.some.inj found, new]
          exact ⟨Nat.lt_succ_self _, .reschedule _ _⟩
        · rw [tidy other beyond] at found
          cases found

end State

/-- Every step but a crash moves its actor and creates tasks. -/
theorem Stepped.frame
    {env : Env}
    {label : Label}
    {state next : State}
    (stepped : Stepped env state label next)
    (tidy : state.Tidy)
    (alive : label ≠ .crash) :
    Frame (label.actor state) state next := by
  cases stepped with
  | crash => exact absurd rfl alive
  | outside isOutside =>
      have actor : label.actor state = state.spawned := by
        cases label <;> first | rfl | cases isOutside
      rw [actor]
      exact State.frame_of_same tidy rfl rfl
  | purged => exact State.frame_of_same tidy rfl rfl
  | request | replay | drain | start | stop => exact State.frame_call tidy rfl rfl
  | caller current | upserted current | removed current | cancelCaller current
    | cancelStarter current | taken current | cancelIdle current | cancelHandling current
    | reschedule current | starter current | drainer current | stopper current =>
      exact State.frame_setTask tidy current rfl rfl
  | online current => exact State.frame_online env tidy current
  | handled current _ handled => exact State.frame_handled tidy current handled
  | escaped current _ escaped =>
      obtain ⟨_⟩ := escaped
      exact State.frame_setTask tidy current rfl rfl

/-- Task numbers are used in order in every reachable state. -/
theorem Stepped.tidy
    {env : Env}
    {label : Label}
    {state next : State}
    (stepped : Stepped env state label next)
    (tidy : state.Tidy) :
    next.Tidy := by
  by_cases crashed : label = .crash
  · subst crashed
    rw [stepped.boot_of_crash]
    exact State.tidy_boot _ _ _
  · exact .of_frame (stepped.frame tidy crashed)

/-- A task that is there after a step was there before and did not move, is the
one that the step moves, or is one that the step created. -/
theorem Stepped.origin
    {env : Env}
    {label : Label}
    {state next : State}
    {id : ℕ}
    {task : Task}
    (stepped : Stepped env state label next)
    (tidy : state.Tidy)
    (current : next.tasks id = some task) :
    (state.tasks id = some task ∧ id ≠ label.actor state) ∨
      (id = label.actor state ∧ label ≠ .crash) ∨ Born task := by
  have alive : label ≠ .crash := by
    rintro rfl
    rw [stepped.boot_of_crash] at current
    cases current
  by_cases isActor : id = label.actor state
  · exact Or.inr (Or.inl ⟨isActor, alive⟩)
  · rcases (stepped.frame tidy alive).origin isActor current with before | born
    · exact Or.inl ⟨before, isActor⟩
    · exact Or.inr (Or.inr born)

theorem State.Tidy.of_run
    {env : Env}
    {allowed : State → Label → Prop}
    {start state : State}
    (tidy : start.Tidy)
    (run : Run (step env) allowed start state) :
    state.Tidy :=
  run.invariant State.Tidy tidy fun _ _ _ tidy _ moved => (step_stepped moved).tidy tidy

/-- Nothing but the passing of time moves the clock. -/
theorem now_step
    {env : Env}
    {label : Label}
    {state next : State}
    (timeless : ∀ seconds, label ≠ .tick seconds)
    (moved : step env label state = some next) :
    next.now = state.now := by
  cases label with
  | tick seconds => exact absurd rfl (timeless seconds)
  | setOverride | setResponseHook =>
      rw [← Option.some.inj moved]
  | start =>
      simp only [step, State.callStart] at moved
      split_ifs at moved <;> rw [← Option.some.inj moved] <;> rfl
  | stop =>
      simp only [step, State.callStop] at moved
      split_ifs at moved <;> rw [← Option.some.inj moved]
      cases state.enterDrain <;> rfl
  | step =>
      cases step_stepped moved with
      | outside isOutside => cases isOutside
      | handled _ _ handled =>
          cases handled with
          | resolved | rejected =>
              rw [State.settleKey_eq]
              rfl
          | _ => rfl
      | escaped _ _ escaped =>
          obtain ⟨_⟩ := escaped
          rfl
      | _ => rfl
  | _ =>
      cases step_stepped moved with
      | outside isOutside => cases isOutside
      | _ => rfl

/-- The clock does not run backwards. -/
theorem now_le_step
    {env : Env}
    {label : Label}
    {state next : State}
    (moved : step env label state = some next) :
    state.now ≤ next.now := by
  by_cases timed : ∃ seconds, label = .tick seconds
  · obtain ⟨seconds, rfl⟩ := timed
    simp only [step, Option.ite_none_right_eq_some, Option.some.injEq] at moved
    obtain ⟨forward, rfl⟩ := moved
    exact le_add_of_nonneg_right forward
  · exact (now_step (not_exists.mp timed) moved).ge

end HardenedClient
