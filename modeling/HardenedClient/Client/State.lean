import HardenedClient.CircuitBreaker
import HardenedClient.Dedup
import HardenedClient.Execute
import HardenedClient.Queue
import HardenedClient.RateLimiter
import HardenedClient.Storage

/-!
# State of a client process

Every coroutine of the client is a task with a program point: the await it is
suspended at, with the local variables it needs afterwards. The state holds the
tasks beside the client object's fields, the committed tables and the clock.

Three fields record what the code does not: `history` lists the events of the
run, `periods` numbers the half-open periods of each host's breaker, and a
worker between `before_call` and the end of the HTTP call carries the period in
which it was given a probe slot. No step reads them.
-/

namespace HardenedClient

/-- Counters of `Metrics`. -/
structure Metrics where
  requestsStarted : ℕ := 0
  requestsSucceeded : ℕ := 0
  requestsFailedRetryable : ℕ := 0
  requestsFailedTerminal : ℕ := 0
  retriesPerformed : ℕ := 0
  dlqPushes : ℕ := 0
  rateLimitWaits : ℕ := 0
  rateLimitWaitSecondsTotal : ℚ := 0
  breakerShortCircuits : ℕ := 0

/-- Events of a run. -/
inductive Event
  | upserted (key : Key)
  | incremented (key : Key)
  | deleted (key : Key)
  | deadLettered (key : Key) (id : ℕ)
  | removedDeadLetter (id : ℕ)
  | purged
  | handled (key : Key) (attempt : ℕ)
  | executed (key : Key) (succeeded : Bool)
  | settled (key : Key) (future : ℕ) (outcome : Future Response)
  | crashed

/-- Where a caller of `request()` or `replay_entry()` is suspended. -/
inductive CallerPoint
  | removing (row : DeadLetterRow)
  | removed (row : DeadLetterRow)
  | upserting (request : DurableRequest) (future : ℕ)
  | upserted (request : DurableRequest) (future : ℕ)
  | enqueueing (request : DurableRequest) (future : ℕ)
  | awaiting (key : Key) (future : ℕ)
  | received (key : Key) (future : ℕ) (outcome : Future Response)
  | raised (exc : PyException)
  | cancelled

/-- Where a worker is suspended inside `_handle`. -/
inductive HandlePoint
  | gating
  | acquiring (host : PyStr) (probe : Option ℕ) (bucket : Option ℕ) (delayTotal wakeAt : ℚ)
  | executing (host : PyStr) (probe : Option ℕ)
  | deleting (response : Response)
  | deleted (response : Response)
  | hooking (response : Response)
  | resolving (response : Response)
  | incrementing (exc : PyException) (newAttempt : ℕ) (delay : PyFloat)
  | scheduling (newAttempt : ℕ) (delay : PyFloat)
  | deadLettering (exc : PyException)
  | retiring (exc : PyException)
  | failing (exc : PyException)

/-- Where a worker is suspended, or how it ended: an exception that escaped
from `_handle`, or the cancellation by `stop()`. -/
inductive WorkerPoint
  | idle
  | handling (item : QueueItem) (point : HandlePoint)
  | ended (exc : PyException)
  | cancelled

/-- Where a `_reschedule` task is suspended. -/
inductive ReschedulePoint
  | sleeping (item : QueueItem) (wakeAt : PyFloat)
  | enqueueing (item : QueueItem)
  | done

/-- Where a `start()` call is suspended. -/
inductive StartPoint
  | opening
  | preparing
  | listing
  | recovering (rows : List InflightRow)
  | reenqueueing (item : QueueItem) (rows : List InflightRow)
  | started
  | failed (exc : PyException)

/-- Where `drain()` is suspended. -/
inductive DrainPoint
  | joining (since : ℕ)
  | gathering (pending : List ℕ)
  | drained

/-- Where a `stop()` call is suspended. -/
inductive StopPoint
  | draining (point : DrainPoint)
  | cancelling
  | closingSession
  | closingStorage
  | stopped

/-- A coroutine of the client. `replayed` is the id of the dead letter a caller
replays. -/
inductive Task
  | caller (replayed : Option ℕ) (point : CallerPoint)
  | worker (point : WorkerPoint)
  | reschedule (point : ReschedulePoint)
  | starter (point : StartPoint)
  | drainer (point : DrainPoint)
  | stopper (point : StopPoint)

/-- The state of a client process and of its database. -/
structure State where
  now : ℚ := 0
  session : Bool := false
  stopping : Bool := false
  connected : Bool := false
  tables : Tables := {}
  queue : RequestQueue := {}
  dedup : InFlightRegistry Response := {}
  limiter : HostRateLimiter := {}
  breakers : HostCircuitBreakers := {}
  tasks : ℕ → Option Task := fun _ => none
  spawned : ℕ := 0
  workers : List ℕ := []
  cancelRequests : List ℕ := []
  lifecycle : Bool := false
  hook : Bool := false
  metrics : Metrics := {}
  periods : PyStr → ℕ := fun _ => 0
  history : List Event := []

namespace State

/-- A client object just constructed over a database. -/
def boot (tables : Tables) (now : ℚ := 0) (history : List Event := []) : State where
  now := now
  tables := tables
  history := history

/-- Replace a task. -/
def setTask (state : State) (id : ℕ) (task : Task) : State :=
  { state with tasks := Function.update state.tasks id (some task) }

@[simp] theorem setTask_tasks_self
    (state : State)
    (id : ℕ)
    (task : Task) :
    (state.setTask id task).tasks id = some task :=
  Function.update_self _ _ _

@[simp] theorem setTask_tasks_of_ne
    (state : State)
    {id other : ℕ}
    (task : Task)
    (different : other ≠ id) :
    (state.setTask id task).tasks other = state.tasks other :=
  Function.update_of_ne different _ _

/-- `asyncio.create_task`. -/
def spawn (state : State) (task : Task) : State :=
  { state with
    tasks := Function.update state.tasks state.spawned (some task)
    spawned := state.spawned + 1 }

@[simp] theorem spawn_tasks_self (state : State) (task : Task) :
    (state.spawn task).tasks state.spawned = some task :=
  Function.update_self _ _ _

@[simp] theorem spawn_tasks_of_ne
    (state : State)
    {other : ℕ}
    (task : Task)
    (different : other ≠ state.spawned) :
    (state.spawn task).tasks other = state.tasks other :=
  Function.update_of_ne different _ _

/-- Record an event. -/
def record (state : State) (event : Event) : State :=
  { state with history := event :: state.history }

end State

end HardenedClient
