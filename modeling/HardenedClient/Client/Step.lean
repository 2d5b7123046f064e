import HardenedClient.Client.State

/-!
# Steps of a client process

One step runs one coroutine from the await it is suspended at to its next one,
or is an event outside the coroutines: a call, a cancellation, time passing, a
crash. Which coroutine runs, and what its await returns, is the label; a step
is `none` when the await cannot return that way in the current state.

A `Storage` write is one committed change of the tables, and the statements
after the await run in a later step, since other coroutines may run between
the commit and the resumption.
-/

namespace HardenedClient

/-- What the await a coroutine is suspended at returns with. A hook returns or
raises here; `HookEffect` adds what it does to the request and the response it is
handed. -/
inductive Choice
  | proceed
  | storageError (exc : PyException)
  | resubmit (requestId : String) (createdAt : ℚ)
  | jitter (draw : ℚ)
  | http (event : HttpEvent) (draw : ℚ)
  | hook (raised : Option PyException)

/-- Moves of the system. -/
inductive Label
  | tick (seconds : ℚ)
  | setOverride (host : PyStr) (config : RateLimitConfig)
  | setResponseHook (installed : Bool)
  | purge
  | request (request : Request)
  | replay (row : DeadLetterRow)
  | cancel (id : ℕ)
  | step (id : ℕ) (choice : Choice)
  | cancelWorker (id : ℕ)
  | start
  | stop
  | drain
  | crash

/-- Moves of the client that are nobody's calls. -/
def Label.isInternal : Label → Bool
  | .tick _ | .step _ _ | .cancelWorker _ => true
  | _ => false

/-! ## Exceptions of the client's own calls -/

/-- The TypeError of `json.dumps`. It stands for its ValueError and RecursionError
too, since the client tells these exceptions from each other nowhere. -/
def jsonTypeError : PyException :=
  .exception "TypeError" "Object is not JSON serializable"

/-- The RuntimeError of `request()` on a client that is not started. -/
def notStarted : PyException :=
  .exception "RuntimeError"
    "client not started — use `async with` or call .start()"

/-- The RuntimeError of `Storage.conn`. -/
def notOpened : PyException :=
  .exception "RuntimeError" "Storage not opened — call .open() first"

/-- The ValueError of `urlparse`. -/
def badUrl : PyException := .exception "ValueError" "Invalid IPv6 URL"

/-- The ValueError of `deque(maxlen=..)`. -/
def badWindow : PyException := .exception "ValueError" "maxlen must be non-negative"

/-- The ValueError of `TokenBucket.__init__`. -/
def badBucket (config : RateLimitConfig) : PyException :=
  .exception "ValueError"
    (if config.ratePerSecond ≤ 0 then "rate_per_second must be > 0" else "burst must be > 0")

/-- The OverflowError of `base * (2 ** attempt)`. -/
def floatOverflow : PyException :=
  .exception "OverflowError" "int too large to convert to float"

namespace State

variable (env : Env) (state : State) (id : ℕ)

/-! ## Callers -/

/-- `_submit` up to its first await, run by the task `id`. -/
def submit (replayed : Option ℕ) (request : Request) : State :=
  match request.idempotencyKey? env.python with
  | none => state.setTask id (.caller replayed (.raised jsonTypeError))
  | some key =>
      match state.dedup.getOrCreate key with
      | (dedup, future, false) =>
          { state with dedup := dedup }.setTask id (.caller replayed (.awaiting key future))
      | (dedup, future, true) =>
          match request.durable? env.python with
          | none => { state with dedup := dedup }.setTask id
              (.caller replayed (.raised jsonTypeError))
          | some durable => { state with dedup := dedup }.setTask id
              (.caller replayed (.upserting durable future))

/-- `request()`, run by the task `id`. -/
def callRequest (replayed : Option ℕ) (request : Request) : State :=
  if state.session then
    state.submit env id replayed { request with method := request.method.upper }
  else state.setTask id (.caller replayed (.raised notStarted))

/-- The request `replay_entry` builds from a dead letter. -/
def replayRequest (row : DeadLetterRow) (requestId : String) (createdAt : ℚ) : Request :=
  let stored := row.payload.request.request
  { method := stored.method
    url := stored.url
    headers := stored.headers
    params := stored.params
    body := stored.body
    priority := stored.priority
    requestId := requestId
    createdAt := createdAt }

/-- A step of `request()`/`_submit` or of `replay_entry`. -/
def stepCaller (replayed : Option ℕ) (point : CallerPoint) (choice : Choice) : Option State :=
  match point, choice with
  | .removing row, .proceed =>
      if state.connected then
        some (({ state with tables := state.tables.removeDeadLetter row.id }.record
          (.removedDeadLetter row.id)).setTask id (.caller replayed (.removed row)))
      else some (state.setTask id (.caller replayed (.raised notOpened)))
  | .removing _, .storageError exc =>
      some (state.setTask id (.caller replayed (.raised exc)))
  | .removed row, .resubmit requestId createdAt =>
      some (state.callRequest env id replayed (replayRequest row requestId createdAt))
  | .upserting request future, .proceed =>
      if state.connected then
        some (({ state with tables := state.tables.upsertInflight request state.now }.record
          (.upserted request.key)).setTask id (.caller replayed (.upserted request future)))
      else some (state.setTask id (.caller replayed (.raised notOpened)))
  | .upserting _ _, .storageError exc =>
      some (state.setTask id (.caller replayed (.raised exc)))
  | .upserted request future, .proceed =>
      some ({ state with metrics := { state.metrics with
          requestsStarted := state.metrics.requestsStarted + 1 } }.setTask id
        (.caller replayed (.enqueueing request future)))
  | .enqueueing request future, .proceed =>
      if state.queue.hasRoom env.config.queue.maxSize then
        some ({ state with queue := state.queue.put ⟨request, 0, future⟩ }.setTask id
          (.caller replayed (.awaiting request.key future)))
      else none
  | .awaiting key future, .proceed =>
      if (state.dedup.futures future).done then
        some (state.setTask id
          (.caller replayed (.received key future (state.dedup.futures future))))
      else none
  | _, _ => none

/-- `task.cancel()` on a caller or on a `start()` call. A caller that awaits a
pending future takes that future with it. -/
def cancelTask : Option State :=
  match state.tasks id with
  | some (.caller replayed (.awaiting _ future)) =>
      some ({ state with dedup := state.dedup.cancel future }.setTask id
        (.caller replayed .cancelled))
  | some (.caller _ (.received _ _ _)) => none
  | some (.caller _ (.raised _)) => none
  | some (.caller _ .cancelled) => none
  | some (.caller replayed _) => some (state.setTask id (.caller replayed .cancelled))
  | some (.starter .started) => none
  | some (.starter (.failed _)) => none
  | some (.starter _) =>
      some ({ state with lifecycle := false }.setTask id (.starter (.failed .cancelledError)))
  | _ => none

/-! ## Workers -/

/-- `_handle` returns: `task_done()`, and the worker awaits the next item. -/
def endHandle : State :=
  { state with queue := state.queue.taskDone }.setTask id (.worker .idle)

/-- An exception escapes from `_handle`: `task_done()`, and the worker ends. -/
def escape (exc : PyException) : State :=
  { state with queue := state.queue.taskDone }.setTask id (.worker (.ended exc))

/-- `_handle` moves on to another await. -/
def moveTo (item : QueueItem) (point : HandlePoint) : State :=
  state.setTask id (.worker (.handling item point))

@[simp] theorem endHandle_tasks_self :
    (state.endHandle id).tasks id = some (.worker .idle) :=
  setTask_tasks_self _ _ _

@[simp] theorem escape_tasks_self (exc : PyException) :
    (state.escape id exc).tasks id = some (.worker (.ended exc)) :=
  setTask_tasks_self _ _ _

@[simp] theorem moveTo_tasks_self (item : QueueItem) (point : HandlePoint) :
    (state.moveTo id item point).tasks id = some (.worker (.handling item point)) :=
  setTask_tasks_self _ _ _

/-- `_handle_retry_or_dlq` up to its first await. -/
def retryOrDlq
    (item : QueueItem)
    (exc : PyException)
    (retryAfter : Option PyFloat)
    (draw : ℚ) : State :=
  let retrying : State := { state with metrics := { state.metrics with
    requestsFailedRetryable := state.metrics.requestsFailedRetryable + 1
    retriesPerformed := state.metrics.retriesPerformed + 1 } }
  match dispose? env.config.retry item.attempt exc retryAfter draw with
  | none => retrying.escape id floatOverflow
  | some (.retry newAttempt delay) =>
      retrying.moveTo id item (.incrementing exc newAttempt delay)
  | some .terminal =>
      { state with metrics := { state.metrics with
        requestsFailedTerminal := state.metrics.requestsFailedTerminal + 1
        dlqPushes := state.metrics.dlqPushes + 1 } }.moveTo id item (.deadLettering exc)

/-- `_handle` from its start to its first await: the breaker's gate. -/
def gate (item : QueueItem) (draw : ℚ) : State :=
  match env.hostOf? item.request.request.url with
  | none => state.escape id badUrl
  | some host =>
      match state.breakers.forHost? env.config.circuitBreaker host with
      | none => state.escape id badWindow
      | some breaker =>
          let (after, blocked) := breaker.beforeCall env.config.circuitBreaker state.now
          let period :=
            if breaker.state = .open ∧ after.state = .halfOpen then state.periods host + 1
            else state.periods host
          let gated : State := { state with
            breakers := state.breakers.store host after
            periods := Function.update state.periods host period }
          match blocked with
          | some exc =>
              { gated with metrics := { gated.metrics with
                breakerShortCircuits := gated.metrics.breakerShortCircuits + 1 } }.retryOrDlq
                  env id item exc exc.retryAfter? draw
          | none =>
              gated.moveTo id item (.acquiring host
                (if after.state = .halfOpen then some period else none) none 0 state.now)

/-- One round of the rate limiter's `acquire` on a bucket, for `_handle`. -/
def acquireRound
    (item : QueueItem)
    (host : PyStr)
    (probe : Option ℕ)
    (bucket : ℕ)
    (delayTotal : ℚ) : State :=
  match state.limiter.round state.now bucket with
  | (limiter, .granted) =>
      let metrics :=
        if 0 < delayTotal then
          { state.metrics with
            rateLimitWaits := state.metrics.rateLimitWaits + 1
            rateLimitWaitSecondsTotal :=
              state.metrics.rateLimitWaitSecondsTotal + delayTotal }
        else state.metrics
      { state with limiter := limiter, metrics := metrics }.moveTo id item
        (.executing host probe)
  | (limiter, .wait seconds) =>
      { state with limiter := limiter }.moveTo id item
        (.acquiring host probe (some bucket) (delayTotal + seconds) (state.now + seconds))

/-- `_rate_limiter.acquire`, woken at `wakeAt`. The host is the one the breaker
was chosen by: both registries apply the same `host_of`. -/
def acquire
    (item : QueueItem)
    (host : PyStr)
    (probe : Option ℕ)
    (bucket : Option ℕ)
    (delayTotal wakeAt : ℚ) : Option State :=
  if state.now < wakeAt then none
  else
    match bucket with
    | some bucket => some (state.acquireRound id item host probe bucket delayTotal)
    | none =>
        match state.limiter.bucketFor? env.config.rateLimit state.now host with
        | none => some (state.escape id
            (badBucket (state.limiter.configFor env.config.rateLimit host)))
        | some (limiter, bucket) =>
            some ({ state with limiter := limiter }.acquireRound id item host probe bucket
              delayTotal)

/-- `_handle` from the end of the HTTP exchange to its next await. -/
def receive (item : QueueItem) (host : PyStr) (event : HttpEvent) (draw : ℚ) : State :=
  match execute item.request.request item.attempt event with
  | .ok response =>
      ({ state with
          breakers := state.breakers.report host
            (CircuitBreaker.onSuccess env.config.circuitBreaker)
          metrics := { state.metrics with
            requestsSucceeded := state.metrics.requestsSucceeded + 1 } }.record
        (.executed item.key true)).moveTo id item (.deleting response)
  | .error exc =>
      let failed := state.record (.executed item.key false)
      match caught? exc with
      | none => failed.escape id exc
      | some (error, reported) =>
          let breakers :=
            if reported then
              state.breakers.report host
                (CircuitBreaker.onFailure env.config.circuitBreaker state.now)
            else state.breakers
          { failed with breakers := breakers }.retryOrDlq env id item error none draw

/-- `resolve` or `fail` on a key, with the settled future recorded. -/
def settleKey (key : Key) (outcome : Future Response) : State :=
  let settled : State := { state with dedup := state.dedup.settle key outcome }
  match state.dedup.pendingFuture? key with
  | some future => settled.record (.settled key future outcome)
  | none => settled

/-- Settling a key writes the registry and the history. -/
theorem settleKey_eq (key : Key) (outcome : Future Response) :
    state.settleKey key outcome =
      { state with
        dedup := state.dedup.settle key outcome
        history := (state.settleKey key outcome).history } := by
  unfold settleKey
  split <;> rfl

/-- The end of `_handle` leaves the registry as the settling made it. -/
theorem settleKey_endHandle_dedup (key : Key) (outcome : Future Response) :
    ((state.settleKey key outcome).endHandle id).dedup = state.dedup.settle key outcome := by
  rw [settleKey_eq]
  rfl

/-- A step of `_handle`. -/
def stepHandle (item : QueueItem) (point : HandlePoint) (choice : Choice) : Option State :=
  match point, choice with
  | .gating, .jitter draw =>
      if 0 ≤ draw ∧ draw < 1 then some (state.gate env id item draw) else none
  | .acquiring host probe bucket delayTotal wakeAt, .proceed =>
      state.acquire env id item host probe bucket delayTotal wakeAt
  | .executing host _, .http event draw =>
      if 0 ≤ draw ∧ draw < 1 then some (state.receive env id item host event draw) else none
  | .deleting response, .proceed =>
      if state.connected then
        some (({ state with tables := state.tables.deleteInflight item.key }.record
          (.deleted item.key)).moveTo id item (.deleted response))
      else some (state.escape id notOpened)
  | .deleted response, .proceed =>
      some (state.moveTo id item
        (if state.hook then .hooking response else .resolving response))
  | .hooking response, .hook none => some (state.moveTo id item (.resolving response))
  | .hooking response, .hook (some exc) =>
      if exc.isException then some (state.moveTo id item (.resolving response))
      else some (state.escape id exc)
  | .resolving response, .proceed =>
      some ((state.settleKey item.key (.result response)).endHandle id)
  | .incrementing exc newAttempt delay, .proceed =>
      if state.connected then
        some (({ state with
            tables := state.tables.incrementRetry item.key exc.message state.now }.record
          (.incremented item.key)).moveTo id item (.scheduling newAttempt delay))
      else some (state.escape id notOpened)
  | .scheduling newAttempt delay, .proceed =>
      some ((state.spawn (.reschedule (.sleeping { item with attempt := newAttempt }
        (PyFloat.add (.finite state.now) delay)))).endHandle id)
  | .deadLettering exc, .proceed =>
      if state.connected then
        some (({ state with
            tables := state.tables.pushDeadLetter item.request exc.message item.attempt
              state.now }.record
          (.deadLettered item.key state.tables.nextDeadLetterId)).moveTo id item
            (.retiring exc))
      else some (state.escape id notOpened)
  | .retiring exc, .proceed =>
      if state.connected then
        some (({ state with tables := state.tables.deleteInflight item.key }.record
          (.deleted item.key)).moveTo id item (.failing exc))
      else some (state.escape id notOpened)
  | .failing exc, .proceed =>
      some ((state.settleKey item.key (.exception (terminalError exc))).endHandle id)
  | .deleting _, .storageError exc | .incrementing _ _ _, .storageError exc
  | .scheduling _ _, .storageError exc | .deadLettering _, .storageError exc
  | .retiring _, .storageError exc =>
      some (state.escape id exc)
  | _, _ => none

/-- A step of `_worker`. -/
def stepWorker (point : WorkerPoint) (choice : Choice) : Option State :=
  match point, choice with
  | .idle, .proceed =>
      match state.queue.items with
      | [] => none
      | item :: rest =>
          some (({ state with queue := { state.queue with items := rest } }.record
            (.handled item.key item.attempt)).moveTo id item .gating)
  | .handling item point, choice => state.stepHandle env id item point choice
  | _, _ => none

/-- The cancellation requested by `stop()` reaches a worker. -/
def cancelWorker : Option State :=
  if id ∈ state.cancelRequests then
    match state.tasks id with
    | some (.worker .idle) => some (state.setTask id (.worker .cancelled))
    | some (.worker (.handling _ _)) =>
        some ({ state with queue := state.queue.taskDone }.setTask id (.worker .cancelled))
    | _ => none
  else none

/-! ## Rescheduled retries -/

/-- A step of `_reschedule`. -/
def stepReschedule (point : ReschedulePoint) (choice : Choice) : Option State :=
  match point, choice with
  | .sleeping item wakeAt, .proceed =>
      if (PyFloat.finite state.now).lt wakeAt then none
      else if state.stopping then some (state.setTask id (.reschedule .done))
      else some (state.setTask id (.reschedule (.enqueueing item)))
  | .enqueueing item, .proceed =>
      if state.queue.hasRoom env.config.queue.maxSize then
        some ({ state with queue := state.queue.put item }.setTask id (.reschedule .done))
      else none
  | _, _ => none

/-! ## Start, drain and stop -/

/-- `start()` raises. -/
def failStart (exc : PyException) : State :=
  { state with lifecycle := false }.setTask id (.starter (.failed exc))

/-- The end of `start()`: the stopping flag is cleared and the workers are
created. -/
def online : State :=
  let count := env.config.queue.workers
  { state with
    stopping := false
    lifecycle := false
    workers := (List.range count).map (state.spawned + ·)
    spawned := state.spawned + count
    tasks := fun task =>
      if state.spawned ≤ task ∧ task < state.spawned + count then some (.worker .idle)
      else state.tasks task }.setTask id (.starter .started)

@[simp] theorem online_tasks_self :
    (state.online env id).tasks id = some (.starter .started) :=
  setTask_tasks_self _ _ _

/-- One iteration of the loop in `_recover_inflight`, up to its `enqueue`. -/
def recoverRow (row : InflightRow) (rows : List InflightRow) : State :=
  match state.dedup.getOrCreate row.idempotencyKey with
  | (dedup, _, false) =>
      { state with dedup := dedup }.setTask id (.starter (.recovering rows))
  | (dedup, future, true) =>
      { state with
        dedup := dedup
        metrics := { state.metrics with
          requestsStarted := state.metrics.requestsStarted + 1 } }.setTask id
        (.starter (.reenqueueing ⟨row.payload.request, row.retryCount, future⟩ rows))

/-- A step of `start()`. -/
def stepStarter (point : StartPoint) (choice : Choice) : Option State :=
  match point, choice with
  | .opening, .proceed =>
      some ({ state with connected := true }.setTask id (.starter .preparing))
  | .preparing, .proceed =>
      some ({ state with session := true }.setTask id (.starter .listing))
  | .listing, .proceed =>
      if state.connected then
        some (state.setTask id (.starter (.recovering state.tables.listInflight)))
      else some (state.failStart id notOpened)
  | .opening, .storageError exc | .preparing, .storageError exc
  | .listing, .storageError exc => some (state.failStart id exc)
  | .recovering [], .proceed => some (state.online env id)
  | .recovering (row :: rows), .proceed => some (state.recoverRow id row rows)
  | .reenqueueing item rows, .proceed =>
      if state.queue.hasRoom env.config.queue.maxSize then
        some ({ state with queue := state.queue.put item }.setTask id
          (.starter (.recovering rows)))
      else none
  | _, _ => none

/-- A reschedule task is not done yet. -/
def reschedulePending (task : ℕ) : Bool :=
  match state.tasks task with
  | some (.reschedule .done) => false
  | some (.reschedule _) => true
  | _ => false

/-- The reschedule tasks `drain()` finds not done. -/
def pendingReschedules : List ℕ :=
  (List.range state.spawned).filter state.reschedulePending

/-- `drain()` after `join()` has returned, up to its next await. -/
def afterJoin : DrainPoint :=
  if state.pendingReschedules = [] then .drained else .gathering state.pendingReschedules

/-- `drain()` from the head of its loop to its next await. -/
def enterDrain : DrainPoint :=
  if state.queue.unfinished = 0 then state.afterJoin else .joining state.queue.joins

/-- A step of `drain()`. -/
def stepDrain (point : DrainPoint) : Option DrainPoint :=
  match point with
  | .joining since => if since < state.queue.joins then some state.afterJoin else none
  | .gathering pending =>
      if pending.all fun task => !state.reschedulePending task then some state.enterDrain
      else none
  | .drained => none

/-- A step of a `drain()` call of its own. -/
def stepDrainer (point : DrainPoint) (choice : Choice) : Option State :=
  match choice with
  | .proceed => (state.stepDrain point).map fun next => state.setTask id (.drainer next)
  | _ => none

theorem stepDrainer_eq_some_iff
    {state next : State}
    {id : ℕ}
    {point : DrainPoint}
    {choice : Choice} :
    state.stepDrainer id point choice = some next ↔
      choice = .proceed ∧
        ∃ after, state.stepDrain point = some after ∧ state.setTask id (.drainer after) = next := by
  cases choice <;> simp [stepDrainer]

/-- `stop()` after a step of its `drain()`. -/
def afterDrain (point : DrainPoint) : State :=
  match point with
  | .drained =>
      { state with cancelRequests := state.workers }.setTask id (.stopper .cancelling)
  | other => state.setTask id (.stopper (.draining other))

/-- A worker task has ended. -/
def workerEnded (task : ℕ) : Bool :=
  match state.tasks task with
  | some (.worker (.ended _)) | some (.worker .cancelled) => true
  | _ => false

/-- A step of `stop()`. -/
def stepStopper (point : StopPoint) (choice : Choice) : Option State :=
  match point, choice with
  | .draining point, .proceed => (state.stepDrain point).map (state.afterDrain id)
  | .cancelling, .proceed =>
      if state.workers.all state.workerEnded then
        some ({ state with workers := [], cancelRequests := [] }.setTask id
          (.stopper .closingSession))
      else none
  | .closingSession, .proceed =>
      some ({ state with session := false }.setTask id (.stopper .closingStorage))
  | .closingStorage, .proceed =>
      some ({ state with connected := false, lifecycle := false }.setTask id
        (.stopper .stopped))
  | _, _ => none

/-- The call `start()`. `start()` and `stop()` are awaited one after the other,
as the context manager does. -/
def callStart : Option State :=
  if state.lifecycle then none
  else if state.session then some state
  else if state.connected then
    some ({ state with session := true, lifecycle := true }.spawn (.starter .listing))
  else some ({ state with lifecycle := true }.spawn (.starter .opening))

/-- The call `stop()`. -/
def callStop : Option State :=
  if state.lifecycle then none
  else if state.session then
    let stopping : State :=
      { state with stopping := true, lifecycle := true, spawned := state.spawned + 1 }
    some (stopping.afterDrain state.spawned state.enterDrain)
  else some state

/-! ## The step function -/

/-- A step of a coroutine. -/
def stepTask (choice : Choice) : Option State :=
  match state.tasks id with
  | some (.caller replayed point) => state.stepCaller env id replayed point choice
  | some (.worker point) => state.stepWorker env id point choice
  | some (.reschedule point) => state.stepReschedule env id point choice
  | some (.starter point) => state.stepStarter env id point choice
  | some (.drainer point) => state.stepDrainer id point choice
  | some (.stopper point) => state.stepStopper id point choice
  | none => none

end State

/-- One step of the system. -/
def step (env : Env) (label : Label) (state : State) : Option State :=
  match label with
  | .tick seconds => if 0 ≤ seconds then some { state with now := state.now + seconds } else none
  | .setOverride host config =>
      some { state with limiter := state.limiter.setOverride host config }
  | .setResponseHook installed => some { state with hook := installed }
  | .purge => some ({ state with tables := state.tables.purgeDeadLetter }.record .purged)
  | .request request =>
      some ({ state with spawned := state.spawned + 1 }.callRequest env state.spawned none request)
  | .replay row => some (state.spawn (.caller (some row.id) (.removing row)))
  | .cancel id => state.cancelTask id
  | .step id choice => state.stepTask env id choice
  | .cancelWorker id => state.cancelWorker id
  | .start => state.callStart
  | .stop => state.callStop
  | .drain => some (state.spawn (.drainer state.enterDrain))
  | .crash => some (State.boot state.tables state.now (.crashed :: state.history))

end HardenedClient
