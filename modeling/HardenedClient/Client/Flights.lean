import HardenedClient.Client.Frame
import HardenedClient.Foundation.SingleFlight

/-!
# The client's flights

A work item is carried by the task that submits, executes, reschedules or
recovers it, or waits in the queue; a caller holds the future it will await.
`State.flights` is this view of a state, and `step_flights` says that every
step of the client is a move on it.
-/

namespace HardenedClient

open Foundation

/-- The work item a task carries. -/
def Task.item? : Task → Option QueueItem
  | .caller _ (.upserting request future) | .caller _ (.upserted request future)
  | .caller _ (.enqueueing request future) => some ⟨request, 0, future⟩
  | .worker (.handling item _) => some item
  | .reschedule (.sleeping item _) | .reschedule (.enqueueing item) => some item
  | .starter (.reenqueueing item _) => some item
  | _ => none

/-- The key a caller submitted and the future it will await. -/
def Task.claim? : Task → Option (Job Key)
  | .caller _ (.upserting request future) | .caller _ (.upserted request future)
  | .caller _ (.enqueueing request future) => some ⟨request.key, future⟩
  | .caller _ (.awaiting key future) => some ⟨key, future⟩
  | _ => none

/-- The job of a work item. -/
def QueueItem.job (item : QueueItem) : Job Key := ⟨item.key, item.flight⟩

/-- The work item at a place. -/
def State.itemAt (state : State) : Place → Option QueueItem
  | .queue position => state.queue.items[position]?
  | .agent id => (state.tasks id).bind Task.item?

/-- What a future is to those who await it. -/
def Future.promise : Future T → Promise
  | .pending => .pending
  | .result _ | .exception _ => .kept
  | .cancelled => .cancelled

theorem Future.promise_eq_pending_iff (future : Future T) :
    future.promise = .pending ↔ future = .pending := by
  cases future <;> simp [promise]

namespace State

/-- The jobs and promises of a state. -/
def flights (state : State) : Flights Key where
  registered := state.dedup.inflight
  promises := fun future => (state.dedup.futures future).promise
  created := state.dedup.created
  queued := state.queue.items.map QueueItem.job
  carried := fun id => ((state.tasks id).bind Task.item?).map QueueItem.job
  held := fun id => (state.tasks id).bind Task.claim?

variable {state : State} {id : ℕ} {task : Task}

theorem flights_boot (tables : Tables) (now : ℚ) (history : List Event) :
    (boot tables now history).flights = .initial := rfl

/-- No place has an item when the queue is empty and no task carries one. -/
theorem Tidy.itemAt_eq_none
    (tidy : state.Tidy)
    (empty : state.queue.items = [])
    (passes : ((List.range state.spawned).all fun id =>
      (state.tasks id).all fun task => task.item?.isNone) = true) :
    ∀ place, state.itemAt place = none := by
  rintro (position | id)
  · simp [itemAt, empty]
  · cases current : state.tasks id with
    | none => simp [itemAt, current]
    | some task => simpa [itemAt, current] using tidy.forall_task passes id task current

theorem jobAt_flights (state : State) (place : Place) :
    state.flights.jobAt place = (state.itemAt place).map QueueItem.job := by
  cases place <;> simp [Flights.jobAt, flights, itemAt]

theorem busy_iff (state : State) (key : Key) :
    state.flights.Busy key ↔ state.dedup.pendingFuture? key ≠ none := by
  rw [Option.ne_none_iff_exists']
  simp only [InFlightRegistry.pendingFuture?_eq_some_iff, Flights.Busy, flights,
    Future.promise_eq_pending_iff]

theorem flights_setTask (state : State) (id : ℕ) (task : Task) :
    (state.setTask id task).flights =
      { state.flights with
        carried := Function.update state.flights.carried id
          (task.item?.map QueueItem.job)
        held := Function.update state.flights.held id task.claim? } := by
  simp only [setTask, flights, Flights.mk.injEq, true_and]
  constructor <;> funext other <;> simp only [Function.update_apply] <;> split_ifs <;> rfl

/-- Replacing a task by one with the same item and claim changes no flight. -/
theorem flights_setTask_of_same
    {base : State}
    {old : Task}
    (current : state.tasks id = some old)
    (same : base.flights = state.flights)
    (item : task.item?.map QueueItem.job = old.item?.map QueueItem.job)
    (claim : task.claim? = old.claim?) :
    (base.setTask id task).flights = state.flights := by
  have carried : state.flights.carried id = task.item?.map QueueItem.job := by
    simp [flights, current, item]
  have held : state.flights.held id = task.claim? := by simp [flights, current, claim]
  rw [flights_setTask, same, ← carried, ← held, Function.update_eq_self,
    Function.update_eq_self]

/-- A task that is not there has no item and no claim. -/
theorem flights_of_no_task
    (absent : state.tasks id = none) :
    state.flights.carried id = none ∧ state.flights.held id = none := by
  simp [flights, absent]

/-- A task that carries and holds nothing changes no flight by going on so. -/
theorem flights_setTask_of_unladen
    (unladen : state.flights.carried id = none)
    (empty : state.flights.held id = none)
    (item : task.item? = none)
    (claim : task.claim? = none) :
    (state.setTask id task).flights = state.flights := by
  rw [flights_setTask, item, claim, Option.map_none, ← unladen, Function.update_eq_self,
    unladen, ← empty, Function.update_eq_self]

/-- A new future registered for a key, by a task that has not carried or held
anything. -/
theorem flights_own
    {key : Key}
    (id : ℕ)
    (task : Task)
    (carry : Option Key)
    (hold : Bool)
    (free : state.dedup.pendingFuture? key = none)
    (item : task.item?.map QueueItem.job =
      carry.map fun own => ⟨own, state.dedup.created⟩)
    (claim : task.claim? = if hold then some ⟨key, state.dedup.created⟩ else none) :
    ({ state with dedup := (state.dedup.getOrCreate key).1 }.setTask id task).flights =
      state.flights.own id key carry hold := by
  rw [flights_setTask, item, claim]
  simp only [InFlightRegistry.getOrCreate, free, flights, Flights.own, Flights.mk.injEq,
    true_and, and_true]
  funext future
  simp only [Function.update_apply]
  split_ifs <;> rfl

/-- An attached caller only counts a hit. -/
theorem flights_attach
    {key : Key}
    {future : ℕ}
    (task : Task)
    (registered : state.dedup.pendingFuture? key = some future)
    (item : task.item? = none)
    (unladen : state.flights.carried id = none) :
    ({ state with dedup := (state.dedup.getOrCreate key).1 }.setTask id task).flights =
      { state.flights with
        held := Function.update state.flights.held id task.claim? } := by
  have same : Function.update state.flights.carried id none = state.flights.carried := by
    rw [← unladen, Function.update_eq_self]
  rw [flights_setTask, item, Option.map_none]
  simp only [InFlightRegistry.getOrCreate, registered]
  exact congrArg (fun carried => { state.flights with
    carried := carried
    held := Function.update state.flights.held id task.claim? }) same

/-- Settling the key of the item a worker handles, at the end of `_handle`. -/
theorem flights_settle
    {item : QueueItem}
    {point : HandlePoint}
    {outcome : Future Response}
    (current : state.tasks id = some (.worker (.handling item point)))
    (kept : outcome.promise = .kept) :
    ((state.settleKey item.key outcome).endHandle id).flights =
      state.flights.settle id item.job := by
  have held : Function.update state.flights.held id none = state.flights.held := by
    have : state.flights.held id = none := by simp [flights, current, Task.claim?]
    rw [← this, Function.update_eq_self]
  have settled : (state.settleKey item.key outcome).flights =
      { state.flights with
        registered := (state.flights.settle id item.job).registered
        promises := (state.flights.settle id item.job).promises } := by
    have base : (state.settleKey item.key outcome).flights =
        { state with dedup := state.dedup.settle item.key outcome }.flights := by
      rw [settleKey_eq]
      rfl
    rw [base]
    simp only [flights, Flights.settle, QueueItem.job, Flights.mk.injEq, and_true]
    refine ⟨rfl, ?_, rfl⟩
    funext future
    rw [InFlightRegistry.settle_futures, apply_ite Future.promise, kept]
    cases registered : state.dedup.inflight item.key with
    | none => simp [InFlightRegistry.pendingFuture?_eq_some_iff, registered]
    | some shared =>
        simp only [Flights.finish_apply]
        refine if_congr ((state.dedup.pendingFuture?_eq_some_iff _ _).trans ?_) rfl rfl
        rw [registered, Option.some.injEq, Future.promise_eq_pending_iff]
        constructor <;> rintro ⟨rfl, pending⟩ <;> exact ⟨rfl, pending⟩
  have ended : ((state.settleKey item.key outcome).endHandle id).flights =
      ((state.settleKey item.key outcome).setTask id (.worker .idle)).flights := rfl
  rw [ended, flights_setTask, settled]
  simp only [Task.item?, Task.claim?, Option.map_none, Flights.settle, Flights.mk.injEq,
    true_and]
  exact held

/-- Cancelling a caller cancels the future it awaits, unless that is done. -/
theorem flights_cancel
    {key : Key}
    {future : ℕ}
    {replayed : Option ℕ}
    (current : state.tasks id = some (.caller replayed (.awaiting key future))) :
    ({ state with dedup := state.dedup.cancel future }.setTask id
      (.caller replayed .cancelled)).flights =
      { state.flights with
        promises := Flights.finish state.flights.promises future .cancelled
        held := Function.update state.flights.held id none } := by
  have carried : Function.update state.flights.carried id none = state.flights.carried := by
    have : state.flights.carried id = none := by simp [flights, current, Task.item?]
    rw [← this, Function.update_eq_self]
  have cancelled : { state with dedup := state.dedup.cancel future }.flights =
      { state.flights with
        promises := Flights.finish state.flights.promises future .cancelled } := by
    simp only [flights, InFlightRegistry.cancel_inflight, InFlightRegistry.cancel_created,
      Flights.mk.injEq, true_and, and_true]
    funext other
    rw [InFlightRegistry.cancel_futures, Flights.finish_apply, apply_ite Future.promise]
    refine if_congr ?_ rfl rfl
    cases state.dedup.futures future <;> simp [Future.promise]
  rw [flights_setTask, cancelled]
  simp only [Task.item?, Task.claim?, Option.map_none, Flights.mk.injEq, true_and, and_true]
  exact carried

end State

end HardenedClient
