import HardenedClient.Models

/-!
# Bounded request queue

`RequestQueue` wraps `asyncio.Queue`: a bounded FIFO with a count of the items
that were put and not yet marked done. `joins` counts how often that number
has come down to zero, since `join()` wakes its waiters at such a moment and
does not look again when they resume.
-/

namespace HardenedClient

/-- A unit of work pulled by a worker. `flight` names the future its owner
created; the code has no such field, and no step depends on it. -/
structure QueueItem where
  request : DurableRequest
  attempt : ℕ
  flight : ℕ

/-- The idempotency key of the item's request. -/
def QueueItem.key (item : QueueItem) : Key := item.request.key

/-- `RequestQueue`, without its capacity. -/
structure RequestQueue where
  items : List QueueItem := []
  unfinished : ℕ := 0
  joins : ℕ := 0

namespace RequestQueue

/-- `asyncio.Queue.full` is false. -/
def hasRoom (maxSize : ℕ) (queue : RequestQueue) : Bool :=
  decide (queue.items.length < maxSize)

/-- `put_nowait`. -/
def put (queue : RequestQueue) (item : QueueItem) : RequestQueue :=
  { queue with
    items := queue.items ++ [item]
    unfinished := queue.unfinished + 1 }

/-- `task_done`. -/
def taskDone (queue : RequestQueue) : RequestQueue :=
  { queue with
    unfinished := queue.unfinished - 1
    joins := if queue.unfinished = 1 then queue.joins + 1 else queue.joins }

@[simp] theorem taskDone_items (queue : RequestQueue) :
    queue.taskDone.items = queue.items := rfl

@[simp] theorem taskDone_unfinished (queue : RequestQueue) :
    queue.taskDone.unfinished = queue.unfinished - 1 := rfl

@[simp] theorem put_items (queue : RequestQueue) (item : QueueItem) :
    (queue.put item).items = queue.items ++ [item] := rfl

@[simp] theorem put_unfinished (queue : RequestQueue) (item : QueueItem) :
    (queue.put item).unfinished = queue.unfinished + 1 := rfl

end RequestQueue

end HardenedClient
