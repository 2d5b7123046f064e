import HardenedClient.Client.Arrivals
import HardenedClient.Client.Pool
import HardenedClient.Client.Replay
import HardenedClient.Foundation.Journal
import Mathlib.Algebra.BigOperators.Group.Finset.Piecewise

/-!
# Order and bound of the queue

Callers, woken retries and `start()` put items on the queue, and workers take them, in any
interleaving. Items are taken in the order they were put, none is lost or taken twice, and
the work that the client takes on is bounded by the size of the queue and of the pool.
-/

namespace HardenedClient

open Foundation

/-! ## Order -/

/-- What is seen of the queue. -/
inductive QueueEvent
  | put (item : QueueItem)
  | took (item : QueueItem)

namespace QueueEvent

def put? : QueueEvent → Option QueueItem
  | .put item => some item
  | .took _ => none

def took? : QueueEvent → Option QueueItem
  | .put _ => none
  | .took item => some item

end QueueEvent

namespace State

/-- The item a step takes from the queue. -/
def dequeues? (state : State) : Label → Option QueueItem
  | .step id .proceed =>
      match state.tasks id with
      | some (.worker .idle) => state.queue.items.head?
      | _ => none
  | _ => none

/-- What a step shows of the queue. -/
def observeQueue (state : State) (label : Label) (_ : State) : List QueueEvent :=
  (state.dequeues? label).toList.map .took ++ (state.enqueues? label).toList.map .put

theorem observeQueue_took (state next : State) (label : Label) :
    (state.observeQueue label next).filterMap QueueEvent.took? =
      (state.dequeues? label).toList := by
  unfold observeQueue
  cases state.dequeues? label <;> cases state.enqueues? label <;> rfl

theorem observeQueue_put (state next : State) (label : Label) :
    (state.observeQueue label next).filterMap QueueEvent.put? =
      (state.enqueues? label).toList := by
  unfold observeQueue
  cases state.dequeues? label <;> cases state.enqueues? label <;> rfl

variable {env : Env} {state next : State} {label : Label} {id : ℕ}

/-- A step that is to put an item on the queue finds room for it there. -/
theorem put_of_enqueues?
    {item : QueueItem}
    (puts : state.enqueues? label = some item)
    (moved : HardenedClient.step env label state = some next) :
    state.queue.hasRoom env.config.queue.maxSize = true ∧
      next.queue = state.queue.put item := by
  unfold enqueues? at puts
  split at puts
  · split at puts
    · next id _ _ _ current =>
        simp only [HardenedClient.step, stepTask, current, stepCaller] at moved
        split_ifs at moved with room
        rw [← Option.some.inj moved, ← Option.some.inj puts]
        exact ⟨room, rfl⟩
    · next id _ current =>
        simp only [HardenedClient.step, stepTask, current, stepReschedule] at moved
        split_ifs at moved with room
        rw [← Option.some.inj moved, ← Option.some.inj puts]
        exact ⟨room, rfl⟩
    · next id _ _ current =>
        simp only [HardenedClient.step, stepTask, current, stepStarter] at moved
        split_ifs at moved with room
        rw [← Option.some.inj moved, ← Option.some.inj puts]
        exact ⟨room, rfl⟩
    · cases puts
  · cases puts

/-- Nobody but an idle worker takes an item. -/
theorem dequeues?_of_notWorker
    {choice : Choice}
    {task : Task}
    (current : state.tasks id = some task)
    (notIdle : task ≠ .worker .idle) :
    state.dequeues? (.step id choice) = none := by
  cases choice with
  | proceed =>
      simp only [dequeues?, current]
      split
      · next isIdle => exact absurd (Option.some.inj isIdle) notIdle
      · rfl
  | _ => rfl

/-- A step takes the first item of the queue, or puts one at its end, or leaves it. -/
theorem queue_items_step
    (alive : label ≠ .crash)
    (moved : HardenedClient.step env label state = some next) :
    (state.dequeues? label).toList ++ next.queue.items =
      state.queue.items ++ (state.enqueues? label).toList := by
  have quiet : state.dequeues? label = none → state.enqueues? label = none →
      next.queue.items = state.queue.items →
      (state.dequeues? label).toList ++ next.queue.items =
        state.queue.items ++ (state.enqueues? label).toList := by
    intro takes puts same
    rw [takes, puts, same]
    exact (List.append_nil _).symm
  have coroutine : ∀ {id choice task}, label = .step id choice → state.tasks id = some task →
      (∀ point, task ≠ .worker point) →
      (state.dequeues? label).toList ++ next.queue.items =
        state.queue.items ++ (state.enqueues? label).toList := by
    rintro id choice task rfl current notWorker
    have takes := @dequeues?_of_notWorker state id choice task current (notWorker .idle)
    cases puts : state.enqueues? (.step id choice) with
    | some item =>
        rw [takes, (put_of_enqueues? puts moved).2]
        rfl
    | none =>
        rcases stepTask_queue current notWorker moved with same | ⟨item, isPut, _⟩
        · rw [takes, same]
          exact (List.append_nil _).symm
        · cases puts.symm.trans isPut
  have worker : ∀ {id choice point}, label = .step id choice →
      state.tasks id = some (.worker point) → state.enqueues? label = none := by
    rintro id choice point rfl current
    cases choice <;> simp [enqueues?, current]
  cases step_stepped moved with
  | crash => exact absurd rfl alive
  | outside isOutside =>
      have nobody : state.dequeues? label = none ∧ state.enqueues? label = none := by
        cases label <;> first | exact ⟨rfl, rfl⟩ | cases isOutside
      exact quiet nobody.1 nobody.2 rfl
  | caller current | upserted current | removed current | reschedule current
    | starter current | online current | drainer current | stopper current =>
      exact coroutine rfl current (by simp)
  | taken current waiting =>
      rw [worker rfl current, waiting]
      simp only [dequeues?, current, waiting]
      exact (List.append_nil _).symm
  | @handled id choice item point next current inside handled =>
      refine quiet (dequeues?_of_notWorker current (by simp)) (worker rfl current) ?_
      cases handled with
      | resolved | rejected =>
          rw [settleKey_eq]
          rfl
      | _ => rfl
  | escaped current _ escaped =>
      obtain ⟨_⟩ := escaped
      exact quiet (dequeues?_of_notWorker current (by simp)) (worker rfl current) rfl
  | purged | request | replay | drain | start | stop | cancelCaller | cancelStarter
    | cancelIdle | cancelHandling => exact quiet rfl rfl rfl

/-- A step puts an item only on a queue that is not full. -/
theorem queue_length_step
    (bounded : state.queue.items.length ≤ env.config.queue.maxSize)
    (alive : label ≠ .crash)
    (moved : HardenedClient.step env label state = some next) :
    next.queue.items.length ≤ env.config.queue.maxSize := by
  have moves := congrArg List.length (queue_items_step alive moved)
  rw [List.length_append, List.length_append] at moves
  cases puts : state.enqueues? label with
  | none =>
      rw [puts, Option.toList_none, List.length_nil] at moves
      omega
  | some item =>
      obtain ⟨room, same⟩ := put_of_enqueues? puts moved
      have free : state.queue.items.length < env.config.queue.maxSize := of_decide_eq_true room
      rw [same, RequestQueue.put_items, List.length_append, List.length_singleton]
      omega

end State

/-- In every run without a crash, the items that were put on the queue are those that
workers took, in the same order, followed by those that are still there, of which there are
never more than `max_size`. -/
theorem queue_serves_in_order
    (env : Env)
    (tables : Tables)
    (now : ℚ)
    (history : List Event)
    (journal : Journaled State QueueEvent)
    (run : Run (record (step env) State.observeQueue) (fun _ label => label ≠ .crash)
      ⟨State.boot tables now history, []⟩ journal) :
    journal.log.filterMap QueueEvent.put? =
        journal.log.filterMap QueueEvent.took? ++ journal.state.queue.items ∧
      journal.state.queue.items.length ≤ env.config.queue.maxSize := by
  constructor
  · refine run.first_in_first_out (fun state => state.queue.items) _ _ ?_ rfl
    intro before label after alive moved
    rw [State.observeQueue_took, State.observeQueue_put]
    exact State.queue_items_step alive moved
  · refine run.invariant (fun reached => reached.state.queue.items.length ≤
      env.config.queue.maxSize) (Nat.zero_le _) ?_
    intro before label after bounded alive moved
    exact State.queue_length_step bounded alive (record_eq_some_iff.mp moved).1

/-- Two requests wait for one worker, which takes the first of them. -/
theorem queue_serves_in_order_pair :
    ∃ journal : Journaled State QueueEvent,
      Run (record (step oneWorker) State.observeQueue) (fun _ label => label ≠ .crash)
        ⟨State.boot {} 0 [], []⟩ journal ∧
      (journal.log.filterMap QueueEvent.put?).length = 2 ∧ journal.state.queue.items.length = 1 ∧
      journal.log.filterMap QueueEvent.put? =
        journal.log.filterMap QueueEvent.took? ++ journal.state.queue.items := by
  have passes : (executeChecked (record (step oneWorker) State.observeQueue)
      (fun _ label => !label.isCrash)
      (startLabels ++ requestLabels 2 "http://example.org/" ++
        requestLabels 3 "http://example.org/other" ++ [.step 1 .proceed])
      ⟨State.boot {} 0 [], []⟩).any (fun journal =>
        decide ((journal.log.filterMap QueueEvent.put?).length = 2) &&
        decide (journal.state.queue.items.length = 1)) = true := by
    decide +kernel
  obtain ⟨journal, run, tested⟩ :=
    exists_run_of_executeChecked (fun _ _ => Label.ne_crash_of_not_isCrash) passes
  simp only [Bool.and_eq_true, decide_eq_true_eq] at tested
  exact ⟨journal, run, tested.1, tested.2,
    (queue_serves_in_order oneWorker {} 0 [] journal run).1⟩

/-! ## Bound -/

/-- The HTTP calls of a task. -/
def Task.calls : Option Task → ℕ
  | some (.worker (.handling _ (.executing _ _))) => 1
  | _ => 0

namespace State

variable {env : Env} {state next : State} {label : Label}

/-- No step hires more workers than configured. -/
theorem workers_length_step
    (bounded : state.workers.length ≤ env.config.queue.workers)
    (stepped : Stepped env state label next) :
    next.workers.length ≤ env.config.queue.workers := by
  cases stepped with
  | crash => exact Nat.zero_le _
  | online => exact (by simp [State.online, setTask] : _ = _).le
  | stopper current pool =>
      rcases pool with rfl | ⟨rfl, _⟩
      · exact Nat.zero_le _
      · exact bounded
  | handled _ _ handled => exact handled.alive.2.1 ▸ bounded
  | escaped _ _ escaped =>
      obtain ⟨_⟩ := escaped
      exact bounded
  | _ => exact bounded

/-- The bounds on what the client takes on. -/
structure Bounded (env : Env) (state : State) : Prop where
  pooled : state.Pooled
  counted : state.Counted
  hired : state.workers.length ≤ env.config.queue.workers
  queued : state.queue.items.length ≤ env.config.queue.maxSize

theorem Bounded.boot (env : Env) (tables : Tables) (now : ℚ) (history : List Event) :
    (boot tables now history).Bounded env where
  pooled := .boot tables now history
  counted := .boot tables now history
  hired := Nat.zero_le _
  queued := Nat.zero_le _

theorem Bounded.step
    (bounded : state.Bounded env)
    (moved : HardenedClient.step env label state = some next) :
    next.Bounded env where
  pooled := bounded.pooled.step moved
  counted := bounded.counted.step (step_stepped moved)
  hired := workers_length_step bounded.hired (step_stepped moved)
  queued := by
    by_cases crashed : label = .crash
    · subst crashed
      rw [(step_stepped moved).boot_of_crash]
      exact Nat.zero_le _
    · exact queue_length_step bounded.queued crashed moved

end State

end HardenedClient
