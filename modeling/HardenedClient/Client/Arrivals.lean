import HardenedClient.Client.Frame

/-!
# How tasks arrive

For each kind of coroutine, what can bring it to the await it is at after a step:
it was there already, a call created it there, or its own step or its
cancellation took it there.
-/

namespace HardenedClient

variable {env : Env} {state next : State} {label : Label} {id : ℕ}

/-- How a caller gets to the await it is at after a step. -/
inductive Awaits (env : Env) (state : State) (id : ℕ) (replayed : Option ℕ) :
    Label → CallerPoint → Prop
  | stayed {label : Label} {point : CallerPoint}
      (before : state.tasks id = some (.caller replayed point)) :
      Awaits env state id replayed label point
  | requested {request : Request} {point : CallerPoint}
      (enters : Enters env state (.request request) point)
      (waits : ∀ key future outcome, point ≠ .received key future outcome) :
      Awaits env state id replayed (.request request) point
  | replays {row : DeadLetterRow} :
      Awaits env state id replayed (.replay row) (.removing row)
  | moved {choice : Choice} {before point : CallerPoint}
      (current : state.tasks id = some (.caller replayed before))
      (enters : Enters env state (.step id choice) point)
      (delivers : ∀ key future outcome, point = .received key future outcome →
        before = .awaiting key future ∧ outcome = state.dedup.futures future ∧
          outcome.done = true) :
      Awaits env state id replayed (.step id choice) point
  | upserted {request : DurableRequest} {future : ℕ} :
      Awaits env state id replayed (.step id .proceed) (.upserted request future)
  | removed {row : DeadLetterRow}
      (current : state.tasks id = some (.caller replayed (.removing row))) :
      Awaits env state id replayed (.step id .proceed) (.removed row)
  | cancelled {point : CallerPoint}
      (current : state.tasks id = some (.caller replayed point)) :
      Awaits env state id replayed (.cancel id) .cancelled

theorem Stepped.awaits
    {replayed : Option ℕ}
    {point : CallerPoint}
    (stepped : Stepped env state label next)
    (tidy : state.Tidy)
    (current : next.tasks id = some (.caller replayed point)) :
    Awaits env state id replayed label point := by
  rcases stepped.origin tidy current with ⟨before, _⟩ | ⟨rfl, alive⟩ | born
  · exact .stayed before
  swap
  · cases born
  cases stepped with
  | crash => exact absurd rfl alive
  | outside | purged => exact .stayed current
  | request _ enters waits =>
      simp only [Label.actor, State.setTask_tasks_self] at current
      cases current
      exact .requested enters waits
  | replay =>
      simp only [Label.actor, State.setTask_tasks_self] at current
      cases current
      exact .replays
  | caller before _ _ enters delivers =>
      simp only [Label.actor, State.setTask_tasks_self] at current
      cases current
      exact .moved before enters delivers
  | upserted =>
      simp only [Label.actor, State.setTask_tasks_self] at current
      cases current
      exact .upserted
  | removed before =>
      simp only [Label.actor, State.setTask_tasks_self] at current
      cases current
      exact .removed before
  | cancelCaller before =>
      simp only [Label.actor, State.setTask_tasks_self] at current
      cases current
      exact .cancelled before
  | handled _ _ handled =>
      obtain ⟨_, isWorker⟩ := handled.worker
      cases isWorker.symm.trans current
  | escaped _ _ escaped =>
      obtain ⟨_, isWorker⟩ := escaped.worker
      cases isWorker.symm.trans current
  | _ => simp [Label.actor] at current

/-- A caller that is about to persist its request did not move, or has just
submitted it. -/
theorem Stepped.upserting_cases
    {replayed : Option ℕ}
    {request : DurableRequest}
    {future : ℕ}
    (stepped : Stepped env state label next)
    (tidy : state.Tidy)
    (current : next.tasks id = some (.caller replayed (.upserting request future))) :
    (state.tasks id = some (.caller replayed (.upserting request future)) ∧
        id ≠ label.actor state) ∨
      Enters env state label (.upserting request future) := by
  rcases stepped.origin tidy current with stays | ⟨rfl, alive⟩ | born
  · exact Or.inl stays
  swap
  · cases born
  have unborn : state.tasks state.spawned = none := tidy _ (Nat.le_refl _)
  cases stepped with
  | crash => exact absurd rfl alive
  | outside isOutside =>
      have actor : label.actor state = state.spawned := by
        cases label <;> first | rfl | cases isOutside
      rw [actor] at current
      cases unborn.symm.trans current
  | purged => cases unborn.symm.trans current
  | request _ enters | caller _ _ _ enters =>
      simp only [Label.actor, State.setTask_tasks_self] at current
      cases current
      exact Or.inr enters
  | handled _ _ handled =>
      obtain ⟨_, isWorker⟩ := handled.worker
      cases isWorker.symm.trans current
  | escaped _ _ escaped =>
      obtain ⟨_, isWorker⟩ := escaped.worker
      cases isWorker.symm.trans current
  | _ => simp [Label.actor] at current

/-- A `start()` call is where it was, or new, or it has moved to rows it had or
that are stored, or is cancelled. -/
theorem Stepped.starter_cases
    {point : StartPoint}
    (stepped : Stepped env state label next)
    (tidy : state.Tidy)
    (current : next.tasks id = some (.starter point)) :
    (state.tasks id = some (.starter point) ∧ label ≠ .step id .proceed) ∨
      (label = .start ∧ (point = .opening ∨ point = .listing)) ∨
      (∃ choice before, label = .step id choice ∧
        state.tasks id = some (.starter before) ∧
        ∀ row ∈ point.rows, row ∈ before.rows ∨ row ∈ state.tables.inflight.rows) ∨
      (label = .cancel id ∧ point = .failed .cancelledError) := by
  rcases stepped.origin tidy current with ⟨before, different⟩ | ⟨rfl, alive⟩ | born
  · refine Or.inl ⟨before, ?_⟩
    rintro rfl
    exact different rfl
  swap
  · cases born
  cases stepped with
  | crash => exact absurd rfl alive
  | outside isOutside =>
      refine Or.inl ⟨current, fun own => ?_⟩
      rw [own] at isOutside
      cases isOutside
  | purged => exact Or.inl ⟨current, by simp⟩
  | start fresh =>
      simp only [Label.actor, State.setTask_tasks_self] at current
      cases current
      exact Or.inr (Or.inl ⟨rfl, fresh⟩)
  | starter before _ _ lists =>
      simp only [Label.actor, State.setTask_tasks_self] at current
      cases current
      exact Or.inr (Or.inr (Or.inl ⟨_, _, rfl, before, lists⟩))
  | online before =>
      simp only [Label.actor, State.online_tasks_self] at current
      cases current
      exact Or.inr (Or.inr (Or.inl ⟨_, _, rfl, before, by simp [StartPoint.rows]⟩))
  | cancelStarter =>
      simp only [Label.actor, State.setTask_tasks_self] at current
      cases current
      exact Or.inr (Or.inr (Or.inr ⟨rfl, rfl⟩))
  | handled _ _ handled =>
      obtain ⟨_, isWorker⟩ := handled.worker
      cases isWorker.symm.trans current
  | escaped _ _ escaped =>
      obtain ⟨_, isWorker⟩ := escaped.worker
      cases isWorker.symm.trans current
  | _ => simp [Label.actor] at current

/-- A `stop()` call is where it was, or new, or it has moved. -/
theorem Stepped.stopper_cases
    {point : StopPoint}
    (stepped : Stepped env state label next)
    (tidy : state.Tidy)
    (current : next.tasks id = some (.stopper point)) :
    state.tasks id = some (.stopper point) ∨
      (label = .stop ∧ id = state.spawned ∧ state.lifecycle = false) ∨
      ∃ choice before, label = .step id choice ∧ state.tasks id = some (.stopper before) := by
  rcases stepped.origin tidy current with ⟨before, _⟩ | ⟨rfl, alive⟩ | born
  · exact Or.inl before
  swap
  · cases born
  cases stepped with
  | crash => exact absurd rfl alive
  | outside | purged => exact Or.inl current
  | stop _ idle => exact Or.inr (Or.inl ⟨rfl, rfl, idle⟩)
  | stopper before => exact Or.inr (Or.inr ⟨_, _, rfl, before⟩)
  | handled _ _ handled =>
      obtain ⟨_, isWorker⟩ := handled.worker
      cases isWorker.symm.trans current
  | escaped _ _ escaped =>
      obtain ⟨_, isWorker⟩ := escaped.worker
      cases isWorker.symm.trans current
  | online => simp [Label.actor] at current
  | _ => simp [Label.actor] at current

/-- A worker inside `_handle` was there and did not move, has taken the first
item of the queue, or has come from an earlier await with the same item. -/
theorem worker_cases
    {item : QueueItem}
    {point : HandlePoint}
    (tidy : state.Tidy)
    (moved : step env label state = some next)
    (current : next.tasks id = some (.worker (.handling item point))) :
    (state.tasks id = some (.worker (.handling item point)) ∧ id ≠ label.actor state) ∨
      (label = .step id .proceed ∧ state.tasks id = some (.worker .idle) ∧
        (∃ rest, state.queue.items = item :: rest) ∧ point = .gating) ∨
      ∃ choice before, label = .step id choice ∧
        state.tasks id = some (.worker (.handling item before)) ∧
        state.stepHandle env id item before choice = some next ∧
        Handled state id item before next := by
  have stepped := step_stepped moved
  rcases stepped.origin tidy current with ⟨before, different⟩ | ⟨rfl, alive⟩ | born
  · exact Or.inl ⟨before, different⟩
  swap
  · cases born
  cases stepped with
  | crash => exact absurd rfl alive
  | outside isOutside =>
      have actor : label.actor state = state.spawned := by
        cases label <;> first | rfl | cases isOutside
      rw [actor] at current
      have := tidy state.spawned (Nat.le_refl _)
      rw [show state.tasks state.spawned = _ from current] at this
      cases this
  | purged =>
      have := tidy state.spawned (Nat.le_refl _)
      rw [show state.tasks state.spawned = _ from current] at this
      cases this
  | taken idle waiting =>
      simp only [Label.actor, State.moveTo_tasks_self] at current
      cases current
      exact Or.inr (Or.inl ⟨rfl, idle, ⟨_, waiting⟩, rfl⟩)
  | @handled id choice held before next present inside handled =>
      have same : held = item := by
        cases handled with
        | resolved | rescheduled | rejected => simp [Label.actor] at current
        | _ =>
            simp only [Label.actor, State.moveTo_tasks_self] at current
            cases current
            rfl
      subst same
      refine Or.inr (Or.inr ⟨choice, before, rfl, present, ?_, handled⟩)
      simpa [Label.actor, step, State.stepTask, present, State.stepWorker] using moved
  | escaped _ _ escaped =>
      obtain ⟨_, isEnded⟩ := escaped.worker
      cases isEnded.symm.trans current
  | _ => simp [Label.actor] at current

/-! ## Items on the queue -/

namespace State

/-- The item a step puts on the queue. -/
def enqueues? (state : State) : Label → Option QueueItem
  | .step id .proceed =>
      match state.tasks id with
      | some (.caller _ (.enqueueing request future)) => some ⟨request, 0, future⟩
      | some (.reschedule (.enqueueing item)) => some item
      | some (.starter (.reenqueueing item _)) => some item
      | _ => none
  | _ => none

/-- A coroutine that does not take items leaves the queue as it is, or puts its
item there. -/
theorem stepTask_queue
    {choice : Choice}
    {task : Task}
    (current : state.tasks id = some task)
    (notWorker : ∀ point, task ≠ .worker point)
    (moved : state.stepTask env id choice = some next) :
    next.queue = state.queue ∨
      ∃ item, state.enqueues? (.step id choice) = some item ∧
        next.queue = state.queue.put item := by
  simp only [stepTask, current] at moved
  cases task with
  | caller replayed point =>
      cases point <;> cases choice <;> simp only [stepCaller, reduceCtorEq] at moved
      case enqueueing.proceed request future =>
        split_ifs at moved
        rw [← Option.some.inj moved]
        exact Or.inr ⟨_, by simp [enqueues?, current], rfl⟩
      case removed.resubmit row requestId createdAt =>
        rw [← Option.some.inj moved]
        let request := replayRequest row requestId createdAt
        have submits : state.session = true → state.submitted? (.request request) =
            some { request with method := request.method.upper } := fun serving => if_pos serving
        obtain ⟨_, _, same, _⟩ := state.callRequest_eq env id replayed request submits
        rw [same]
        exact Or.inl rfl
      all_goals
        try split_ifs at moved
        all_goals
          rw [← Option.some.inj moved]
          exact Or.inl rfl
  | worker point => exact absurd rfl (notWorker point)
  | reschedule point =>
      cases point <;> cases choice <;> simp only [stepReschedule, reduceCtorEq] at moved
      case sleeping.proceed item wakeAt =>
        split_ifs at moved <;> rw [← Option.some.inj moved] <;> exact Or.inl rfl
      case enqueueing.proceed item =>
        split_ifs at moved
        rw [← Option.some.inj moved]
        exact Or.inr ⟨item, by simp [enqueues?, current], rfl⟩
  | starter point =>
      cases point <;> cases choice <;> simp only [stepStarter, reduceCtorEq] at moved
      case reenqueueing.proceed item rows =>
        split_ifs at moved
        rw [← Option.some.inj moved]
        exact Or.inr ⟨item, by simp [enqueues?, current], rfl⟩
      case recovering.proceed rows =>
        cases rows with
        | nil =>
            rw [← Option.some.inj moved]
            exact Or.inl rfl
        | cons row rows =>
            rw [← Option.some.inj moved]
            unfold recoverRow
            split <;> exact Or.inl rfl
      all_goals
        try split_ifs at moved
        all_goals
          rw [← Option.some.inj moved]
          exact Or.inl rfl
  | drainer point =>
      obtain ⟨_, after, _, rfl⟩ := stepDrainer_eq_some_iff.mp moved
      exact Or.inl rfl
  | stopper point =>
      cases point <;> cases choice <;> simp only [stepStopper, reduceCtorEq] at moved
      case draining.proceed =>
        obtain ⟨after, _, rfl⟩ := Option.map_eq_some_iff.mp moved
        cases after <;> exact Or.inl rfl
      all_goals
        try split_ifs at moved
        all_goals
          rw [← Option.some.inj moved]
          exact Or.inl rfl

/-- An item on the queue was there before, or the step has put it there. -/
theorem mem_queue
    {item : QueueItem}
    (moved : HardenedClient.step env label state = some next)
    (present : item ∈ next.queue.items) :
    item ∈ state.queue.items ∨ state.enqueues? label = some item := by
  have coroutine : ∀ {id choice task}, label = .step id choice →
      state.tasks id = some task → (∀ point, task ≠ .worker point) →
      item ∈ state.queue.items ∨ state.enqueues? label = some item := by
    rintro id choice task rfl current notWorker
    rcases stepTask_queue current notWorker moved with same | ⟨put, isPut, same⟩
    · exact Or.inl (same ▸ present)
    · rw [same, RequestQueue.put_items, List.mem_append, List.mem_singleton] at present
      rcases present with old | rfl
      · exact Or.inl old
      · exact Or.inr isPut
  cases step_stepped moved with
  | crash => cases present
  | caller current | upserted current | removed current | reschedule current
    | starter current | online current | drainer current | stopper current =>
      exact coroutine rfl current (by simp)
  | taken current waiting => exact Or.inl (waiting ▸ List.mem_cons_of_mem _ present)
  | handled _ _ handled =>
      cases handled with
      | resolved | rejected =>
          rw [settleKey_eq] at present
          exact Or.inl present
      | _ => exact Or.inl present
  | escaped _ _ escaped =>
      obtain ⟨_⟩ := escaped
      exact Or.inl present
  | _ => exact Or.inl present

end State

end HardenedClient
