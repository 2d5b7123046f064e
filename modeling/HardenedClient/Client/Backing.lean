import HardenedClient.Client.Arrivals
import HardenedClient.Client.Flights
import HardenedClient.Client.Ledger

/-!
# Items that count on their row

From the commit of a submission to the delete that ends it, a work item counts
on a row under its key, whose retry count is the attempt the item is at. The
lemmas say where such an item comes from in each step, and what each step does
to the table of rows.
-/

namespace HardenedClient

open Foundation

/-- The item a worker inside `_handle` works on, at the attempt its row counts;
none once the row is deleted. -/
def HandlePoint.backed? (item : QueueItem) : HandlePoint → Option QueueItem
  | .deleted _ | .hooking _ | .resolving _ | .failing _ => none
  | .scheduling newAttempt _ => some { item with attempt := newAttempt }
  | _ => some item

/-- The work item of a task that counts on its row. -/
def Task.backed? : Task → Option QueueItem
  | .caller _ (.upserted request future) | .caller _ (.enqueueing request future) =>
      some ⟨request, 0, future⟩
  | .worker (.handling item point) => point.backed? item
  | .reschedule (.sleeping item _) | .reschedule (.enqueueing item) => some item
  | .starter (.reenqueueing item _) => some item
  | _ => none

/-- The item at a place, if it counts on its row. -/
def State.backedAt (state : State) : Place → Option QueueItem
  | .queue position => state.queue.items[position]?
  | .agent id => (state.tasks id).bind Task.backed?

/-- An await of `_handle` whose commit changes the item's row. -/
def HandlePoint.writesRow : HandlePoint → Bool
  | .deleting _ | .incrementing _ _ _ | .retiring _ => true
  | _ => false

/-- The await after which a retry is handed on. -/
def HandlePoint.ready : HandlePoint → Bool
  | .scheduling _ _ => true
  | _ => false

/-- The task is not in the middle of an attempt. -/
def Task.ready : Task → Bool
  | .worker (.handling _ point) => point.ready
  | _ => true

/-- An item at the place waits for its next attempt to begin. -/
def State.readyAt (state : State) : Place → Bool
  | .queue _ => true
  | .agent id => (state.tasks id).all Task.ready

namespace State

variable {env : Env} {state next : State} {label : Label} {id : ℕ}

theorem readyAt_agent
    {task : Task}
    (current : state.tasks id = some task) :
    state.readyAt (.agent id) = task.ready := by
  simp [readyAt, current]

theorem backedAt_agent
    {task : Task}
    (current : state.tasks id = some task) :
    state.backedAt (.agent id) = task.backed? := by
  simp [backedAt, current]

/-- An item that counts on its row is live, with its key and future. -/
theorem itemAt_of_backedAt
    {place : Place}
    {item : QueueItem}
    (found : state.backedAt place = some item) :
    ∃ held, state.itemAt place = some held ∧ held.key = item.key ∧
      held.request = item.request := by
  cases place with
  | queue position => exact ⟨item, found, rfl, rfl⟩
  | agent id =>
      obtain ⟨task, current, backed⟩ := Option.bind_eq_some_iff.mp found
      have there : state.itemAt (.agent id) = task.item? := by simp [itemAt, current]
      rw [there]
      unfold Task.backed? at backed
      split at backed
      · cases backed
        exact ⟨_, rfl, rfl, rfl⟩
      · cases backed
        exact ⟨_, rfl, rfl, rfl⟩
      · next held point =>
          refine ⟨held, rfl, ?_⟩
          cases point <;> cases backed <;> exact ⟨rfl, rfl⟩
      · cases backed
        exact ⟨_, rfl, rfl, rfl⟩
      · cases backed
        exact ⟨_, rfl, rfl, rfl⟩
      · cases backed
        exact ⟨_, rfl, rfl, rfl⟩
      · cases backed

/-- The step commits a change to the row of the item at a place. -/
def WritesRow (state : State) (label : Label) (place : Place) : Prop :=
  ∃ id item point, place = .agent id ∧ label = .step id .proceed ∧
    state.tasks id = some (.worker (.handling item point)) ∧ point.writesRow = true

/-- Where an item that counts on its row after a step comes from. -/
inductive Backing (state : State) (label : Label) (next : State) (target : Place)
    (item : QueueItem) : Prop
  | kept (place : Place)
      (found : state.backedAt place = some item)
      (untouched : ¬ state.WritesRow label place)
      (ready : next.readyAt target = true → state.readyAt place = true) :
      Backing state label next target item
  | upserted {id : ℕ} {replayed : Option ℕ}
      (isStep : label = .step id .proceed)
      (current : state.tasks id = some
        (.caller replayed (.upserting item.request item.flight)))
      (first : item.attempt = 0)
      (tables : next.tables = state.tables.upsertInflight item.request state.now) :
      Backing state label next target item
  | recovered {id : ℕ} {row : InflightRow} {rows : List InflightRow}
      (isStep : label = .step id .proceed)
      (current : state.tasks id = some (.starter (.recovering (row :: rows))))
      (free : state.dedup.pendingFuture? row.idempotencyKey = none)
      (request : item.request = row.payload.request)
      (attempt : item.attempt = row.retryCount)
      (tables : next.tables = state.tables) :
      Backing state label next target item
  | counted {id : ℕ} {held : QueueItem} {exc : PyException} {delay : PyFloat}
      (isStep : label = .step id .proceed)
      (current : state.tasks id = some
        (.worker (.handling held (.incrementing exc item.attempt delay))))
      (request : item.request = held.request)
      (tables : next.tables =
        state.tables.incrementRetry held.key exc.message state.now)
      (recorded : next.history = .incremented held.key :: state.history) :
      Backing state label next target item

/-- A task that was there, and did not commit a change to its row. -/
theorem Backing.of_task
    {task : Task}
    {target : Place}
    {item : QueueItem}
    (current : state.tasks id = some task)
    (backed : task.backed? = some item)
    (untouched : ∀ held point, task = .worker (.handling held point) →
      label = .step id .proceed → point.writesRow = false)
    (ready : next.readyAt target = true → task.ready = true) :
    Backing state label next target item := by
  apply Backing.kept (.agent id) (by rw [backedAt_agent current, backed])
  · rintro ⟨writer, held, point, same, isStep, working, writes⟩
    obtain rfl := Place.agent.inj same
    rw [current] at working
    rw [untouched held point (Option.some.inj working) isStep] at writes
    cases writes
  · rwa [readyAt_agent current]

/-- `request()` brings its task to no await after the commit of a row. -/
theorem callRequest_backed
    (state : State)
    (env : Env)
    (id : ℕ)
    (replayed : Option ℕ)
    (request : Request) :
    ∃ task, (state.callRequest env id replayed request).tasks id = some task ∧
      task.backed? = none := by
  unfold callRequest submit
  split
  · split
    · exact ⟨_, setTask_tasks_self _ _ _, rfl⟩
    · split
      · exact ⟨_, setTask_tasks_self _ _ _, rfl⟩
      · split <;> exact ⟨_, setTask_tasks_self _ _ _, rfl⟩
  · exact ⟨_, setTask_tasks_self _ _ _, rfl⟩

theorem backing_of_caller
    {replayed : Option ℕ}
    {point : CallerPoint}
    {choice : Choice}
    {task : Task}
    {item : QueueItem}
    (present : state.tasks id = some (.caller replayed point))
    (moved : state.stepCaller env id replayed point choice = some next)
    (current : next.tasks id = some task)
    (backed : task.backed? = some item) :
    Backing state (.step id choice) next (.agent id) item := by
  cases point <;> cases choice <;> simp only [stepCaller, reduceCtorEq] at moved
  case removed.resubmit row requestId createdAt =>
    rw [← Option.some.inj moved] at current
    obtain ⟨other, found, none⟩ := state.callRequest_backed env id replayed
      (replayRequest row requestId createdAt)
    rw [found, Option.some.injEq] at current
    rw [← current, none] at backed
    cases backed
  case upserting.proceed request future =>
    split_ifs at moved <;> rw [← Option.some.inj moved] at current ⊢ <;>
      simp only [setTask_tasks_self, Option.some.injEq] at current <;> subst current
    · simp only [Task.backed?, Option.some.injEq] at backed
      subst backed
      exact .upserted rfl present rfl rfl
    · cases backed
  case upserted.proceed request future =>
    rw [← Option.some.inj moved] at current
    simp only [setTask_tasks_self, Option.some.injEq] at current
    subst current
    exact Backing.of_task present backed (by simp) fun _ => rfl
  all_goals
    try split_ifs at moved
    all_goals
      rw [← Option.some.inj moved] at current
      simp only [setTask_tasks_self, Option.some.injEq] at current
      subst current
      cases backed

theorem backing_of_reschedule
    {point : ReschedulePoint}
    {choice : Choice}
    {task : Task}
    {item : QueueItem}
    (present : state.tasks id = some (.reschedule point))
    (moved : state.stepReschedule env id point choice = some next)
    (current : next.tasks id = some task)
    (backed : task.backed? = some item) :
    Backing state (.step id choice) next (.agent id) item := by
  cases point <;> cases choice <;> simp only [stepReschedule, reduceCtorEq] at moved
  case sleeping.proceed held wakeAt =>
    split_ifs at moved <;> rw [← Option.some.inj moved] at current <;>
      simp only [setTask_tasks_self, Option.some.injEq] at current <;> subst current
    · cases backed
    · exact Backing.of_task present backed (by simp) fun _ => rfl
  case enqueueing.proceed held =>
    split_ifs at moved
    rw [← Option.some.inj moved] at current
    simp only [setTask_tasks_self, Option.some.injEq] at current
    subst current
    cases backed

theorem backing_of_starter
    {point : StartPoint}
    {choice : Choice}
    {task : Task}
    {item : QueueItem}
    (present : state.tasks id = some (.starter point))
    (moved : state.stepStarter env id point choice = some next)
    (current : next.tasks id = some task)
    (backed : task.backed? = some item) :
    Backing state (.step id choice) next (.agent id) item := by
  cases point <;> cases choice <;>
    simp only [stepStarter, failStart, reduceCtorEq] at moved
  case recovering.proceed rows =>
    cases rows with
    | nil =>
        rw [← Option.some.inj moved, online_tasks_self, Option.some.injEq] at current
        subst current
        cases backed
    | cons row rows =>
        rw [← Option.some.inj moved] at current ⊢
        cases free : state.dedup.pendingFuture? row.idempotencyKey with
        | some future =>
            simp only [recoverRow, InFlightRegistry.getOrCreate, free, setTask_tasks_self,
              Option.some.injEq] at current
            subst current
            cases backed
        | none =>
            simp only [recoverRow, InFlightRegistry.getOrCreate, free, setTask_tasks_self,
              Option.some.injEq] at current ⊢
            subst current
            simp only [Task.backed?, Option.some.injEq] at backed
            subst backed
            exact .recovered rfl present free rfl rfl rfl
  all_goals
    try split_ifs at moved
    all_goals
      rw [← Option.some.inj moved] at current
      simp only [setTask_tasks_self, Option.some.injEq] at current
      subst current
      cases backed

theorem backing_of_handled
    {held item : QueueItem}
    {point : HandlePoint}
    {choice : Choice}
    {task : Task}
    (present : state.tasks id = some (.worker (.handling held point)))
    (moved : state.stepHandle env id held point choice = some next)
    (handled : Handled state id held point next)
    (current : next.tasks id = some task)
    (backed : task.backed? = some item) :
    Backing state (.step id choice) next (.agent id) item := by
  have stays : ∀ after, point.backed? held = some held → after.backed? held = some held →
      point.writesRow = false → after.ready = false → next.tasks id = some (.worker (.handling held after)) →
      Backing state (.step id choice) next (.agent id) item := by
    intro after before later quiet begun reached
    have unready : next.readyAt (.agent id) = false := (readyAt_agent reached).trans begun
    rw [reached, Option.some.injEq] at current
    subst current
    apply Backing.of_task present (before.trans (later.symm.trans backed))
    · intro other place same _
      cases same
      exact quiet
    · rw [unready]
      simp
  cases handled with
  | advanced advances =>
      cases advances with
      | blocked disposes =>
          cases disposes <;> exact stays _ rfl rfl rfl rfl (moveTo_tasks_self _ _ _ _)
      | admitted | waits | granted => exact stays _ rfl rfl rfl rfl (moveTo_tasks_self _ _ _ _)
      | answered response chosen =>
          simp only [moveTo_tasks_self, Option.some.injEq] at current
          subst current
          rcases chosen with rfl | rfl <;> cases backed
      | hooked =>
          simp only [moveTo_tasks_self, Option.some.injEq] at current
          subst current
          cases backed
  | succeeded => exact stays _ rfl rfl rfl rfl (moveTo_tasks_self _ _ _ _)
  | failed disposes =>
      cases disposes <;> exact stays _ rfl rfl rfl rfl (moveTo_tasks_self _ _ _ _)
  | pushed => exact stays _ rfl rfl rfl rfl (moveTo_tasks_self _ _ _ _)
  | incremented =>
      simp only [moveTo_tasks_self, Option.some.injEq] at current
      subst current
      simp only [Task.backed?, HandlePoint.backed?, Option.some.injEq] at backed
      subst backed
      cases choice <;> simp only [stepHandle, reduceCtorEq] at moved
      · exact .counted rfl present rfl rfl rfl
      · have := congrArg (fun state : State => state.tasks id) (Option.some.inj moved)
        simp at this
  | deleted | retired =>
      simp only [moveTo_tasks_self, Option.some.injEq] at current
      subst current
      cases backed
  | resolved | rescheduled | rejected =>
      simp only [endHandle_tasks_self, Option.some.injEq] at current
      subst current
      cases backed

/-- The item of the task that a step moves. -/
theorem backing_of_actor
    {task : Task}
    {item : QueueItem}
    (tidy : state.Tidy)
    (moved : HardenedClient.step env label state = some next)
    (current : next.tasks (label.actor state) = some task)
    (backed : task.backed? = some item) :
    Backing state label next (.agent (label.actor state)) item := by
  cases step_stepped moved with
  | crash => cases current
  | outside isOutside =>
      have actor : label.actor state = state.spawned := by
        cases label <;> first | rfl | cases isOutside
      rw [actor] at current
      have unborn : state.tasks state.spawned = none := tidy _ (Nat.le_refl _)
      cases unborn.symm.trans current
  | purged =>
      have unborn : state.tasks state.spawned = none := tidy _ (Nat.le_refl _)
      cases unborn.symm.trans current
  | @request request =>
      obtain ⟨other, found, none⟩ := callRequest_backed
        { state with spawned := state.spawned + 1 } env state.spawned Option.none request
      rw [Option.some.inj moved] at found
      cases found.symm.trans current
      cases none.symm.trans backed
  | caller present | upserted present | removed present =>
      simp only [HardenedClient.step, stepTask, present] at moved
      exact backing_of_caller present moved current backed
  | reschedule present =>
      simp only [HardenedClient.step, stepTask, present] at moved
      exact backing_of_reschedule present moved current backed
  | starter present | online present =>
      simp only [HardenedClient.step, stepTask, present] at moved
      exact backing_of_starter present moved current backed
  | taken idle waiting =>
      simp only [Label.actor, moveTo_tasks_self, Option.some.injEq] at current
      subst current
      simp only [Task.backed?, HandlePoint.backed?, Option.some.injEq] at backed
      subst backed
      apply Backing.kept (.queue 0) (by simp [backedAt, waiting])
      · rintro ⟨_, _, _, isAgent, _⟩
        cases isAgent
      · exact fun _ => rfl
  | @handled id choice held point next present inside handled =>
      simp only [HardenedClient.step, stepTask, present, stepWorker] at moved
      exact backing_of_handled present moved handled current backed
  | escaped _ _ escaped =>
      obtain ⟨_, ended⟩ := escaped.worker
      cases ended.symm.trans current
      cases backed
  | start fresh =>
      simp only [Label.actor, setTask_tasks_self, Option.some.injEq] at current
      subst current
      rcases fresh with rfl | rfl <;> cases backed
  | _ =>
      simp only [Label.actor, setTask_tasks_self, Option.some.injEq] at current
      subst current
      cases backed

/-- The item of a task that a step creates beside the one it moves. -/
theorem backing_of_new
    {task : Task}
    {item : QueueItem}
    (tidy : state.Tidy)
    (moved : HardenedClient.step env label state = some next)
    (notActor : id ≠ label.actor state)
    (new : state.spawned ≤ id)
    (current : next.tasks id = some task)
    (backed : task.backed? = some item) :
    Backing state label next (.agent id) item := by
  have unborn : state.tasks id = none := tidy id new
  have setTask : ∀ {base : State} {actor : ℕ} {other : Task}, base.tasks = state.tasks →
      id ≠ actor → (base.setTask actor other).tasks id = some task → False := by
    intro base actor other tasks different found
    rw [setTask_tasks_of_ne _ _ different, tasks, unborn] at found
    cases found
  cases step_stepped moved with
  | crash => cases current
  | outside | purged => cases unborn.symm.trans current
  | @online starter present =>
      have different : id ≠ starter := notActor
      simp only [State.online, State.setTask, Function.update_of_ne different] at current
      split_ifs at current
      · cases current
        cases backed
      · cases unborn.symm.trans current
  | @handled worker choice held point next present inside handled =>
      cases handled with
      | @rescheduled newAttempt delay wakeAt =>
          have different : id ≠ worker := notActor
          have reached : Function.update state.tasks state.spawned
              (some (.reschedule (.sleeping { held with attempt := newAttempt } wakeAt))) id =
              some task := by
            simpa [endHandle, spawn, State.setTask, different] using current
          rw [Function.update_apply] at reached
          split_ifs at reached
          · cases reached
            apply Backing.of_task present backed
            · intro other place same _
              cases same
              rfl
            · exact fun _ => rfl
          · cases unborn.symm.trans reached
      | resolved | rejected =>
          rw [settleKey_eq] at current
          exact (setTask rfl notActor current).elim
      | _ => exact (setTask rfl notActor current).elim
  | escaped _ _ escaped =>
      obtain ⟨_⟩ := escaped
      exact (setTask rfl notActor current).elim
  | _ => exact (setTask rfl notActor current).elim

/-- Every item that counts on its row after a step did so before, and its row is
left alone, or its row has just been committed, listed or counted up. -/
theorem backed_origin
    {place : Place}
    {item : QueueItem}
    (tidy : state.Tidy)
    (moved : HardenedClient.step env label state = some next)
    (found : next.backedAt place = some item) :
    Backing state label next place item := by
  cases place with
  | queue position =>
      rcases mem_queue moved (List.mem_of_getElem? found) with old | put
      · obtain ⟨before, there⟩ := List.getElem?_of_mem old
        apply Backing.kept (.queue before) there
        · rintro ⟨_, _, _, isAgent, _⟩
          cases isAgent
        · exact fun _ => rfl
      · unfold enqueues? at put
        split at put <;> try cases put
        split at put <;> cases put
        all_goals
          next current => exact Backing.of_task current rfl (by simp) fun _ => rfl
  | agent id =>
      obtain ⟨task, current, backed⟩ := Option.bind_eq_some_iff.mp found
      have stepped := step_stepped moved
      by_cases crashed : label = .crash
      · subst crashed
        rw [stepped.boot_of_crash] at current
        cases current
      by_cases isActor : id = label.actor state
      · subst isActor
        exact backing_of_actor tidy moved current backed
      · by_cases known : id < state.spawned
        · have ready := readyAt_agent current
          rw [(stepped.frame tidy crashed).others id known isActor] at current
          apply Backing.of_task current backed
          · rintro _ _ _ rfl
            exact absurd rfl isActor
          · rw [ready]
            exact fun unchanged => unchanged
        · exact backing_of_new tidy moved isActor (Nat.le_of_not_lt known) current backed

/-! ## Commits to the table of rows -/

/-- What a step commits to the table of rows, and which coroutine. -/
inductive RowCommit (state : State) : Label → Tables → Prop
  | same {label : Label} {tables : Tables}
      (inflight : tables.inflight = state.tables.inflight) :
      RowCommit state label tables
  | upserted {id : ℕ} {replayed : Option ℕ} {request : DurableRequest} {future : ℕ}
      (current : state.tasks id = some (.caller replayed (.upserting request future))) :
      RowCommit state (.step id .proceed) (state.tables.upsertInflight request state.now)
  | incremented {id : ℕ} {item : QueueItem} {exc : PyException} {newAttempt : ℕ}
      {delay : PyFloat}
      (current : state.tasks id = some
        (.worker (.handling item (.incrementing exc newAttempt delay)))) :
      RowCommit state (.step id .proceed)
        (state.tables.incrementRetry item.key exc.message state.now)
  | deleted {id : ℕ} {item : QueueItem} {point : HandlePoint}
      (current : state.tasks id = some (.worker (.handling item point)))
      (deletes : point.deletes = true) :
      RowCommit state (.step id .proceed) (state.tables.deleteInflight item.key)

theorem rowCommit
    (moved : HardenedClient.step env label state = some next) :
    RowCommit state label next.tables := by
  cases step_stepped moved with
  | upserted current => exact .upserted current
  | @handled id choice item point next current inside handled =>
      have proceeds : point.writesRow = true → choice = .proceed := by
        intro writes
        simp only [HardenedClient.step, stepTask, current, stepWorker] at moved
        cases point <;> cases writes <;> cases choice <;>
          simp only [stepHandle, reduceCtorEq] at moved <;>
          first | rfl | exact absurd trivial inside
      cases handled with
      | incremented =>
          obtain rfl := proceeds rfl
          exact .incremented current
      | deleted =>
          obtain rfl := proceeds rfl
          exact .deleted current rfl
      | retired =>
          obtain rfl := proceeds rfl
          exact .deleted current rfl
      | resolved | rejected =>
          rw [settleKey_eq]
          exact .same rfl
      | _ => exact .same rfl
  | escaped _ _ escaped =>
      obtain ⟨_⟩ := escaped
      exact .same rfl
  | _ => exact .same rfl

/-- A row has the key and the payload it had, or it has just been persisted. -/
theorem RowCommit.row_cases
    {tables : Tables}
    {row : InflightRow}
    (commit : RowCommit state label tables)
    (present : row ∈ tables.inflight.rows) :
    (∃ old ∈ state.tables.inflight.rows,
      old.idempotencyKey = row.idempotencyKey ∧ old.payload = row.payload) ∨
    ∃ id replayed request future, label = .step id .proceed ∧
      state.tasks id = some (.caller replayed (.upserting request future)) ∧
      row.idempotencyKey = request.key ∧ row.payload = request.payload := by
  cases commit with
  | same inflight => exact Or.inl ⟨row, inflight ▸ present, rfl, rfl⟩
  | upserted current =>
      rcases Tables.mem_upsertInflight present with ⟨sameKey, samePayload⟩ | old
      · exact Or.inr ⟨_, _, _, _, rfl, current, sameKey, samePayload⟩
      · exact Or.inl old
  | incremented => exact Or.inl (Tables.mem_incrementRetry present)
  | deleted => exact Or.inl ⟨row, (KeyedTable.mem_erase_rows.mp present).1, rfl, rfl⟩

end State

end HardenedClient
