import HardenedClient.Client.Frame
import Mathlib.Algebra.Order.BigOperators.Group.Finset

/-!
# Lifecycle calls and the queue's count

Two invariants of every run: `start()` and `stop()` calls are in progress one at
a time, and the count that `join()` waits for is the number of items that are
queued or inside `_handle`.
-/

namespace HardenedClient

open Foundation

/-! ## One lifecycle call at a time -/

/-- What a step does to the lifecycle calls: its task is none of them, or it
starts one while there is none, or its task was one. -/
theorem Stepped.turn
    {env : Env}
    {label : Label}
    {state next : State}
    (stepped : Stepped env state label next)
    (tidy : state.Tidy)
    (alive : label ≠ .crash) :
    (next.lifecycle = state.lifecycle ∧
      ∀ task, next.tasks (label.actor state) = some task → task.inLifecycle = false) ∨
    (state.lifecycle = false ∧ next.lifecycle = true) ∨
    ∃ old, state.tasks (label.actor state) = some old ∧ old.inLifecycle = true ∧
      ∀ task, next.tasks (label.actor state) = some task → task.inLifecycle = true →
        next.lifecycle = state.lifecycle := by
  have unborn : state.tasks state.spawned = none := tidy _ (Nat.le_refl _)
  cases stepped with
  | crash => exact absurd rfl alive
  | outside isOutside =>
      have actor : label.actor state = state.spawned := by
        cases label <;> first | rfl | cases isOutside
      exact Or.inl ⟨rfl, fun task found => by simp [actor, unborn] at found⟩
  | purged =>
      exact Or.inl ⟨rfl, fun task found => by
        simp [Label.actor, State.record, unborn] at found⟩
  | start _ idle | stop _ idle => exact Or.inr (Or.inl ⟨idle, rfl⟩)
  | starter current _ _ _ active guards | stopper current _ active guards =>
      refine Or.inr (Or.inr ⟨_, current, active, fun task found inside => guards ?_⟩)
      simp only [Label.actor, State.setTask_tasks_self] at found
      cases found
      exact inside
  | cancelStarter current active =>
      refine Or.inr (Or.inr ⟨_, current, active, fun task found inside => ?_⟩)
      simp only [Label.actor, State.setTask_tasks_self] at found
      cases found
      cases inside
  | online current =>
      refine Or.inr (Or.inr ⟨_, current, rfl, fun task found inside => ?_⟩)
      simp only [Label.actor, State.online_tasks_self] at found
      cases found
      cases inside
  | handled _ _ handled =>
      refine Or.inl ⟨?_, fun task found => ?_⟩
      · cases handled with
        | resolved | rejected =>
            rw [State.settleKey_eq]
            rfl
        | _ => rfl
      · obtain ⟨after, isWorker⟩ := handled.worker
        cases isWorker.symm.trans found
        rfl
  | escaped _ _ escaped =>
      obtain ⟨exc, ended⟩ := escaped.worker
      obtain ⟨_⟩ := escaped
      refine Or.inl ⟨rfl, fun task found => ?_⟩
      cases ended.symm.trans found
      rfl
  | taken =>
      refine Or.inl ⟨rfl, fun task found => ?_⟩
      simp only [Label.actor, State.moveTo_tasks_self] at found
      cases found
      rfl
  | _ =>
      refine Or.inl ⟨rfl, fun task found => ?_⟩
      simp only [Label.actor, State.setTask_tasks_self] at found
      cases found
      rfl

namespace State

/-- At most one `start()` or `stop()` call is in progress, and the flag says
whether there is one. -/
structure Guarded (state : State) : Prop where
  tidy : state.Tidy
  locked : ∀ id task, state.tasks id = some task → task.inLifecycle = true →
    state.lifecycle = true
  only : ∀ id other task second, state.tasks id = some task → state.tasks other = some second →
    task.inLifecycle = true → second.inLifecycle = true → id = other

theorem Guarded.boot (tables : Tables) (now : ℚ) (history : List Event) :
    (boot tables now history).Guarded where
  tidy := tidy_boot tables now history
  locked := fun _ _ current => by cases current
  only := fun _ _ _ _ current => by cases current

theorem Guarded.step
    {env : Env}
    {label : Label}
    {state next : State}
    (guarded : state.Guarded)
    (stepped : Stepped env state label next) :
    next.Guarded := by
  by_cases crashed : label = .crash
  · subst crashed
    rw [stepped.boot_of_crash]
    exact .boot _ _ _
  have frame := stepped.frame guarded.tidy crashed
  have before : ∀ id task, next.tasks id = some task → task.inLifecycle = true →
      id ≠ label.actor state → state.tasks id = some task := by
    intro id task current inside different
    rcases frame.origin different current with before | born
    · exact before
    · cases born <;> cases inside
  rcases stepped.turn guarded.tidy crashed with
    ⟨same, outside⟩ | ⟨idle, locked⟩ | ⟨old, present, active, keeps⟩
  · have others : ∀ id task, next.tasks id = some task → task.inLifecycle = true →
        state.tasks id = some task := by
      intro id task current inside
      apply before id task current inside
      rintro rfl
      simp [outside task current] at inside
    refine ⟨stepped.tidy guarded.tidy, fun id task current inside => ?_, ?_⟩
    · rw [same]
      exact guarded.locked id task (others id task current inside) inside
    · intro id other task second current found inside also
      exact guarded.only id other task second (others id task current inside)
        (others other second found also) inside also
  · have mine : ∀ id task, next.tasks id = some task → task.inLifecycle = true →
        id = label.actor state := by
      intro id task current inside
      by_contra different
      have wasLocked := guarded.locked id task (before id task current inside different) inside
      simp [idle] at wasLocked
    refine ⟨stepped.tidy guarded.tidy, fun _ _ _ _ => locked, ?_⟩
    intro id other task second current found inside also
    rw [mine id task current inside, mine other second found also]
  · have mine : ∀ id task, next.tasks id = some task → task.inLifecycle = true →
        id = label.actor state := by
      intro id task current inside
      by_contra different
      exact different (guarded.only id _ task old (before id task current inside different)
        present inside active)
    refine ⟨stepped.tidy guarded.tidy, fun id task current inside => ?_, ?_⟩
    · obtain rfl := mine id task current inside
      rw [keeps task current inside]
      exact guarded.locked _ old present active
    · intro id other task second current found inside also
      rw [mine id task current inside, mine other second found also]

end State

/-! ## Unfinished items -/

/-- The items a task has taken from the queue and not marked done. -/
def Task.load : Option Task → ℕ
  | some (.worker (.handling _ _)) => 1
  | _ => 0

/-- The number of items inside `_handle`. -/
def State.handling (state : State) : ℕ :=
  ∑ id ∈ Finset.range state.spawned, Task.load (state.tasks id)

theorem Born.load {task : Task} (born : Born task) : Task.load (some task) = 0 := by
  cases born <;> rfl

/-- A step changes a total over the tasks by its own task's share, when the tasks it
creates have none. -/
theorem Frame.total
    {id : ℕ}
    {state next : State}
    (frame : Frame id state next)
    (tidy : state.Tidy)
    (weight : Option Task → ℕ)
    (nothing : weight none = 0)
    (light : ∀ other, state.spawned ≤ other → other ≠ id → weight (next.tasks other) = 0) :
    (∑ other ∈ Finset.range next.spawned, weight (next.tasks other)) +
        weight (state.tasks id) =
      (∑ other ∈ Finset.range state.spawned, weight (state.tasks other)) +
        weight (next.tasks id) := by
  have after : next.Tidy := .of_frame frame
  have extended : ∑ other ∈ Finset.range state.spawned, weight (state.tasks other) =
      ∑ other ∈ Finset.range next.spawned, weight (state.tasks other) := by
    apply Finset.sum_subset (Finset.range_mono frame.grows)
    intro other _ beyond
    rw [tidy other (by simpa using beyond), nothing]
  have same : ∀ other, other ≠ id → weight (next.tasks other) = weight (state.tasks other) := by
    intro other different
    by_cases known : other < state.spawned
    · rw [frame.others other known different]
    · have beyond := Nat.le_of_not_lt known
      rw [light other beyond different, tidy other beyond, nothing]
  rw [extended]
  by_cases known : id ∈ Finset.range next.spawned
  · rw [← Finset.add_sum_erase _ _ known,
      ← Finset.add_sum_erase _ (fun other => weight (state.tasks other)) known,
      Finset.sum_congr rfl fun other present => same other (Finset.ne_of_mem_erase present)]
    omega
  · have beyond : next.spawned ≤ id := by simpa using known
    rw [after id beyond, tidy id (frame.grows.trans beyond)]
    congr 1
    apply Finset.sum_congr rfl
    intro other present
    apply same
    rintro rfl
    exact known present

/-- A step changes the number of items inside `_handle` by its own task's. -/
theorem Frame.handling
    {id : ℕ}
    {state next : State}
    (frame : Frame id state next)
    (tidy : state.Tidy) :
    next.handling + Task.load (state.tasks id) = state.handling + Task.load (next.tasks id) := by
  apply frame.total tidy Task.load rfl
  intro other beyond different
  cases current : next.tasks other with
  | none => rfl
  | some task => exact (frame.born other beyond different task current).2.load

theorem load_le_handling
    {state : State}
    (tidy : state.Tidy)
    (id : ℕ) :
    Task.load (state.tasks id) ≤ state.handling := by
  by_cases known : id ∈ Finset.range state.spawned
  · exact Finset.single_le_sum (f := fun id => Task.load (state.tasks id))
      (fun _ _ => Nat.zero_le _) known
  · rw [tidy id (by simpa using known)]
    exact Nat.zero_le _

/-- A task that adds to the queue adds to its count; a worker moves the item it
takes from the queue into `_handle`, and marks the item it is done with. -/
theorem Stepped.balance
    {env : Env}
    {label : Label}
    {state next : State}
    (stepped : Stepped env state label next)
    (tidy : state.Tidy)
    (alive : label ≠ .crash)
    (counted : Task.load (state.tasks (label.actor state)) ≤ state.queue.unfinished) :
    next.queue.unfinished + state.queue.items.length +
        Task.load (state.tasks (label.actor state)) =
      state.queue.unfinished + next.queue.items.length +
        Task.load (next.tasks (label.actor state)) := by
  have unborn : state.tasks state.spawned = none := tidy _ (Nat.le_refl _)
  have puts : ∀ {queue}, Puts env state.queue queue →
      queue.unfinished + state.queue.items.length =
        state.queue.unfinished + queue.items.length := by
    rintro queue (_ | ⟨item, _⟩)
    · rfl
    · simp only [RequestQueue.put_items, RequestQueue.put_unfinished, List.length_append,
        List.length_singleton]
      omega
  cases stepped with
  | crash => exact absurd rfl alive
  | outside => rfl
  | purged => rfl
  | caller current _ after | reschedule current after | starter current _ after =>
      simpa [Label.actor, State.setTask, current, Task.load] using puts after
  | taken current waiting =>
      simp only [Label.actor, State.moveTo, State.setTask, State.record, Function.update_self,
        current, waiting, Task.load, List.length_cons]
      omega
  | handled current _ handled =>
      simp only [Label.actor, current, Task.load] at counted ⊢
      cases handled with
      | resolved | rejected =>
          rw [State.settleKey_eq]
          simp only [State.endHandle, State.setTask, Function.update_self,
            RequestQueue.taskDone_items, RequestQueue.taskDone_unfinished]
          omega
      | rescheduled =>
          simp only [State.endHandle, State.setTask, State.spawn, Function.update_self,
            RequestQueue.taskDone_items, RequestQueue.taskDone_unfinished]
          omega
      | _ => simp [State.moveTo, State.setTask, State.record, State.withBooks]
  | escaped current _ escaped =>
      simp only [Label.actor, current, Task.load] at counted ⊢
      obtain ⟨_⟩ := escaped
      simp only [State.escape, State.setTask, Function.update_self,
        RequestQueue.taskDone_items, RequestQueue.taskDone_unfinished]
      omega
  | cancelHandling current =>
      simp only [Label.actor, current, Task.load] at counted ⊢
      simp only [State.setTask, Function.update_self, RequestQueue.taskDone_items,
        RequestQueue.taskDone_unfinished]
      omega
  | online current =>
      simp [Label.actor, State.online, State.setTask, current, Task.load]
  | request | replay | drain | start | stop =>
      simp [Label.actor, State.setTask, unborn, Task.load]
  | upserted current | removed current | cancelCaller current | cancelStarter current
    | cancelIdle current | drainer current | stopper current =>
      simp [Label.actor, State.setTask, State.record, current, Task.load]

namespace State

/-- The count that `join()` waits for is that of the items queued or inside
`_handle`. -/
structure Counted (state : State) : Prop where
  tidy : state.Tidy
  unfinished : state.queue.unfinished = state.queue.items.length + state.handling

theorem Counted.boot (tables : Tables) (now : ℚ) (history : List Event) :
    (boot tables now history).Counted where
  tidy := tidy_boot tables now history
  unfinished := rfl

theorem Counted.step
    {env : Env}
    {label : Label}
    {state next : State}
    (counted : state.Counted)
    (stepped : Stepped env state label next) :
    next.Counted := by
  by_cases crashed : label = .crash
  · subst crashed
    rw [stepped.boot_of_crash]
    exact .boot _ _ _
  refine ⟨stepped.tidy counted.tidy, ?_⟩
  have load := load_le_handling counted.tidy (label.actor state)
  have unfinished := counted.unfinished
  have balance := stepped.balance counted.tidy crashed (by omega)
  have handling := (stepped.frame counted.tidy crashed).handling counted.tidy
  omega

/-- With nothing unfinished, the queue is empty and no worker is inside
`_handle`. -/
theorem Counted.idle
    {state : State}
    (counted : state.Counted)
    (finished : state.queue.unfinished = 0) :
    state.queue.items = [] ∧ ∀ id item point,
      state.tasks id ≠ some (.worker (.handling item point)) := by
  have unfinished := counted.unfinished
  refine ⟨List.eq_nil_of_length_eq_zero (by omega), fun id item point current => ?_⟩
  have load := load_le_handling counted.tidy id
  rw [current, Task.load] at load
  omega

end State

end HardenedClient
