import HardenedClient.Client.Uptime
import HardenedClient.Custody

/-!
# Submissions to a client that has started

When requests are submitted only after a `start()` call of the process has
returned, recovery has claimed the key of every row by then: a row has a pending
future under its key, and a submission never finds a row of its key.
-/

namespace HardenedClient

open Foundation

/-- No caller is cancelled, and requests are submitted only after a `start()` call
has returned. -/
structure Served (state : State) (label : Label) : Prop where
  uncancelled : Uncancelled state label
  afterStart : ∀ request, state.submitted? label = some request → state.Started

/-- The rows the recovery loop has still to turn to. -/
def StartPoint.left? : StartPoint → Option (List InflightRow)
  | .recovering rows | .reenqueueing _ rows => some rows
  | _ => none

namespace State

variable {env : Env} {state next : State} {label : Label} {id : ℕ}

/-- Rows have a pending future under their key once `start()` has returned, and
those that recovery has passed have one before; a request about to be persisted
has no row. -/
structure Claimed (env : Env) (state : State) : Prop extends state.Custody env where
  started : state.Started → ∀ key, state.tables.inflight.Has key →
    state.dedup.pendingFuture? key ≠ none
  passed : ∀ id point rows, state.tasks id = some (.starter point) → point.left? = some rows →
    ∀ key, state.tables.inflight.Has key →
      state.dedup.pendingFuture? key ≠ none ∨ ∃ row ∈ rows, row.idempotencyKey = key
  fresh : ∀ id replayed request future,
    state.tasks id = some (.caller replayed (.upserting request future)) →
      ¬ state.tables.inflight.Has request.key

theorem Claimed.boot
    (env : Env)
    (tables : Tables)
    (now : ℚ)
    (history : List Event) :
    Claimed env (boot tables now history) where
  toCustody := .boot env tables now history
  started := fun ⟨_, current⟩ => by cases current
  passed := fun _ _ _ current => by cases current
  fresh := fun _ _ _ _ current => by cases current

/-- A step that leaves a row of a key leaves its pending future. -/
theorem Custody.busy_kept
    {key : Key}
    (custody : Custody env state)
    (uncancelled : Uncancelled state label)
    (alive : label ≠ .crash)
    (moved : HardenedClient.step env label state = some next)
    (row : next.tables.inflight.Has key)
    (busy : state.dedup.pendingFuture? key ≠ none) :
    next.dedup.pendingFuture? key ≠ none := by
  rcases busy_step custody.sound uncancelled moved busy with
    stays | crashed | ⟨id, item, point, current, past, rfl⟩
  · exact stays
  · exact absurd crashed alive
  · exfalso
    rcases (step_stepped moved).commits.has_cases row with before | persisted
    · exact custody.cleared id item point current past before
    · rcases step_records moved with ⟨quiet, _⟩ | ⟨event, recorded, records⟩
      · exact List.ne_cons_self (quiet.symm.trans persisted)
      · exact custody.not_upserted_of_handling current records
          (List.cons.inj (recorded.symm.trans persisted)).1

/-- A key that is being persisted has its pending future. -/
theorem Custody.busy_of_upserting
    {replayed : Option ℕ}
    {request : DurableRequest}
    {future : ℕ}
    (custody : Custody env state)
    (current : state.tasks id = some (.caller replayed (.upserting request future))) :
    state.dedup.pendingFuture? request.key ≠ none := by
  have registered := custody.registered
    (show state.itemAt (.agent id) = some ⟨request, 0, future⟩ by
      simp [itemAt, current, Task.item?])
  rw [Option.ne_none_iff_exists']
  exact ⟨future, (state.dedup.pendingFuture?_eq_some_iff request.key future).mpr registered⟩

/-- A row that is there after a step was there before, or its key has its pending
future. -/
theorem Custody.has_or_busy
    {key : Key}
    (custody : Custody env state)
    (moved : HardenedClient.step env label state = some next)
    (row : next.tables.inflight.Has key) :
    state.tables.inflight.Has key ∨ state.dedup.pendingFuture? key ≠ none := by
  have commit := rowCommit moved
  generalize next.tables = tables at commit row
  cases commit with
  | same inflight => exact Or.inl (inflight ▸ row)
  | incremented => exact Or.inl (by simpa using row)
  | deleted =>
      rw [Tables.has_deleteInflight] at row
      exact Or.inl row.1
  | upserted current =>
      rw [Tables.has_upsertInflight] at row
      rcases row with rfl | row
      · exact Or.inr (custody.busy_of_upserting current)
      · exact Or.inl row

/-- The recovery loop moves on when the key of its row has a pending future. -/
theorem Claimed.passed_step
    (claimed : Claimed env state)
    (served : Served state label)
    (moved : HardenedClient.step env label state = some next) :
    ∀ id point rows, next.tasks id = some (.starter point) → point.left? = some rows →
      ∀ key, next.tables.inflight.Has key →
        next.dedup.pendingFuture? key ≠ none ∨ ∃ row ∈ rows, row.idempotencyKey = key := by
  intro id point rows current left key row
  have stepped := step_stepped moved
  have alive : label ≠ .crash := by
    rintro rfl
    rw [stepped.boot_of_crash] at current
    cases current
  have busy := claimed.busy_kept served.uncancelled alive moved row
  rcases claimed.has_or_busy moved row with before | wasBusy
  swap
  · exact Or.inl (busy wasBusy)
  rcases stepped.starter_cases claimed.tidy current with
    ⟨there, _⟩ | ⟨_, fresh⟩ | ⟨choice, earlier, rfl, there, -⟩ | ⟨_, rfl⟩
  · exact (claimed.passed id point rows there left key before).imp_left busy
  · rcases fresh with rfl | rfl <;> cases left
  swap
  · cases left
  have passed := claimed.passed id earlier
  simp only [HardenedClient.step, stepTask, there] at moved
  cases earlier <;> cases choice <;>
    simp only [stepStarter, failStart, reduceCtorEq] at moved
  case recovering.proceed waiting =>
    have known := passed waiting there rfl key before
    cases waiting with
    | nil =>
        rw [← Option.some.inj moved, online_tasks_self] at current
        cases current
        cases left
    | cons head rest =>
        have turned : next.dedup.pendingFuture? head.idempotencyKey ≠ none := by
          have called := state.dedup.pendingFuture?_getOrCreate_ne_none head.idempotencyKey
          rw [← Option.some.inj moved]
          unfold recoverRow
          split
          all_goals
            next found =>
              rw [found] at called
              exact called
        have same : rows = rest := by
          rw [← Option.some.inj moved] at current
          unfold recoverRow at current
          split at current
          all_goals
            simp only [setTask_tasks_self, Option.some.injEq, Task.starter.injEq] at current
            subst current
            exact (Option.some.inj left).symm
        subst same
        rcases known with wasBusy | ⟨listed, present, rfl⟩
        · exact Or.inl (busy wasBusy)
        · rcases List.mem_cons.mp present with rfl | later
          · exact Or.inl turned
          · exact Or.inr ⟨listed, later, rfl⟩
  case reenqueueing.proceed item waiting =>
    split_ifs at moved
    rw [← Option.some.inj moved] at current
    simp only [setTask_tasks_self, Option.some.injEq, Task.starter.injEq] at current
    subst current
    cases left
    exact (passed _ there rfl key before).imp_left busy
  case listing.proceed =>
    split_ifs at moved
    · rw [← Option.some.inj moved] at current
      simp only [setTask_tasks_self, Option.some.injEq, Task.starter.injEq] at current
      subst current
      cases left
      obtain ⟨listed, present, rfl⟩ := before
      exact Or.inr ⟨listed, state.tables.listInflight_perm.mem_iff.mpr present, rfl⟩
    · rw [← Option.some.inj moved] at current
      simp only [setTask_tasks_self, Option.some.injEq, Task.starter.injEq] at current
      subst current
      cases left
  all_goals
    rw [← Option.some.inj moved] at current
    simp only [setTask_tasks_self, Option.some.injEq, Task.starter.injEq] at current
    subst current
    cases left

/-- `start()` returns when the recovery loop has passed every row. -/
theorem started_cases
    (tidy : state.Tidy)
    (moved : HardenedClient.step env label state = some next)
    (started : next.Started) :
    state.Started ∨ ∃ id, state.tasks id = some (.starter (.recovering [])) := by
  obtain ⟨id, current⟩ := started
  rcases (step_stepped moved).starter_cases tidy current with
    ⟨there, _⟩ | ⟨_, fresh⟩ | ⟨choice, before, rfl, there, -⟩ | ⟨_, failed⟩
  · exact Or.inl ⟨id, there⟩
  · rcases fresh with fresh | fresh <;> cases fresh
  swap
  · cases failed
  simp only [HardenedClient.step, stepTask, there] at moved
  cases before <;> cases choice <;>
    simp only [stepStarter, failStart, reduceCtorEq] at moved
  case recovering.proceed rows =>
    cases rows with
    | nil => exact Or.inr ⟨id, there⟩
    | cons row rows =>
        rw [← Option.some.inj moved] at current
        unfold recoverRow at current
        split at current <;> simp at current
  all_goals
    try split_ifs at moved
    all_goals
      rw [← Option.some.inj moved] at current
      simp at current

theorem Claimed.started_step
    (claimed : Claimed env state)
    (served : Served state label)
    (moved : HardenedClient.step env label state = some next) :
    next.Started → ∀ key, next.tables.inflight.Has key →
      next.dedup.pendingFuture? key ≠ none := by
  intro started key row
  have alive : label ≠ .crash := by
    rintro rfl
    obtain ⟨id, current⟩ := started
    rw [(step_stepped moved).boot_of_crash] at current
    cases current
  apply claimed.busy_kept served.uncancelled alive moved row
  rcases claimed.has_or_busy moved row with before | busy
  · rcases started_cases claimed.tidy moved started with wasStarted | ⟨id, passed⟩
    · exact claimed.started wasStarted key before
    · rcases claimed.passed id _ [] passed rfl key before with busy | ⟨_, none, _⟩
      · exact busy
      · cases none
  · exact busy

/-- A request reaches its upsert under a key that was free, and nobody else
persists the key before. -/
theorem Claimed.fresh_step
    (claimed : Claimed env state)
    (served : Served state label)
    (moved : HardenedClient.step env label state = some next) :
    ∀ id replayed request future,
      next.tasks id = some (.caller replayed (.upserting request future)) →
        ¬ next.tables.inflight.Has request.key := by
  intro id replayed request future current row
  have stepped := step_stepped moved
  rcases stepped.upserting_cases claimed.tidy current with ⟨there, notActor⟩ | enters
  · rcases stepped.commits.has_cases row with before | persisted
    · exact claimed.fresh id replayed request future there before
    · rcases step_records moved with ⟨quiet, _⟩ | ⟨event, recorded, records⟩
      · exact List.ne_cons_self (quiet.symm.trans persisted)
      · generalize isKey : request.key = key at persisted
        obtain rfl := (List.cons.inj (recorded.symm.trans persisted)).1
        cases records with
        | upserted isStep persisting =>
            have found : state.itemAt (.agent id) = some ⟨request, 0, future⟩ := by
              simp [itemAt, there, Task.item?]
            have same := Place.agent.inj (claimed.place_of_upserting persisting found isKey)
            apply notActor
            rw [isStep, same]
            rfl
  · obtain ⟨submitted, submits, _⟩ := enters.submits request future rfl
    have free := enters.free request future rfl
    rcases claimed.has_or_busy moved row with before | busy
    · exact claimed.started (served.afterStart _ submits) _ before free
    · exact busy free

theorem Claimed.step
    (claimed : Claimed env state)
    (served : Served state label)
    (recovers : RecoversOwnKey state label)
    (moved : HardenedClient.step env label state = some next) :
    Claimed env next where
  toCustody := claimed.toCustody.step served.uncancelled recovers moved
  started := claimed.started_step served moved
  passed := claimed.passed_step served moved
  fresh := claimed.fresh_step served moved

/-- A check for a `start()` call that has returned. -/
def hasStarted (state : State) : Bool :=
  (List.range state.spawned).any fun id =>
    match state.tasks id with
    | some (.starter .started) => true
    | _ => false

theorem started_of_hasStarted
    (passes : state.hasStarted = true) :
    state.Started := by
  obtain ⟨id, _, found⟩ := List.any_eq_true.mp passes
  split at found
  · next current => exact ⟨id, current⟩
  · cases found

end State

/-- A check for regular submissions after `start()` on replayed runs. -/
def served (state : State) : Label → Bool
  | .cancel _ | .step _ (.resubmit _ _) => false
  | .request request => request.isJson && state.hasStarted
  | _ => true

theorem served_sound
    (state : State)
    (label : Label)
    (passes : served state label = true) :
    Served state label ∧ JsonRequest label := by
  refine ⟨⟨?_, ?_⟩, ?_⟩
  · rintro id replayed point rfl
    cases passes
  · intro request submits
    unfold State.submitted? at submits
    split at submits
    · simp only [served, Bool.and_eq_true] at passes
      exact State.started_of_hasStarted passes.2
    · cases passes
    · cases submits
  · rintro request rfl
    simp only [served, Bool.and_eq_true] at passes
    exact passes.1

end HardenedClient
