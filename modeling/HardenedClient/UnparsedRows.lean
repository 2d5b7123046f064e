import HardenedClient.Client.Backing
import HardenedClient.Client.Recovery
import Mathlib.Data.Finset.Card
import Mathlib.Data.Finset.Range

/-!
# A client over rows it does not execute

`start()` re-enqueues every row it finds in flight. A client whose first rows, as
many as it has workers, have URLs that are not parsed executes none of them: each
costs it a worker. What else it executes, and which rows it changes, is then up to
the calls that are made on it; here, the replay of some dead letters.
-/

namespace HardenedClient

open Foundation

/-! ## The frame of a replay -/

/-- A request that the replay of a named dead letter submits. -/
def Replays (target : DeadLetterRow → Prop) (request : Request) : Prop :=
  ∃ row requestId createdAt, target row ∧
    request = (State.replayRequest row requestId createdAt).accepted

/-- A request that the replay of a named dead letter has submitted, with its key. -/
def Resubmits (env : Env) (target : DeadLetterRow → Prop) (durable : DurableRequest) : Prop :=
  Replays target durable.request ∧
    durable.request.idempotencyKey? env.python = some durable.key

/-- No request is executed but those that replay a named dead letter, and of both
tables no row is changed but those of such requests and the named dead letters
themselves. -/
structure Touches (env : Env) (tables : Tables) (target : DeadLetterRow → Prop)
    (state : State) : Prop where
  executes : ∀ id item host probe,
    state.tasks id = some (.worker (.handling item (.executing host probe))) →
      Replays target item.request.request
  inflight : ∀ row : InflightRow,
    (∀ request, Replays target request → request.idempotencyKey? env.python ≠ some row.idempotencyKey) →
      (row ∈ state.tables.inflight.rows ↔ row ∈ tables.inflight.rows)
  deadLetters : ∀ row ∈ tables.deadLetters, ¬ target row → row ∈ state.tables.deadLetters
  added : ∀ row ∈ state.tables.deadLetters, row ∈ tables.deadLetters ∨
    ∃ request, Replays target request ∧ request.idempotencyKey? env.python = some row.idempotencyKey
  same : (∀ row, ¬ target row) → state.tables = tables

variable {env : Env} {tables : Tables} {target : DeadLetterRow → Prop}
  {state next : State} {label : Label} {id : ℕ}

/-! ## While `start()` runs -/

/-- How far the recovery loop is: the requests on the queue are those of the first
rows, and the keys of the other rows are not registered. -/
def Recovered (tables : Tables) (state : State) : StartPoint → Prop
  | .opening | .preparing | .listing =>
      state.queue.items = [] ∧ ∀ key, state.dedup.inflight key = none
  | .recovering rows => ∃ done, tables.listInflight = done ++ rows ∧
      state.queue.items.map QueueItem.request = done.map (fun row => row.payload.request) ∧
      ∀ row ∈ rows, state.dedup.inflight row.idempotencyKey = none
  | .reenqueueing item rows => ∃ done row, tables.listInflight = done ++ row :: rows ∧
      state.queue.items.map QueueItem.request = done.map (fun row => row.payload.request) ∧
      item.request = row.payload.request ∧
      ∀ row ∈ rows, state.dedup.inflight row.idempotencyKey = none
  | .started | .failed _ => True

/-- The client's only coroutine is the `start()` call. -/
structure Booting (env : Env) (tables : Tables) (state : State) (point : StartPoint) : Prop where
  only : ∀ id task, state.tasks id = some task → id = 0
  current : state.tasks 0 = some (.starter point)
  spawned : state.spawned = 1
  bounded : state.queue.items.length ≤ env.config.queue.maxSize
  untouched : state.tables = tables
  recovered : Recovered tables state point
  unfinished : point ≠ .started

/-! ## While the workers serve -/

/-- What the coroutine `id` of a serving client may be. Workers handle requests of
the replay, or stand before a URL that is not parsed. -/
def Task.Serves (env : Env) (target : DeadLetterRow → Prop) (id : ℕ) : Task → Prop
  | .caller _ (.removing row) | .caller _ (.removed row) => target row
  | .caller _ (.upserting request _) | .caller _ (.upserted request _)
  | .caller _ (.enqueueing request _) => Resubmits env target request
  | .worker point => (1 ≤ id ∧ id ≤ env.config.queue.workers) ∧
      ∀ item await, point = .handling item await → Resubmits env target item.request ∨
        await = .gating ∧ env.hostOf? item.request.request.url = none
  | .reschedule (.sleeping item _) | .reschedule (.enqueueing item) =>
      Resubmits env target item.request
  | .starter point => point = .started
  | _ => True

/-- A worker has ended or is about to end on a URL that is not parsed. -/
def State.isSpent (env : Env) (state : State) (id : ℕ) : Bool :=
  match state.tasks id with
  | some (.worker (.ended _)) | some (.worker .cancelled) => true
  | some (.worker (.handling item .gating)) =>
      (env.hostOf? item.request.request.url).isNone
  | _ => false

/-- The number of workers that take no more items. -/
def State.spent (env : Env) (state : State) : ℕ :=
  ((Finset.range env.config.queue.workers).filter fun index =>
    state.isSpent env (index + 1) = true).card

/-- The queue of a serving client: what is left of the rows, then requests of the
replay. Each row that was taken has cost a worker. -/
def Queues (env : Env) (tables : Tables) (target : DeadLetterRow → Prop) (state : State) : Prop :=
  ∃ taken others, state.queue.items.map QueueItem.request =
      (tables.listInflight.map fun row => row.payload.request).drop taken ++ others ∧
    (∀ request ∈ others, Resubmits env target request) ∧ taken ≤ state.spent env

/-- The workers of a client have come online over rows that they do not execute. -/
structure Attends (env : Env) (tables : Tables) (target : DeadLetterRow → Prop)
    (state : State) : Prop extends Touches env tables target state where
  tidy : state.Tidy
  tasks : ∀ id task, state.tasks id = some task → task.Serves env target id
  queues : Queues env tables target state

/-! ## The coroutines of a serving client -/

theorem serves_setTask
    {base : State}
    {task : Task}
    (serves : ∀ other found, base.tasks other = some found → found.Serves env target other)
    (own : task.Serves env target id) :
    ∀ other found, (base.setTask id task).tasks other = some found →
      found.Serves env target other := by
  intro other found current
  by_cases isActor : other = id
  · subst isActor
    rw [State.setTask_tasks_self] at current
    rw [← Option.some.inj current]
    exact own
  · rw [State.setTask_tasks_of_ne _ _ isActor] at current
    exact serves other found current

/-- `request()` for the replay of a named dead letter. -/
theorem serves_callRequest
    {replayed : Option ℕ}
    {row : DeadLetterRow}
    {requestId : String}
    {createdAt : ℚ}
    (serves : ∀ other found, state.tasks other = some found → found.Serves env target other)
    (named : target row) :
    ∀ other found, (state.callRequest env id replayed
        (State.replayRequest row requestId createdAt)).tasks other = some found →
      found.Serves env target other := by
  unfold State.callRequest State.submit
  split
  · split
    · exact serves_setTask serves trivial
    · split
      · exact serves_setTask serves trivial
      · split
        · exact serves_setTask serves trivial
        · next durable packed =>
            apply serves_setTask serves
            have same := Request.request_of_durable? packed
            refine ⟨⟨row, requestId, createdAt, named, same⟩, ?_⟩
            rw [same]
            exact Request.idempotencyKey?_of_durable? packed
  · exact serves_setTask serves trivial

theorem serves_stepCaller
    {replayed : Option ℕ}
    {point : CallerPoint}
    {choice : Choice}
    (serves : ∀ other found, state.tasks other = some found → found.Serves env target other)
    (current : state.tasks id = some (.caller replayed point))
    (moved : state.stepCaller env id replayed point choice = some next) :
    ∀ other found, next.tasks other = some found → found.Serves env target other := by
  have own := serves id _ current
  cases point <;> cases choice <;> simp only [State.stepCaller, reduceCtorEq] at moved
  case removing.proceed row =>
    split_ifs at moved <;> rw [← Option.some.inj moved]
    · exact serves_setTask serves own
    · exact serves_setTask serves trivial
  case removed.resubmit row requestId createdAt =>
    rw [← Option.some.inj moved]
    exact serves_callRequest serves own
  case upserting.proceed request future =>
    split_ifs at moved <;> rw [← Option.some.inj moved]
    · exact serves_setTask serves own
    · exact serves_setTask serves trivial
  case upserted.proceed request future =>
    rw [← Option.some.inj moved]
    exact serves_setTask serves own
  case removing.storageError | upserting.storageError =>
    rw [← Option.some.inj moved]
    exact serves_setTask serves trivial
  case enqueueing.proceed | awaiting.proceed =>
    split_ifs at moved
    rw [← Option.some.inj moved]
    exact serves_setTask serves trivial

theorem serves_handled
    {item : QueueItem}
    {point : HandlePoint}
    (serves : ∀ other found, state.tasks other = some found → found.Serves env target other)
    (inPool : 1 ≤ id ∧ id ≤ env.config.queue.workers)
    (replays : Resubmits env target item.request)
    (handled : Handled state id item point next) :
    ∀ other found, next.tasks other = some found → found.Serves env target other := by
  have goesOn : ∀ after, (Task.worker (.handling item after)).Serves env target id := by
    refine fun after => ⟨inPool, ?_⟩
    rintro _ _ ⟨⟩
    exact Or.inl replays
  have returns : (Task.worker .idle).Serves env target id := ⟨inPool, by simp⟩
  cases handled with
  | advanced | succeeded | failed | deleted | incremented | pushed | retired =>
      exact serves_setTask serves (goesOn _)
  | resolved | rejected =>
      rw [State.settleKey_eq]
      exact serves_setTask serves returns
  | rescheduled =>
      apply serves_setTask _ returns
      intro other found current
      by_cases new : other = state.spawned
      · subst new
        rw [State.spawn_tasks_self] at current
        rw [← Option.some.inj current]
        exact replays
      · rw [State.spawn_tasks_of_ne _ _ new] at current
        exact serves other found current

/-- A worker that stands before a URL that is not parsed ends on it. -/
theorem stepHandle_of_unparsed
    {item : QueueItem}
    {choice : Choice}
    (unparsed : env.hostOf? item.request.request.url = none)
    (moved : state.stepHandle env id item .gating choice = some next) :
    next = state.escape id badUrl := by
  cases choice <;> simp only [State.stepHandle, reduceCtorEq] at moved
  split_ifs at moved
  rw [State.gate, unparsed] at moved
  exact (Option.some.inj moved).symm

theorem serves_stepWorker
    {point : WorkerPoint}
    {choice : Choice}
    (serves : ∀ other found, state.tasks other = some found → found.Serves env target other)
    (head : ∀ item rest, state.tasks id = some (.worker .idle) →
      state.queue.items = item :: rest → Resubmits env target item.request ∨
        env.hostOf? item.request.request.url = none)
    (current : state.tasks id = some (.worker point))
    (moved : step env (.step id choice) state = some next) :
    ∀ other found, next.tasks other = some found → found.Serves env target other := by
  have own := serves id _ current
  cases step_stepped moved with
  | taken idle waiting =>
      apply serves_setTask serves
      refine ⟨own.1, ?_⟩
      rintro _ _ ⟨⟩
      exact (head _ _ idle waiting).imp_right fun unparsed => ⟨rfl, unparsed⟩
  | handled handling inside handled =>
      cases current.symm.trans handling
      rcases own.2 _ _ rfl with replays | ⟨rfl, unparsed⟩
      · exact serves_handled serves own.1 replays handled
      · simp only [step, State.stepTask, current, State.stepWorker] at moved
        rw [stepHandle_of_unparsed unparsed moved]
        exact serves_setTask serves ⟨own.1, by simp⟩
  | escaped handling escapes escaped =>
      cases current.symm.trans handling
      obtain ⟨_⟩ := escaped
      exact serves_setTask serves ⟨own.1, by simp⟩
  | caller other | upserted other | removed other | reschedule other | starter other
    | online other | drainer other | stopper other => cases current.symm.trans other
  | outside isOutside => cases isOutside

theorem serves_step
    (serves : ∀ other found, state.tasks other = some found → found.Serves env target other)
    (head : ∀ id item rest, state.tasks id = some (.worker .idle) →
      state.queue.items = item :: rest → Resubmits env target item.request ∨
        env.hostOf? item.request.request.url = none)
    (internal : label.isInternal = true)
    (moved : step env label state = some next) :
    ∀ other found, next.tasks other = some found → found.Serves env target other := by
  cases label <;> cases internal
  case tick seconds =>
    simp only [step] at moved
    split_ifs at moved
    rw [← Option.some.inj moved]
    exact serves
  case cancelWorker id =>
    simp only [step, State.cancelWorker] at moved
    split_ifs at moved
    split at moved
    · next current =>
      rw [← Option.some.inj moved]
      exact serves_setTask serves ⟨(serves id _ current).1, by simp⟩
    · next current =>
      rw [← Option.some.inj moved]
      exact serves_setTask serves ⟨(serves id _ current).1, by simp⟩
    · cases moved
  case step id choice =>
    have stepped := moved
    simp only [step, State.stepTask] at stepped
    split at stepped
    · next current => exact serves_stepCaller serves current stepped
    · next current => exact serves_stepWorker serves (head id) current moved
    · next point current =>
      have own := serves id _ current
      cases point <;> cases choice <;> simp only [State.stepReschedule, reduceCtorEq] at stepped
      case sleeping.proceed =>
        split_ifs at stepped <;> rw [← Option.some.inj stepped]
        · exact serves_setTask serves trivial
        · exact serves_setTask serves own
      case enqueueing.proceed =>
        split_ifs at stepped
        rw [← Option.some.inj stepped]
        exact serves_setTask serves trivial
    · next current =>
      obtain rfl := serves id _ current
      cases stepped
    · obtain ⟨_, after, _, rfl⟩ := State.stepDrainer_eq_some_iff.mp stepped
      exact serves_setTask serves trivial
    · next point current =>
      cases point <;> cases choice <;> simp only [State.stepStopper, reduceCtorEq] at stepped
      case draining.proceed =>
        obtain ⟨after, _, rfl⟩ := Option.map_eq_some_iff.mp stepped
        cases after <;> exact serves_setTask serves trivial
      case cancelling.proceed =>
        split_ifs at stepped
        rw [← Option.some.inj stepped]
        exact serves_setTask serves trivial
      all_goals
        rw [← Option.some.inj stepped]
        exact serves_setTask serves trivial
    · cases stepped

/-! ## The tables of a serving client -/

/-- The rows of other keys, and the rows of other ids, are what a replay leaves
alone; `target` picks dead letters by their id. -/
def ById (tables : Tables) (target : DeadLetterRow → Prop) : Prop :=
  ∀ row ∈ tables.deadLetters, ∀ other, target other → row.id = other.id → target row

theorem replays_of_handling
    {item : QueueItem}
    {point : HandlePoint}
    (serves : ∀ other found, state.tasks other = some found → found.Serves env target other)
    (current : state.tasks id = some (.worker (.handling item point)))
    (begun : point ≠ .gating) :
    Resubmits env target item.request := by
  rcases (serves id _ current).2 item point rfl with replays | ⟨waits, _⟩
  · exact replays
  · exact absurd waits begun

/-- A step of a serving client changes only rows of requests that replay a named
dead letter. -/
theorem inflight_step
    {row : InflightRow}
    (serves : ∀ other found, state.tasks other = some found → found.Serves env target other)
    (moved : step env label state = some next)
    (foreign : ∀ request, Replays target request →
      request.idempotencyKey? env.python ≠ some row.idempotencyKey) :
    row ∈ next.tables.inflight.rows ↔ row ∈ state.tables.inflight.rows := by
  have apart : ∀ request : DurableRequest, Resubmits env target request →
      row.idempotencyKey ≠ request.key := by
    intro request replays same
    apply foreign _ replays.1
    rw [replays.2, same]
  have commit := State.rowCommit moved
  generalize next.tables = committed at commit
  cases commit with
  | same inflight => rw [inflight]
  | upserted current =>
      have different := apart _ (serves _ _ current)
      constructor
      · intro present
        rcases KeyedTable.mem_upsert_rows present with old | ⟨rfl, _⟩ | ⟨old, _, sameKey, rfl⟩
        · exact old
        · exact absurd rfl different
        · exact absurd sameKey different
      · intro present
        exact Tables.mem_upsertInflight_of_ne _ present different
  | incremented current =>
      have different := apart _ (replays_of_handling serves current (by simp))
      constructor
      · intro present
        rw [Tables.incrementRetry, KeyedTable.mem_modify_rows] at present
        rcases present with ⟨old, _⟩ | ⟨old, _, sameKey, rfl⟩
        · exact old
        · exact absurd sameKey different
      · intro present
        exact Tables.mem_incrementRetry_of_ne _ _ present different
  | @deleted id item point current deletes =>
      have begun : point ≠ .gating := by
        rintro rfl
        cases deletes
      have different := apart _ (replays_of_handling serves current begun)
      rw [Tables.deleteInflight, KeyedTable.mem_erase_rows]
      exact and_iff_left different

theorem deadLetters_step
    {row : DeadLetterRow}
    (byId : ById tables target)
    (serves : ∀ other found, state.tasks other = some found → found.Serves env target other)
    (internal : label.isInternal = true)
    (moved : step env label state = some next)
    (listed : row ∈ tables.deadLetters)
    (foreign : ¬ target row)
    (present : row ∈ state.tables.deadLetters) :
    row ∈ next.tables.deadLetters := by
  rcases (step_stepped moved).deadLetters with kept | rfl | ⟨id, replayed, dead, _, current, _, removed⟩
  · exact kept row present
  · cases internal
  · rw [removed, Tables.removeDeadLetter, List.mem_filter, decide_eq_true_eq]
    refine ⟨present, fun same => foreign ?_⟩
    exact byId row listed dead (serves id _ current) same

theorem added_step
    {row : DeadLetterRow}
    (serves : ∀ other found, state.tasks other = some found → found.Serves env target other)
    (moved : step env label state = some next)
    (present : row ∈ next.tables.deadLetters) :
    row ∈ state.tables.deadLetters ∨
      ∃ request, Replays target request ∧
        request.idempotencyKey? env.python = some row.idempotencyKey := by
  have commits := (step_stepped moved).commits
  generalize next.tables = committed at commits present
  generalize next.history = history at commits
  cases commits with
  | none | upserted | incremented | deleted => exact Or.inl present
  | @pushed id item exc current =>
      rcases List.mem_append.mp present with old | new
      · exact Or.inl old
      · obtain rfl := List.mem_singleton.mp new
        have replays := replays_of_handling serves current (by simp)
        exact Or.inr ⟨_, replays.1, replays.2⟩
  | removed => exact Or.inl (List.mem_filter.mp present).1
  | purged => cases present

theorem same_step
    (serves : ∀ other found, state.tasks other = some found → found.Serves env target other)
    (internal : label.isInternal = true)
    (moved : step env label state = some next)
    (nothing : ∀ row, ¬ target row) :
    next.tables = state.tables := by
  have noReplays : ∀ request, ¬ Resubmits env target request :=
    fun request ⟨⟨row, _, _, named, _⟩, _⟩ => nothing row named
  cases step_stepped moved with
  | purged | crash => cases internal
  | upserted current => exact absurd (serves _ _ current) (noReplays _)
  | removed current => exact absurd (serves _ _ current) (nothing _)
  | @handled id choice item point next current inside handled =>
      have waits : point = .gating := by
        by_contra begun
        exact noReplays _ (replays_of_handling serves current begun)
      subst waits
      cases handled
      rfl
  | escaped _ _ escaped =>
      obtain ⟨_⟩ := escaped
      rfl
  | _ => rfl

theorem Touches.step
    (touches : Touches env tables target state)
    (byId : ById tables target)
    (serves : ∀ other found, state.tasks other = some found → found.Serves env target other)
    (servesAfter : ∀ other found, next.tasks other = some found →
      found.Serves env target other)
    (internal : label.isInternal = true)
    (moved : HardenedClient.step env label state = some next) :
    Touches env tables target next where
  executes := fun id item host probe current =>
    (replays_of_handling servesAfter current (by simp)).1
  inflight := fun row foreign =>
    (inflight_step serves moved foreign).trans (touches.inflight row foreign)
  deadLetters := fun row listed foreign =>
    deadLetters_step byId serves internal moved listed foreign
      (touches.deadLetters row listed foreign)
  added := by
    intro row present
    rcases added_step serves moved present with old | new
    · exact touches.added row old
    · exact Or.inr new
  same := fun nothing => (same_step serves internal moved nothing).trans (touches.same nothing)

/-! ## The queue of a serving client -/

/-- A spent worker stays spent. -/
theorem isSpent_step
    (tidy : state.Tidy)
    (internal : label.isInternal = true)
    (moved : step env label state = some next)
    (spent : state.isSpent env id = true) :
    next.isSpent env id = true := by
  have alive : label ≠ .crash := by
    rintro rfl
    cases internal
  have isWorker : ∃ point, state.tasks id = some (.worker point) := by
    unfold State.isSpent at spent
    split at spent
    · next current => exact ⟨_, current⟩
    · next current => exact ⟨_, current⟩
    · next current => exact ⟨_, current⟩
    · cases spent
  obtain ⟨point, current⟩ := isWorker
  by_cases isActor : id = label.actor state
  · cases label with
    | tick seconds =>
        obtain rfl : id = state.spawned := isActor
        rw [tidy _ (Nat.le_refl _)] at current
        cases current
    | cancelWorker other =>
        obtain rfl : id = other := isActor
        simp only [step, State.cancelWorker, current] at moved
        split_ifs at moved
        split at moved <;> cases moved <;> simp [State.isSpent]
    | step other choice =>
        obtain rfl : id = other := isActor
        simp only [step, State.stepTask, current] at moved
        cases point with
        | ended | cancelled => cases choice <;> cases moved
        | idle => simp [State.isSpent, current] at spent
        | handling item await =>
            cases await <;> simp [State.isSpent, current] at spent
            rw [stepHandle_of_unparsed spent moved]
            simp [State.isSpent]
    | _ => cases internal
  · have kept := ((step_stepped moved).frame tidy alive).others id (tidy.lt_of_task current) isActor
    rw [State.isSpent, kept]
    exact spent

theorem spent_le_step
    (tidy : state.Tidy)
    (internal : label.isInternal = true)
    (moved : step env label state = some next) :
    state.spent env ≤ next.spent env := by
  apply Finset.card_le_card
  intro index member
  rw [Finset.mem_filter] at member ⊢
  exact ⟨member.1, isSpent_step tidy internal moved member.2⟩

/-- A worker that takes an item whose URL is not parsed is one more that is spent. -/
theorem spent_lt_step
    (tidy : state.Tidy)
    (internal : label.isInternal = true)
    (moved : step env label state = some next)
    (inPool : 1 ≤ id ∧ id ≤ env.config.queue.workers)
    (free : state.isSpent env id = false)
    (spent : next.isSpent env id = true) :
    state.spent env < next.spent env := by
  apply Finset.card_lt_card
  rw [Finset.ssubset_iff_of_subset]
  · refine ⟨id - 1, ?_, ?_⟩
    · rw [Finset.mem_filter, Finset.mem_range, Nat.sub_add_cancel inPool.1]
      exact ⟨by omega, spent⟩
    · rw [Finset.mem_filter, Nat.sub_add_cancel inPool.1, free]
      simp
  · intro index member
    rw [Finset.mem_filter] at member ⊢
    exact ⟨member.1, isSpent_step tidy internal moved member.2⟩

/-- While a worker is not spent, fewer are spent than there are. -/
theorem spent_lt_workers
    (inPool : 1 ≤ id ∧ id ≤ env.config.queue.workers)
    (free : state.isSpent env id = false) :
    state.spent env < env.config.queue.workers := by
  have fewer := Finset.card_lt_card (s := (Finset.range env.config.queue.workers).filter
    fun index => state.isSpent env (index + 1) = true) (t := Finset.range env.config.queue.workers) ?_
  · rwa [Finset.card_range] at fewer
  · rw [Finset.ssubset_iff_of_subset (Finset.filter_subset _ _)]
    refine ⟨id - 1, ?_, ?_⟩
    · rw [Finset.mem_range]
      omega
    · rw [Finset.mem_filter, Nat.sub_add_cancel inPool.1, free]
      simp

/-- The first item of the queue is one of the first rows, or replays a dead
letter. -/
theorem Queues.head
    {item : QueueItem}
    {rest : List QueueItem}
    (queues : Queues env tables target state)
    (first : ∀ row ∈ tables.listInflight.take env.config.queue.workers,
      env.hostOf? row.payload.request.request.url = none)
    (inPool : 1 ≤ id ∧ id ≤ env.config.queue.workers)
    (free : state.isSpent env id = false)
    (waiting : state.queue.items = item :: rest) :
    Resubmits env target item.request ∨ env.hostOf? item.request.request.url = none := by
  obtain ⟨taken, others, items, replays, cost⟩ := queues
  rw [waiting, List.map_cons] at items
  by_cases left : taken < tables.listInflight.length
  · right
    rw [List.drop_eq_getElem_cons (by simpa using left), List.cons_append, List.cons.injEq,
      List.getElem_map] at items
    have fewer := spent_lt_workers inPool free
    rw [items.1]
    apply first
    rw [List.mem_take_iff_getElem]
    exact ⟨taken, by omega, rfl⟩
  · left
    rw [List.drop_eq_nil_of_le (by simpa using left), List.nil_append] at items
    apply replays
    rw [← items]
    exact List.mem_cons_self

/-- The item a step puts on the queue replays a dead letter. -/
theorem replays_of_enqueues?
    {item : QueueItem}
    (serves : ∀ other found, state.tasks other = some found → found.Serves env target other)
    (puts : state.enqueues? label = some item) :
    Resubmits env target item.request := by
  unfold State.enqueues? at puts
  split at puts
  · split at puts
    · next current =>
      rw [← Option.some.inj puts]
      exact serves _ _ current
    · next current =>
      rw [← Option.some.inj puts]
      exact serves _ _ current
    · next current => cases serves _ _ current
    · cases puts
  · cases puts

/-- A step leaves the queue as it is, puts an item there, or is that of a worker
that takes the first item. -/
theorem queue_cases
    (internal : label.isInternal = true)
    (moved : step env label state = some next) :
    next.queue.items = state.queue.items ∨
      (∃ item, state.enqueues? label = some item ∧
        next.queue.items = state.queue.items ++ [item]) ∨
      ∃ id item, state.tasks id = some (.worker .idle) ∧
        state.queue.items = item :: next.queue.items ∧
        next.tasks id = some (.worker (.handling item .gating)) := by
  cases label with
  | tick seconds =>
      simp only [step] at moved
      split_ifs at moved
      rw [← Option.some.inj moved]
      exact Or.inl rfl
  | cancelWorker id =>
      simp only [step, State.cancelWorker] at moved
      split_ifs at moved
      split at moved <;> cases moved <;> exact Or.inl rfl
  | step id choice =>
      have stepped := moved
      simp only [step] at stepped
      cases current : state.tasks id with
      | none => simp [State.stepTask, current] at stepped
      | some task =>
          by_cases isWorker : ∃ point, task = .worker point
          · obtain ⟨point, rfl⟩ := isWorker
            cases step_stepped moved with
            | taken idle waiting =>
                exact Or.inr (Or.inr ⟨id, _, idle, waiting, State.moveTo_tasks_self _ _ _ _⟩)
            | handled _ _ handled =>
                left
                cases handled with
                | resolved | rejected =>
                    rw [State.settleKey_eq]
                    rfl
                | _ => rfl
            | escaped _ _ escaped =>
                obtain ⟨_⟩ := escaped
                exact Or.inl rfl
            | caller other | upserted other | removed other | reschedule other
              | starter other | online other | drainer other | stopper other =>
                cases current.symm.trans other
            | outside isOutside => cases isOutside
          · rcases State.stepTask_queue current (fun point same => isWorker ⟨point, same⟩) stepped
              with same | ⟨item, puts, same⟩
            · exact Or.inl (congrArg RequestQueue.items same)
            · refine Or.inr (Or.inl ⟨item, puts, ?_⟩)
              rw [same, RequestQueue.put_items]
  | _ => cases internal

theorem Queues.step
    (queues : Queues env tables target state)
    (first : ∀ row ∈ tables.listInflight.take env.config.queue.workers,
      env.hostOf? row.payload.request.request.url = none)
    (tidy : state.Tidy)
    (serves : ∀ other found, state.tasks other = some found → found.Serves env target other)
    (internal : label.isInternal = true)
    (moved : HardenedClient.step env label state = some next) :
    Queues env tables target next := by
  have grows := spent_le_step tidy internal moved
  obtain ⟨taken, others, items, replays, cost⟩ := queues
  rcases queue_cases internal moved with same | ⟨item, puts, same⟩ | ⟨id, item, idle, waiting, now⟩
  · exact ⟨taken, others, same ▸ items, replays, cost.trans grows⟩
  · refine ⟨taken, others ++ [item.request], ?_, ?_, cost.trans grows⟩
    · rw [same, List.map_append, items, List.append_assoc]
      rfl
    · intro request member
      rcases List.mem_append.mp member with old | new
      · exact replays request old
      · rw [List.mem_singleton.mp new]
        exact replays_of_enqueues? serves puts
  · rw [waiting, List.map_cons] at items
    by_cases left : taken < tables.listInflight.length
    · -- One of the rows is taken, and its URL costs the worker.
      rw [List.drop_eq_getElem_cons (by simpa using left), List.cons_append, List.cons.injEq,
        List.getElem_map] at items
      have inPool := (serves id _ idle).1
      have free : state.isSpent env id = false := by simp [State.isSpent, idle]
      have fewer := spent_lt_workers inPool free
      have unparsed : env.hostOf? item.request.request.url = none := by
        rw [items.1]
        apply first
        rw [List.mem_take_iff_getElem]
        exact ⟨taken, by omega, rfl⟩
      have spent : next.isSpent env id = true := by simp [State.isSpent, now, unparsed]
      have more := spent_lt_step tidy internal moved inPool free spent
      exact ⟨taken + 1, others, items.2, replays, by omega⟩
    · rw [List.drop_eq_nil_of_le (by simpa using left), List.nil_append] at items
      refine ⟨tables.listInflight.length, others.tail, ?_, ?_, ?_⟩
      · rw [List.drop_eq_nil_of_le (by simp), ← items, List.nil_append, List.tail_cons]
      · exact fun request member => replays request (List.mem_of_mem_tail member)
      · exact (Nat.le_of_not_lt left).trans (cost.trans grows)

theorem Attends.step
    (attends : Attends env tables target state)
    (byId : ById tables target)
    (first : ∀ row ∈ tables.listInflight.take env.config.queue.workers,
      env.hostOf? row.payload.request.request.url = none)
    (internal : label.isInternal = true)
    (moved : HardenedClient.step env label state = some next) :
    Attends env tables target next := by
  have head : ∀ id item rest, state.tasks id = some (.worker .idle) →
      state.queue.items = item :: rest → Resubmits env target item.request ∨
        env.hostOf? item.request.request.url = none := by
    intro id item rest idle waiting
    apply attends.queues.head first (attends.tasks id _ idle).1 _ waiting
    simp [State.isSpent, idle]
  have servesAfter := serves_step attends.tasks head internal moved
  exact {
    toTouches := attends.toTouches.step byId attends.tasks servesAfter internal moved
    tidy := (step_stepped moved).tidy attends.tidy
    tasks := servesAfter
    queues := attends.queues.step first attends.tidy attends.tasks internal moved }

/-! ## The end of `start()` -/

theorem touches_of_untouched
    (untouched : state.tables = tables)
    (idle : ∀ id item point, state.tasks id ≠ some (.worker (.handling item point))) :
    Touches env tables target state where
  executes := fun id item host probe current => absurd current (idle id item _)
  inflight := fun row _ => by rw [untouched]
  deadLetters := fun row listed _ => untouched ▸ listed
  added := fun row present => Or.inl (untouched ▸ present)
  same := fun _ => untouched

theorem Booting.tidy
    {point : StartPoint}
    (booting : Booting env tables state point) :
    state.Tidy := by
  intro id beyond
  by_contra present
  obtain ⟨task, current⟩ := Option.ne_none_iff_exists'.mp present
  have first := booting.only id task current
  have spawned := booting.spawned
  omega

theorem Booting.touches
    {point : StartPoint}
    (booting : Booting env tables state point) :
    Touches env tables target state := by
  apply touches_of_untouched booting.untouched
  intro id item await current
  obtain rfl := booting.only id _ current
  cases booting.current.symm.trans current

/-- The `start()` call goes on to a state in which it is still the only coroutine. -/
theorem Booting.goesOn
    {base : State}
    {point after : StartPoint}
    (booting : Booting env tables state point)
    (tasks : base.tasks = state.tasks)
    (spawned : base.spawned = state.spawned)
    (untouched : base.tables = state.tables)
    (bounded : base.queue.items.length ≤ env.config.queue.maxSize)
    (recovered : Recovered tables (base.setTask 0 (.starter after)) after)
    (unfinished : after ≠ .started) :
    Booting env tables (base.setTask 0 (.starter after)) after where
  only := by
    intro id task current
    by_contra different
    rw [State.setTask_tasks_of_ne _ _ different, tasks] at current
    exact different (booting.only id task current)
  current := State.setTask_tasks_self _ _ _
  spawned := spawned.trans booting.spawned
  bounded := bounded
  untouched := untouched.trans booting.untouched
  recovered := recovered
  unfinished := unfinished

/-- The workers come online over a queue with every row on it. -/
theorem Booting.online
    (booting : Booting env tables state (.recovering [])) :
    tables.listInflight.length ≤ env.config.queue.maxSize ∧
      Attends env tables target (state.online env 0) := by
  obtain ⟨done, listed, items, _⟩ := booting.recovered
  rw [List.append_nil] at listed
  have workers : ∀ id task, (state.online env 0).tasks id = some task →
      id = 0 ∧ task = .starter .started ∨
        (1 ≤ id ∧ id ≤ env.config.queue.workers) ∧ task = .worker .idle := by
    intro id task current
    by_cases first : id = 0
    · subst first
      rw [State.online_tasks_self] at current
      exact Or.inl ⟨rfl, (Option.some.inj current).symm⟩
    · right
      simp only [State.online, State.setTask_tasks_of_ne _ _ first, booting.spawned] at current
      split_ifs at current with new
      · exact ⟨by omega, (Option.some.inj current).symm⟩
      · exact absurd (booting.only id task current) first
  constructor
  · have lengths := congrArg List.length items
    rw [List.length_map, List.length_map, ← listed] at lengths
    rw [← lengths]
    exact booting.bounded
  · refine ⟨touches_of_untouched booting.untouched ?_, ?_, ?_, ?_⟩
    · intro id item point current
      rcases workers id _ current with ⟨_, same⟩ | ⟨_, same⟩ <;> cases same
    · exact State.Tidy.of_frame (State.frame_online env booting.tidy booting.current)
    · intro id task current
      rcases workers id _ current with ⟨_, rfl⟩ | ⟨inPool, rfl⟩
      · rfl
      · exact ⟨inPool, by simp⟩
    · refine ⟨0, [], ?_, by simp, Nat.zero_le _⟩
      rw [List.drop_zero, List.append_nil, listed]
      exact items

/-- One iteration of the recovery loop over a row whose key is not registered. -/
theorem recoverRow_of_free
    {row : InflightRow}
    {rows : List InflightRow}
    (free : state.dedup.inflight row.idempotencyKey = none) :
    ∃ dedup metrics future, state.recoverRow id row rows =
        { state with dedup := dedup, metrics := metrics }.setTask id
          (.starter (.reenqueueing ⟨row.payload.request, row.retryCount, future⟩ rows)) ∧
      ∀ key, key ≠ row.idempotencyKey → dedup.inflight key = state.dedup.inflight key := by
  rcases state.dedup.getOrCreate_cases row.idempotencyKey with
    ⟨future, registered, _⟩ | ⟨_, called⟩
  · rw [free] at registered
    cases registered
  · refine ⟨_, _, _, by rw [State.recoverRow, called], fun key different => ?_⟩
    simp [different]

theorem Booting.stepStarter
    {point : StartPoint}
    {choice : Choice}
    (booting : Booting env tables state point)
    (moved : state.stepStarter env 0 point choice = some next) :
    (∃ after, Booting env tables next after) ∨
      tables.listInflight.length ≤ env.config.queue.maxSize ∧ Attends env tables target next := by
  have recovered := booting.recovered
  have fails : ∀ exc, ∃ after, Booting env tables (state.failStart 0 exc) after := fun exc =>
    ⟨_, booting.goesOn rfl rfl rfl booting.bounded trivial (by simp)⟩
  cases point <;> cases choice <;> simp only [State.stepStarter, reduceCtorEq] at moved
  case opening.proceed | preparing.proceed =>
    rw [← Option.some.inj moved]
    exact Or.inl ⟨_, booting.goesOn rfl rfl rfl booting.bounded recovered (by simp)⟩
  case opening.storageError exc | preparing.storageError exc | listing.storageError exc =>
    rw [← Option.some.inj moved]
    exact Or.inl (fails exc)
  case listing.proceed =>
    split_ifs at moved <;> rw [← Option.some.inj moved]
    · refine Or.inl ⟨_, booting.goesOn rfl rfl rfl booting.bounded ⟨[], ?_, ?_, ?_⟩ (by simp)⟩
      · rw [booting.untouched, List.nil_append]
      · rw [show (state.setTask 0 _).queue.items = [] from recovered.1]
        rfl
      · exact fun row _ => recovered.2 row.idempotencyKey
    · exact Or.inl (fails notOpened)
  case recovering.proceed rows =>
    cases rows with
    | nil =>
        rw [← Option.some.inj moved]
        exact Or.inr booting.online
    | cons row rows =>
        obtain ⟨done, listed, items, free⟩ := recovered
        obtain ⟨dedup, metrics, future, same, kept⟩ :=
          @recoverRow_of_free state 0 row rows (free row List.mem_cons_self)
        rw [← Option.some.inj moved, same]
        refine Or.inl ⟨_, booting.goesOn rfl rfl rfl booting.bounded
          ⟨done, row, listed, items, rfl, ?_⟩ (by simp)⟩
        intro other member
        have distinct := listInflight_keys_nodup tables
        rw [listed, List.map_append, List.map_cons, List.nodup_append, List.nodup_cons] at distinct
        have different : other.idempotencyKey ≠ row.idempotencyKey := fun sameKey =>
          distinct.2.1.1 (sameKey ▸ List.mem_map_of_mem member)
        exact (kept _ different).trans (free other (List.mem_cons_of_mem _ member))
  case reenqueueing.proceed item rows =>
    obtain ⟨done, row, listed, items, isRow, free⟩ := recovered
    split_ifs at moved with room
    rw [← Option.some.inj moved]
    refine Or.inl ⟨_, booting.goesOn rfl rfl rfl ?_ ⟨done ++ [row], ?_, ?_, free⟩ (by simp)⟩
    · have below := of_decide_eq_true room
      rw [RequestQueue.put_items, List.length_append, List.length_singleton]
      omega
    · rw [listed, List.append_assoc]
      rfl
    · change (state.queue.put item).items.map _ = _
      rw [RequestQueue.put_items, List.map_append, List.map_append, items, List.map_singleton,
        isRow]
      rfl

theorem Booting.step
    {point : StartPoint}
    (booting : Booting env tables state point)
    (internal : label.isInternal = true)
    (moved : HardenedClient.step env label state = some next) :
    (∃ after, Booting env tables next after) ∨
      tables.listInflight.length ≤ env.config.queue.maxSize ∧ Attends env tables target next := by
  cases label with
  | tick seconds =>
      simp only [HardenedClient.step] at moved
      split_ifs at moved
      rw [← Option.some.inj moved]
      refine Or.inl ⟨point, booting.only, booting.current, booting.spawned, booting.bounded,
        booting.untouched, ?_, booting.unfinished⟩
      cases point <;> exact booting.recovered
  | cancelWorker id =>
      simp only [HardenedClient.step, State.cancelWorker] at moved
      split_ifs at moved
      split at moved
      · next current =>
        obtain rfl := booting.only id _ current
        cases booting.current.symm.trans current
      · next current =>
        obtain rfl := booting.only id _ current
        cases booting.current.symm.trans current
      · cases moved
  | step id choice =>
      cases current : state.tasks id with
      | none => simp [HardenedClient.step, State.stepTask, current] at moved
      | some task =>
          obtain rfl := booting.only id task current
          obtain rfl := Option.some.inj (current.symm.trans booting.current)
          simp only [HardenedClient.step, State.stepTask, current] at moved
          exact booting.stepStarter moved
  | _ => cases internal

end HardenedClient
