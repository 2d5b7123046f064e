import HardenedClient.Client.Claims
import HardenedClient.Client.Pool
import HardenedClient.Client.Records
import HardenedClient.Client.RowKeys
import HardenedClient.SingleFlight

/-!
# Work items and their rows

Without caller cancellation, and when recovered rows hold requests of their own
key, the attempt an item is at is the retry count of the row it counts on. The
two are advanced in different steps: the row by the commits of a submission and
of a retry, the item by the owner, by the worker that reschedules it and by
recovery.
-/

namespace HardenedClient

open Foundation

/-- The step cancels no caller. -/
def Uncancelled (state : State) (label : Label) : Prop :=
  ∀ id replayed point, label = .cancel id → state.tasks id ≠ some (.caller replayed point)

theorem Uncancelled.keepsSingle
    {state : State}
    {label : Label}
    (uncancelled : Uncancelled state label)
    (recovers : RecoversOwnKey state label) :
    KeepsSingle state label := by
  refine ⟨?_, recovers⟩
  rintro ⟨id, replayed, key, future, _, _, isCancel, current, _⟩
  exact uncancelled id replayed _ isCancel current

namespace State

variable {env : Env} {state next : State} {label : Label} {id : ℕ}

/-- Every item that counts on a row has one that counts its attempt, and every
listed row that recovery will own is still in the table. -/
structure Custody (env : Env) (state : State) : Prop extends state.SingleFlight where
  pooled : state.Pooled
  listed : ∀ id point, state.tasks id = some (.starter point) → ∀ row ∈ point.rows,
    state.dedup.pendingFuture? row.idempotencyKey ≠ none ∨ row ∈ state.tables.inflight.rows
  counts : ∀ id item exc newAttempt delay, state.tasks id = some
      (.worker (.handling item (.incrementing exc newAttempt delay))) →
    newAttempt = item.attempt + 1 ∧ (item.attempt : ℤ) < env.config.retry.maxRetries
  mirrored : ∀ place item, state.backedAt place = some item →
    ∃ row ∈ state.tables.inflight.rows,
      row.idempotencyKey = item.key ∧ row.retryCount = item.attempt
  cleared : ∀ id item point, state.tasks id = some (.worker (.handling item point)) →
    point.backed? item = none → ¬ state.tables.inflight.Has item.key

theorem Custody.boot
    (env : Env)
    (tables : Tables)
    (now : ℚ)
    (history : List Event) :
    Custody env (boot tables now history) where
  toSingleFlight := .boot tables now history
  pooled := .boot tables now history
  listed := fun _ _ current => by cases current
  counts := fun _ _ _ _ _ current => by cases current
  mirrored := by rintro (_ | _) item found <;> simp [backedAt, State.boot] at found
  cleared := fun _ _ _ current => by cases current

/-! ## Conflicts with a single flight -/

/-- A caller about to persist a key has the only item of that key. -/
theorem SingleFlight.place_of_upserting
    {replayed : Option ℕ}
    {request : DurableRequest}
    {future : ℕ}
    {place : Place}
    {item : QueueItem}
    (single : state.SingleFlight)
    (current : state.tasks id = some (.caller replayed (.upserting request future)))
    (found : state.itemAt place = some item)
    (sameKey : item.key = request.key) :
    place = .agent id :=
  single.place_unique found
    (show state.itemAt (.agent id) = some ⟨request, 0, future⟩ by
      simp [itemAt, current, Task.item?]) sameKey

/-- A worker has the only item of its key. -/
theorem SingleFlight.place_of_handling
    {held item : QueueItem}
    {point : HandlePoint}
    {place : Place}
    (single : state.SingleFlight)
    (current : state.tasks id = some (.worker (.handling held point)))
    (found : state.itemAt place = some item)
    (sameKey : item.key = held.key) :
    place = .agent id :=
  single.place_unique found
    (show state.itemAt (.agent id) = some held by simp [itemAt, current, Task.item?]) sameKey

/-- No step persists the key of an item that a worker handles. -/
theorem SingleFlight.not_upserted_of_handling
    {id : ℕ}
    {item : QueueItem}
    {point : HandlePoint}
    {event : Event}
    (single : state.SingleFlight)
    (current : state.tasks id = some (.worker (.handling item point)))
    (records : Records state label next event) :
    event ≠ .upserted item.key := by
  intro persists
  generalize isKey : item.key = key at persists
  subst persists
  cases records with
  | upserted _ persisting =>
      have found : state.itemAt (.agent id) = some item := by simp [itemAt, current, Task.item?]
      have same := Place.agent.inj (single.place_of_upserting persisting found isKey)
      rw [← same, current] at persisting
      cases persisting

/-- The row of an item that counts on it is left alone by a step that commits
nothing for the item. -/
theorem SingleFlight.row_kept
    {place : Place}
    {item : QueueItem}
    {row : InflightRow}
    (single : state.SingleFlight)
    (commit : RowCommit state label next.tables)
    (found : state.backedAt place = some item)
    (untouched : ¬ state.WritesRow label place)
    (present : row ∈ state.tables.inflight.rows)
    (sameKey : row.idempotencyKey = item.key) :
    row ∈ next.tables.inflight.rows := by
  obtain ⟨held, live, heldKey, _⟩ := itemAt_of_backedAt found
  generalize next.tables = tables at commit
  cases commit with
  | same inflight => rwa [inflight]
  | upserted current =>
      apply Tables.mem_upsertInflight_of_ne _ present
      intro clash
      obtain rfl := single.place_of_upserting current live (by rw [heldKey, ← sameKey, clash])
      rw [backedAt_agent current] at found
      cases found
  | incremented current =>
      apply Tables.mem_incrementRetry_of_ne _ _ present
      intro clash
      obtain rfl := single.place_of_handling current live (by rw [heldKey, ← sameKey, clash])
      exact untouched ⟨_, _, _, rfl, rfl, current, rfl⟩
  | @deleted id other point current deletes =>
      refine KeyedTable.mem_erase_rows.mpr ⟨present, fun clash => ?_⟩
      obtain rfl := single.place_of_handling current live (by rw [heldKey, ← sameKey, clash])
      exact untouched ⟨_, _, _, rfl, rfl, current, by cases point <;> first | rfl | cases deletes⟩

/-! ## The steps -/

/-- Every item that counts on a row keeps one that counts its attempt. -/
theorem Custody.mirrored_step
    (custody : Custody env state)
    (recovers : RecoversOwnKey state label)
    (moved : HardenedClient.step env label state = some next) :
    ∀ place item, next.backedAt place = some item →
      ∃ row ∈ next.tables.inflight.rows,
        row.idempotencyKey = item.key ∧ row.retryCount = item.attempt := by
  intro place item found
  have commit := rowCommit moved
  cases backed_origin custody.tidy moved found with
  | kept before there untouched =>
      obtain ⟨row, present, sameKey, counts⟩ := custody.mirrored before item there
      exact ⟨row, custody.row_kept commit there untouched present sameKey, sameKey, counts⟩
  | upserted isStep current first tables =>
      obtain ⟨row, present, sameKey, zero, _⟩ :=
        state.tables.exists_mem_upsertInflight item.request state.now
      exact ⟨row, tables ▸ present, sameKey, zero.trans first.symm⟩
  | @recovered id row rows isStep current free request attempt tables =>
      refine ⟨row, ?_, ?_, attempt.symm⟩
      · rw [tables]
        exact (custody.listed id _ current row List.mem_cons_self).resolve_left
          fun busy => busy free
      · rw [QueueItem.key, request]
        apply (recovers row _).symm
        rw [isStep, recovered?, current]
  | @counted id held exc delay isStep current request tables =>
      obtain ⟨row, present, sameKey, counts⟩ := custody.mirrored (.agent id) held
        (by rw [backedAt_agent current]; rfl)
      obtain ⟨after, there, afterKey, _, counted⟩ :=
        Tables.exists_mem_incrementRetry exc.message state.now present
      refine ⟨after, ?_, ?_, ?_⟩
      · rw [tables, ← sameKey]
        exact there
      · rw [afterKey, sameKey, QueueItem.key, QueueItem.key, request]
      · rw [counted, counts, (custody.counts _ _ _ _ _ current).1]

/-- A worker past the delete of its row finds none. -/
theorem Custody.cleared_step
    (custody : Custody env state)
    (moved : HardenedClient.step env label state = some next) :
    ∀ id item point, next.tasks id = some (.worker (.handling item point)) →
      point.backed? item = none → ¬ next.tables.inflight.Has item.key := by
  intro id item point current past
  -- No other step brings back a row that is gone.
  have stays : ∀ before, state.tasks id = some (.worker (.handling item before)) →
      before.backed? item = none → ¬ next.tables.inflight.Has item.key := by
    intro before there wasPast stored
    have gone := custody.cleared id item before there wasPast
    have commit := rowCommit moved
    generalize next.tables = tables at commit stored
    cases commit with
    | same inflight =>
        rw [inflight] at stored
        exact gone stored
    | upserted persisting =>
        rw [Tables.has_upsertInflight] at stored
        rcases stored with sameKey | stored
        · have := custody.place_of_upserting persisting
            (show state.itemAt (.agent id) = some item by simp [itemAt, there, Task.item?]) sameKey
          obtain rfl := Place.agent.inj this
          cases there.symm.trans persisting
        · exact gone stored
    | incremented => exact gone (by simpa using stored)
    | deleted =>
        rw [Tables.has_deleteInflight] at stored
        exact gone stored.1
  rcases worker_cases custody.tidy moved current with
    ⟨before, _⟩ | ⟨_, _, _, rfl⟩ | ⟨choice, before, rfl, present, stepped, handled⟩
  · exact stays point before past
  · cases past
  · cases handled with
    | advanced advances =>
        cases advances with
        | blocked disposes => cases disposes <;> (simp at current; subst current; cases past)
        | admitted | waits | granted => simp at current; subst current; cases past
        | answered response chosen => exact stays _ present rfl
        | hooked => exact stays _ present rfl
    | failed disposes => cases disposes <;> (simp at current; subst current; cases past)
    | succeeded | incremented | pushed => simp at current; subst current; cases past
    | deleted | retired =>
        rintro ⟨row, there, sameKey⟩
        exact (KeyedTable.mem_erase_rows.mp there).2 sameKey
    | resolved | rescheduled | rejected => simp at current

/-- A retry that is about to be counted is the next one, and in the budget. -/
theorem counts_of_retryOrDlq
    {item held : QueueItem}
    {exc raised : PyException}
    {retryAfter : Option PyFloat}
    {draw : ℚ}
    {newAttempt : ℕ}
    {delay : PyFloat}
    (current : (state.retryOrDlq env id item exc retryAfter draw).tasks id = some
      (.worker (.handling held (.incrementing raised newAttempt delay)))) :
    newAttempt = held.attempt + 1 ∧ (held.attempt : ℤ) < env.config.retry.maxRetries := by
  unfold retryOrDlq at current
  cases decided : dispose? env.config.retry item.attempt exc retryAfter draw with
  | none => simp [decided] at current
  | some disposition =>
      cases disposition with
      | terminal => simp [decided] at current
      | retry counted pause =>
          simp only [decided, moveTo_tasks_self, Option.some.injEq, Task.worker.injEq,
            WorkerPoint.handling.injEq, HandlePoint.incrementing.injEq] at current
          obtain ⟨rfl, _, rfl, _⟩ := current
          unfold dispose? at decided
          split_ifs at decided with retries
          · obtain ⟨_, _, same⟩ := Option.map_eq_some_iff.mp decided
            cases same
            simp only [willRetry, shouldRetry, Bool.and_eq_true, decide_eq_true_eq] at retries
            exact ⟨rfl, retries.2⟩
          · cases decided

theorem counts_of_gate
    {item held : QueueItem}
    {raised : PyException}
    {draw : ℚ}
    {newAttempt : ℕ}
    {delay : PyFloat}
    (current : (state.gate env id item draw).tasks id = some
      (.worker (.handling held (.incrementing raised newAttempt delay)))) :
    newAttempt = held.attempt + 1 ∧ (held.attempt : ℤ) < env.config.retry.maxRetries := by
  unfold gate at current
  split at current
  · simp at current
  · split at current
    · simp at current
    · simp only at current
      split at current
      · exact counts_of_retryOrDlq current
      · simp at current

theorem counts_of_receive
    {item held : QueueItem}
    {host : PyStr}
    {event : HttpEvent}
    {raised : PyException}
    {draw : ℚ}
    {newAttempt : ℕ}
    {delay : PyFloat}
    (current : (state.receive env id item host event draw).tasks id = some
      (.worker (.handling held (.incrementing raised newAttempt delay)))) :
    newAttempt = held.attempt + 1 ∧ (held.attempt : ℤ) < env.config.retry.maxRetries := by
  unfold receive at current
  split at current
  · simp at current
  · simp only at current
    split at current
    · simp at current
    · exact counts_of_retryOrDlq current

theorem Custody.counts_step
    (custody : Custody env state)
    (moved : HardenedClient.step env label state = some next) :
    ∀ id item exc newAttempt delay, next.tasks id = some
        (.worker (.handling item (.incrementing exc newAttempt delay))) →
      newAttempt = item.attempt + 1 ∧ (item.attempt : ℤ) < env.config.retry.maxRetries := by
  intro id item exc newAttempt delay current
  rcases worker_cases custody.tidy moved current with
    ⟨before, _⟩ | ⟨_, _, _, isGating⟩ | ⟨choice, before, rfl, present, stepped, handled⟩
  · exact custody.counts id item exc newAttempt delay before
  · cases isGating
  · -- The await is reached from `_handle_retry_or_dlq`, at the gate or after the call.
    cases handled with
    | advanced advances =>
        cases advances with
        | blocked disposes =>
            cases choice <;> simp only [stepHandle, reduceCtorEq] at stepped
            split_ifs at stepped
            rw [← Option.some.inj stepped] at current
            exact counts_of_gate current
        | answered response chosen => rcases chosen with rfl | rfl <;> simp at current
        | admitted | waits | granted | hooked => simp at current
    | failed disposes =>
        cases choice <;> simp only [stepHandle, reduceCtorEq] at stepped
        split_ifs at stepped
        rw [← Option.some.inj stepped] at current
        exact counts_of_receive current
    | _ => simp at current


/-- A key stays busy, unless its worker has deleted the row and settles it, or
the process crashes. -/
theorem busy_step
    {key : Key}
    (sound : state.flights.Sound)
    (uncancelled : Uncancelled state label)
    (moved : HardenedClient.step env label state = some next)
    (busy : state.dedup.pendingFuture? key ≠ none) :
    next.dedup.pendingFuture? key ≠ none ∨ label = .crash ∨
      ∃ id item point, state.tasks id = some (.worker (.handling item point)) ∧
        point.backed? item = none ∧ item.key = key := by
  rcases releases_of_busy sound moved busy with stays | releases
  · exact Or.inl stays
  · cases releases with
    | crashed => exact Or.inr (Or.inl rfl)
    | cancelled current _ => exact absurd current (uncancelled _ _ _ rfl)
    | @settled _ id item point current settles isKey =>
        refine Or.inr (Or.inr ⟨id, item, point, current, ?_, isKey⟩)
        cases point <;> first | rfl | cases settles

/-- A worker inside `_handle` excludes a `start()` call in progress. -/
theorem Pooled.not_handling
    {other : ℕ}
    {point : StartPoint}
    {item : QueueItem}
    {inside : HandlePoint}
    (pooled : state.Pooled)
    (starting : state.tasks id = some (.starter point))
    (active : (Task.starter point).inLifecycle = true) :
    state.tasks other ≠ some (.worker (.handling item inside)) := by
  intro working
  have member := pooled.employed other ((alive_iff state other).mpr (Or.inr ⟨_, _, working⟩))
  rw [(pooled.starting id point starting active).1] at member
  cases member

/-- A `start()` call that has ended makes no step. -/
theorem inLifecycle_of_moved
    {choice : Choice}
    {point : StartPoint}
    (current : state.tasks id = some (.starter point))
    (moved : HardenedClient.step env (.step id choice) state = some next) :
    (Task.starter point).inLifecycle = true := by
  simp only [HardenedClient.step, stepTask, current] at moved
  cases point with
  | started | failed => cases choice <;> cases moved
  | _ => rfl

/-- Recovery is left with rows of busy keys and rows of the table. -/
theorem Custody.listed_step
    (custody : Custody env state)
    (uncancelled : Uncancelled state label)
    (moved : HardenedClient.step env label state = some next) :
    ∀ id point, next.tasks id = some (.starter point) → ∀ row ∈ point.rows,
      next.dedup.pendingFuture? row.idempotencyKey ≠ none ∨
        row ∈ next.tables.inflight.rows := by
  intro id point current row present
  have stepped := step_stepped moved
  have alive : label ≠ .crash := by
    rintro rfl
    rw [stepped.boot_of_crash] at current
    cases current
  obtain ⟨before, starting, active, known⟩ : ∃ before,
      state.tasks id = some (.starter before) ∧ (Task.starter before).inLifecycle = true ∧
        (state.dedup.pendingFuture? row.idempotencyKey ≠ none ∨
          row ∈ state.tables.inflight.rows) := by
    rcases stepped.starter_cases custody.tidy current with
      ⟨there, _⟩ | ⟨_, fresh⟩ | ⟨choice, before, rfl, there, lists⟩ | ⟨_, rfl⟩
    · refine ⟨point, there, ?_, custody.listed id point there row present⟩
      cases point <;> first | rfl | cases present
    · rcases fresh with rfl | rfl <;> cases present
    · refine ⟨before, there, inLifecycle_of_moved there moved, ?_⟩
      rcases lists row present with known | stored
      · exact custody.listed id before there row known
      · exact Or.inr stored
    · cases present
  have none := fun other item inside =>
    @Pooled.not_handling state id other before item inside custody.pooled starting active
  have busy : state.dedup.pendingFuture? row.idempotencyKey ≠ Option.none →
      next.dedup.pendingFuture? row.idempotencyKey ≠ Option.none := by
    intro wasBusy
    rcases busy_step custody.sound uncancelled moved wasBusy with
      stays | crashed | ⟨other, item, inside, working, _⟩
    · exact stays
    · exact absurd crashed alive
    · exact absurd working (none other item inside)
  rcases known with wasBusy | stored
  · exact Or.inl (busy wasBusy)
  have commit := rowCommit moved
  generalize next.tables = tables at commit
  cases commit with
  | same inflight => exact Or.inr (by rwa [inflight])
  | @upserted other replayed request future persisting =>
      by_cases sameKey : row.idempotencyKey = request.key
      · left
        apply busy
        have owned := custody.registered
          (show state.itemAt (.agent other) = some ⟨request, 0, future⟩ by
            simp [itemAt, persisting, Task.item?])
        rw [sameKey]
        intro free
        have := (state.dedup.pendingFuture?_eq_some_iff request.key future).mpr owned
        rw [free] at this
        cases this
      · exact Or.inr (Tables.mem_upsertInflight_of_ne _ stored sameKey)
  | incremented working => exact absurd working (none _ _ _)
  | deleted working => exact absurd working (none _ _ _)

/-- Steps that cancel no caller, and recover rows under their own key, keep items
and rows together. -/
theorem Custody.step
    (custody : Custody env state)
    (uncancelled : Uncancelled state label)
    (recovers : RecoversOwnKey state label)
    (moved : HardenedClient.step env label state = some next) :
    Custody env next where
  toSingleFlight := custody.toSingleFlight.step (uncancelled.keepsSingle recovers) moved
  pooled := custody.pooled.step moved
  listed := custody.listed_step uncancelled moved
  counts := custody.counts_step moved
  mirrored := custody.mirrored_step recovers moved
  cleared := custody.cleared_step moved

end State

/-! ## Regular runs -/

/-- No caller is cancelled, and submitted requests have string-keyed JSON
parameters and body. -/
structure Regular (state : State) (label : Label) : Prop where
  uncancelled : Uncancelled state label
  json : JsonRequest label

/-- Items agree with their rows, and rows with the requests they hold. -/
structure State.Reconciled (env : Env) (state : State) : Prop extends state.Custody env where
  truthful : state.Truthful

namespace State.Reconciled

variable {env : Env} {state next : State} {label : Label}

theorem boot
    {tables : Tables}
    (env : Env)
    (now : ℚ)
    (history : List Event)
    (consistent : tables.Consistent) :
    Reconciled env (State.boot tables now history) where
  toCustody := .boot env tables now history
  truthful := .boot now history consistent

theorem step
    (reconciled : Reconciled env state)
    (regular : Regular state label)
    (moved : HardenedClient.step env label state = some next) :
    Reconciled env next where
  toCustody := reconciled.toCustody.step regular.uncancelled
    (fun _ isRow => reconciled.truthful.recoversOwnKey isRow) moved
  truthful := reconciled.truthful.step regular.json moved

end State.Reconciled

/-- A check for regular steps on replayed runs. -/
def regular : Label → Bool
  | .cancel _ => false
  | .request request => request.isJson
  | _ => true

theorem regular_sound
    (state : State)
    (label : Label)
    (passes : regular label = true) :
    Regular state label := by
  constructor
  · rintro id replayed point rfl
    cases passes
  · rintro request rfl
    exact passes

end HardenedClient
