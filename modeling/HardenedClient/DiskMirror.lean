import HardenedClient.Served
import HardenedClient.WorkerSurvival

/-!
# Disk mirrors memory

While a client that has started is not stopped, no caller is cancelled and no
exception escapes from `_handle`, each row is carried by one live item, and an item
that waits for its next attempt has a row that holds its request and its attempt.
-/

namespace HardenedClient

open Foundation

/-- A payload holds the request that is persisted as another one: both decode to the
same request. -/
def Encodes (payload : Payload) (request : DurableRequest) : Prop :=
  Request.fromStorage payload = Request.fromStorage request.payload

/-- No caller is cancelled, requests are submitted only after a `start()` call has
returned, `stop()` is not called, there is no crash and no response hook, and no
`Storage` call fails. -/
structure Sheltered (state : State) (label : Label) : Prop extends Served state label where
  notStop : label ≠ .stop
  notCrash : label ≠ .crash
  noHook : ∀ installed, label ≠ .setResponseHook installed
  stored : ∀ id exc, label ≠ .step id (.storageError exc)

/-- The live item of a task: between the upsert and the enqueue of an owner, in
`_handle`, or in `_reschedule`. -/
def Task.live? : Task → Option QueueItem
  | .caller _ (.upserted request future) | .caller _ (.enqueueing request future) =>
      some ⟨request, 0, future⟩
  | .worker (.handling item _) => some item
  | .reschedule (.sleeping item _) | .reschedule (.enqueueing item) => some item
  | _ => none

/-- The live item at a place. -/
def State.liveAt (state : State) : Place → Option QueueItem
  | .queue position => state.queue.items[position]?
  | .agent id => (state.tasks id).bind Task.live?

/-- An item is on the queue, or asleep in `_reschedule`. -/
def State.Waiting (state : State) (item : QueueItem) : Prop :=
  item ∈ state.queue.items ∨
    ∃ id wakeAt, state.tasks id = some (.reschedule (.sleeping item wakeAt))

namespace State

variable {env : Env} {state next : State} {label : Label} {key : Key}

/-- Somebody carries an item of the key. -/
def Carried (state : State) (key : Key) : Prop :=
  ∃ place item, state.itemAt place = some item ∧ item.key = key

theorem carried_iff (state : State) (key : Key) :
    state.Carried key ↔ ∃ job, state.flights.Live job ∧ job.key = key := by
  constructor
  · rintro ⟨place, item, found, rfl⟩
    exact ⟨item.job, ⟨place, by rw [jobAt_flights, found]; rfl⟩, rfl⟩
  · rintro ⟨job, ⟨place, found⟩, rfl⟩
    rw [jobAt_flights] at found
    obtain ⟨item, there, rfl⟩ := Option.map_eq_some_iff.mp found
    exact ⟨place, item, there, rfl⟩

/-- Rows of busy keys are carried, once a `start()` call has opened the session, and
hold the requests of the items that count on them. -/
structure Mirrors (env : Env) (state : State) : Prop extends state.Claimed env where
  unstopped : state.Unstopped
  submitting : ∀ id replayed request future,
    state.tasks id = some (.caller replayed (.upserting request future)) → state.Started
  consistent : ¬ state.Started → state.tables.Consistent
  starters : ∀ id point, state.tasks id = some (.starter point) →
    ∀ row ∈ point.rows, row.payload.request.key = row.idempotencyKey
  idle : state.session = false → ∀ key, state.dedup.pendingFuture? key = none
  attended : state.Serving → ∀ key, state.tables.inflight.Has key →
    state.dedup.pendingFuture? key ≠ none → state.Carried key
  written : ∀ place item, state.backedAt place = some item →
    ∀ row ∈ state.tables.inflight.rows, row.idempotencyKey = item.key →
      Encodes row.payload item.request

theorem Mirrors.boot
    {tables : Tables}
    (env : Env)
    (now : ℚ)
    (history : List Event)
    (consistent : tables.Consistent) :
    Mirrors env (boot tables now history) where
  toClaimed := .boot env tables now history
  unstopped := .boot tables now history
  submitting := fun _ _ _ _ current => by cases current
  consistent := fun _ => consistent
  starters := fun _ _ current => by cases current
  idle := fun _ _ => rfl
  attended := fun ⟨_, _, current, _⟩ => by cases current
  written := by rintro (_ | _) item found <;> simp [backedAt, State.boot] at found

/-- The recovery loop turns to rows under their own key. -/
theorem Mirrors.recoversOwnKey
    (mirrors : Mirrors env state) :
    RecoversOwnKey state label := by
  intro row isRow
  unfold State.recovered? at isRow
  split at isRow <;> try cases isRow
  split at isRow <;> cases isRow
  next current => exact mirrors.starters _ _ current row List.mem_cons_self

/-- Requests are persisted only after a `start()` call has returned. -/
theorem Mirrors.submitting_step
    (mirrors : Mirrors env state)
    (sheltered : Sheltered state label)
    (moved : HardenedClient.step env label state = some next) :
    ∀ id replayed request future,
      next.tasks id = some (.caller replayed (.upserting request future)) →
        next.Started := by
  intro id replayed request future current
  apply started_step mirrors.tidy sheltered.notCrash moved
  rcases (step_stepped moved).upserting_cases mirrors.tidy current with ⟨there, _⟩ | enters
  · exact mirrors.submitting id replayed request future there
  · obtain ⟨submitted, submits, _⟩ := enters.submits request future rfl
    exact sheltered.afterStart submitted submits

/-- The table is left alone until a `start()` call has returned. -/
theorem Mirrors.consistent_step
    (mirrors : Mirrors env state)
    (sheltered : Sheltered state label)
    (moved : HardenedClient.step env label state = some next)
    (notStarted : ¬ next.Started) :
    next.tables.Consistent := by
  have before : ¬ state.Started := fun started =>
    notStarted (started_step mirrors.tidy sheltered.notCrash moved started)
  apply (step_stepped moved).commits.consistent (mirrors.consistent before)
  intro id replayed request future current
  exact absurd (mirrors.submitting id replayed request future current) before

theorem Mirrors.starters_step
    (mirrors : Mirrors env state)
    (moved : HardenedClient.step env label state = some next) :
    ∀ id point, next.tasks id = some (.starter point) →
      ∀ row ∈ point.rows, row.payload.request.key = row.idempotencyKey := by
  intro id point current row present
  rcases (step_stepped moved).starter_cases mirrors.tidy current with
    ⟨there, _⟩ | ⟨_, fresh⟩ | ⟨choice, before, rfl, there, lists⟩ | ⟨_, rfl⟩
  · exact mirrors.starters id point there row present
  · rcases fresh with rfl | rfl <;> cases present
  · rcases lists row present with known | stored
    · exact mirrors.starters id before there row known
    · apply mirrors.consistent _ row stored
      intro started
      have active := inLifecycle_of_moved there moved
      rw [mirrors.unstopped.alone started id before there] at active
      cases active
  · cases present

/-- A key becomes busy while the session is open. -/
theorem Mirrors.busy_origin
    (mirrors : Mirrors env state)
    (moved : HardenedClient.step env label state = some next)
    (busy : next.dedup.pendingFuture? key ≠ none) :
    state.dedup.pendingFuture? key ≠ none ∨ state.session = true := by
  obtain ⟨action, move, traces⟩ := step_movesFlights mirrors.tidy moved
  rcases move.busy_cases mirrors.sound ((busy_iff next key).mpr busy) with
    ⟨wasBusy, _⟩ | ⟨_, agent, carry, hold, rfl⟩
  · exact Or.inl ((busy_iff state key).mp wasBusy)
  · right
    rcases traces with ⟨request, submits, _⟩ | ⟨row, isRow, _⟩
    · unfold State.submitted? at submits
      split at submits
      · split_ifs at submits with isOpen
        exact isOpen
      · split at submits
        · split_ifs at submits with isOpen
          exact isOpen
        · cases submits
      · cases submits
    · unfold State.recovered? at isRow
      split at isRow <;> try cases isRow
      split at isRow <;> cases isRow
      next current => exact (mirrors.pooled.starting _ _ current rfl).2 rfl

theorem Mirrors.idle_step
    (mirrors : Mirrors env state)
    (sheltered : Sheltered state label)
    (moved : HardenedClient.step env label state = some next)
    (closed : next.session = false) :
    ∀ key, next.dedup.pendingFuture? key = none := by
  intro key
  have wasClosed : state.session = false := by
    by_contra isOpen
    rw [mirrors.unstopped.session_step sheltered.notStop sheltered.notCrash moved
      (by simpa using isOpen)] at closed
    cases closed
  by_contra busy
  rcases mirrors.busy_origin moved busy with wasBusy | isOpen
  · exact wasBusy (mirrors.idle wasClosed key)
  · rw [wasClosed] at isOpen
    cases isOpen

/-- A step loses no item of a key that has a row, as long as nothing escapes from
`_handle` and the `start()` call in progress is not cancelled. -/
theorem Mirrors.not_spilled
    {id : ℕ}
    {job : Job Key}
    (mirrors : Mirrors env state)
    (sheltered : Sheltered state label)
    (safe : SafeStep env state label)
    (moved : HardenedClient.step env label state = some next)
    (serving : next.Serving)
    (spills : Spills env state label id)
    (carried : state.flights.carried id = some job) :
    ¬ state.tables.inflight.Has job.key := by
  cases spills with
  | @unsaved _ replayed request future choice current =>
      obtain rfl : ⟨request.key, future⟩ = job := by
        simpa [flights, current, Task.item?, QueueItem.job, QueueItem.key] using carried
      exact mirrors.fresh id replayed request future current
  | cancelled =>
      exfalso
      cases current : state.tasks id with
      | none => simp [flights, current] at carried
      | some task =>
          cases task with
          | caller replayed point => exact sheltered.uncancelled id replayed point rfl current
          | starter point => exact mirrors.unstopped.not_serving_of_cancel current moved serving
          | _ => simp [HardenedClient.step, cancelTask, current] at moved
  | escaped current escapes =>
      exfalso
      apply (escapes_iff env state _ _ _ (mirrors.unstopped.connected current) ?_).mp escapes
      · exact safe _ _ _ _ rfl current
      · rintro exc rfl
        exact sheltered.stored _ exc rfl
  | workerCancelled =>
      simp [HardenedClient.step, State.cancelWorker, mirrors.unstopped.unrequested] at moved
  | stopping _ isStopping =>
      rw [mirrors.unstopped.running] at isStopping
      cases isStopping

/-- Rows of busy keys stay carried. -/
theorem Mirrors.attended_step
    (mirrors : Mirrors env state)
    (sheltered : Sheltered state label)
    (safe : SafeStep env state label)
    (moved : HardenedClient.step env label state = some next) :
    next.Serving → ∀ key, next.tables.inflight.Has key →
      next.dedup.pendingFuture? key ≠ none → next.Carried key := by
  intro serving key ⟨row, present, sameKey⟩ busy
  rcases (rowCommit moved).row_cases present with
    ⟨old, oldIn, oldKey, _⟩ | ⟨id, replayed, request, future, rfl, current, isKey, _⟩
  swap
  · -- the owner has just committed the row, and goes on with its item
    simp only [HardenedClient.step, stepTask, current, stepCaller] at moved
    split_ifs at moved <;> rw [← Option.some.inj moved]
    · exact ⟨.agent id, ⟨request, 0, future⟩, by simp [itemAt, Task.item?],
        isKey.symm.trans sameKey⟩
    · rename_i disconnected
      exact absurd (mirrors.unstopped.connects (mirrors.unstopped.opened
        (mirrors.submitting id replayed request future current))) disconnected
  · have stored : state.tables.inflight.Has key := ⟨old, oldIn, oldKey.trans sameKey⟩
    obtain ⟨action, move, traces⟩ := step_movesFlights mirrors.tidy moved
    rw [carried_iff]
    apply move.attended_key mirrors.sound _ _ _ ((busy_iff next key).mpr busy)
    · intro wasBusy
      rw [busy_iff] at wasBusy
      rcases mirrors.unstopped.serving_cases moved serving with wasServing | ⟨closed, _⟩
      · exact (carried_iff state key).mp (mirrors.attended wasServing key stored wasBusy)
      · exact absurd (mirrors.idle closed key) wasBusy
    · rintro agent carry hold free rfl
      rcases traces with ⟨request, submits, _⟩ | ⟨listed, isRow, rfl, carries⟩
      · rw [busy_iff] at free
        exact absurd (mirrors.started (sheltered.afterStart request submits) key stored) free
      · rw [carries, mirrors.recoversOwnKey listed isRow]
    · rintro agent job rfl carried rfl
      exact mirrors.not_spilled sheltered safe moved serving traces carried stored

/-- Rows hold the requests of the items that count on them. -/
theorem Mirrors.written_step
    (mirrors : Mirrors env state)
    (moved : HardenedClient.step env label state = some next) :
    ∀ place item, next.backedAt place = some item →
      ∀ row ∈ next.tables.inflight.rows, row.idempotencyKey = item.key →
        Encodes row.payload item.request := by
  intro place item found row present sameKey
  have origin := (rowCommit moved).row_cases present
  cases backed_origin mirrors.tidy moved found with
  | kept before there =>
      rcases origin with
        ⟨old, oldIn, oldKey, samePayload⟩ | ⟨id, replayed, request, future, _, current, isKey, _⟩
      · rw [← samePayload]
        exact mirrors.written before item there old oldIn (oldKey.trans sameKey)
      · -- whoever persists the key has its only item, and no row to count on yet
        obtain ⟨held, live, heldKey, _⟩ := itemAt_of_backedAt there
        obtain rfl := mirrors.place_of_upserting current live
          (heldKey.trans (sameKey.symm.trans isKey))
        rw [backedAt_agent current] at there
        cases there
  | upserted isStep current =>
      rcases origin with
        ⟨old, oldIn, oldKey, _⟩ | ⟨id, replayed, request, future, sameStep, persisting, _, isPayload⟩
      · exact absurd ⟨old, oldIn, oldKey.trans sameKey⟩ (mirrors.fresh _ _ _ _ current)
      · rw [sameStep] at isStep
        obtain rfl : id = _ := (Label.step.inj isStep).1
        rw [persisting] at current
        cases current
        exact congrArg Request.fromStorage isPayload
  | @recovered id listed rows isStep current free request attempt tables =>
      have there := (mirrors.listed id _ current listed List.mem_cons_self).resolve_left
        fun busy => busy free
      have own : listed.payload.request.key = listed.idempotencyKey :=
        mirrors.starters id _ current listed List.mem_cons_self
      rw [tables] at present
      obtain rfl := state.tables.inflight.row_unique present there
        (sameKey.trans (by rw [QueueItem.key, request, own]))
      rw [request]
      exact (fromStorage_payload_request row.payload).symm
  | @counted id held exc delay isStep current request tables =>
      rcases origin with
        ⟨old, oldIn, oldKey, samePayload⟩ | ⟨other, _, _, _, sameStep, persisting, _⟩
      · rw [← samePayload, request]
        apply mirrors.written (.agent id) held (by rw [backedAt_agent current]; rfl) old oldIn
        rw [oldKey, sameKey, QueueItem.key, QueueItem.key, request]
      · rw [sameStep] at isStep
        obtain rfl : other = id := (Label.step.inj isStep).1
        rw [persisting] at current
        cases current

theorem Mirrors.step
    (mirrors : Mirrors env state)
    (sheltered : Sheltered state label)
    (safe : SafeStep env state label)
    (moved : HardenedClient.step env label state = some next) :
    Mirrors env next where
  toClaimed := mirrors.toClaimed.step sheltered.toServed mirrors.recoversOwnKey moved
  unstopped := mirrors.unstopped.step sheltered.notStop moved
  submitting := mirrors.submitting_step sheltered moved
  consistent := mirrors.consistent_step sheltered moved
  starters := mirrors.starters_step moved
  idle := mirrors.idle_step sheltered moved
  attended := mirrors.attended_step sheltered safe moved
  written := mirrors.written_step moved

/-- A live item is carried. -/
theorem itemAt_of_liveAt
    {place : Place}
    {item : QueueItem}
    (found : state.liveAt place = some item) :
    state.itemAt place = some item := by
  cases place with
  | queue position => exact found
  | agent id =>
      obtain ⟨task, current, live⟩ := Option.bind_eq_some_iff.mp found
      rw [itemAt, current, Option.bind_some, ← live]
      unfold Task.live? at live
      split at live <;> first | rfl | cases live

/-- Once `start()` has returned, whoever carries an item whose key has a row keeps
it alive. -/
theorem Mirrors.liveAt_of_itemAt
    {place : Place}
    {item : QueueItem}
    (mirrors : Mirrors env state)
    (started : state.Started)
    (found : state.itemAt place = some item)
    (stored : state.tables.inflight.Has item.key) :
    state.liveAt place = some item := by
  cases place with
  | queue position => exact found
  | agent id =>
      obtain ⟨task, current, carries⟩ := Option.bind_eq_some_iff.mp found
      rw [liveAt, current, Option.bind_some]
      unfold Task.item? at carries
      split at carries <;> try exact carries
      · next replayed request future =>
          cases carries
          exact absurd stored (mirrors.fresh id replayed request future current)
      · have active := mirrors.unstopped.alone started id _ current
        cases active
      · cases carries

/-- An item that waits for its next attempt counts on its row. -/
theorem Waiting.backedAt
    {item : QueueItem}
    (waiting : state.Waiting item) :
    ∃ place, state.backedAt place = some item := by
  rcases waiting with queued | ⟨id, wakeAt, current⟩
  · obtain ⟨position, there⟩ := List.getElem?_of_mem queued
    exact ⟨.queue position, there⟩
  · exact ⟨.agent id, by rw [backedAt_agent current]; rfl⟩

end State

/-- In every run of a new client over a database whose rows hold requests of their own
keys, in which requests are submitted only after `start()` has returned, no caller is
cancelled, `stop()` is not called, no response hook is installed and neither the
storage nor a step of `_handle` raises: once `start()` has returned, each row is
carried by exactly one live item, and each item that is queued or asleep has a row
under its key which encodes its request and counts its attempt. -/
theorem disk_mirrors_memory
    (env : Env)
    (tables : Tables)
    (now : ℚ)
    (consistent : tables.Consistent)
    (state : State)
    (run : Run (step env) (fun before label => Sheltered before label ∧ SafeStep env before label)
      (State.boot tables now) state)
    (started : state.Started) :
    (∀ row ∈ state.tables.inflight.rows, ∃! place, ∃ item,
      state.liveAt place = some item ∧ item.key = row.idempotencyKey) ∧
    ∀ item, state.Waiting item → ∃ row ∈ state.tables.inflight.rows,
      row.idempotencyKey = item.key ∧ Encodes row.payload item.request ∧
        row.retryCount = item.attempt := by
  have mirrors : State.Mirrors env state :=
    run.invariant (State.Mirrors env) (.boot env now [] consistent)
      fun _ _ _ mirrors permitted moved => mirrors.step permitted.1 permitted.2 moved
  constructor
  · intro row present
    have stored : state.tables.inflight.Has row.idempotencyKey := ⟨row, present, rfl⟩
    have serving : state.Serving := started.imp fun _ current => ⟨_, current, Or.inr rfl⟩
    obtain ⟨place, item, found, sameKey⟩ :=
      mirrors.attended serving _ stored (mirrors.started started _ stored)
    refine ⟨place, ⟨item, ?_, sameKey⟩, ?_⟩
    · exact mirrors.liveAt_of_itemAt started found (sameKey ▸ stored)
    · rintro other ⟨second, live, otherKey⟩
      exact mirrors.place_unique (State.itemAt_of_liveAt live) found (otherKey.trans sameKey.symm)
  · intro item waiting
    obtain ⟨place, backed⟩ := waiting.backedAt
    obtain ⟨row, present, sameKey, counts⟩ := mirrors.mirrored place item backed
    exact ⟨row, present, sameKey, mirrors.written place item backed row present sameKey, counts⟩

/-- A check for `Sheltered` on replayed runs. -/
def sheltered (state : State) : Label → Bool
  | .stop | .crash | .setResponseHook _ | .step _ (.storageError _) => false
  | label => served state label

theorem sheltered_sound
    (state : State)
    (label : Label)
    (passes : sheltered state label = true) :
    Sheltered state label := by
  have isServed : served state label = true := by
    unfold sheltered at passes
    split at passes <;> first | exact passes | cases passes
  refine ⟨(served_sound state label isServed).1, ?_, ?_, ?_, ?_⟩
  · rintro rfl
    cases passes
  · rintro rfl
    cases passes
  · rintro installed rfl
    cases passes
  · rintro id exc rfl
    cases passes

/-! ## Rows that nobody carries -/

/-- Every URL that `_handle` looks at parses, and every backoff fits a float. -/
def Computes (env : Env) (state : State) (label : Label) : Prop :=
  ∀ id choice item point, label = .step id choice →
    state.tasks id = some (.worker (.handling item point)) →
      env.hostOf? item.request.request.url ≠ none ∧ item.attempt < PyFloat.overflowExponent

/-- A check for `Computes` on replayed runs. -/
def computes (env : Env) (state : State) : Label → Bool
  | .step id _ =>
      match state.tasks id with
      | some (.worker (.handling item _)) =>
          (env.hostOf? item.request.request.url).isSome &&
            decide (item.attempt < PyFloat.overflowExponent)
      | _ => true
  | _ => true

theorem computes_sound
    (env : Env)
    (state : State)
    (label : Label)
    (passes : computes env state label = true) :
    Computes env state label := by
  rintro id choice item point rfl current
  simp only [computes, current, Bool.and_eq_true, decide_eq_true_eq] at passes
  exact ⟨Option.isSome_iff_ne_none.mp passes.1, passes.2⟩

/-- A started client over an empty database leaves a row that no live item carries. -/
def Strands (env : Env) : Prop :=
  ∃ state row, Run (step env) (fun before label => Sheltered before label ∧ Computes env before label)
      (State.boot {}) state ∧
    state.Started ∧ row ∈ state.tables.inflight.rows ∧ ∀ place, state.liveAt place = none

/-- A check for a stranded row on replayed runs. -/
def strandsRow (state : State) : Bool :=
  state.hasStarted && !state.tables.inflight.rows.isEmpty && state.queue.items.isEmpty &&
    (List.range state.spawned).all fun id => (state.tasks id).all fun task => task.item?.isNone

theorem strands_of_replay
    {env : Env}
    {labels : List Label}
    (passes : (executeChecked (step env)
      (fun state label => sheltered state label && computes env state label)
      labels (State.boot {})).any strandsRow = true) :
    Strands env := by
  have checks : ∀ state label, (sheltered state label && computes env state label) = true →
      Sheltered state label ∧ Computes env state label := by
    intro state label both
    rw [Bool.and_eq_true] at both
    exact ⟨sheltered_sound state label both.1, computes_sound env state label both.2⟩
  obtain ⟨state, run, tested⟩ := exists_run_of_executeChecked checks passes
  simp only [strandsRow, Bool.and_eq_true, Bool.not_eq_eq_eq_not, Bool.not_true,
    List.isEmpty_eq_false_iff, List.isEmpty_iff] at tested
  obtain ⟨⟨⟨hasStarted, rows⟩, empty⟩, unladen⟩ := tested
  obtain ⟨row, present⟩ := List.exists_mem_of_ne_nil _ rows
  have tidy : state.Tidy := run.invariant State.Tidy (State.tidy_boot {} 0 [])
    fun _ _ _ tidy _ moved => (step_stepped moved).tidy tidy
  refine ⟨state, row, run, State.started_of_hasStarted hasStarted, present, fun place => ?_⟩
  cases found : state.liveAt place with
  | none => rfl
  | some item =>
      have carried := State.itemAt_of_liveAt found
      rw [tidy.itemAt_eq_none empty unladen place] at carried
      cases carried

/-- A client whose token buckets cannot be created. -/
def zeroRate : Env :=
  { oneWorker with config := { oneWorker.config with rateLimit := { ratePerSecond := 0 } } }

/-- A client whose breakers cannot be created. -/
def negativeWindow : Env :=
  { oneWorker with
    config := { oneWorker.config with circuitBreaker := { rollingWindow := -1 } } }

/-- The worker dies of the ValueError of a token bucket or of a breaker's window, or of
what an HTTP call raises outside `Exception`, and the row it worked for stays. -/
theorem not_disk_mirrors_memory : Strands zeroRate ∧ Strands negativeWindow ∧ Strands oneWorker := by
  refine ⟨?_, ?_, ?_⟩
  · apply @strands_of_replay zeroRate
      (startLabels ++ requestLabels 2 "http://example.org/" ++ sendLabels 1)
    decide +kernel
  · apply @strands_of_replay negativeWindow (startLabels ++
      requestLabels 2 "http://example.org/" ++ [.step 1 .proceed, .step 1 (.jitter 0)])
    decide +kernel
  · apply @strands_of_replay oneWorker (startLabels ++ requestLabels 2 "http://example.org/" ++
      sendLabels 1 ++ [.step 1 (.http (.raises .cancelledError) 0)])
    decide +kernel

/-! ## A run without escaping exceptions -/

/-- Two requests are submitted; one is answered with 500 and is asleep until its
retry, and the other waits on the queue. -/
def asleepLabels : List Label :=
  startLabels ++ requestLabels 2 "http://example.org/" ++ requestLabels 3 "http://example.com/" ++
    sendLabels 1 ++ answerLabels 1 500 2

/-- The item asleep in a task. -/
def State.asleep? (state : State) (id : ℕ) : Option QueueItem :=
  match state.tasks id with
  | some (.reschedule (.sleeping item _)) => some item
  | _ => none

theorem waiting_of_asleep?
    {state : State}
    {id : ℕ}
    {item : QueueItem}
    (asleep : state.asleep? id = some item) :
    state.Waiting item := by
  unfold State.asleep? at asleep
  split at asleep
  · next current =>
      rw [← Option.some.inj asleep]
      exact Or.inr ⟨id, _, current⟩
  · cases asleep

/-- A request asleep until its first retry has a row that counts it. -/
theorem disk_mirrors_memory_asleep :
    ∃ (state : State) (item : QueueItem), Run (step oneWorker)
        (fun before label => Sheltered before label ∧ SafeStep oneWorker before label)
        (State.boot {}) state ∧
      state.Started ∧ item.attempt = 1 ∧ ∃ row ∈ state.tables.inflight.rows,
        row.idempotencyKey = item.key ∧ Encodes row.payload item.request ∧ row.retryCount = 1 := by
  have checks : ∀ state label,
      (sheltered state label && handlesSafely oneWorker state label) = true →
        Sheltered state label ∧ SafeStep oneWorker state label := by
    intro state label both
    rw [Bool.and_eq_true] at both
    exact ⟨sheltered_sound state label both.1, handlesSafely_sound oneWorker state label both.2⟩
  have passes : (executeChecked (step oneWorker)
      (fun state label => sheltered state label && handlesSafely oneWorker state label)
      asleepLabels (State.boot {})).any (fun state => state.hasStarted &&
        (state.asleep? 4).any fun item => decide (item.attempt = 1)) = true := by
    decide +kernel
  obtain ⟨state, run, tested⟩ := exists_run_of_executeChecked checks passes
  simp only [Bool.and_eq_true, Option.any_eq_true, decide_eq_true_eq] at tested
  obtain ⟨hasStarted, item, asleep, first⟩ := tested
  have started := State.started_of_hasStarted hasStarted
  obtain ⟨row, present, sameKey, encodes, counts⟩ :=
    (disk_mirrors_memory oneWorker {} 0 (fun _ row => by cases row) state run started).2 item
      (waiting_of_asleep? asleep)
  exact ⟨state, item, run, started, first, row, present, sameKey, encodes, counts.trans first⟩

end HardenedClient
