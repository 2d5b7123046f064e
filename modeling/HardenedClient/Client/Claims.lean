import HardenedClient.Client.Backing
import HardenedClient.Client.Moves
import HardenedClient.Foundation.Journal

/-!
# Who takes a key and who gives it back

A key is busy while a pending future is registered for it, stored while the table
has its row, and worked on while an item of it is live. Each changes in a few kinds
of steps only, so all three can be read off the moves that led to the state.
-/

namespace HardenedClient

open Foundation

/-- A move with the state it was made in. -/
abbrev Moment := State × Label

/-- The moments of a run. -/
def moments (before : State) (label : Label) (_ : State) : List Moment := [(before, label)]

/-- The key is submitted, or it is a row's whose turn has come in the recovery. -/
inductive Claims (env : Env) (key : Key) : Moment → Prop
  | submitted {state : State} {label : Label} {request : Request}
      (submits : state.submitted? label = some request)
      (hashes : request.idempotencyKey? env.python = some key) :
      Claims env key (state, label)
  | recovered {state : State} {label : Label} {row : InflightRow}
      (recovers : state.recovered? label = some row)
      (isKey : row.idempotencyKey = key) :
      Claims env key (state, label)

/-- A caller that awaits the pending future of the key is cancelled, a worker settles
the key, or the process ends. -/
inductive Releases (key : Key) : Moment → Prop
  | cancelled {state : State} {id : ℕ} {replayed : Option ℕ} {future : ℕ}
      (current : state.tasks id = some (.caller replayed (.awaiting key future)))
      (pending : state.dedup.futures future = .pending) :
      Releases key (state, .cancel id)
  | settled {state : State} {id : ℕ} {item : QueueItem} {point : HandlePoint}
      (current : state.tasks id = some (.worker (.handling item point)))
      (settles : point.settles = true)
      (isKey : item.key = key) :
      Releases key (state, .step id .proceed)
  | crashed {state : State} : Releases key (state, .crash)

/-- A submission writes the row of the key. -/
inductive Stores (key : Key) : Moment → Prop
  | upserted {state : State} {id : ℕ} {replayed : Option ℕ} {request : DurableRequest}
      {future : ℕ}
      (current : state.tasks id = some (.caller replayed (.upserting request future)))
      (connected : state.connected = true)
      (isKey : request.key = key) :
      Stores key (state, .step id .proceed)

/-- A worker deletes the row of the key. -/
inductive Removes (key : Key) : Moment → Prop
  | deleted {state : State} {id : ℕ} {item : QueueItem} {point : HandlePoint}
      (current : state.tasks id = some (.worker (.handling item point)))
      (deletes : point.deletes = true)
      (connected : state.connected = true)
      (isKey : item.key = key) :
      Removes key (state, .step id .proceed)

/-- A task takes on a job: an owner whose request can be stored, or a `start()` call for
a row whose key is free. -/
inductive TakesOn (env : Env) (job : Job Key) : Moment → Prop
  | submitted {state : State} {label : Label} {request : Request} {durable : DurableRequest}
      (submits : state.submitted? label = some request)
      (packed : request.durable? env.python = some durable)
      (free : state.dedup.pendingFuture? durable.key = none)
      (isJob : job = ⟨durable.key, state.dedup.created⟩) :
      TakesOn env job (state, label)
  | recovered {state : State} {label : Label} {row : InflightRow}
      (recovers : state.recovered? label = some row)
      (free : state.dedup.pendingFuture? row.idempotencyKey = none)
      (isJob : job = ⟨row.payload.request.key, state.dedup.created⟩) :
      TakesOn env job (state, label)

/-- A worker settles the job, a task loses it, or the process ends. -/
inductive LetsGo (env : Env) (job : Job Key) : Moment → Prop
  | settled {state : State} {id : ℕ} {item : QueueItem} {point : HandlePoint}
      (current : state.tasks id = some (.worker (.handling item point)))
      (settles : point.settles = true)
      (isJob : item.job = job) :
      LetsGo env job (state, .step id .proceed)
  | lost {state : State} {label : Label} {id : ℕ}
      (spills : Spills env state label id)
      (carries : state.flights.carried id = some job) :
      LetsGo env job (state, label)
  | crashed {state : State} : LetsGo env job (state, .crash)

namespace State

variable {env : Env} {state next : State} {label : Label} {id : ℕ} {key : Key} {job : Job Key}

/-! ## The registry -/

/-- `_submit` asks the registry for its key. -/
theorem submit_dedup
    (replayed : Option ℕ)
    {request : Request}
    (hashes : request.idempotencyKey? env.python = some key) :
    (state.submit env id replayed request).dedup = (state.dedup.getOrCreate key).1 := by
  unfold submit
  simp only [hashes]
  split
  · next called => rw [called]; rfl
  · next called =>
      rw [called]
      cases request.durable? env.python <;> rfl

/-- The step that hands a request to `_submit` runs it. -/
theorem submitted?_spec
    {request : Request}
    (submits : state.submitted? label = some request)
    (moved : HardenedClient.step env label state = some next) :
    ∃ (base : State) (id : ℕ) (replayed : Option ℕ),
      base.dedup = state.dedup ∧ next = base.submit env id replayed request := by
  unfold submitted? at submits
  split at submits
  · split_ifs at submits with serving
    refine ⟨{ state with spawned := state.spawned + 1 }, state.spawned, none, rfl, ?_⟩
    rw [← Option.some.inj moved, ← Option.some.inj submits]
    simp [callRequest, serving]
  · next id requestId createdAt =>
      split at submits
      · next replayed row current =>
          split_ifs at submits with serving
          refine ⟨state, id, replayed, rfl, ?_⟩
          rw [← Option.some.inj submits]
          simpa [HardenedClient.step, stepTask, current, stepCaller, callRequest, serving]
            using moved.symm
      · cases submits
  · cases submits

/-- The step in which recovery turns to a row is an iteration of its loop. -/
theorem recovered?_spec
    {row : InflightRow}
    (recovers : state.recovered? label = some row)
    (moved : HardenedClient.step env label state = some next) :
    ∃ id rows, next = state.recoverRow id row rows := by
  unfold recovered? at recovers
  split at recovers
  · next id =>
      split at recovers
      · next other rows current =>
          obtain rfl := Option.some.inj recovers
          refine ⟨id, rows, ?_⟩
          simpa [HardenedClient.step, stepTask, current, stepStarter] using moved.symm
      · cases recovers
  · cases recovers

/-- An iteration asks the registry for the key of its row. -/
theorem recoverRow_dedup (state : State) (id : ℕ) (row : InflightRow) (rows : List InflightRow) :
    (state.recoverRow id row rows).dedup =
      (state.dedup.getOrCreate row.idempotencyKey).1 := by
  unfold recoverRow
  split <;> next called => rw [called]; rfl

/-- A key is busy once it is claimed. -/
theorem busy_of_claims
    (claims : Claims env key (state, label))
    (moved : HardenedClient.step env label state = some next) :
    next.dedup.pendingFuture? key ≠ none := by
  cases claims with
  | submitted submits hashes =>
      obtain ⟨base, id, replayed, same, rfl⟩ := submitted?_spec submits moved
      rw [submit_dedup replayed hashes]
      exact base.dedup.pendingFuture?_getOrCreate_ne_none key
  | recovered recovers isKey =>
      obtain ⟨id, rows, rfl⟩ := recovered?_spec recovers moved
      rw [recoverRow_dedup, isKey]
      exact state.dedup.pendingFuture?_getOrCreate_ne_none key

/-- A key is free once it is released. -/
theorem free_of_releases
    (sound : state.flights.Sound)
    (releases : Releases key (state, label))
    (moved : HardenedClient.step env label state = some next) :
    next.dedup.pendingFuture? key = none := by
  cases releases with
  | crashed =>
      rw [← Option.some.inj moved]
      rfl
  | @cancelled _ id replayed future current pending =>
      have registered : state.dedup.inflight key = some future :=
        sound.held_registered id ⟨key, future⟩ (by simp [flights, current, Task.claim?])
          ((Future.promise_eq_pending_iff _).mpr pending)
      have dedup : state.dedup.cancel future = next.dedup := by
        simp only [HardenedClient.step, cancelTask, current, Option.some.injEq] at moved
        rw [← moved]
        rfl
      rw [← dedup, InFlightRegistry.pendingFuture?, InFlightRegistry.cancel_inflight, registered]
      simp [InFlightRegistry.cancel_futures, pending]
  | @settled _ id item point current settles isKey =>
      have settled : ∃ outcome, next.dedup = state.dedup.settle key outcome := by
        simp only [HardenedClient.step, stepTask, current, stepWorker] at moved
        cases point <;> cases settles <;>
          simp only [stepHandle, Option.some.injEq] at moved <;>
          exact ⟨_, by rw [← moved, ← isKey, settleKey_endHandle_dedup]⟩
      obtain ⟨outcome, dedup⟩ := settled
      rw [dedup, InFlightRegistry.pendingFuture?]
      simp [InFlightRegistry.settle]

/-- A key is free after a step that neither claims it nor finds it busy. -/
theorem claims_of_busy
    (orderly : state.Orderly)
    (moved : HardenedClient.step env label state = some next)
    (busy : next.dedup.pendingFuture? key ≠ none) :
    state.dedup.pendingFuture? key ≠ none ∨ Claims env key (state, label) := by
  obtain ⟨action, move, traces⟩ := step_movesFlights orderly.tidy moved
  rw [← busy_iff] at busy ⊢
  rcases move.busy_cases orderly.sound busy with ⟨wasBusy, _⟩ | ⟨_, agent, carry, hold, rfl⟩
  · exact Or.inl wasBusy
  · right
    rcases traces with ⟨request, submits, hashes, _⟩ | ⟨row, recovers, rfl, _⟩
    · exact .submitted submits hashes
    · exact .recovered recovers rfl

/-- Cancelling a caller leaves every key busy but the one whose pending future it
awaits. -/
theorem releases_of_cancelled
    (sound : state.flights.Sound)
    (moved : HardenedClient.step env (.cancel id) state = some next)
    (busy : state.dedup.pendingFuture? key ≠ none) :
    next.dedup.pendingFuture? key ≠ none ∨ Releases key (state, .cancel id) := by
  obtain ⟨future, isPending⟩ := Option.ne_none_iff_exists'.mp busy
  obtain ⟨registered, pending⟩ := (state.dedup.pendingFuture?_eq_some_iff key future).mp isPending
  by_cases awaits : ∃ replayed other,
      state.tasks id = some (.caller replayed (.awaiting other future))
  · obtain ⟨replayed, other, current⟩ := awaits
    have awaited : state.dedup.inflight other = some future :=
      sound.held_registered id ⟨other, future⟩ (by simp [flights, current, Task.claim?])
        ((Future.promise_eq_pending_iff _).mpr pending)
    obtain rfl : other = key := sound.registered_inj _ _ _ awaited registered
    exact Or.inr (.cancelled current pending)
  · left
    have kept : next.dedup.inflight key = some future ∧ next.dedup.futures future = .pending := by
      simp only [HardenedClient.step, cancelTask] at moved
      split at moved <;> cases moved
      · next replayed other cancelled current =>
          have apart : future ≠ cancelled := by
            rintro rfl
            exact awaits ⟨replayed, other, current⟩
          simp [setTask, InFlightRegistry.cancel_futures, apart, registered, pending]
      all_goals exact ⟨registered, pending⟩
    rw [(next.dedup.pendingFuture?_eq_some_iff key future).mpr kept]
    simp

/-- A busy key stays busy unless it is released. -/
theorem releases_of_busy
    (sound : state.flights.Sound)
    (moved : HardenedClient.step env label state = some next)
    (busy : state.dedup.pendingFuture? key ≠ none) :
    next.dedup.pendingFuture? key ≠ none ∨ Releases key (state, label) := by
  have registers : ∀ dedup, Registers state.dedup dedup → dedup.pendingFuture? key ≠ none := by
    intro dedup called
    cases called with
    | same => exact busy
    | called other =>
        by_cases same : key = other
        · exact same ▸ state.dedup.pendingFuture?_getOrCreate_ne_none key
        · rw [state.dedup.pendingFuture?_getOrCreate_of_ne
            (fun future => sound.registered_lt key future) same]
          exact busy
  cases step_stepped moved with
  | crash => exact Or.inr .crashed
  | request called | caller _ called | starter _ called => exact Or.inl (registers _ called)
  | cancelCaller => exact releases_of_cancelled sound moved busy
  | @handled id choice item point next current inside handled =>
      have settles : ∀ outcome, next.dedup = state.dedup.settle item.key outcome →
          point.settles = true → choice = .proceed →
          next.dedup.pendingFuture? key ≠ none ∨ Releases key (state, .step id choice) := by
        rintro outcome dedup isSettling rfl
        by_cases same : item.key = key
        · exact Or.inr (.settled current isSettling same)
        · left
          rw [dedup, state.dedup.pendingFuture?_settle_of_ne _ _ (Ne.symm same)]
          · exact busy
          · intro future mine theirs
            exact same (sound.registered_inj _ _ _ theirs mine)
      have proceeds : point.settles = true → choice = .proceed := by
        intro isSettling
        simp only [HardenedClient.step, stepTask, current, stepWorker] at moved
        exact choice_of_settles isSettling moved
      cases handled with
      | resolved | rejected =>
          exact settles _ (settleKey_endHandle_dedup ..) rfl (proceeds rfl)
      | _ => exact Or.inl busy
  | escaped _ _ escaped =>
      obtain ⟨_⟩ := escaped
      exact Or.inl busy
  | _ => exact Or.inl busy

/-- What a step does to a key: a claim takes it, and a release gives it back. -/
theorem free_step_iff
    (orderly : state.Orderly)
    (moved : HardenedClient.step env label state = some next) :
    next.dedup.pendingFuture? key = none ↔
      ¬ Claims env key (state, label) ∧
        (Releases key (state, label) ∨ state.dedup.pendingFuture? key = none) := by
  constructor
  · intro free
    refine ⟨fun claims => busy_of_claims claims moved free, ?_⟩
    by_contra neither
    obtain ⟨unreleased, busy⟩ := not_or.mp neither
    rcases releases_of_busy orderly.sound moved busy with stillBusy | releases
    · exact stillBusy free
    · exact unreleased releases
  · rintro ⟨unclaimed, released⟩
    rcases released with releases | free
    · exact free_of_releases orderly.sound releases moved
    · by_contra busy
      rcases claims_of_busy orderly moved busy with wasBusy | claims
      · exact wasBusy free
      · exact unclaimed claims

/-! ## The table of rows -/

/-- A step leaves the row of a key where it was, writes it or deletes it. -/
theorem stored_cases
    (key : Key)
    (moved : HardenedClient.step env label state = some next) :
    (next.tables.inflight.Has key ↔ state.tables.inflight.Has key) ∨
      next.tables.inflight.Has key ∧ Stores key (state, label) ∨
      ¬ next.tables.inflight.Has key ∧ Removes key (state, label) := by
  cases step_stepped moved with
  | @upserted id replayed request future current connected =>
      have upserted := state.tables.has_upsertInflight request state.now key
      by_cases isKey : key = request.key
      · exact Or.inr (Or.inl ⟨upserted.mpr (Or.inl isKey), .upserted current connected isKey.symm⟩)
      · exact Or.inl (upserted.trans (or_iff_right isKey))
  | @handled id choice item point next current inside handled =>
      have commits : point.deletes = true → choice = .proceed ∧ state.connected = true := by
        intro deletes
        simp only [HardenedClient.step, stepTask, current, stepWorker] at moved
        cases point <;> cases deletes <;> cases choice <;>
          simp only [stepHandle, reduceCtorEq] at moved <;>
          first
          | exact ⟨rfl, by simpa [Escapes] using inside⟩
          | exact absurd trivial inside
      cases handled with
      | deleted | retired =>
          obtain ⟨rfl, connected⟩ := commits rfl
          have deleted := state.tables.has_deleteInflight item.key key
          by_cases isKey : key = item.key
          · exact Or.inr (Or.inr ⟨fun stored => (deleted.mp stored).2 isKey,
              .deleted current rfl connected isKey.symm⟩)
          · exact Or.inl (deleted.trans (and_iff_left isKey))
      | @incremented exc =>
          exact Or.inl (state.tables.has_incrementRetry item.key key exc.message state.now)
      | resolved | rejected =>
          rw [settleKey_eq]
          exact Or.inl Iff.rfl
      | _ => exact Or.inl Iff.rfl
  | escaped _ _ escaped =>
      obtain ⟨_⟩ := escaped
      exact Or.inl Iff.rfl
  | _ => exact Or.inl Iff.rfl

theorem stored_of_stores
    (stores : Stores key (state, label))
    (moved : HardenedClient.step env label state = some next) :
    next.tables.inflight.Has key := by
  cases stores with
  | @upserted _ id replayed request future current connected isKey =>
      simp only [HardenedClient.step, stepTask, current, stepCaller, connected, if_true,
        Option.some.injEq] at moved
      rw [← moved, ← isKey]
      exact (state.tables.has_upsertInflight request state.now request.key).mpr (Or.inl rfl)

theorem unstored_of_removes
    (removes : Removes key (state, label))
    (moved : HardenedClient.step env label state = some next) :
    ¬ next.tables.inflight.Has key := by
  cases removes with
  | @deleted _ id item point current deletes connected isKey =>
      have deleted : next.tables = state.tables.deleteInflight key := by
        simp only [HardenedClient.step, stepTask, current, stepWorker] at moved
        cases point <;> cases deletes <;>
          simp only [stepHandle, connected, if_true, Option.some.injEq] at moved <;>
          rw [← moved, ← isKey] <;> rfl
      simp [deleted]

/-- What a step does to the row of a key: a submission writes it, and a worker deletes
it. -/
theorem unstored_step_iff
    (moved : HardenedClient.step env label state = some next) :
    ¬ next.tables.inflight.Has key ↔
      ¬ Stores key (state, label) ∧
        (Removes key (state, label) ∨ ¬ state.tables.inflight.Has key) := by
  constructor
  · intro unstored
    refine ⟨fun stores => unstored (stored_of_stores stores moved), ?_⟩
    rcases stored_cases key moved with same | ⟨stored, _⟩ | ⟨_, removes⟩
    · exact Or.inr fun stored => unstored (same.mpr stored)
    · exact absurd stored unstored
    · exact Or.inl removes
  · rintro ⟨unwritten, removed⟩
    rcases removed with removes | unstored
    · exact unstored_of_removes removes moved
    · rcases stored_cases key moved with same | ⟨_, stores⟩ | ⟨gone, _⟩
      · exact fun stored => unstored (same.mp stored)
      · exact absurd stores unwritten
      · exact gone

/-! ## Jobs -/

/-- A job that is taken on is live. -/
theorem live_of_takesOn
    (takes : TakesOn env job (state, label))
    (moved : HardenedClient.step env label state = some next) :
    next.flights.Live job := by
  cases takes with
  | @submitted _ _ request durable submits packed free isJob =>
      obtain ⟨base, id, replayed, same, rfl⟩ := submitted?_spec submits moved
      rw [← same] at free isJob
      have hashes := Request.idempotencyKey?_of_durable? packed
      refine ⟨.agent id, ?_⟩
      simp only [jobAt_flights, submit, hashes, InFlightRegistry.getOrCreate, free]
      simp [packed, itemAt, Task.item?, QueueItem.job, QueueItem.key, isJob]
  | @recovered _ _ row recovers free isJob =>
      obtain ⟨id, rows, rfl⟩ := recovered?_spec recovers moved
      refine ⟨.agent id, ?_⟩
      simp only [jobAt_flights, recoverRow, InFlightRegistry.getOrCreate, free]
      simp [itemAt, Task.item?, QueueItem.job, QueueItem.key, isJob]

/-- A live job was live before, or is taken on. -/
theorem takesOn_of_live
    (orderly : state.Orderly)
    (moved : HardenedClient.step env label state = some next)
    (live : next.flights.Live job) :
    state.flights.Live job ∨ TakesOn env job (state, label) := by
  obtain ⟨action, move, traces⟩ := step_movesFlights orderly.tidy moved
  by_cases owned : ∃ agent key carry hold, action = .own agent key carry hold
  · obtain ⟨agent, key, carry, hold, rfl⟩ := owned
    generalize next.flights = flights at move live
    cases move with
    | own free unladen =>
      rw [busy_iff, not_not] at free
      rcases Flights.live_own live with there | ⟨carries, isNew⟩
      · exact Or.inl there
      right
      rcases traces with ⟨request, submits, hashes, packs⟩ | ⟨row, recovers, rfl, isOwn⟩
      · obtain ⟨durable, packed, isKey⟩ := Option.map_eq_some_iff.mp (packs.symm.trans carries)
        obtain rfl := Request.key_of_durable? hashes packed
        exact .submitted submits packed free (Job.ext isKey.symm isNew)
      · exact .recovered recovers free
          (Job.ext (Option.some.inj (carries.symm.trans isOwn)) isNew)
  · obtain ⟨origin, relocates⟩ := move.relocates fun agent key carry hold isOwn =>
      owned ⟨agent, key, carry, hold, isOwn⟩
    exact Or.inl (relocates.live live)

/-- A live job stays live unless it is let go. -/
theorem letsGo_of_live
    (orderly : state.Orderly)
    (moved : HardenedClient.step env label state = some next)
    (live : state.flights.Live job) :
    next.flights.Live job ∨ LetsGo env job (state, label) := by
  obtain ⟨action, move, traces⟩ := step_movesFlights orderly.tidy moved
  by_cases letsGo : LetsGo env job (state, label)
  · exact Or.inr letsGo
  refine Or.inl (move.live ?_ ?_ live)
  · rintro agent (rfl | rfl) carries
    · exact letsGo (.lost traces carries)
    · obtain ⟨rfl, item, point, current, settles⟩ := traces
      refine letsGo (.settled current settles ?_)
      simpa [flights, current, Task.item?] using carries
  · rintro rfl
    obtain rfl := traces
    exact letsGo .crashed

/-- A task that spills has no job any more, and the others keep theirs. -/
theorem flights_of_spills
    (spills : Spills env state label id)
    (carries : state.flights.carried id = some job)
    (moved : HardenedClient.step env label state = some next) :
    next.flights.queued = state.flights.queued ∧
      next.flights.carried = Function.update state.flights.carried id none := by
  have ended : ∀ {after : State} {task : Task}, after = next →
      after.tasks = Function.update state.tasks id (some task) → task.item? = none →
      after.queue.items = state.queue.items →
      next.flights.queued = state.flights.queued ∧
        next.flights.carried = Function.update state.flights.carried id none := by
    rintro after task rfl tasks unladen items
    refine ⟨by rw [flights, items]; rfl, ?_⟩
    funext other
    simp only [flights, tasks, Function.update_apply]
    split_ifs with isActor
    · simp [unladen]
    · rfl
  cases spills with
  | @unsaved _ replayed request future choice current fails =>
      simp only [HardenedClient.step, stepTask, current, stepCaller] at moved
      cases choice <;> simp only [reduceCtorEq] at moved
      · rw [fails rfl] at moved
        exact ended (Option.some.inj moved) rfl rfl rfl
      · exact ended (Option.some.inj moved) rfl rfl rfl
  | cancelled =>
      simp only [HardenedClient.step, cancelTask] at moved
      split at moved <;> try cases moved
      · next current => simp [flights, current, Task.item?] at carries
      all_goals exact ended rfl rfl rfl rfl
  | @escaped _ item point choice current escapes =>
      simp only [HardenedClient.step, stepTask, current, stepWorker] at moved
      rcases stepHandle_ends moved with ⟨_, escaped⟩ | ⟨inside, _⟩
      · obtain ⟨_⟩ := escaped
        exact ended rfl rfl rfl rfl
      · exact absurd escapes inside
  | workerCancelled =>
      simp only [HardenedClient.step, cancelWorker] at moved
      split_ifs at moved
      split at moved <;> cases moved
      all_goals exact ended rfl rfl rfl rfl
  | @stopping _ item wakeAt current isStopping =>
      simp only [HardenedClient.step, stepTask, current, stepReschedule, isStopping] at moved
      split_ifs at moved
      exact ended (Option.some.inj moved) rfl rfl rfl

/-- A job that is let go is not live any more. -/
theorem not_live_of_letsGo
    (sound : state.flights.Sound)
    (letsGo : LetsGo env job (state, label))
    (moved : HardenedClient.step env label state = some next) :
    ¬ next.flights.Live job := by
  intro live
  cases letsGo with
  | crashed =>
      rw [← Option.some.inj moved] at live
      exact absurd live (by simp [Flights.live_iff, Flights.initial, flights_boot])
  | @settled _ id item point current settles isJob =>
      have settled : next.flights = state.flights.settle id item.job := by
        simp only [HardenedClient.step, stepTask, current, stepWorker] at moved
        cases point <;> cases settles <;>
          simp only [stepHandle, Option.some.injEq] at moved <;>
          rw [← moved] <;> exact flights_settle current rfl
      rw [settled] at live
      refine (sound.live_settle ?_ live).2 (congrArg Job.ticket isJob.symm)
      simp [flights, current, Task.item?]
  | @lost _ _ id spills carries =>
      obtain ⟨queued, carried⟩ := flights_of_spills spills carries moved
      rw [Flights.live_iff, queued, carried] at live
      have only : ∀ place, state.flights.jobAt place = some job → place = .agent id :=
        fun place found => sound.job_unique place (.agent id) job job found carries rfl
      rcases live with waiting | ⟨other, elsewhere⟩
      · obtain ⟨position, found⟩ := List.getElem?_of_mem waiting
        cases only (.queue position) found
      · rw [Function.update_apply] at elsewhere
        split_ifs at elsewhere with isAgent
        exact isAgent (Place.agent.inj (only (.agent other) elsewhere))

/-- What a step does to a job: a task takes it on, and one that is let go is gone. -/
theorem idle_step_iff
    (orderly : state.Orderly)
    (moved : HardenedClient.step env label state = some next) :
    ¬ next.flights.Live job ↔
      ¬ TakesOn env job (state, label) ∧
        (LetsGo env job (state, label) ∨ ¬ state.flights.Live job) := by
  constructor
  · intro idle
    refine ⟨fun takes => idle (live_of_takesOn takes moved), ?_⟩
    by_cases live : state.flights.Live job
    · exact Or.inl ((letsGo_of_live orderly moved live).resolve_left idle)
    · exact Or.inr live
  · rintro ⟨untaken, letsGo | idle⟩ live
    · exact not_live_of_letsGo orderly.sound letsGo moved live
    · rcases takesOn_of_live orderly moved live with wasLive | takes
      · exact idle wasLive
      · exact untaken takes

end State

/-! ## Runs -/

section Runs

variable {env : Env} {tables : Tables} {now : ℚ} {reached : Journaled State Moment}

/-- A key is free exactly when every claim on it was released. -/
theorem free_iff_undone
    (key : Key)
    (run : Run (record (step env) moments) (fun _ _ => True) ⟨State.boot tables now, []⟩ reached) :
    reached.state.dedup.pendingFuture? key = none ↔
      Undone (Claims env key) (Releases key) reached.log := by
  have undone := Run.undone_iff (fun _ _ _ orderly moved => State.Orderly.step orderly moved)
    (fun state => state.dedup.pendingFuture? key = none)
    (fun _ _ _ orderly moved => State.free_step_iff orderly moved) (.boot tables now []) run
  have free : (State.boot tables now).dedup.pendingFuture? key = none := rfl
  simpa [free] using undone

/-- A key has no row exactly when every row written under it was deleted, and so was the
one there was at the start. -/
theorem unstored_iff_undone
    (key : Key)
    (run : Run (record (step env) moments) (fun _ _ => True) ⟨State.boot tables now, []⟩ reached) :
    ¬ reached.state.tables.inflight.Has key ↔
      Undone (Stores key) (Removes key) reached.log ∧
        (tables.inflight.Has key → ∃ moment ∈ reached.log, Removes key moment) := by
  have undone := Run.undone_iff (fun _ _ _ (_ : True) _ => trivial)
    (fun state => ¬ state.tables.inflight.Has key)
    (fun _ _ _ _ moved => State.unstored_step_iff moved) trivial run
  rw [undone, not_not]
  rfl

/-- A job is live exactly when it was taken on and not let go since. -/
theorem live_iff_not_undone
    (job : Job Key)
    (run : Run (record (step env) moments) (fun _ _ => True) ⟨State.boot tables now, []⟩ reached) :
    reached.state.flights.Live job ↔
      ¬ Undone (TakesOn env job) (LetsGo env job) reached.log := by
  have undone := Run.undone_iff (fun _ _ _ orderly moved => State.Orderly.step orderly moved)
    (fun state => ¬ state.flights.Live job)
    (fun _ _ _ orderly moved => State.idle_step_iff orderly moved) (.boot tables now []) run
  have idle : ¬ (State.boot tables now).flights.Live job := by
    simp [Flights.live_iff, State.flights_boot, Flights.initial]
  exact (not_iff_comm.mp (by simpa [idle] using undone)).symm

end Runs

end HardenedClient
