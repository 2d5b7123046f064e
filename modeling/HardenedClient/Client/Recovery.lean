import HardenedClient.Client.Moves

/-!
# The recovery loop

`start()` on its own: the rows that `_recover_inflight` re-enqueues are those
without a pending future registered for their key, in the order of the listing.
Other tasks may run meanwhile as long as they leave alone what the loop reads
and writes.
-/

namespace HardenedClient

open Foundation

/-- The key and the attempt of a work item. -/
def QueueItem.work (item : QueueItem) : Key × ℕ := (item.key, item.attempt)

/-- The key and the attempt of the item a row is re-enqueued as. -/
def InflightRow.work (row : InflightRow) : Key × ℕ := (row.payload.request.key, row.retryCount)

namespace State

/-- The work on the queue. -/
def works (state : State) : List (Key × ℕ) := state.queue.items.map QueueItem.work

/-- No pending future is registered for the key of a row. -/
def isOrphan (state : State) (row : InflightRow) : Bool :=
  (state.dedup.pendingFuture? row.idempotencyKey).isNone

/-- The rows that the recovery loop re-enqueues. -/
def orphans (state : State) : List InflightRow :=
  state.tables.listInflight.filter state.isOrphan

end State

/-- A step of another task that leaves alone what the recovery loop of the task
`id` reads and writes. -/
structure Aside (id : ℕ) (state next : State) : Prop where
  task : next.tasks id = state.tasks id
  items : next.queue.items = state.queue.items
  pending : ∀ key, next.dedup.pendingFuture? key = state.dedup.pendingFuture? key
  inflight : next.tables.inflight = state.tables.inflight
  connected : next.connected = state.connected

/-- The `start()` call `id` runs on its own. -/
def Alone (env : Env) (id : ℕ) (state : State) (label : Label) : Prop :=
  label = .step id .proceed ∨ ∀ next, step env label state = some next → Aside id state next

/-- What the loop has done by the time it has re-enqueued the orphans among
`done` and has still to look at `rows`. -/
structure Recovers (base : State) (done rows : List InflightRow) (state : State) : Prop where
  works : state.works = base.works ++ (done.filter base.isOrphan).map InflightRow.work
  untouched : ∀ row ∈ rows, state.isOrphan row = base.isOrphan row

/-- Where a `start()` call is, compared with the state in which it was made. -/
inductive Recovery (size : ℕ) (base state : State) : StartPoint → Prop
  | opening
      (recovers : Recovers base [] base.tables.listInflight state)
      (inflight : state.tables.inflight = base.tables.inflight) :
      Recovery size base state .opening
  | preparing
      (recovers : Recovers base [] base.tables.listInflight state)
      (inflight : state.tables.inflight = base.tables.inflight)
      (connected : state.connected = true) :
      Recovery size base state .preparing
  | listing
      (recovers : Recovers base [] base.tables.listInflight state)
      (inflight : state.tables.inflight = base.tables.inflight)
      (connected : state.connected = true) :
      Recovery size base state .listing
  | recovering {done rows : List InflightRow}
      (listed : base.tables.listInflight = done ++ rows)
      (recovers : Recovers base done rows state) :
      Recovery size base state (.recovering rows)
  | reenqueueing {done rows : List InflightRow} {row : InflightRow} {item : QueueItem}
      (listed : base.tables.listInflight = done ++ row :: rows)
      (orphan : base.isOrphan row = true)
      (same : item.work = row.work)
      (recovers : Recovers base done rows state) :
      Recovery size base state (.reenqueueing item rows)
  | started (fits : base.queue.items.length + base.orphans.length ≤ size) :
      Recovery size base state .started

variable {env : Env} {base state next : State} {id size : ℕ}

theorem listInflight_eq_of_inflight
    {tables other : Tables}
    (same : tables.inflight = other.inflight) :
    tables.listInflight = other.listInflight := by
  rw [Tables.listInflight, same, Tables.listInflight]

/-- No two listed rows have one key. -/
theorem listInflight_keys_nodup (tables : Tables) :
    (tables.listInflight.map InflightRow.idempotencyKey).Nodup :=
  (tables.listInflight_perm.map _).nodup_iff.mpr tables.inflight.distinct

theorem Recovers.congr
    {done rows : List InflightRow}
    (recovers : Recovers base done rows state)
    (items : next.queue.items = state.queue.items)
    (pending : ∀ key, next.dedup.pendingFuture? key = state.dedup.pendingFuture? key) :
    Recovers base done rows next where
  works := by rw [← recovers.works, State.works, State.works, items]
  untouched := fun row present => by
    rw [← recovers.untouched row present, State.isOrphan, State.isOrphan, pending]

theorem Recovery.aside
    {point : StartPoint}
    (recovery : Recovery size base state point)
    (aside : Aside id state next) :
    Recovery size base next point := by
  have keeps : ∀ {done rows}, Recovers base done rows state → Recovers base done rows next :=
    fun recovers => recovers.congr aside.items aside.pending
  cases recovery with
  | opening recovers inflight =>
      exact .opening (keeps recovers) (aside.inflight.trans inflight)
  | preparing recovers inflight connected =>
      exact .preparing (keeps recovers) (aside.inflight.trans inflight)
        (aside.connected.trans connected)
  | listing recovers inflight connected =>
      exact .listing (keeps recovers) (aside.inflight.trans inflight)
        (aside.connected.trans connected)
  | recovering listed recovers => exact .recovering listed (keeps recovers)
  | reenqueueing listed orphan same recovers =>
      exact .reenqueueing listed orphan same (keeps recovers)
  | started fits => exact .started fits

/-- The loop looks at one row: an orphan is registered and re-enqueued next, any
other row is passed over. -/
theorem Recovery.recoverRow
    {done rows : List InflightRow}
    {row : InflightRow}
    (orderly : state.Orderly)
    (listed : base.tables.listInflight = done ++ row :: rows)
    (recovers : Recovers base done (row :: rows) state) :
    ∃ point, (state.recoverRow id row rows).tasks id = some (.starter point) ∧
      Recovery size base (state.recoverRow id row rows) point := by
  have distinct := listInflight_keys_nodup base.tables
  rw [listed, List.map_append, List.map_cons, List.nodup_append, List.nodup_cons] at distinct
  have others : ∀ other ∈ rows,
      (state.dedup.getOrCreate row.idempotencyKey).1.pendingFuture? other.idempotencyKey =
        state.dedup.pendingFuture? other.idempotencyKey := by
    intro other present
    apply state.dedup.pendingFuture?_getOrCreate_of_ne
    · exact orderly.sound.registered_lt other.idempotencyKey
    · intro same
      exact distinct.2.1.1 (same ▸ List.mem_map_of_mem present)
  have untouched := recovers.untouched row List.mem_cons_self
  have later := fun other present => recovers.untouched other (List.mem_cons_of_mem row present)
  rcases state.dedup.getOrCreate_cases row.idempotencyKey with
    ⟨existing, registered, pending, called⟩ | ⟨free, called⟩
  · have found : state.dedup.pendingFuture? row.idempotencyKey = some existing :=
      (state.dedup.pendingFuture?_eq_some_iff _ _).mpr ⟨registered, pending⟩
    have notOrphan : base.isOrphan row = false := by
      rw [← untouched, State.isOrphan, found]
      rfl
    refine ⟨.recovering rows, by simp [State.recoverRow, called, State.setTask], ?_⟩
    refine @Recovery.recovering size base _ (done ++ [row]) rows (by simp [listed]) ⟨?_, ?_⟩
    · rw [List.filter_append, List.filter_singleton, notOrphan]
      simpa [State.recoverRow, called, State.setTask, State.works] using recovers.works
    · intro other present
      rw [← later other present]
      simp [State.recoverRow, called, State.setTask, State.isOrphan, InFlightRegistry.pendingFuture?]
  · have orphan : base.isOrphan row = true := by
      rw [← untouched, State.isOrphan, free]
      rfl
    refine ⟨.reenqueueing ⟨row.payload.request, row.retryCount, state.dedup.created⟩ rows,
      by simp [State.recoverRow, called, State.setTask], ?_⟩
    refine .reenqueueing listed orphan rfl ⟨?_, ?_⟩
    · simpa [State.recoverRow, called, State.setTask, State.works] using recovers.works
    · intro other present
      have kept := others other present
      rw [called] at kept
      rw [← later other present]
      simp only [State.recoverRow, called, State.setTask, State.isOrphan, kept]

theorem Recovers.length_items
    {done rows : List InflightRow}
    (recovers : Recovers base done rows state) :
    state.queue.items.length =
      base.queue.items.length + (done.filter base.isOrphan).length := by
  have lengths := congrArg List.length recovers.works
  simpa [State.works] using lengths

/-- A step of the `start()` call itself. -/
theorem Recovery.own
    {point : StartPoint}
    (orderly : state.Orderly)
    (bounded : state.queue.items.length ≤ env.config.queue.maxSize)
    (recovery : Recovery env.config.queue.maxSize base state point)
    (moved : state.stepStarter env id point .proceed = some next) :
    ∃ after, next.tasks id = some (.starter after) ∧
      Recovery env.config.queue.maxSize base next after := by
  cases recovery with
  | opening recovers inflight =>
      rw [← Option.some.inj moved]
      exact ⟨.preparing, by simp [State.setTask],
        .preparing (recovers.congr rfl fun _ => rfl) inflight rfl⟩
  | preparing recovers inflight connected =>
      rw [← Option.some.inj moved]
      exact ⟨.listing, by simp [State.setTask],
        .listing (recovers.congr rfl fun _ => rfl) inflight connected⟩
  | listing recovers inflight connected =>
      simp only [State.stepStarter, connected, if_true, Option.some.injEq] at moved
      rw [← moved]
      refine ⟨.recovering state.tables.listInflight, by simp [State.setTask], ?_⟩
      rw [listInflight_eq_of_inflight inflight]
      exact .recovering rfl (recovers.congr rfl fun _ => rfl)
  | @recovering done rows listed recovers =>
      cases rows with
      | cons row rows =>
          rw [← Option.some.inj moved]
          exact Recovery.recoverRow orderly listed recovers
      | nil =>
          rw [← Option.some.inj moved]
          refine ⟨.started, by simp [State.online, State.setTask], .started ?_⟩
          rw [State.orphans, listed, List.append_nil, ← recovers.length_items]
          exact bounded
  | @reenqueueing done rows row item listed orphan same recovers =>
      simp only [State.stepStarter] at moved
      split_ifs at moved
      rw [← Option.some.inj moved]
      refine ⟨.recovering rows, by simp [State.setTask], ?_⟩
      refine @Recovery.recovering _ base _ (done ++ [row]) rows (by simp [listed])
        ⟨?_, recovers.untouched⟩
      have works : state.works ++ [item.work] =
          base.works ++ ((done ++ [row]).filter base.isOrphan).map InflightRow.work := by
        rw [recovers.works, List.filter_append, List.filter_singleton, orphan, same]
        simp
      simpa [State.works, State.setTask] using works
  | started => cases moved

/-! ## Runs of a `start()` call on its own -/

/-- The queue never holds more than its capacity. -/
theorem Stepped.bounded
    {label : Label}
    (stepped : Stepped env state label next)
    (bounded : state.queue.items.length ≤ env.config.queue.maxSize) :
    next.queue.items.length ≤ env.config.queue.maxSize := by
  have puts : ∀ {queue}, Puts env state.queue queue →
      queue.items.length ≤ env.config.queue.maxSize := by
    rintro queue (_ | ⟨item, room⟩)
    · exact bounded
    · have below := of_decide_eq_true room
      rw [RequestQueue.put_items, List.length_append, List.length_singleton]
      omega
  cases stepped with
  | caller _ _ after | reschedule _ after | starter _ _ after => exact puts after
  | taken _ waiting =>
      rw [waiting, List.length_cons] at bounded
      exact Nat.le_of_succ_le bounded
  | handled _ _ handled =>
      cases handled with
      | resolved | rejected =>
          rw [State.settleKey_eq]
          exact bounded
      | _ => exact bounded
  | escaped _ _ escaped =>
      obtain ⟨_⟩ := escaped
      exact bounded
  | crash => exact Nat.zero_le _
  | _ => exact bounded

/-- A state of a run of the `start()` call `id`, made in `base`. -/
structure Starting (env : Env) (base : State) (id : ℕ) (state : State) : Prop where
  orderly : state.Orderly
  bounded : state.queue.items.length ≤ env.config.queue.maxSize
  recovery : ∃ point, state.tasks id = some (.starter point) ∧
    Recovery env.config.queue.maxSize base state point

theorem Starting.step
    {label : Label}
    (starting : Starting env base id state)
    (alone : Alone env id state label)
    (moved : HardenedClient.step env label state = some next) :
    Starting env base id next := by
  obtain ⟨orderly, bounded, point, current, recovery⟩ := starting
  refine ⟨orderly.step moved, (step_stepped moved).bounded bounded, ?_⟩
  rcases alone with rfl | aside
  · apply recovery.own orderly bounded
    simpa [HardenedClient.step, State.stepTask, current] using moved
  · have others := aside next moved
    exact ⟨point, others.task.trans current, recovery.aside others⟩

/-- The call of `start()` on a client that is not started. -/
theorem Starting.call
    {tables : Tables}
    {now : ℚ}
    (reached : Reachable (HardenedClient.step env) (State.boot tables now) base)
    (stopped : base.session = false)
    (call : HardenedClient.step env .start base = some state) :
    Starting env base base.spawned state := by
  have orderly : base.Orderly := reached.invariant State.Orderly (.boot tables now [])
    fun _ _ _ orderly _ moved => orderly.step moved
  have bounded := reached.invariant
    (fun state => state.queue.items.length ≤ env.config.queue.maxSize) (Nat.zero_le _)
    fun _ _ _ bounded _ moved => (step_stepped moved).bounded bounded
  refine ⟨orderly.step call, (step_stepped call).bounded bounded, ?_⟩
  have unmoved : Recovers base [] base.tables.listInflight base :=
    ⟨by simp, fun _ _ => rfl⟩
  by_cases busy : base.lifecycle = true
  · simp [HardenedClient.step, State.callStart, busy] at call
  by_cases connected : base.connected = true
  · simp only [HardenedClient.step, State.callStart, stopped, busy, connected, if_true,
      Bool.false_eq_true, if_false, Option.some.injEq] at call
    rw [← call]
    exact ⟨.listing, by simp [State.spawn],
      .listing (unmoved.congr rfl fun _ => rfl) rfl rfl⟩
  · simp only [HardenedClient.step, State.callStart, stopped, busy, connected,
      Bool.false_eq_true, if_false, Option.some.injEq] at call
    rw [← call]
    exact ⟨.opening, by simp [State.spawn], .opening (unmoved.congr rfl fun _ => rfl) rfl⟩

theorem Starting.of_run
    {called : State}
    {tables : Tables}
    {now : ℚ}
    (reached : Reachable (HardenedClient.step env) (State.boot tables now) base)
    (stopped : base.session = false)
    (call : HardenedClient.step env .start base = some called)
    (run : Run (HardenedClient.step env) (Alone env base.spawned) called state) :
    Starting env base base.spawned state :=
  run.invariant (Starting env base base.spawned) (.call reached stopped call)
    fun _ _ _ starting alone moved => starting.step alone moved

/-- A check for the steps of a `start()` call on replayed runs. -/
def ownStep (id : ℕ) : Label → Bool
  | .step other .proceed => other = id
  | _ => false

theorem ownStep_sound
    (env : Env)
    (id : ℕ)
    (state : State)
    (label : Label)
    (passes : ownStep id label = true) :
    Alone env id state label := by
  unfold ownStep at passes
  split at passes
  · obtain rfl := of_decide_eq_true passes
    exact Or.inl rfl
  · cases passes

end HardenedClient
