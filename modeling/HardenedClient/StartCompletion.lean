import HardenedClient.Client.Arrivals
import HardenedClient.Client.Recovery
import HardenedClient.Client.Replay

/-!
# Completion of `start()`

The recovery loop puts its rows on a bounded queue before any worker is there to
take them. It gets to its end exactly when the queue has room for all of them,
and while it runs, no other task may take that room.
-/

namespace HardenedClient

open Foundation

/-- The workers have come online. -/
structure Online (env : Env) (id : ℕ) (state : State) : Prop where
  started : state.tasks id = some (.starter .started)
  count : state.workers.length = env.config.queue.workers

/-- The `start()` call `id`, run on its own, never gets to a state from which its
own steps do not lead to the workers coming online. -/
def Completes (env : Env) (id : ℕ) (called : State) : Prop :=
  ∀ state, Run (step env) (Alone env id) called state →
    state.tasks id ≠ some (.starter .started) →
      ∃ final, Run (step env) (fun _ label => label = .step id .proceed) state final ∧
        Online env id final

/-- The number of steps a `start()` call has still to take, when `total` rows are
listed. -/
def StartPoint.remaining (total : ℕ) : StartPoint → ℕ
  | .opening => 2 * total + 4
  | .preparing => 2 * total + 3
  | .listing => 2 * total + 2
  | .recovering rows => 2 * rows.length + 1
  | .reenqueueing _ rows => 2 * rows.length + 2
  | .started | .failed _ => 0

variable {env : Env} {base state next : State} {id size : ℕ}

theorem recoverRow_point (state : State) (id : ℕ) (row : InflightRow) (rows : List InflightRow) :
    (state.recoverRow id row rows).tasks id = some (.starter (.recovering rows)) ∨
      ∃ item, (state.recoverRow id row rows).tasks id =
        some (.starter (.reenqueueing item rows)) := by
  unfold State.recoverRow
  split
  · exact Or.inl (by simp [State.setTask])
  · exact Or.inr ⟨_, by simp [State.setTask]; rfl⟩

/-- While there is room for the orphans, the call can take its next step, which
brings it closer to its end. -/
theorem Recovery.progress
    {point : StartPoint}
    (fits : base.queue.items.length + base.orphans.length ≤ env.config.queue.maxSize)
    (recovery : Recovery size base state point)
    (unfinished : point ≠ .started) :
    ∃ next after, state.stepStarter env id point .proceed = some next ∧
      next.tasks id = some (.starter after) ∧
      after.remaining base.tables.listInflight.length <
        point.remaining base.tables.listInflight.length ∧
      (after = .started → Online env id next) := by
  cases recovery with
  | opening | preparing =>
      exact ⟨_, _, rfl, by simp [State.setTask]; rfl, by simp [StartPoint.remaining], by simp⟩
  | listing _ inflight connected =>
      refine ⟨_, .recovering state.tables.listInflight, by simp [State.stepStarter, connected]; rfl,
        by simp [State.setTask], ?_, by simp⟩
      rw [listInflight_eq_of_inflight inflight]
      exact Nat.lt_succ_self _
  | @recovering done rows listed recovers =>
      cases rows with
      | nil =>
          refine ⟨_, .started, rfl, by simp [State.online, State.setTask], by
            simp [StartPoint.remaining], fun _ => ⟨by simp [State.online, State.setTask], ?_⟩⟩
          simp [State.online, State.setTask]
      | cons row rows =>
          rcases recoverRow_point state id row rows with passed | ⟨item, owned⟩
          · exact ⟨_, _, rfl, passed, by simp [StartPoint.remaining], by simp⟩
          · exact ⟨_, _, rfl, owned, by simp [StartPoint.remaining]; omega, by simp⟩
  | @reenqueueing done rows row item listed orphan _ recovers =>
      have room : state.queue.hasRoom env.config.queue.maxSize = true := by
        have length := recovers.length_items
        rw [State.orphans, listed, List.filter_append, List.filter_cons_of_pos orphan,
          List.length_append, List.length_cons] at fits
        rw [RequestQueue.hasRoom, decide_eq_true_eq]
        omega
      exact ⟨_, .recovering rows, by simp [State.stepStarter, room]; rfl,
        by simp [State.setTask], by simp [StartPoint.remaining], by simp⟩
  | started => exact absurd rfl unfinished

/-- While there is room for the orphans, the call gets to its end. -/
theorem Starting.finishes
    (fits : base.queue.items.length + base.orphans.length ≤ env.config.queue.maxSize)
    {point : StartPoint}
    (starting : Starting env base id state)
    (current : state.tasks id = some (.starter point))
    (unfinished : point ≠ .started) :
    ∃ final, Run (HardenedClient.step env) (fun _ label => label = .step id .proceed)
        state final ∧ Online env id final := by
  generalize measure : point.remaining base.tables.listInflight.length = remaining
  induction remaining using Nat.strong_induction_on generalizing state point with
  | _ remaining inductionHypothesis =>
      obtain ⟨known, found, recovery⟩ := starting.recovery
      obtain rfl : known = point := by simpa [current] using found.symm
      obtain ⟨next, after, moved, reached, closer, online⟩ :=
        @Recovery.progress env base state id _ known fits recovery unfinished
      have step : HardenedClient.step env (.step id .proceed) state = some next := by
        simpa [HardenedClient.step, State.stepTask, current] using moved
      have first : Run (HardenedClient.step env) (fun _ label => label = .step id .proceed)
          state next := .single rfl step
      by_cases done : after = .started
      · exact ⟨next, first, online done⟩
      · obtain ⟨final, rest, ended⟩ := inductionHypothesis _ (measure ▸ closer)
          (starting.step (Or.inl rfl) step) reached done rfl
        exact ⟨final, first.trans rest, ended⟩

/-- A `start()` call completes exactly when the queue has room for the orphans. -/
theorem completes_iff
    {called : State}
    {tables : Tables}
    {now : ℚ}
    (reached : Reachable (HardenedClient.step env) (State.boot tables now) base)
    (stopped : base.session = false)
    (call : HardenedClient.step env .start base = some called) :
    Completes env base.spawned called ↔
      base.queue.items.length + base.orphans.length ≤ env.config.queue.maxSize := by
  constructor
  · intro completes
    obtain ⟨final, run, started⟩ : ∃ final,
        Run (HardenedClient.step env) (Alone env base.spawned) called final ∧
          final.tasks base.spawned = some (.starter .started) := by
      by_cases finished : called.tasks base.spawned = some (.starter .started)
      · exact ⟨called, .refl, finished⟩
      · obtain ⟨final, run, online⟩ := completes called .refl finished
        exact ⟨final, run.mono fun _ _ own => Or.inl own, online.started⟩
    obtain ⟨point, current, recovery⟩ := (Starting.of_run reached stopped call run).recovery
    rw [started] at current
    cases current
    cases recovery with
    | started fits => exact fits
  · intro fits state run unfinished
    have starting := Starting.of_run reached stopped call run
    obtain ⟨point, current, _⟩ := starting.recovery
    exact starting.finishes fits current fun done => unfinished (done ▸ current)

/-! ## Beside other tasks -/

/-- The items a `start()` call may still put on the queue. -/
def StartPoint.backlog : StartPoint → ℕ
  | .recovering rows => rows.length
  | .reenqueueing _ rows => rows.length + 1
  | _ => 0

/-- Every step leaves room for the rows of a `start()` call: when they are listed,
the queue has room for all of them, and while they are recovered, a task that adds
to the queue leaves room for the rest. -/
structure LeavesRoom (env : Env) (state : State) (label : Label) : Prop where
  lists : ∀ id, label = .step id .proceed → state.tasks id = some (.starter .listing) →
    state.queue.items.length + state.tables.inflight.rows.length ≤ env.config.queue.maxSize
  shares : ∀ id point next, state.tasks id = some (.starter point) → label ≠ .step id .proceed →
    step env label state = some next →
      next.queue.items.length ≤ state.queue.items.length ∨
        next.queue.items.length + point.backlog ≤ env.config.queue.maxSize

/-- The queue has room for the rows of every `start()` call. -/
structure HasBacklogRoom (env : Env) (state : State) : Prop where
  tidy : state.Tidy
  room : ∀ id point, state.tasks id = some (.starter point) → point.backlog ≠ 0 →
    state.queue.items.length + point.backlog ≤ env.config.queue.maxSize

/-- A step of a `start()` call lists rows, or leaves no more to come than before. -/
theorem stepStarter_backlog
    {point : StartPoint}
    {choice : Choice}
    (moved : state.stepStarter env id point choice = some next) :
    ∃ after, next.tasks id = some (.starter after) ∧
      ((point = .listing ∧ choice = .proceed ∧
          next.queue.items.length + after.backlog ≤
            state.queue.items.length + state.tables.inflight.rows.length) ∨
        (point.backlog = 0 → after.backlog = 0) ∧
          next.queue.items.length + after.backlog ≤
            state.queue.items.length + point.backlog) := by
  cases point <;> cases choice <;>
    simp only [State.stepStarter, State.failStart, reduceCtorEq] at moved
  case opening.proceed =>
    rw [← Option.some.inj moved]
    exact ⟨.preparing, by simp [State.setTask], Or.inr ⟨fun _ => rfl, Nat.le_refl _⟩⟩
  case preparing.proceed =>
    rw [← Option.some.inj moved]
    exact ⟨.listing, by simp [State.setTask], Or.inr ⟨fun _ => rfl, Nat.le_refl _⟩⟩
  case opening.storageError exc | preparing.storageError exc | listing.storageError exc =>
    rw [← Option.some.inj moved]
    exact ⟨.failed exc, by simp [State.setTask], Or.inr ⟨fun _ => rfl, Nat.le_refl _⟩⟩
  case listing.proceed =>
    split_ifs at moved <;> rw [← Option.some.inj moved]
    · refine ⟨.recovering state.tables.listInflight, by simp [State.setTask],
        Or.inl ⟨rfl, rfl, ?_⟩⟩
      simp only [StartPoint.backlog, State.setTask, state.tables.listInflight_perm.length_eq]
      exact Nat.le_refl _
    · exact ⟨.failed notOpened, by simp [State.setTask],
        Or.inr ⟨fun _ => rfl, Nat.le_refl _⟩⟩
  case recovering.proceed rows =>
    cases rows with
    | nil =>
        rw [← Option.some.inj moved]
        exact ⟨.started, by simp [State.online, State.setTask],
          Or.inr ⟨fun _ => rfl, Nat.le_refl _⟩⟩
    | cons row rows =>
        rw [← Option.some.inj moved]
        have items : (state.recoverRow id row rows).queue = state.queue := by
          unfold State.recoverRow
          split <;> rfl
        rcases recoverRow_point state id row rows with passed | ⟨item, owned⟩
        · refine ⟨_, passed, Or.inr ⟨by simp [StartPoint.backlog], ?_⟩⟩
          simp only [items, StartPoint.backlog, List.length_cons]
          omega
        · refine ⟨_, owned, Or.inr ⟨by simp [StartPoint.backlog], ?_⟩⟩
          simp [items, StartPoint.backlog]
  case reenqueueing.proceed item rows =>
    split_ifs at moved
    rw [← Option.some.inj moved]
    refine ⟨.recovering rows, by simp [State.setTask], Or.inr ⟨by simp [StartPoint.backlog], ?_⟩⟩
    simp only [State.setTask, RequestQueue.put_items, List.length_append, List.length_singleton,
      StartPoint.backlog]
    omega

theorem HasBacklogRoom.step
    {label : Label}
    (roomy : HasBacklogRoom env state)
    (leaves : LeavesRoom env state label)
    (moved : HardenedClient.step env label state = some next) :
    HasBacklogRoom env next := by
  have stepped := step_stepped moved
  refine ⟨stepped.tidy roomy.tidy, fun id point current waiting => ?_⟩
  rcases stepped.starter_cases roomy.tidy current with
    ⟨before, others⟩ | ⟨_, fresh⟩ | ⟨choice, before, rfl, started, _⟩ | ⟨_, rfl⟩
  · -- a call that does not move keeps its room
    have room := roomy.room id point before waiting
    rcases leaves.shares id point next before others moved with fewer | leaving
    · omega
    · exact leaving
  · rcases fresh with rfl | rfl <;> exact absurd rfl waiting
  · have task : state.stepStarter env id before choice = some next := by
      simpa [HardenedClient.step, State.stepTask, started] using moved
    obtain ⟨after, found, change⟩ := stepStarter_backlog task
    obtain rfl : after = point := by simpa [found] using current
    rcases change with ⟨rfl, rfl, listed⟩ | ⟨grows, fewer⟩
    · exact listed.trans (leaves.lists id rfl started)
    · have room := roomy.room id before started fun none => waiting (grows none)
      omega
  · exact absurd rfl waiting

/-- A `start()` call on its own completes exactly when the queue has room for the
rows it will re-enqueue; and in every run whose steps leave room for the rows of
`start()` calls, no such call waits for a place on the queue. -/
theorem start_completes_iff
    (env : Env)
    (tables : Tables)
    (now : ℚ) :
    (∀ base called,
      Reachable (step env) (State.boot tables now) base → base.session = false →
        step env .start base = some called →
          (Completes env base.spawned called ↔
            base.queue.items.length + base.orphans.length ≤ env.config.queue.maxSize)) ∧
    ∀ state, Run (step env) (LeavesRoom env) (State.boot tables now) state →
      ∀ id item rows, state.tasks id = some (.starter (.reenqueueing item rows)) →
        state.queue.hasRoom env.config.queue.maxSize = true := by
  constructor
  · intro base called reached stopped call
    exact completes_iff reached stopped call
  · intro state run id item rows current
    have roomy : HasBacklogRoom env state :=
      run.invariant (HasBacklogRoom env)
        ⟨State.tidy_boot tables now [], fun _ _ current => by cases current⟩
        fun _ _ _ roomy leaves moved => roomy.step leaves moved
    have room := roomy.room id _ current (Nat.succ_ne_zero _)
    rw [StartPoint.backlog] at room
    rw [RequestQueue.hasRoom, decide_eq_true_eq]
    omega

/-- A client whose queue has one place. -/
def narrow : Env where
  config := { queue := { maxSize := 1, workers := 1 } }
  urlparse := netloc?
  lower := List.map lowerAscii

/-- One request is queued and the row of another is written when the process
crashes. -/
def backlogLabels : List Label :=
  startLabels ++ requestLabels 2 "http://example.org/first" ++
    [.request (getRequest "http://example.org/second"), .step 3 .proceed, .crash]

/-- The item a `start()` call waits to put on the queue. -/
def State.reenqueued? (state : State) (id : ℕ) : Option (QueueItem × List InflightRow) :=
  match state.tasks id with
  | some (.starter (.reenqueueing item rows)) => some (item, rows)
  | _ => none

theorem reenqueued?_eq_some_iff
    (state : State)
    (id : ℕ)
    (item : QueueItem)
    (rows : List InflightRow) :
    state.reenqueued? id = some (item, rows) ↔
      state.tasks id = some (.starter (.reenqueueing item rows)) := by
  unfold State.reenqueued?
  split <;> simp_all

/-- With two rows and one place on the queue, `start()` waits for a place while
there is no other task. -/
theorem start_not_completes :
    ∃ base called state item rows, Reachable (step narrow) (State.boot {}) base ∧
      base.session = false ∧ step narrow .start base = some called ∧
      Run (step narrow) (Alone narrow base.spawned) called state ∧
      state.tasks base.spawned = some (.starter (.reenqueueing item rows)) ∧
      state.queue.hasRoom narrow.config.queue.maxSize = false ∧
      ∀ other, other ≠ base.spawned → state.tasks other = none := by
  have passes : (executeChecked (step narrow) (fun _ _ => true) backlogLabels
      (State.boot {})).any (fun base => !base.session && decide (base.spawned = 0) &&
        (step narrow .start base).any fun called =>
          (executeChecked (step narrow) (fun _ label => ownStep base.spawned label)
            (List.replicate 6 (.step base.spawned .proceed)) called).any fun state =>
              (state.reenqueued? base.spawned).isSome &&
                !state.queue.hasRoom narrow.config.queue.maxSize &&
                decide (state.spawned = 1)) = true := by
    decide +kernel
  obtain ⟨base, reached, tested⟩ := exists_run_of_executeChecked (fun _ _ _ => trivial) passes
  simp only [Bool.and_eq_true, Bool.not_eq_true', decide_eq_true_eq] at tested
  obtain ⟨⟨stopped, first⟩, started⟩ := tested
  obtain ⟨called, call, replayed⟩ := (Option.any_eq_true _ _).mp started
  obtain ⟨state, run, ended⟩ :=
    exists_run_of_executeChecked (ownStep_sound narrow base.spawned) replayed
  simp only [Bool.and_eq_true, Bool.not_eq_true', decide_eq_true_eq] at ended
  obtain ⟨⟨waits, full⟩, alone⟩ := ended
  obtain ⟨⟨item, rows⟩, waiting⟩ := Option.isSome_iff_exists.mp waits
  have tidy := (Starting.of_run reached stopped call run).orderly.tidy
  refine ⟨base, called, state, item, rows, reached, stopped, call, run,
    (reenqueued?_eq_some_iff _ _ _ _).mp waiting, full, fun other different => ?_⟩
  apply tidy
  omega

/-- A database with the row of one request. -/
def oneRow : Tables := ({} : Tables).upsertInflight (getPayload "http://example.org/").request 0

/-- A check for `LeavesRoom` on replayed runs in which nobody adds to the queue. -/
def leavesRoom (env : Env) (state : State) (label : Label) : Bool :=
  decide (state.queue.items.length + state.tables.inflight.rows.length ≤
    env.config.queue.maxSize) &&
  (step env label state).all fun next =>
    decide (next.queue.items.length ≤ state.queue.items.length)

theorem leavesRoom_sound
    (env : Env)
    (state : State)
    (label : Label)
    (passes : leavesRoom env state label = true) :
    LeavesRoom env state label := by
  rw [leavesRoom, Bool.and_eq_true, decide_eq_true_eq] at passes
  constructor
  · intro _ _ _
    exact passes.1
  · intro id point next _ _ moved
    rw [moved] at passes
    exact Or.inl (of_decide_eq_true passes.2)

/-- A client starts over one row. -/
theorem start_completes_one_row :
    (∃ called, step oneWorker .start (State.boot oneRow) = some called ∧
      Completes oneWorker 0 called) ∧
    ∃ state item rows, Run (step oneWorker) (LeavesRoom oneWorker) (State.boot oneRow) state ∧
      state.tasks 0 = some (.starter (.reenqueueing item rows)) ∧
      state.queue.hasRoom oneWorker.config.queue.maxSize = true := by
  obtain ⟨alone, beside⟩ := start_completes_iff oneWorker oneRow 0
  constructor
  · exact ⟨_, rfl, (alone (State.boot oneRow) _ .refl rfl rfl).mpr (by decide +kernel)⟩
  · have passes : (executeChecked (step oneWorker) (leavesRoom oneWorker)
        (.start :: proceedLabels 0 4) (State.boot oneRow)).any
          (fun state => (state.reenqueued? 0).isSome) = true := by
      decide +kernel
    obtain ⟨state, run, waits⟩ :=
      exists_run_of_executeChecked (leavesRoom_sound oneWorker) passes
    obtain ⟨⟨item, rows⟩, waiting⟩ := Option.isSome_iff_exists.mp waits
    have current := (reenqueued?_eq_some_iff _ _ _ _).mp waiting
    exact ⟨state, item, rows, run, current, beside state run 0 item rows current⟩

end HardenedClient
