import HardenedClient.Client.Replay
import HardenedClient.Custody

/-!
# Moving a request to the dead-letter queue

The terminal path of `_handle_retry_or_dlq` commits the dead letter before it deletes
the row, so a request is active and dead-lettered between the two commits. A crash
there makes recovery execute it again. Nothing else brings the two together. A second
dead letter of one submission needs the row again, or another item of its key.
-/

namespace HardenedClient

open Foundation

/-- The event persists a key. -/
def Event.isUpsert (key : Key) : Event → Bool
  | .upserted other => decide (other = key)
  | _ => false

namespace State

/-- The dead letter with an id was written for the submission that persisted the key
last, or for the one the database held. -/
def DeadLettered (state : State) (key : Key) (id : ℕ) : Prop :=
  .deadLettered key id ∈ state.history.takeWhile fun event => !event.isUpsert key

/-- The last submission of a key has a row and a dead letter. -/
def ActiveAndDead (state : State) (key : Key) : Prop :=
  state.tables.inflight.Has key ∧ ∃ row ∈ state.tables.deadLetters,
    row.idempotencyKey = key ∧ state.DeadLettered key row.id

/-- A submission is active or dead-lettered, and not both, whether or not its dead
letter is still there. -/
def ActiveOrDead (state : State) : Prop :=
  ∀ key, state.tables.inflight.Has key → ∀ id, ¬ state.DeadLettered key id

end State

/-- A worker commits a dead letter while its item has a row. -/
def PushesBesideRow (state : State) (label : Label) : Prop :=
  ∃ id item exc, label = .step id .proceed ∧ state.connected = true ∧
    state.tasks id = some (.worker (.handling item (.deadLettering exc))) ∧
    state.tables.inflight.Has item.key

/-- A worker commits a dead letter while another item of its key counts on a row. -/
def PushesBesideItem (state : State) (label : Label) : Prop :=
  ∃ id item exc place other, label = .step id .proceed ∧ state.connected = true ∧
    state.tasks id = some (.worker (.handling item (.deadLettering exc))) ∧
    place ≠ .agent id ∧ state.backedAt place = some other ∧ other.key = item.key

/-- No dead letter is committed beside the row or another item of its key, and recovery
turns to no row that holds a request of another key. -/
structure PushesLast (state : State) (label : Label) : Prop where
  rowless : ¬ PushesBesideRow state label
  single : ¬ PushesBesideItem state label
  recovers : RecoversOwnKey state label

namespace State

variable {env : Env} {state next : State} {label : Label}

/-- Who records a dead letter, and with which commit. -/
theorem pushed_of_recorded
    {key : Key}
    {dead : ℕ}
    (moved : HardenedClient.step env label state = some next)
    (recorded : next.history = .deadLettered key dead :: state.history) :
    ∃ id item exc, label = .step id .proceed ∧ state.connected = true ∧
      state.tasks id = some (.worker (.handling item (.deadLettering exc))) ∧
      item.key = key ∧ state.tables.nextDeadLetterId = dead ∧
      next.tables =
        state.tables.pushDeadLetter item.request exc.message item.attempt state.now := by
  cases step_stepped moved with
  | @handled id choice item point next current inside handled =>
      cases handled with
      | @pushed exc =>
          obtain ⟨isKey, isId⟩ := Event.deadLettered.inj (List.cons.inj recorded).1
          simp only [HardenedClient.step, stepTask, current, stepWorker] at moved
          cases choice <;> simp only [stepHandle, reduceCtorEq] at moved
          · split_ifs at moved with connected
            · exact ⟨id, item, exc, rfl, connected, current, isKey, isId, rfl⟩
            · exact absurd (Bool.eq_false_iff.mpr connected) inside
          · exact absurd trivial inside
      | succeeded | failed | deleted | retired | incremented =>
          cases (List.cons.inj recorded).1
      | advanced | rescheduled => exact absurd recorded List.ne_cons_self
      | resolved | rejected =>
          exfalso
          unfold settleKey at recorded
          split at recorded
          · cases (List.cons.inj recorded).1
          · exact absurd recorded List.ne_cons_self
  | escaped _ _ escaped =>
      obtain ⟨rfl | rfl⟩ := escaped
      · exact absurd recorded List.ne_cons_self
      · cases (List.cons.inj recorded).1
  | purged | upserted | removed | taken | crash => cases (List.cons.inj recorded).1
  | _ => exact absurd recorded List.ne_cons_self

/-- A dead letter of the last submission was written before the step, or by it, and the
step submits nothing under the key. -/
theorem deadLettered_cases
    {key : Key}
    {dead : ℕ}
    (moved : HardenedClient.step env label state = some next)
    (deadLettered : next.DeadLettered key dead) :
    (state.DeadLettered key dead ∨ next.history = .deadLettered key dead :: state.history) ∧
      next.history ≠ .upserted key :: state.history := by
  rcases step_records moved with ⟨quiet, _⟩ | ⟨event, recorded, _⟩
  · rw [DeadLettered, quiet] at deadLettered
    exact ⟨Or.inl deadLettered, by rw [quiet]; exact List.ne_cons_self⟩
  · rw [DeadLettered, recorded, List.takeWhile_cons] at deadLettered
    split_ifs at deadLettered with other
    · constructor
      · rcases List.mem_cons.mp deadLettered with isEvent | earlier
        · exact Or.inr (isEvent ▸ recorded)
        · exact Or.inl earlier
      · intro persisted
        rw [recorded] at persisted
        rw [(List.cons.inj persisted).1] at other
        simp [Event.isUpsert] at other
    · cases deadLettered

/-- A step that commits no dead letter beside a row makes no active submission dead. -/
theorem ActiveOrDead.step
    (either : state.ActiveOrDead)
    (alone : ¬ PushesBesideRow state label)
    (moved : HardenedClient.step env label state = some next) :
    next.ActiveOrDead := by
  intro key row dead deadLettered
  obtain ⟨written, unpersisted⟩ := deadLettered_cases moved deadLettered
  have before : state.tables.inflight.Has key :=
    ((step_stepped moved).commits.has_cases row).resolve_right unpersisted
  rcases written with was | recorded
  · exact either key before dead was
  · obtain ⟨id, item, exc, isStep, connected, current, rfl, _⟩ := pushed_of_recorded moved recorded
    exact alone ⟨id, item, exc, isStep, connected, current, before⟩

/-- The commit of a dead letter beside a row leaves both. -/
theorem activeAndDead_of_pushes
    (pushes : PushesBesideRow state label)
    (moved : HardenedClient.step env label state = some next) :
    ∃ key, next.ActiveAndDead key := by
  obtain ⟨id, item, exc, rfl, connected, current, row⟩ := pushes
  refine ⟨item.key, ?_⟩
  simp only [HardenedClient.step, stepTask, current, stepWorker, stepHandle, connected,
    if_true] at moved
  rw [← Option.some.inj moved]
  refine ⟨row, _, List.mem_append_right _ (List.mem_singleton.mpr rfl), rfl, ?_⟩
  simp [DeadLettered, Event.isUpsert, moveTo, setTask, record]

/-- The step that makes a submission active and dead is the commit of its dead letter. -/
theorem ActiveOrDead.activeAndDead_iff
    (either : state.ActiveOrDead)
    (moved : HardenedClient.step env label state = some next) :
    (∃ key, next.ActiveAndDead key) ↔ PushesBesideRow state label := by
  refine ⟨fun ⟨key, row, letter, _, _, deadLettered⟩ => ?_, fun pushes =>
    activeAndDead_of_pushes pushes moved⟩
  by_contra alone
  exact either.step alone moved key row letter.id deadLettered

/-- Without caller cancellation every terminal failure is such a commit: the row is
there until the worker deletes it. -/
theorem Custody.pushesBesideRow
    {id : ℕ}
    {item : QueueItem}
    {exc : PyException}
    (custody : Custody env state)
    (connected : state.connected = true)
    (current : state.tasks id = some (.worker (.handling item (.deadLettering exc)))) :
    PushesBesideRow state (.step id .proceed) := by
  obtain ⟨row, present, sameKey, _⟩ :=
    custody.mirrored (.agent id) item (by rw [backedAt_agent current]; rfl)
  exact ⟨id, item, exc, rfl, connected, current, row, present, sameKey⟩

/-! ## One dead letter for a submission -/

/-- A submission has one dead letter at most, and once it has one nothing is left of it
that could commit another: no row, no row listed for recovery, no item that waits for an
attempt, and no worker but the one that deletes its row. -/
structure DeadOnce (state : State) : Prop where
  tidy : state.Tidy
  pooled : state.Pooled
  either : state.ActiveOrDead
  once : ∀ key first second, state.DeadLettered key first → state.DeadLettered key second →
    first = second
  waiting : ∀ key dead, state.DeadLettered key dead → ∀ place item,
    state.backedAt place = some item → state.readyAt place = true → item.key ≠ key
  working : ∀ key dead, state.DeadLettered key dead → ∀ id item point,
    state.tasks id = some (.worker (.handling item point)) → item.key = key →
      (point.backed? item).isSome = true → ∃ exc, point = .retiring exc
  unlisted : ∀ id point, state.tasks id = some (.starter point) → ∀ row ∈ point.rows,
    ∀ dead, ¬ state.DeadLettered row.idempotencyKey dead

theorem DeadOnce.boot (tables : Tables) (now : ℚ) : (boot tables now).DeadOnce where
  tidy := tidy_boot tables now []
  pooled := .boot tables now []
  either := fun _ _ _ deadLettered => by cases deadLettered
  once := fun _ _ _ deadLettered => by cases deadLettered
  waiting := fun _ _ deadLettered => by cases deadLettered
  working := fun _ _ deadLettered => by cases deadLettered
  unlisted := fun _ _ current => by cases current

/-- A worker that can only delete its row can do nothing else after a step. -/
theorem retiring_of_handled
    {id : ℕ}
    {item : QueueItem}
    {before point : HandlePoint}
    (handled : Handled state id item before next)
    (current : next.tasks id = some (.worker (.handling item point)))
    (retires : (before.backed? item).isSome = true → ∃ exc, before = .retiring exc)
    (backed : (point.backed? item).isSome = true) :
    ∃ exc, point = .retiring exc := by
  cases handled with
  | advanced advances =>
      cases advances with
      | blocked | admitted | waits | granted =>
          obtain ⟨_, impossible⟩ := retires rfl
          cases impossible
      | answered response chosen =>
          simp only [moveTo_tasks_self, Option.some.injEq, Task.worker.injEq,
            WorkerPoint.handling.injEq] at current
          rcases chosen with rfl | rfl <;> rw [← current.2] at backed <;> cases backed
      | hooked =>
          simp only [moveTo_tasks_self, Option.some.injEq, Task.worker.injEq,
            WorkerPoint.handling.injEq] at current
          rw [← current.2] at backed
          cases backed
  | retired =>
      simp only [moveTo_tasks_self, Option.some.injEq, Task.worker.injEq,
        WorkerPoint.handling.injEq] at current
      rw [← current.2] at backed
      cases backed
  | resolved | rejected => simp at current
  | _ =>
      obtain ⟨_, impossible⟩ := retires rfl
      cases impossible

/-- Once a submission is dead no step leaves an item of its key that waits for an attempt. -/
theorem DeadOnce.waiting_step
    {key : Key}
    {dead : ℕ}
    {place : Place}
    {item : QueueItem}
    (once : state.DeadOnce)
    (moves : PushesLast state label)
    (moved : HardenedClient.step env label state = some next)
    (deadLettered : next.DeadLettered key dead)
    (found : next.backedAt place = some item)
    (ready : next.readyAt place = true) :
    item.key ≠ key := by
  rintro rfl
  have rowless := once.either.step moves.rowless moved
  have backing := backed_origin once.tidy moved found
  obtain ⟨written, _⟩ := deadLettered_cases moved deadLettered
  rcases written with was | recorded
  · cases backing with
    | kept before there _ begun => exact once.waiting _ _ was before item there (begun ready) rfl
    | upserted _ _ _ tables =>
        refine rowless item.key ?_ dead deadLettered
        rw [tables]
        exact (state.tables.has_upsertInflight item.request state.now item.key).mpr (Or.inl rfl)
    | @recovered id row rows isStep current _ request =>
        have sameKey : row.idempotencyKey = item.key := by
          rw [QueueItem.key, request]
          exact (moves.recovers row (by rw [isStep, recovered?, current])).symm
        exact once.unlisted id _ current row List.mem_cons_self dead (sameKey ▸ was)
    | @counted id held exc delay isStep current request =>
        obtain ⟨_, impossible⟩ := once.working _ _ was id held _ current
          (by rw [QueueItem.key, QueueItem.key, request]) rfl
        cases impossible
  · obtain ⟨id, pushed, exc, isStep, connected, pushing, sameKey, _⟩ :=
      pushed_of_recorded moved recorded
    cases backing with
    | kept before there _ begun =>
        refine moves.single ⟨id, pushed, exc, before, item, isStep, connected, pushing, ?_, there,
          sameKey.symm⟩
        rintro rfl
        have := begun ready
        rw [readyAt_agent pushing] at this
        cases this
    | upserted otherStep current | recovered otherStep current | counted otherStep current =>
        obtain ⟨rfl, _⟩ := Label.step.inj (otherStep.symm.trans isStep)
        cases current.symm.trans pushing

/-- Once a submission is dead its workers only delete its row. -/
theorem DeadOnce.working_step
    {key : Key}
    {dead id : ℕ}
    {item : QueueItem}
    {point : HandlePoint}
    (once : state.DeadOnce)
    (moves : PushesLast state label)
    (moved : HardenedClient.step env label state = some next)
    (deadLettered : next.DeadLettered key dead)
    (current : next.tasks id = some (.worker (.handling item point)))
    (isKey : item.key = key)
    (backed : (point.backed? item).isSome = true) :
    ∃ exc, point = .retiring exc := by
  subst isKey
  obtain ⟨written, _⟩ := deadLettered_cases moved deadLettered
  rcases written with was | recorded
  · rcases worker_cases once.tidy moved current with
      ⟨before, _⟩ | ⟨_, _, ⟨rest, waits⟩, _⟩ | ⟨choice, before, _, present, _, handled⟩
    · exact once.working _ _ was id item point before rfl backed
    · exact absurd rfl (once.waiting _ _ was (.queue 0) item (by simp [backedAt, waits]) rfl)
    · exact retiring_of_handled handled current
        (once.working _ _ was id item before present rfl) backed
  · obtain ⟨actor, pushed, exc, isStep, connected, pushing, sameKey, _⟩ :=
      pushed_of_recorded moved recorded
    rcases worker_cases once.tidy moved current with
      ⟨before, other⟩ | ⟨isTaken, idle, _⟩ | ⟨choice, before, otherStep, present, _, handled⟩
    · obtain ⟨counting, isCounting⟩ := Option.isSome_iff_exists.mp backed
      have there : state.backedAt (.agent id) = some counting := by
        rw [backedAt_agent before]
        exact isCounting
      have counts : counting.key = item.key := by
        cases point <;> cases isCounting <;> rfl
      refine absurd ⟨actor, pushed, exc, .agent id, counting, isStep, connected, pushing, ?_, there,
        counts.trans sameKey.symm⟩ moves.single
      rw [isStep] at other
      exact fun same => other (Place.agent.inj same)
    · obtain ⟨rfl, _⟩ := Label.step.inj (isTaken.symm.trans isStep)
      cases idle.symm.trans pushing
    · obtain ⟨rfl, _⟩ := Label.step.inj (otherStep.symm.trans isStep)
      cases present.symm.trans pushing
      cases handled with
      | pushed =>
          simp only [moveTo_tasks_self, Option.some.injEq, Task.worker.injEq,
            WorkerPoint.handling.injEq] at current
          exact ⟨exc, current.2.symm⟩
      | advanced advances => cases advances

/-- Once a submission is dead recovery lists no row of its key. -/
theorem DeadOnce.unlisted_step
    {id : ℕ}
    {point : StartPoint}
    {row : InflightRow}
    (once : state.DeadOnce)
    (moved : HardenedClient.step env label state = some next)
    (current : next.tasks id = some (.starter point))
    (listed : row ∈ point.rows)
    (dead : ℕ) :
    ¬ next.DeadLettered row.idempotencyKey dead := by
  intro deadLettered
  have stepped := step_stepped moved
  obtain ⟨before, starting, active, known⟩ : ∃ before,
      state.tasks id = some (.starter before) ∧ (Task.starter before).inLifecycle = true ∧
        (row ∈ before.rows ∨ row ∈ state.tables.inflight.rows) := by
    rcases stepped.starter_cases once.tidy current with
      ⟨there, _⟩ | ⟨_, fresh⟩ | ⟨choice, before, rfl, there, lists⟩ | ⟨_, rfl⟩
    · refine ⟨point, there, ?_, Or.inl listed⟩
      cases point <;> first | rfl | cases listed
    · rcases fresh with rfl | rfl <;> cases listed
    · exact ⟨before, there, inLifecycle_of_moved there moved, lists row listed⟩
    · cases listed
  obtain ⟨written, _⟩ := deadLettered_cases moved deadLettered
  rcases written with was | recorded
  · rcases known with earlier | stored
    · exact once.unlisted id before starting row earlier dead was
    · exact once.either _ ⟨row, stored, rfl⟩ dead was
  · obtain ⟨actor, pushed, exc, _, _, pushing, _⟩ := pushed_of_recorded moved recorded
    exact once.pooled.not_handling starting active pushing

/-- A step that pushes alone, for a key without a row, gives no submission a second dead
letter. -/
theorem DeadOnce.step
    (once : state.DeadOnce)
    (moves : PushesLast state label)
    (moved : HardenedClient.step env label state = some next) :
    next.DeadOnce where
  tidy := (step_stepped moved).tidy once.tidy
  pooled := once.pooled.step moved
  either := once.either.step moves.rowless moved
  once := by
    -- a worker about to commit a dead letter belongs to no submission that is dead
    have fresh : ∀ key first second, state.DeadLettered key first →
        next.history ≠ .deadLettered key second :: state.history := by
      intro key first second was recorded
      obtain ⟨id, item, exc, _, _, pushing, isKey, _⟩ := pushed_of_recorded moved recorded
      obtain ⟨_, impossible⟩ := once.working key first was id item _ pushing isKey rfl
      cases impossible
    intro key first second isFirst isSecond
    obtain ⟨firstWritten, _⟩ := deadLettered_cases moved isFirst
    obtain ⟨secondWritten, _⟩ := deadLettered_cases moved isSecond
    rcases firstWritten with wasFirst | firstRecorded
    · rcases secondWritten with wasSecond | secondRecorded
      · exact once.once key first second wasFirst wasSecond
      · exact absurd secondRecorded (fresh key first second wasFirst)
    · rcases secondWritten with wasSecond | secondRecorded
      · exact absurd firstRecorded (fresh key second first wasSecond)
      · exact (Event.deadLettered.inj (List.cons.inj (firstRecorded.symm.trans secondRecorded)).1).2
  waiting := fun _ _ deadLettered _ _ found ready =>
    once.waiting_step moves moved deadLettered found ready
  working := fun _ _ deadLettered _ _ _ current isKey backed =>
    once.working_step moves moved deadLettered current isKey backed
  unlisted := fun _ _ current _ listed dead => once.unlisted_step moved current listed dead

end State

/-- In every run in which no dead letter is committed while its item has a row: no
request with a row was ever dead-lettered since it was submitted, so none is active
and dead-lettered and recovery lists none that is; and the next step makes one so
exactly when it commits a dead letter beside a row. When no dead letter is committed
beside another item of its key either, one submission never yields two. Without caller
cancellation every terminal failure commits its dead letter beside the row. -/
theorem never_active_and_dead_lettered
    (env : Env)
    (tables : Tables)
    (now : ℚ)
    (state : State) :
    (Run (step env) (fun before label => ¬ PushesBesideRow before label)
        (State.boot tables now) state →
      (∀ key, ¬ state.ActiveAndDead key) ∧
      (∀ row ∈ state.tables.listInflight, ∀ id, ¬ state.DeadLettered row.idempotencyKey id) ∧
      ∀ label next, step env label state = some next →
        ((∃ key, next.ActiveAndDead key) ↔ PushesBesideRow state label)) ∧
    (Run (step env) PushesLast (State.boot tables now) state →
      ∀ key first second, state.DeadLettered key first → state.DeadLettered key second →
        first = second) ∧
    (Run (step env) (fun before label => Uncancelled before label ∧ RecoversOwnKey before label)
        (State.boot tables now) state →
      ∀ id item exc, state.connected = true →
        state.tasks id = some (.worker (.handling item (.deadLettering exc))) →
        PushesBesideRow state (.step id .proceed)) := by
  refine ⟨fun run => ?_, fun run => ?_, fun run => ?_⟩
  · have either : state.ActiveOrDead :=
      run.invariant State.ActiveOrDead (fun _ _ _ deadLettered => by cases deadLettered)
        fun _ _ _ either alone moved => either.step alone moved
    refine ⟨?_, ?_, fun label next moved => either.activeAndDead_iff moved⟩
    · rintro key ⟨row, letter, _, _, deadLettered⟩
      exact either key row letter.id deadLettered
    · intro row listed id
      exact either _ ⟨row, state.tables.listInflight_perm.mem_iff.mp listed, rfl⟩ id
  · have once : state.DeadOnce :=
      run.invariant State.DeadOnce (.boot tables now) fun _ _ _ once moves moved =>
        once.step moves moved
    exact once.once
  · have custody : State.Custody env state :=
      run.invariant (State.Custody env) (.boot env tables now []) fun _ _ _ custody keeps moved =>
        custody.step keeps.1 keeps.2 moved
    exact fun id item exc connected current => custody.pushesBesideRow connected current

/-! ## A request that is both -/

/-- The event records the dead letter with an id. -/
def Event.isDeadLetter (key : Key) (id : ℕ) : Event → Bool
  | .deadLettered other written => decide (other = key) && decide (written = id)
  | _ => false

/-- A check for a dead letter of the last submission. -/
def State.hasDeadLettered (state : State) (letter : DeadLetterRow) : Bool :=
  (state.history.takeWhile fun event => !event.isUpsert letter.idempotencyKey).any
    (Event.isDeadLetter letter.idempotencyKey letter.id)

theorem State.deadLettered_of_check
    {state : State}
    {letter : DeadLetterRow}
    (passes : state.hasDeadLettered letter = true) :
    state.DeadLettered letter.idempotencyKey letter.id := by
  obtain ⟨event, present, isLetter⟩ := List.any_eq_true.mp passes
  unfold Event.isDeadLetter at isLetter
  split at isLetter
  · simp only [Bool.and_eq_true, decide_eq_true_eq] at isLetter
    rw [DeadLettered, ← isLetter.1, ← isLetter.2]
    rwa [← isLetter.1] at present
  · cases isLetter

/-- A request is answered with 404 and its dead letter is committed. -/
def refusedLabels : List Label :=
  startLabels ++ requestLabels 2 "http://example.org/" ++ sendLabels 1 ++ answerLabels 1 404 1

/-- The process crashes before it deletes the row, and the next one executes the
request again and writes a second dead letter. -/
def refusedTwiceLabels : List Label :=
  refusedLabels ++ [.crash, .start] ++ proceedLabels 0 6 ++ sendLabels 1 ++ answerLabels 1 404 1

/-- After the commit of its dead letter a refused request is still active; a crash
there makes one submission yield two dead letters. -/
theorem active_and_dead_lettered :
    (∃ state key, Reachable (step oneWorker) (State.boot {}) state ∧ state.ActiveAndDead key) ∧
    ∃ (state : State) (first second : DeadLetterRow),
      Reachable (step oneWorker) (State.boot {}) state ∧
      first ∈ state.tables.deadLetters ∧ second ∈ state.tables.deadLetters ∧
      first.id ≠ second.id ∧ first.idempotencyKey = second.idempotencyKey ∧
      state.DeadLettered first.idempotencyKey first.id ∧
      state.DeadLettered second.idempotencyKey second.id := by
  constructor
  · have passes : (executeChecked (step oneWorker) (fun _ _ => true) refusedLabels
        (State.boot {})).any (fun state => state.tables.inflight.rows.any fun row =>
          state.tables.deadLetters.any fun letter =>
            decide (letter.idempotencyKey = row.idempotencyKey) &&
              state.hasDeadLettered letter) = true := by
      decide +kernel
    obtain ⟨state, run, tested⟩ := exists_run_of_executeChecked (fun _ _ _ => trivial) passes
    obtain ⟨row, present, tested⟩ := List.any_eq_true.mp tested
    obtain ⟨letter, there, tested⟩ := List.any_eq_true.mp tested
    simp only [Bool.and_eq_true, decide_eq_true_eq] at tested
    exact ⟨state, letter.idempotencyKey, run, ⟨row, present, tested.1.symm⟩, letter, there, rfl,
      State.deadLettered_of_check tested.2⟩
  · have passes : (executeChecked (step oneWorker) (fun _ _ => true) refusedTwiceLabels
        (State.boot {})).any (fun state => state.tables.deadLetters.any fun first =>
          state.tables.deadLetters.any fun second =>
            decide (first.id ≠ second.id ∧ first.idempotencyKey = second.idempotencyKey) &&
              (state.hasDeadLettered first && state.hasDeadLettered second)) = true := by
      decide +kernel
    obtain ⟨state, run, tested⟩ := exists_run_of_executeChecked (fun _ _ _ => trivial) passes
    obtain ⟨first, present, tested⟩ := List.any_eq_true.mp tested
    obtain ⟨second, there, tested⟩ := List.any_eq_true.mp tested
    simp only [Bool.and_eq_true, decide_eq_true_eq] at tested
    obtain ⟨⟨different, sameKey⟩, isFirst, isSecond⟩ := tested
    exact ⟨state, first, second, run, present, there, different, sameKey,
      State.deadLettered_of_check isFirst, State.deadLettered_of_check isSecond⟩

/-- No row and no item outside the task `id` counts on the key. -/
def State.leaves (state : State) (id : ℕ) (key : Key) : Bool :=
  !decide (state.tables.inflight.Has key) &&
    (state.queue.items.all fun other => decide (other.key ≠ key)) &&
    (List.range state.spawned).all fun agent => decide (agent = id) ||
      (state.tasks agent).all fun task => task.backed?.all fun other => decide (other.key ≠ key)

/-- A check for `PushesLast` on replayed runs. -/
def pushesLast (state : State) (label : Label) : Bool :=
  (state.recovered? label).isNone &&
    match label with
    | .step id _ =>
        match state.tasks id with
        | some (.worker (.handling item (.deadLettering _))) => state.leaves id item.key
        | _ => true
    | _ => true

theorem pushesLast_sound
    (state : State)
    (label : Label)
    (tidy : state.Tidy)
    (passes : pushesLast state label = true) :
    PushesLast state label := by
  simp only [pushesLast, Bool.and_eq_true, Option.isNone_iff_eq_none] at passes
  obtain ⟨recoversNone, leaves⟩ := passes
  refine ⟨?_, ?_, fun row recovers => by rw [recoversNone] at recovers; cases recovers⟩
  · rintro ⟨id, item, exc, rfl, _, current, row⟩
    simp [current, State.leaves, row] at leaves
  · rintro ⟨id, item, exc, place, other, rfl, _, current, elsewhere, found, sameKey⟩
    simp only [current, State.leaves, Bool.and_eq_true, List.all_eq_true, decide_eq_true_eq,
      List.mem_range, Bool.or_eq_true, Option.all_eq_true] at leaves
    obtain ⟨⟨_, unqueued⟩, unheld⟩ := leaves
    cases place with
    | queue position => exact unqueued other (List.mem_of_getElem? found) sameKey
    | agent agent =>
        obtain ⟨task, there, backed⟩ := Option.bind_eq_some_iff.mp found
        rcases unheld agent (tidy.lt_of_task there) with same | free
        · exact elsewhere (congrArg Place.agent same)
        · exact free task there other backed sameKey

/-- A submission is cancelled after its row is written and the request is made again;
the first item succeeds and deletes the row, and the second is answered with 404. -/
def refusedLateLabels : List Label :=
  startLabels ++ requestLabels 2 "http://example.org/" ++ [.cancel 2] ++
    requestLabels 3 "http://example.org/" ++ sendLabels 1 ++ answerLabels 1 200 3 ++
    sendLabels 1 ++ answerLabels 1 404 1

/-- A worker is about to commit a dead letter. -/
def State.deadLettering (state : State) (id : ℕ) : Bool :=
  match state.tasks id with
  | some (.worker (.handling _ (.deadLettering _))) => state.connected
  | _ => false

/-- The dead letter of a request whose row is gone is the only one of its submission, and
the request is not active; one whose row is still there is about to be both. -/
theorem never_active_and_dead_lettered_rowless :
    (∃ state letter, Run (step oneWorker) PushesLast (State.boot {}) state ∧
      letter ∈ state.tables.deadLetters ∧
      state.DeadLettered letter.idempotencyKey letter.id ∧
      ¬ state.ActiveAndDead letter.idempotencyKey ∧
      ∀ dead, state.DeadLettered letter.idempotencyKey dead → dead = letter.id) ∧
    ∃ state, Reachable (step oneWorker) (State.boot {}) state ∧
      PushesBesideRow state (.step 1 .proceed) := by
  constructor
  · have passes : (executeChecked (step oneWorker) pushesLast refusedLateLabels
        (State.boot {})).any (fun state =>
          state.tables.deadLetters.any fun letter => state.hasDeadLettered letter) = true := by
      decide +kernel
    obtain ⟨state, checked, tested⟩ :=
      exists_run_of_executeChecked (fun _ _ passes => passes) passes
    obtain ⟨letter, present, isLetter⟩ := List.any_eq_true.mp tested
    have run : Run (step oneWorker) PushesLast (State.boot {}) state :=
      (checked.with_invariant State.Tidy (State.tidy_boot {} 0 []) fun _ _ _ tidy _ moved =>
        (step_stepped moved).tidy tidy).mono fun before label permitted =>
          pushesLast_sound before label permitted.1 permitted.2
    have deadLettered := State.deadLettered_of_check isLetter
    refine ⟨state, letter, run, present, deadLettered, ?_, fun dead isDead => ?_⟩
    · exact ((never_active_and_dead_lettered oneWorker {} 0 state).1
        (run.mono fun _ _ moves => moves.rowless)).1 _
    · exact (never_active_and_dead_lettered oneWorker {} 0 state).2.1 run _ _ _ isDead deadLettered
  · have passes : (executeChecked (step oneWorker)
        (fun state label => regular label && (state.recovered? label).isNone)
        (startLabels ++ requestLabels 2 "http://example.org/" ++ sendLabels 1 ++
          answerLabels 1 404 0)
        (State.boot {})).any (fun state => state.deadLettering 1) = true := by
      decide +kernel
    have sound : ∀ before label,
        (regular label && (before.recovered? label).isNone) = true →
          Uncancelled before label ∧ RecoversOwnKey before label := by
      intro before label checks
      simp only [Bool.and_eq_true, Option.isNone_iff_eq_none] at checks
      refine ⟨(regular_sound before label checks.1).uncancelled, fun row recovers => ?_⟩
      rw [checks.2] at recovers
      cases recovers
    obtain ⟨state, run, tested⟩ := exists_run_of_executeChecked sound passes
    unfold State.deadLettering at tested
    split at tested
    · next item exc current =>
        exact ⟨state, run.reachable, (never_active_and_dead_lettered oneWorker {} 0 state).2.2 run 1
          item exc tested current⟩
    · cases tested

end HardenedClient
