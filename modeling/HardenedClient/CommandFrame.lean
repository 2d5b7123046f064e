import HardenedClient.Cli
import HardenedClient.SingleFlight
import HardenedClient.StartCompletion
import HardenedClient.UnparsedRows

/-!
# What a command touches

A command opens a client on the database, and the client's `start()` re-enqueues
every row it finds in flight. So a command touches only what it names exactly as
long as no worker of its client gets hold of a row it can execute: `start()` does
not complete, or the workers end on the first rows because their URLs are not
parsed.
-/

namespace HardenedClient

open Foundation

/-! ## The frame of a command -/

/-- The dead letters a command names. -/
def Command.Targets (tables : Tables) : Command → DeadLetterRow → Prop
  | .metrics, _ => False
  | .replay id, row => row ∈ tables.deadLetters ∧ row.id = id

/-- The first rows of the table, as many as there are workers, have URLs that are
not parsed; or the table has more rows than the queue has places. -/
def Harmless (env : Env) (tables : Tables) : Prop :=
  env.config.queue.maxSize < tables.listInflight.length ∨
    ∀ row ∈ tables.listInflight.take env.config.queue.workers,
      env.hostOf? row.payload.request.request.url = none

variable {env : Env} {tables : Tables} {target : DeadLetterRow → Prop}
  {state next : State} {label : Label}

theorem Booting.boot (env : Env) (tables : Tables) (now : ℚ) :
    Booting env tables (CommandState.boot tables now).client .opening where
  only := by
    intro id task current
    by_contra different
    simp [CommandState.boot, State.boot, State.spawn, different] at current
  current := rfl
  spawned := rfl
  bounded := Nat.zero_le _
  untouched := rfl
  recovered := ⟨rfl, fun _ => rfl⟩
  unfinished := by simp

/-! ## The steps of the command -/

/-- A command that names more dead letters allows more. -/
theorem Attends.mono
    {wider : DeadLetterRow → Prop}
    (attends : Attends env tables target state)
    (nothing : ∀ row, ¬ target row) :
    Attends env tables wider state := by
  have noReplays : ∀ {request}, Replays target request → Replays wider request := by
    rintro request ⟨row, _, _, named, _⟩
    exact absurd named (nothing row)
  have noResubmits : ∀ {request}, Resubmits env target request → Resubmits env wider request :=
    fun replays => ⟨noReplays replays.1, replays.2⟩
  refine ⟨?_, attends.tidy, ?_, ?_⟩
  · have untouched := attends.same nothing
    exact {
      executes := fun id item host probe current =>
        noReplays (attends.executes id item host probe current)
      inflight := fun row _ => by rw [untouched]
      deadLetters := fun row listed _ => untouched ▸ listed
      added := fun row present => Or.inl (untouched ▸ present)
      same := fun _ => untouched }
  · intro id task current
    have serves := attends.tasks id task current
    unfold Task.Serves at serves ⊢
    split at serves
    · exact absurd serves (nothing _)
    · exact absurd serves (nothing _)
    · exact noResubmits serves
    · exact noResubmits serves
    · exact noResubmits serves
    · exact ⟨serves.1, fun item await same => (serves.2 item await same).imp_left noResubmits⟩
    · exact noResubmits serves
    · exact noResubmits serves
    · exact serves
    · trivial
  · obtain ⟨taken, others, items, replays, cost⟩ := attends.queues
    exact ⟨taken, others, items, fun request member => noResubmits (replays request member),
      cost⟩

/-- A coroutine is created that is no worker. -/
theorem Attends.create
    {base : State}
    {task : Task}
    (attends : Attends env tables target state)
    (tasks : base.tasks = state.tasks)
    (spawned : base.spawned = state.spawned + 1)
    (untouched : base.tables = state.tables)
    (items : base.queue.items = state.queue.items)
    (serves : task.Serves env target state.spawned)
    (notWorker : ∀ point, task ≠ .worker point) :
    Attends env tables target (base.setTask state.spawned task) := by
  have unborn : state.tasks state.spawned = none := attends.tidy _ (Nat.le_refl _)
  have allServe : ∀ other found, (base.setTask state.spawned task).tasks other = some found →
      found.Serves env target other := by
    apply serves_setTask _ serves
    rw [tasks]
    exact attends.tasks
  have sameSpent : ∀ id, (base.setTask state.spawned task).isSpent env id =
      state.isSpent env id := by
    intro id
    by_cases new : id = state.spawned
    · subst new
      simp only [State.isSpent, State.setTask_tasks_self, unborn]
      cases task with
      | worker point => exact absurd rfl (notWorker point)
      | _ => rfl
    · simp only [State.isSpent, State.setTask_tasks_of_ne _ _ new, tasks]
  refine ⟨?_, State.Tidy.of_frame (State.frame_call attends.tidy tasks spawned), allServe, ?_⟩
  · exact {
      executes := fun id item host probe current =>
        (replays_of_handling allServe current (by simp)).1
      inflight := fun row foreign => by
        rw [← attends.inflight row foreign, ← untouched]
        rfl
      deadLetters := fun row listed foreign =>
        (congrArg Tables.deadLetters untouched) ▸ attends.deadLetters row listed foreign
      added := fun row present =>
        attends.added row ((congrArg Tables.deadLetters untouched) ▸ present)
      same := fun nothing => untouched.trans (attends.same nothing) }
  · obtain ⟨taken, others, queued, replays, cost⟩ := attends.queues
    refine ⟨taken, others, ?_, replays, ?_⟩
    · rw [← queued, ← items]
      rfl
    · simpa [State.spent, sameSpent] using cost

theorem Attends.leave
    {result : CommandResult}
    {after : CommandState}
    (attends : Attends env tables target state)
    (left : CommandState.leave state result = some after) :
    Attends env tables target after.client ∧
      ((∃ stopper, after.point = .leaving result stopper) ∨ after.point = .ended result) := by
  obtain ⟨next, called, rfl⟩ := Option.map_eq_some_iff.mp left
  constructor
  · unfold State.callStop at called
    split_ifs at called
    · rw [← Option.some.inj called]
      unfold State.afterDrain
      split
      · exact attends.create rfl rfl rfl rfl trivial (by simp)
      · exact attends.create rfl rfl rfl rfl trivial (by simp)
    · rw [← Option.some.inj called]
      exact attends
  · by_cases serving : state.session = true
    · exact Or.inl ⟨state.spawned, if_pos serving⟩
    · exact Or.inr (if_neg serving)

/-- The queue has room for the rows, and the workers are online over them. -/
structure Open (env : Env) (tables : Tables) (command : Command) (state : State) : Prop
    extends Attends env tables (command.Targets tables) state where
  fits : tables.listInflight.length ≤ env.config.queue.maxSize

/-- How far a command is. -/
def Proceeds (env : Env) (tables : Tables) (command : Command) (state : CommandState) : Prop :=
  match state.point with
  | .entering => (∃ point, Booting env tables state.client point) ∨
      Open env tables .metrics state.client
  | .countingInflight | .countingDeadLetters _ | .seeking => Open env tables .metrics state.client
  | .replaying _ | .leaving _ _ => Open env tables command state.client
  | .ended _ => Touches env tables (command.Targets tables) state.client

variable {command : Command} {before after : CommandState}

theorem byId_targets (tables : Tables) (command : Command) :
    ById tables (command.Targets tables) := by
  intro row listed other named sameId
  cases command with
  | metrics => exact named
  | replay id => exact ⟨listed, sameId.trans named.2⟩

theorem Open.step
    (serving : Open env tables command state)
    (harmless : Harmless env tables)
    (internal : label.isInternal = true)
    (moved : HardenedClient.step env label state = some next) :
    Open env tables command next := by
  refine ⟨serving.toAttends.step (byId_targets tables command) ?_ internal moved, serving.fits⟩
  rcases harmless with full | first
  · exact absurd full (Nat.not_lt_of_le serving.fits)
  · exact first

theorem Open.widen
    (serving : Open env tables .metrics state) :
    Open env tables command state :=
  ⟨serving.toAttends.mono fun _ => id, serving.fits⟩

theorem Open.leave
    {result : CommandResult}
    (serving : Open env tables command state)
    (left : CommandState.leave state result = some after) :
    Proceeds env tables command after := by
  obtain ⟨attends, ⟨stopper, isLeaving⟩ | isEnded⟩ := serving.toAttends.leave left
  · simp only [Proceeds, isLeaving]
    exact ⟨attends, serving.fits⟩
  · simp only [Proceeds, isEnded]
    exact attends.toTouches

/-- A step of the client's coroutines. -/
theorem Proceeds.client
    (proceeds : Proceeds env tables command before)
    (harmless : Harmless env tables)
    (internal : label.isInternal = true)
    (running : ∀ result, before.point ≠ .ended result)
    (moved : step env label before.client = some next) :
    Proceeds env tables command { before with client := next } := by
  obtain ⟨client, point⟩ := before
  cases point with
  | entering =>
      rcases proceeds with ⟨point, booting⟩ | serving
      · rcases booting.step internal moved with starting | ⟨fits, attends⟩
        · exact Or.inl starting
        · exact Or.inr ⟨attends, fits⟩
      · exact Or.inr (serving.step harmless internal moved)
  | ended result => exact absurd rfl (running result)
  | countingInflight | countingDeadLetters | seeking | replaying | leaving =>
      exact Open.step proceeds harmless internal moved

/-- A step of the command itself. -/
theorem Proceeds.proceed
    (proceeds : Proceeds env tables command before)
    (moved : before.proceed command = some after) :
    Proceeds env tables command after := by
  obtain ⟨client, point⟩ := before
  cases point with
  | entering =>
      simp only [CommandState.proceed] at moved
      split at moved
      · next started =>
        rcases proceeds with ⟨point, booting⟩ | serving
        · obtain rfl : point = .started := by
            simpa using booting.current.symm.trans started
          exact absurd rfl booting.unfinished
        · rw [← Option.some.inj moved]
          cases command <;> exact serving
      · rw [← Option.some.inj moved]
        rcases proceeds with ⟨point, booting⟩ | serving
        · exact booting.touches
        · exact serving.widen.toTouches
      · cases moved
  | countingInflight =>
      simp only [CommandState.proceed] at moved
      split_ifs at moved
      · rw [← Option.some.inj moved]
        exact proceeds
      · exact (Open.widen proceeds).leave moved
  | countingDeadLetters inflight =>
      simp only [CommandState.proceed] at moved
      split_ifs at moved <;> exact (Open.widen proceeds).leave moved
  | seeking =>
      simp only [CommandState.proceed] at moved
      split_ifs at moved
      · cases command with
        | metrics => cases moved
        | replay id =>
            simp only at moved
            split at moved
            · exact (Open.widen proceeds).leave moved
            · next row found =>
              rw [← Option.some.inj moved]
              have serving : Open env tables .metrics client := proceeds
              have listed : row ∈ tables.deadLetters := by
                rw [← serving.same fun _ none => none]
                exact Tables.mem_of_mem_listDeadLetter (List.mem_of_find?_eq_some found)
              have named : row.id = id := by simpa using List.find?_some found
              have widened : Open env tables (.replay id) client := serving.widen
              refine ⟨?_, serving.fits⟩
              exact @Attends.create env tables _ client
                { client with spawned := client.spawned + 1 }
                (.caller (some row.id) (.removing row)) widened.toAttends rfl rfl rfl rfl
                ⟨listed, named⟩ (by simp)
      · exact (Open.widen proceeds).leave moved
  | replaying caller =>
      obtain ⟨result, _, left⟩ := Option.bind_eq_some_iff.mp moved
      exact Open.leave proceeds left
  | leaving result stopper =>
      simp only [CommandState.proceed] at moved
      split at moved
      · rw [← Option.some.inj moved]
        exact (show Open env tables command client from proceeds).toTouches
      · cases moved
  | ended => cases moved

theorem Proceeds.step
    {label : CommandLabel}
    (proceeds : Proceeds env tables command before)
    (harmless : Harmless env tables)
    (moved : commandStep env command label before = some after) :
    Proceeds env tables command after := by
  unfold commandStep at moved
  split at moved
  · cases moved
  · next running =>
    split_ifs at moved with internal
    obtain ⟨next, stepped, rfl⟩ := Option.map_eq_some_iff.mp moved
    exact proceeds.client harmless internal (fun result ended => running result ended) stepped
  · exact proceeds.proceed moved
  · next isPoint =>
    simp only [Proceeds, isPoint] at proceeds
    exact proceeds.widen.leave moved
  · next isPoint =>
    simp only [Proceeds, isPoint] at proceeds
    exact proceeds.widen.leave moved
  · next isPoint =>
    simp only [Proceeds, isPoint] at proceeds
    exact proceeds.widen.leave moved
  · cases moved

theorem Proceeds.touches
    (proceeds : Proceeds env tables command before) :
    Touches env tables (command.Targets tables) before.client := by
  unfold Proceeds at proceeds
  split at proceeds
  · rcases proceeds with ⟨point, booting⟩ | serving
    · exact booting.touches
    · exact serving.widen.toTouches
  · exact proceeds.widen.toTouches
  · exact proceeds.widen.toTouches
  · exact proceeds.widen.toTouches
  · exact proceeds.toTouches
  · exact proceeds.toTouches
  · exact proceeds

/-- In every run of a command over tables whose rows cost all workers, or do not fit
into the queue, nothing but what the command names is executed or changed: nothing
at all by `metrics`, and by `replay` the dead letter of the given id. -/
theorem commands_touch_what_they_name
    (env : Env)
    (command : Command)
    (tables : Tables)
    (now : ℚ)
    (state : CommandState)
    (harmless : Harmless env tables)
    (run : Run (commandStep env command) (fun _ _ => True) (CommandState.boot tables now)
      state) :
    Touches env tables (command.Targets tables) state.client ∧
      (command = .metrics → state.client.tables = tables ∧
        ∀ id item host probe,
          state.client.tasks id ≠ some (.worker (.handling item (.executing host probe)))) := by
  have proceeds : Proceeds env tables command state := by
    apply run.invariant (Proceeds env tables command)
    · exact Or.inl ⟨_, Booting.boot env tables now⟩
    · exact fun _ _ _ proceeds _ moved => proceeds.step harmless moved
  have touches := proceeds.touches
  refine ⟨touches, ?_⟩
  rintro rfl
  refine ⟨touches.same fun _ => id, fun id item host probe current => ?_⟩
  obtain ⟨row, _, _, named, _⟩ := touches.executes id item host probe current
  exact named

/-! ## Replayed commands -/

/-- The command line's client, with `urlparse` as it behaves on the URLs of replayed
runs. -/
def cliClient : Env where
  config := {}
  urlparse := netloc?
  lower := List.map lowerAscii

/-- The client of a command takes `count` rows and comes online. -/
def enteringLabels (count : ℕ) : List CommandLabel :=
  (proceedLabels 0 (2 * count + 4)).map .client

/-- The command goes on while the workers of its client execute the row they took. -/
def recoveringLabels : List CommandLabel :=
  enteringLabels 1 ++ (sendLabels 1 ++ answerLabels 1 200 1).map .client

/-- A request has been executed, and no row is left in flight. -/
def executedAway (state : CommandState) : Bool :=
  state.client.tables.inflight.rows.isEmpty && state.client.history.any fun event =>
    match event with
    | .executed _ true => true
    | _ => false

theorem executed_of_executedAway
    {state : CommandState}
    (passes : executedAway state = true) :
    state.client.tables.inflight.rows = [] ∧
      ∃ key, Event.executed key true ∈ state.client.history := by
  obtain ⟨empty, executed⟩ := Bool.and_eq_true_iff.mp passes
  refine ⟨List.isEmpty_iff.mp empty, ?_⟩
  obtain ⟨event, member, isExecuted⟩ := List.any_eq_true.mp executed
  split at isExecuted
  · exact ⟨_, member⟩
  · cases isExecuted

/-- `ahc metrics` and `ahc dlq replay --id 1` execute the one request in flight and
delete its row, over a table without dead letters. -/
theorem commands_not_touch_what_they_name :
    oneRow.inflight.rows ≠ [] ∧ oneRow.deadLetters = [] ∧
      ∀ command, command = .metrics ∨ command = .replay 1 →
        ∃ state, Run (commandStep cliClient command) (fun _ _ => True)
            (CommandState.boot oneRow 0) state ∧
          state.client.tables.inflight.rows = [] ∧
          (∃ key, Event.executed key true ∈ state.client.history) ∧
          ¬ Touches cliClient oneRow (command.Targets oneRow) state.client := by
  have full : oneRow.inflight.rows ≠ [] := by
    intro empty
    have count : oneRow.inflight.rows.length = 1 := by decide +kernel
    rw [empty] at count
    cases count
  refine ⟨full, rfl, fun command isCommand => ?_⟩
  have passes : (executeChecked (commandStep cliClient command) (fun _ _ => true)
      recoveringLabels (CommandState.boot oneRow 0)).any executedAway = true := by
    rcases isCommand with rfl | rfl <;> decide +kernel
  obtain ⟨state, run, tested⟩ := exists_run_of_executeChecked (fun _ _ _ => trivial) passes
  obtain ⟨empty, executed⟩ := executed_of_executedAway tested
  refine ⟨state, run, empty, executed, fun touches => full ?_⟩
  have none : ∀ row, ¬ command.Targets oneRow row := by
    intro row named
    rcases isCommand with rfl | rfl
    · exact named
    · cases named.1
  rw [← touches.same none]
  exact empty

/-- A row in flight whose URL is not parsed, and one dead letter. -/
def unparsedRow : Tables :=
  (({} : Tables).upsertInflight (getPayload "http://[").request 0).pushDeadLetter
    (getPayload "http://example.org/").request "HTTP 500" 3 0

/-- A worker ends on the row, and another one executes the dead letter. -/
def commandReplayLabels : List CommandLabel :=
  enteringLabels 1 ++ [.client (.step 1 .proceed), .client (.step 1 (.jitter 0)), .proceed,
    .proceed, .client (.step 17 .proceed), .client (.step 17 (.resubmit "" 0))] ++
    (proceedLabels 17 3 ++ sendLabels 2).map .client

theorem commands_touch_what_they_name_replayed :
    ∃ state, Run (commandStep cliClient (.replay 1)) (fun _ _ => True)
        (CommandState.boot unparsedRow 0) state ∧
      (state.client.executing? 2).isSome = true ∧
      Touches cliClient unparsedRow ((Command.replay 1).Targets unparsedRow) state.client := by
  have passes : (executeChecked (commandStep cliClient (.replay 1)) (fun _ _ => true)
      commandReplayLabels (CommandState.boot unparsedRow 0)).any
        (fun state => (state.client.executing? 2).isSome) = true := by
    decide +kernel
  obtain ⟨state, run, tested⟩ := exists_run_of_executeChecked (fun _ _ _ => trivial) passes
  refine ⟨state, run, tested, ?_⟩
  refine (commands_touch_what_they_name cliClient (.replay 1) unparsedRow 0 state ?_ run).1
  right
  have unparsed : (unparsedRow.listInflight.take cliClient.config.queue.workers).all
      (fun row => (cliClient.hostOf? row.payload.request.request.url).isNone) = true := by
    decide +kernel
  intro row listed
  simpa using List.all_eq_true.mp unparsed row listed

end HardenedClient
