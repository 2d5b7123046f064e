import HardenedClient.Client.Step

/-!
# Commands of the command line

`ahc metrics` and `ahc dlq replay --id N` open a client of their own on the
database: the command is the body of an `async with` block, between the client's
`start()` and its `stop()`. A state is that of the client with the await the
command is suspended at. The client's own coroutines run between the steps of
the command.
-/

namespace HardenedClient

/-- Insert a row into rows ordered by their last attempt, newest first, after its
equals. -/
def insertByAttempt (row : DeadLetterRow) : List DeadLetterRow → List DeadLetterRow
  | [] => [row]
  | head :: rest =>
      if head.lastAttempt < row.lastAttempt then row :: head :: rest
      else head :: insertByAttempt row rest

/-- `list_dead_letter(limit)`: the newest rows first. -/
def Tables.listDeadLetter (tables : Tables) (limit : ℕ) : List DeadLetterRow :=
  (tables.deadLetters.foldl (fun sorted row => insertByAttempt row sorted) []).take limit

theorem insertByAttempt_perm (row : DeadLetterRow) (rows : List DeadLetterRow) :
    (insertByAttempt row rows).Perm (row :: rows) := by
  induction rows with
  | nil => exact .refl _
  | cons head rest inductionHypothesis =>
      simp only [insertByAttempt]
      split
      · exact .refl _
      · exact (inductionHypothesis.cons head).trans (.swap row head rest)

/-- A listed dead letter is in the table. -/
theorem Tables.mem_of_mem_listDeadLetter
    {tables : Tables}
    {limit : ℕ}
    {row : DeadLetterRow}
    (listed : row ∈ tables.listDeadLetter limit) :
    row ∈ tables.deadLetters := by
  have general : ∀ rows sorted : List DeadLetterRow,
      row ∈ rows.foldl (fun sorted row => insertByAttempt row sorted) sorted →
        row ∈ rows ∨ row ∈ sorted := by
    intro rows
    induction rows with
    | nil => exact fun sorted member => Or.inr member
    | cons head rest inductionHypothesis =>
        intro sorted member
        rcases inductionHypothesis _ member with later | inserted
        · exact Or.inl (List.mem_cons_of_mem _ later)
        · rcases List.mem_cons.mp ((insertByAttempt_perm head sorted).mem_iff.mp inserted) with
            rfl | earlier
          · exact Or.inl List.mem_cons_self
          · exact Or.inr earlier
  rcases general tables.deadLetters [] (List.mem_of_mem_take listed) with present | absent
  · exact present
  · cases absent

/-- `ahc metrics`, or `ahc dlq replay --id N`. -/
inductive Command
  | metrics
  | replay (id : ℕ)

/-- How a command ends: with the counts it prints, with exit code 1 for an unknown
id, with the outcome of a replay, or with an exception. -/
inductive CommandResult
  | counted (inflight deadLetters : ℕ)
  | missing
  | replayed (succeeded : Bool)
  | raised (exc : PyException)

/-- Where a command is suspended. -/
inductive CommandPoint
  | entering
  | countingInflight
  | countingDeadLetters (inflight : ℕ)
  | seeking
  | replaying (caller : ℕ)
  | leaving (result : CommandResult) (stopper : ℕ)
  | ended (result : CommandResult)

/-- A command with the client it opened. -/
structure CommandState where
  client : State
  point : CommandPoint

/-- A step of the client's coroutines, the command going on, or a storage error
at the await it is suspended at. -/
inductive CommandLabel
  | client (label : Label)
  | proceed
  | storageError (exc : PyException)

/-- What `replay_entry` returns or raises, when the caller `id` is done. -/
def State.replayResult? (state : State) (id : ℕ) : Option CommandResult :=
  match state.tasks id with
  | some (.caller _ (.received _ _ (.result _))) => some (.replayed true)
  | some (.caller _ (.received _ _ (.exception exc))) | some (.caller _ (.raised exc)) =>
      some (if exc.isAsyncHardenedError then .replayed false else .raised exc)
  | some (.caller _ (.received _ _ .cancelled)) | some (.caller _ .cancelled) =>
      some (.raised .cancelledError)
  | _ => none

namespace CommandState

/-- `__aenter__` has called `start()` on a client just constructed. -/
def boot (tables : Tables) (now : ℚ) : CommandState where
  client := { State.boot tables now with lifecycle := true }.spawn (.starter .opening)
  point := .entering

example (tables : Tables) (now : ℚ) :
    (State.boot tables now).callStart = some (boot tables now).client := rfl

/-- The body ends, and `__aexit__` calls `stop()`. -/
def leave (client : State) (result : CommandResult) : Option CommandState :=
  client.callStop.map fun next =>
    { client := next
      point := if client.session then .leaving result client.spawned else .ended result }

/-- The body of a command begins. -/
def enter : Command → CommandPoint
  | .metrics => .countingInflight
  | .replay _ => .seeking

/-- The number of rows a command lists at most. -/
def listLimit : ℕ := 10000

/-- The command goes on from the await it is suspended at. -/
def proceed (command : Command) (state : CommandState) : Option CommandState :=
  let client := state.client
  match state.point with
  | .entering =>
      match client.tasks 0 with
      | some (.starter .started) => some { state with point := enter command }
      | some (.starter (.failed exc)) => some { state with point := .ended (.raised exc) }
      | _ => none
  | .countingInflight =>
      if client.connected then
        some { state with point := .countingDeadLetters client.tables.listInflight.length }
      else leave client (.raised notOpened)
  | .countingDeadLetters inflight =>
      if client.connected then
        leave client (.counted inflight (client.tables.listDeadLetter listLimit).length)
      else leave client (.raised notOpened)
  | .seeking =>
      if client.connected then
        match command with
        | .metrics => none
        | .replay id =>
            match (client.tables.listDeadLetter listLimit).find? fun row => row.id = id with
            | none => leave client .missing
            | some row => some {
                client := client.spawn (.caller (some row.id) (.removing row))
                point := .replaying client.spawned }
      else leave client (.raised notOpened)
  | .replaying caller => (client.replayResult? caller).bind (leave client)
  | .leaving result stopper =>
      match client.tasks stopper with
      | some (.stopper .stopped) => some { state with point := .ended result }
      | _ => none
  | .ended _ => none

end CommandState

/-- One step of a command and its client. The process ends with the command. -/
def commandStep
    (env : Env)
    (command : Command)
    (label : CommandLabel)
    (state : CommandState) : Option CommandState :=
  match label, state.point with
  | .client _, .ended _ => none
  | .client label, _ =>
      if label.isInternal then
        (step env label state.client).map fun next => { state with client := next }
      else none
  | .proceed, _ => state.proceed command
  | .storageError exc, .countingInflight | .storageError exc, .countingDeadLetters _
  | .storageError exc, .seeking => CommandState.leave state.client (.raised exc)
  | .storageError _, _ => none

end HardenedClient
