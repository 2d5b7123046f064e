import HardenedClient.DeadLetterMove
import HardenedClient.DeadLetterReplay

/-!
# Dead letters of one key

Every terminal failure inserts a new row. A replay removes the row it replays first, so it
leaves no second one behind; any other way to fail a key again does.
-/

namespace HardenedClient

open Foundation

namespace Tables

/-- No two dead letters have one key. -/
def UniqueDeadLetters (tables : Tables) : Prop :=
  (tables.deadLetters.map DeadLetterRow.idempotencyKey).Nodup

instance (tables : Tables) : Decidable tables.UniqueDeadLetters :=
  inferInstanceAs (Decidable (List.Nodup _))

/-- A key has a dead letter. -/
def HasDeadLetter (tables : Tables) (key : Key) : Prop :=
  key ∈ tables.deadLetters.map DeadLetterRow.idempotencyKey

variable {tables : Tables}

/-- A new dead letter is the only one of its key when the key had none. -/
theorem uniqueDeadLetters_push_iff
    (unique : tables.UniqueDeadLetters)
    (request : DurableRequest)
    (error : PyStr)
    (retryCount : ℕ)
    (now : ℚ) :
    (tables.pushDeadLetter request error retryCount now).UniqueDeadLetters ↔
      ¬ tables.HasDeadLetter request.key := by
  unfold UniqueDeadLetters HasDeadLetter pushDeadLetter
  rw [List.map_append, List.nodup_append_comm, List.map_singleton, List.singleton_append,
    List.nodup_cons]
  exact and_iff_left unique

/-- Removing dead letters keeps the rest apart. -/
theorem uniqueDeadLetters_remove
    (unique : tables.UniqueDeadLetters)
    (id : ℕ) :
    (tables.removeDeadLetter id).UniqueDeadLetters := by
  apply List.Nodup.sublist _ unique
  exact List.filter_sublist.map DeadLetterRow.idempotencyKey

end Tables

/-- A worker commits a dead letter of a key that has one. -/
def PushesAgain (state : State) (label : Label) : Prop :=
  ∃ id item exc, label = .step id .proceed ∧ state.connected = true ∧
    state.tasks id = some (.worker (.handling item (.deadLettering exc))) ∧
    state.tables.HasDeadLetter item.key

namespace State

variable {env : Env} {state next : State} {label : Label}

/-- The step that gives a key a second dead letter is the commit of it. -/
theorem uniqueDeadLetters_step_iff
    (unique : state.tables.UniqueDeadLetters)
    (moved : HardenedClient.step env label state = some next) :
    next.tables.UniqueDeadLetters ↔ ¬ PushesAgain state label := by
  constructor
  · rintro after ⟨id, item, exc, rfl, connected, current, again⟩
    simp only [HardenedClient.step, stepTask, current, stepWorker, stepHandle, connected,
      if_true] at moved
    rw [← Option.some.inj moved] at after
    exact (Tables.uniqueDeadLetters_push_iff unique item.request exc.message item.attempt
      state.now).mp after again
  · intro alone
    have commits := (step_stepped moved).commits
    generalize recorded : next.tables = tables, isHistory : next.history = history at commits
    cases commits with
    | none | upserted | incremented | deleted => exact unique
    | purged => exact List.nodup_nil
    | removed => exact Tables.uniqueDeadLetters_remove unique _
    | pushed =>
        obtain ⟨id, item, exc, isStep, connected, current, _, _, pushed⟩ :=
          pushed_of_recorded moved isHistory
        rw [← recorded, pushed]
        apply (Tables.uniqueDeadLetters_push_iff unique item.request exc.message item.attempt
          state.now).mpr
        exact fun again => alone ⟨id, item, exc, isStep, connected, current, again⟩

end State

/-- In every run in which no dead letter is committed for a key that has one, from a
database with at most one dead letter a key: no two dead letters have one key, and the
next step gives a key a second one exactly when it commits a dead letter for a key that
has one. -/
theorem dead_letters_unique
    (env : Env)
    (tables : Tables)
    (unique : tables.UniqueDeadLetters)
    (now : ℚ)
    (state : State)
    (run : Run (step env) (fun before label => ¬ PushesAgain before label)
      (State.boot tables now) state) :
    state.tables.UniqueDeadLetters ∧
    ∀ label next, step env label state = some next →
      (next.tables.UniqueDeadLetters ↔ ¬ PushesAgain state label) := by
  have kept : state.tables.UniqueDeadLetters := by
    apply run.invariant fun state => state.tables.UniqueDeadLetters
    · exact unique
    · intro before label after unique alone moved
      exact (State.uniqueDeadLetters_step_iff unique moved).mpr alone
  exact ⟨kept, fun label next moved => State.uniqueDeadLetters_step_iff kept moved⟩

/-! ## Failing again -/

/-- A request that is made again after it failed terminally, and fails again, has two dead
letters. -/
theorem dead_letters_not_unique :
    ∃ state, Reachable (step oneWorker) (State.boot {}) state ∧
      ¬ state.tables.UniqueDeadLetters := by
  have passes : (executeChecked (step oneWorker) (fun _ _ => true)
      (startLabels ++ rejectedLabels 2 ++ rejectedLabels 3) (State.boot {})).any (fun state =>
        decide ¬ state.tables.UniqueDeadLetters) = true := by
    decide +kernel
  obtain ⟨state, reached, tested⟩ := exists_run_of_executeChecked (fun _ _ _ => trivial) passes
  exact ⟨state, reached, of_decide_eq_true tested⟩

/-- A check for `PushesAgain` on replayed runs. -/
def pushesFirst (state : State) : Label → Bool
  | .step id .proceed =>
      match state.tasks id with
      | some (.worker (.handling item (.deadLettering _))) =>
          decide (item.key ∉ state.tables.deadLetters.map DeadLetterRow.idempotencyKey)
      | _ => true
  | _ => true

theorem pushesFirst_sound
    (state : State)
    (label : Label)
    (passes : pushesFirst state label = true) :
    ¬ PushesAgain state label := by
  rintro ⟨id, item, exc, rfl, _, current, again⟩
  simp only [pushesFirst, current, decide_eq_true_eq] at passes
  exact passes again

/-- The replay of a dead letter, until it fails again. -/
def failedReplayLabels : List Label :=
  replayLabels 3 ++ sendLabels 1 ++ answerLabels 1 404 1

/-- A replay that fails again leaves one dead letter. -/
theorem dead_letters_unique_replayed :
    ∃ state row, Run (step oneWorker) (fun before label => ¬ PushesAgain before label)
        (State.boot {}) state ∧ row ∈ state.tables.deadLetters ∧ row.id ≠ 1 ∧
      state.tables.UniqueDeadLetters := by
  have passes : (executeChecked (step oneWorker) pushesFirst
      (startLabels ++ rejectedLabels 2) (State.boot {})).any (fun state =>
        state.tables.deadLetters.any fun row =>
          (executeChecked (step oneWorker) pushesFirst failedReplayLabels
            (state.spawn (.caller (some row.id) (.removing row)))).any fun later =>
              later.tables.deadLetters.any fun row => decide (row.id ≠ 1)) = true := by
    decide +kernel
  obtain ⟨state, reached, tested⟩ := exists_run_of_executeChecked pushesFirst_sound passes
  obtain ⟨row, _, replayed⟩ := List.any_eq_true.mp tested
  obtain ⟨later, run, tested⟩ := exists_run_of_executeChecked pushesFirst_sound replayed
  obtain ⟨failed, present, again⟩ := List.any_eq_true.mp tested
  have called : Run (step oneWorker) (fun before label => ¬ PushesAgain before label) state
      (state.spawn (.caller (some row.id) (.removing row))) := by
    apply @Run.single _ _ _ _ _ _ (.replay row)
    · rintro ⟨_, _, _, isStep, _⟩
      cases isStep
    · rfl
  have whole := (reached.trans called).trans run
  exact ⟨later, failed, whole, present, of_decide_eq_true again,
    (dead_letters_unique oneWorker {} List.nodup_nil 0 later whole).1⟩

end HardenedClient
