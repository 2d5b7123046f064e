import HardenedClient.Client.Ledger
import HardenedClient.Client.Replay

/-!
# Replay of dead letters

`replay_entry` deletes its row before it submits the request again, so between
the two commits the request is durable only if something else records it: another
dead letter with its key, or an inflight row that no worker is about to delete.
-/

namespace HardenedClient

open Foundation

/-- An execution for the key has succeeded since the events in `base`. -/
def State.SucceededSince (state : State) (key : Key) (base : List Event) : Prop :=
  ∃ later, state.history = later ++ base ∧ .executed key true ∈ later

/-- The key has an inflight row, and no worker is about to delete it. -/
def State.Retained (state : State) (key : Key) : Prop :=
  state.tables.inflight.Has key ∧
    ∀ id item point, state.tasks id = some (.worker (.handling item point)) →
      point.deletes = true → item.key ≠ key

/-- A step that removes a dead letter leaves another record of the key, unless
the request has succeeded; and nobody purges the dead letters. -/
structure LeavesRecord (key : Key) (base : List Event) (state : State) (label : Label) :
    Prop where
  notPurge : label ≠ .purge
  removes : ∀ id replayed row, label = .step id .proceed →
    state.tasks id = some (.caller replayed (.removing row)) → state.connected = true →
      (∃ other ∈ state.tables.deadLetters, other.idempotencyKey = key ∧ other.id ≠ row.id) ∨
        state.Retained key ∨ state.SucceededSince key base

/-- The request of a key is recorded: by a dead letter, by an inflight row that
stays, or by a success. -/
def State.Recorded (state : State) (key : Key) (base : List Event) : Prop :=
  (∃ row ∈ state.tables.deadLetters, row.idempotencyKey = key) ∨
    state.Retained key ∨ state.SucceededSince key base

namespace State

variable {env : Env} {state next : State} {label : Label} {key : Key} {base : List Event}

theorem SucceededSince.step
    (succeeded : state.SucceededSince key base)
    (stepped : Stepped env state label next) :
    next.SucceededSince key base := by
  obtain ⟨later, recorded, present⟩ := succeeded
  obtain ⟨events, grown⟩ := stepped.commits.history_suffix
  refine ⟨events ++ later, ?_, List.mem_append_right _ present⟩
  rw [← grown, recorded, List.append_assoc]

/-- An inflight row that stays does so until the request succeeds or becomes a
dead letter. -/
theorem Retained.step
    (retained : state.Retained key)
    (tidy : state.Tidy)
    (grows : base <:+ state.history)
    (stepped : Stepped env state label next) :
    next.Recorded key base := by
  obtain ⟨row, kept⟩ := retained
  have stored : next.tables.inflight.Has key := by
    by_contra gone
    obtain ⟨id, item, point, current, deletes, same⟩ :=
      stepped.commits.deletes_of_gone gone row
    exact kept id item point current deletes same
  by_cases deleting : ∃ id item point, next.tasks id = some (.worker (.handling item point)) ∧
      point.deletes = true ∧ item.key = key
  swap
  · refine Or.inr (Or.inl ⟨stored, fun id item point current deletes same => ?_⟩)
    exact deleting ⟨id, item, point, current, deletes, same⟩
  -- a worker has just come to delete the row
  obtain ⟨id, item, point, current, deletes, rfl⟩ := deleting
  rcases stepped.stage tidy current with
    before | ⟨response, rfl, recorded⟩ | ⟨exc, rfl, pushed, recorded⟩ | stays
  · exact absurd rfl (kept id item point before deletes)
  · obtain ⟨earlier, grown⟩ := grows
    refine Or.inr (Or.inr ⟨.executed item.key true :: earlier, ?_, List.mem_cons_self⟩)
    rw [recorded, ← grown, List.cons_append]
  · rw [Recorded, pushed]
    exact Or.inl ⟨_, List.mem_append_right _ List.mem_cons_self, rfl⟩
  · rw [stays] at deletes
    cases deletes

theorem Recorded.step
    (recorded : state.Recorded key base)
    (leaves : LeavesRecord key base state label)
    (tidy : state.Tidy)
    (grows : base <:+ state.history)
    (stepped : Stepped env state label next) :
    next.Recorded key base := by
  rcases recorded with ⟨letter, present, sameKey⟩ | retained | succeeded
  · rcases stepped.deadLetters with
        keeps | purged | ⟨id, replayed, row, rfl, current, connected, removed⟩
    · exact Or.inl ⟨letter, keeps letter present, sameKey⟩
    · exact absurd purged leaves.notPurge
    · rcases leaves.removes id replayed row rfl current connected with
        ⟨other, stays, otherKey, different⟩ | retained | succeeded
      · refine Or.inl ⟨other, ?_, otherKey⟩
        rw [removed]
        exact List.mem_filter.mpr ⟨stays, by simpa using different⟩
      · exact retained.step tidy grows stepped
      · exact Or.inr (Or.inr (succeeded.step stepped))
  · exact retained.step tidy grows stepped
  · exact Or.inr (Or.inr (succeeded.step stepped))

end State

/-- From a replay on, in every run in which each removal of a dead letter leaves
another record of its key or follows a success, the replayed request has a dead
letter, an inflight row, or an execution that succeeded since the call. -/
theorem replayed_request_recorded
    (env : Env)
    (tables : Tables)
    (now : ℚ)
    (state called later : State)
    (row : DeadLetterRow)
    (reached : Reachable (step env) (State.boot tables now) state)
    (present : row ∈ state.tables.deadLetters)
    (call : step env (.replay row) state = some called)
    (run : Run (step env) (LeavesRecord row.idempotencyKey called.history) called later) :
    (∃ other ∈ later.tables.deadLetters, other.idempotencyKey = row.idempotencyKey) ∨
      later.tables.inflight.Has row.idempotencyKey ∨
      later.SucceededSince row.idempotencyKey called.history := by
  have tidy : called.Tidy :=
    (step_stepped call).tidy (State.Tidy.of_run (State.tidy_boot tables now []) reached)
  have start : called.Recorded row.idempotencyKey called.history := by
    rw [← Option.some.inj call]
    exact Or.inl ⟨row, present, rfl⟩
  have invariant := run.invariant
    (fun after => after.Tidy ∧ called.history <:+ after.history ∧
      after.Recorded row.idempotencyKey called.history)
    ⟨tidy, List.suffix_refl _, start⟩
    fun before label after ⟨tidy, grows, recorded⟩ leaves moved => by
      have stepped := step_stepped moved
      exact ⟨stepped.tidy tidy, grows.trans stepped.commits.history_suffix,
        recorded.step leaves tidy grows stepped⟩
  obtain ⟨_, _, letter | retained | succeeded⟩ := invariant
  · exact Or.inl letter
  · exact Or.inr (Or.inl retained.1)
  · exact Or.inr (Or.inr succeeded)

/-- A request as the task `id` that is answered with 404 and becomes a dead
letter. -/
def rejectedLabels (id : ℕ) : List Label :=
  requestLabels id "http://example.org/" ++ sendLabels 1 ++ answerLabels 1 404 3

/-- An execution that succeeded. -/
def Event.isSuccess : Event → Bool
  | .executed _ succeeded => succeeded
  | _ => false

/-- Nothing records a request, and none was answered with success. -/
def nothingRecorded (state : State) : Bool :=
  state.tables.deadLetters.isEmpty && state.tables.inflight.rows.isEmpty &&
    state.history.all fun event => !event.isSuccess

/-- The only dead letter of a request is replayed, and the process crashes after
its row is removed: nothing records the request, which never succeeded. -/
theorem replayed_request_lost :
    ∃ state called later row, Reachable (step oneWorker) (State.boot {}) state ∧
      row ∈ state.tables.deadLetters ∧
      step oneWorker (.replay row) state = some called ∧
      Reachable (step oneWorker) called later ∧
      later.tables.deadLetters = [] ∧ later.tables.inflight.rows = [] ∧
      ∀ key, .executed key true ∉ later.history := by
  have passes : (executeChecked (step oneWorker) (fun _ _ => true)
      (startLabels ++ rejectedLabels 2) (State.boot {})).any (fun state =>
        state.tables.deadLetters.any fun row =>
          (executeChecked (step oneWorker) (fun _ _ => true) [.step 3 .proceed, .crash]
            (state.spawn (.caller (some row.id) (.removing row)))).any nothingRecorded) =
              true := by
    decide +kernel
  obtain ⟨state, reached, tested⟩ := exists_run_of_executeChecked (fun _ _ _ => trivial) passes
  obtain ⟨row, present, replayed⟩ := List.any_eq_true.mp tested
  obtain ⟨later, run, lost⟩ := exists_run_of_executeChecked (fun _ _ _ => trivial) replayed
  simp only [nothingRecorded, Bool.and_eq_true, List.isEmpty_iff, List.all_eq_true,
    Bool.not_eq_true'] at lost
  obtain ⟨⟨noLetters, noRows⟩, noSuccess⟩ := lost
  refine ⟨state, _, later, row, reached, present, rfl, run, noLetters, noRows, ?_⟩
  intro key succeeded
  cases noSuccess _ succeeded

/-- The replay of the first of two dead letters, until it succeeds. -/
def replayedLabels : List Label :=
  replayLabels 4 ++ sendLabels 1 ++ answerLabels 1 200 1

/-- A check for `LeavesRecord` on replayed runs. -/
def leavesRecord (key : Key) (state : State) : Label → Bool
  | .purge => false
  | .step id .proceed =>
      match state.tasks id with
      | some (.caller _ (.removing row)) => state.tables.deadLetters.any fun other =>
          decide (other.idempotencyKey = key ∧ other.id ≠ row.id)
      | _ => true
  | _ => true

theorem leavesRecord_sound
    (key : Key)
    (base : List Event)
    (state : State)
    (label : Label)
    (passes : leavesRecord key state label = true) :
    LeavesRecord key base state label := by
  constructor
  · rintro rfl
    cases passes
  · rintro id replayed row rfl current _
    simp only [leavesRecord, current, List.any_eq_true, decide_eq_true_eq] at passes
    exact Or.inl passes

/-- One of two dead letters of a request is replayed and succeeds. -/
theorem replayed_request_recorded_twice :
    ∃ state called later row, Reachable (step oneWorker) (State.boot {}) state ∧
      step oneWorker (.replay row) state = some called ∧
      Run (step oneWorker) (LeavesRecord row.idempotencyKey called.history) called later ∧
      ((∃ other ∈ later.tables.deadLetters, other.idempotencyKey = row.idempotencyKey) ∨
        later.tables.inflight.Has row.idempotencyKey ∨
        later.SucceededSince row.idempotencyKey called.history) := by
  have passes : (executeChecked (step oneWorker) (fun _ _ => true)
      (startLabels ++ rejectedLabels 2 ++ rejectedLabels 3) (State.boot {})).any (fun state =>
        state.tables.deadLetters.any fun row =>
          (executeChecked (step oneWorker) (leavesRecord row.idempotencyKey) replayedLabels
            (state.spawn (.caller (some row.id) (.removing row)))).any
              fun later => decide (later.queue.unfinished = 1)) = true := by
    decide +kernel
  obtain ⟨state, reached, tested⟩ := exists_run_of_executeChecked (fun _ _ _ => trivial) passes
  obtain ⟨row, present, replayed⟩ := List.any_eq_true.mp tested
  obtain ⟨later, run, _⟩ :=
    exists_run_of_executeChecked (leavesRecord_sound row.idempotencyKey _) replayed
  exact ⟨state, _, later, row, reached, rfl, run,
    replayed_request_recorded oneWorker {} 0 state _ later row reached present rfl run⟩

end HardenedClient
