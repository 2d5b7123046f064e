import HardenedClient.Client.Recovery
import HardenedClient.Client.Replay

/-!
# Recovery of orphaned rows

When `_recover_inflight` returns, the work on the queue is what was there at the
call and the rows without a pending registry entry. A row is carried exactly
once when these two together hold its key exactly once: an entry that some
earlier cycle left pending makes recovery skip its row.
-/

namespace HardenedClient

open Foundation

/-- The attempts of the items on the queue for a key. -/
def State.attempts (state : State) (key : Key) : List ℕ :=
  (state.queue.items.filter fun item => item.key = key).map QueueItem.attempt

/-- The attempts for a key, of the items on the queue and of the rows that
recovery will re-enqueue. -/
def State.carriers (state : State) (key : Key) : List ℕ :=
  state.attempts key ++
    (state.orphans.filter fun row => row.payload.request.key = key).map InflightRow.retryCount

theorem attempts_eq_works (state : State) (key : Key) :
    state.attempts key = (state.works.filter fun work => work.1 = key).map Prod.snd := by
  rw [State.works, List.filter_map, List.map_map]
  rfl

/-- When the loop has looked at every row, the queue holds what was there before
and the orphans. -/
theorem Recovers.attempts
    {base state : State}
    {done : List InflightRow}
    (listed : base.tables.listInflight = done)
    (recovers : Recovers base done [] state)
    (key : Key) :
    state.attempts key = base.carriers key := by
  rw [attempts_eq_works, recovers.works, List.filter_append, List.map_append,
    ← attempts_eq_works, State.carriers, State.orphans, listed]
  apply congrArg (base.attempts key ++ ·)
  rw [List.filter_map, List.map_map]
  rfl

/-- In a table whose rows hold requests of their own keys, the key of an orphan
is among the orphans once, and the key of another row is not. -/
theorem carriers_of_consistent
    {state : State}
    (consistent : state.tables.Consistent)
    {row : InflightRow}
    (present : row ∈ state.tables.inflight.rows) :
    state.carriers row.idempotencyKey =
      if state.isOrphan row then state.attempts row.idempotencyKey ++ [row.retryCount]
      else state.attempts row.idempotencyKey := by
  have only : (state.orphans.filter fun other =>
      other.payload.request.key = row.idempotencyKey) =
        if state.isOrphan row then [row] else [] := by
    have listed : row ∈ state.tables.listInflight :=
      state.tables.listInflight_perm.mem_iff.mpr present
    have single := KeyedTable.filter_key_eq_singleton
      (listInflight_keys_nodup state.tables) listed
    have sameKeys : state.tables.listInflight.filter (fun other =>
        other.payload.request.key = row.idempotencyKey) = [row] := by
      refine (List.filter_congr fun other otherIn => ?_).trans single
      rw [consistent other (state.tables.listInflight_perm.mem_iff.mp otherIn)]
    rw [State.orphans, List.filter_comm, sameKeys, List.filter_singleton]
    exact Bool.cond_eq_ite _ _ _
  rw [State.carriers, only]
  split <;> simp

/-- When recovery returns, each row is carried exactly once, with its retry count,
exactly when the items on the queue at the call and the orphans together carried
it exactly once. Where rows hold requests of their own keys: when an orphan's key
was not on the queue, and that of any other row was, once and with its retry
count. -/
theorem recovery_carries_rows_iff
    (env : Env)
    (tables : Tables)
    (now : ℚ)
    (base called state : State)
    (reached : Reachable (step env) (State.boot tables now) base)
    (stopped : base.session = false)
    (call : step env .start base = some called)
    (run : Run (step env) (Alone env base.spawned) called state)
    (returned : state.tasks base.spawned = some (.starter (.recovering []))) :
    ((∀ row ∈ base.tables.inflight.rows,
        state.attempts row.idempotencyKey = [row.retryCount]) ↔
      ∀ row ∈ base.tables.inflight.rows,
        base.carriers row.idempotencyKey = [row.retryCount]) ∧
    (base.tables.Consistent →
      ((∀ row ∈ base.tables.inflight.rows,
          state.attempts row.idempotencyKey = [row.retryCount]) ↔
        ∀ row ∈ base.tables.inflight.rows,
          base.attempts row.idempotencyKey =
            if base.isOrphan row then [] else [row.retryCount])) := by
  obtain ⟨_, _, point, current, recovery⟩ := Starting.of_run reached stopped call run
  have carried : ∀ key, state.attempts key = base.carriers key := by
    intro key
    rw [returned] at current
    cases current
    cases recovery with
    | recovering listed recovers =>
        rw [List.append_nil] at listed
        exact recovers.attempts listed key
  simp only [carried, true_and]
  intro consistent
  apply forall₂_congr
  intro row present
  rw [carriers_of_consistent consistent present]
  split <;> simp

/-- The recovery of a `start()` call has returned. -/
def State.hasRecovered (state : State) (id : ℕ) : Bool :=
  match state.tasks id with
  | some (.starter (.recovering [])) => true
  | _ => false

theorem hasRecovered_iff (state : State) (id : ℕ) :
    state.hasRecovered id = true ↔ state.tasks id = some (.starter (.recovering [])) := by
  unfold State.hasRecovered
  split <;> simp_all

/-- On the next `start()` of the same client, recovery skips the row of the
dropped request, since the entry of its key is still pending. -/
theorem recovery_skips_row :
    ∃ base called state row, Reachable (step oneWorker) (State.boot {}) base ∧
      base.session = false ∧ step oneWorker .start base = some called ∧
      Run (step oneWorker) (Alone oneWorker base.spawned) called state ∧
      state.tasks base.spawned = some (.starter (.recovering [])) ∧
      row ∈ base.tables.inflight.rows ∧ state.attempts row.idempotencyKey = [] := by
  have passes : (executeChecked (step oneWorker) (fun _ _ => true)
      (abandonedLabels ++ [.step 4 .proceed]) (State.boot {})).any (fun base => !base.session &&
        (step oneWorker .start base).any fun called =>
          (executeChecked (step oneWorker) (fun _ label => ownStep base.spawned label)
            (List.replicate 4 (.step base.spawned .proceed)) called).any fun state =>
              state.hasRecovered base.spawned && base.tables.inflight.rows.any fun row =>
                (state.attempts row.idempotencyKey).isEmpty) = true := by
    decide +kernel
  obtain ⟨base, reached, tested⟩ := exists_run_of_executeChecked (fun _ _ _ => trivial) passes
  rw [Bool.and_eq_true, Bool.not_eq_true'] at tested
  obtain ⟨called, call, replayed⟩ := (Option.any_eq_true _ _).mp tested.2
  obtain ⟨state, run, ended⟩ :=
    exists_run_of_executeChecked (ownStep_sound oneWorker base.spawned) replayed
  rw [Bool.and_eq_true, hasRecovered_iff, List.any_eq_true] at ended
  obtain ⟨returned, row, present, skipped⟩ := ended
  exact ⟨base, called, state, row, reached, tested.1, call, run, returned, present,
    List.isEmpty_iff.mp skipped⟩

/-- A request whose process crashes before it is sent. -/
def interruptedLabels : List Label :=
  startLabels ++ requestLabels 2 "http://example.org/" ++ [.crash]

/-- After a crash, the next `start()` carries the row of the request. -/
theorem recovery_carries_rows_crashed :
    ∃ base called state, Reachable (step oneWorker) (State.boot {}) base ∧
      Run (step oneWorker) (Alone oneWorker base.spawned) called state ∧
      base.tables.inflight.rows ≠ [] ∧
      ∀ row ∈ base.tables.inflight.rows,
        state.attempts row.idempotencyKey = [row.retryCount] := by
  have passes : (executeChecked (step oneWorker) (fun _ _ => true) interruptedLabels
      (State.boot {})).any (fun base => !base.session && !base.tables.inflight.rows.isEmpty &&
        (base.tables.inflight.rows.all fun row =>
          decide (base.carriers row.idempotencyKey = [row.retryCount])) &&
        (step oneWorker .start base).any fun called =>
          (executeChecked (step oneWorker) (fun _ label => ownStep base.spawned label)
            (List.replicate 5 (.step base.spawned .proceed)) called).any fun state =>
              state.hasRecovered base.spawned) = true := by
    decide +kernel
  obtain ⟨base, reached, tested⟩ := exists_run_of_executeChecked (fun _ _ _ => trivial) passes
  simp only [Bool.and_eq_true, Bool.not_eq_true', List.all_eq_true, decide_eq_true_eq,
    List.isEmpty_eq_false_iff] at tested
  obtain ⟨⟨⟨stopped, someRow⟩, carried⟩, restarted⟩ := tested
  obtain ⟨called, call, replayed⟩ := (Option.any_eq_true _ _).mp restarted
  obtain ⟨state, run, ended⟩ :=
    exists_run_of_executeChecked (ownStep_sound oneWorker base.spawned) replayed
  exact ⟨base, called, state, reached, run, someRow,
    (recovery_carries_rows_iff oneWorker {} 0 base called state reached stopped call run
      ((hasRecovered_iff _ _).mp ended)).1.mpr carried⟩

end HardenedClient
