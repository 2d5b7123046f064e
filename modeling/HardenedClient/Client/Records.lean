import HardenedClient.Client.Backing

/-!
# What a step records

A step records at most one event, and each kind of event is recorded by one
coroutine at one await. The lemma says which, and what the step writes with it.
-/

namespace HardenedClient

open Foundation

/-- The step that records an event. -/
inductive Records (state : State) (label : Label) (next : State) : Event → Prop
  | upserted {id : ℕ} {replayed : Option ℕ} {request : DurableRequest} {future : ℕ}
      (isStep : label = .step id .proceed)
      (current : state.tasks id = some (.caller replayed (.upserting request future)))
      (tables : next.tables = state.tables.upsertInflight request state.now) :
      Records state label next (.upserted request.key)
  | incremented {id : ℕ} {item : QueueItem} {exc : PyException} {newAttempt : ℕ}
      {delay : PyFloat}
      (current : state.tasks id = some
        (.worker (.handling item (.incrementing exc newAttempt delay))))
      (tables : next.tables = state.tables.incrementRetry item.key exc.message state.now) :
      Records state label next (.incremented item.key)
  | deleted {id : ℕ} {item : QueueItem} {point : HandlePoint}
      (current : state.tasks id = some (.worker (.handling item point)))
      (deletes : point.deletes = true)
      (tables : next.tables = state.tables.deleteInflight item.key) :
      Records state label next (.deleted item.key)
  | deadLettered {id : ℕ} {item : QueueItem} {exc : PyException}
      (current : state.tasks id = some (.worker (.handling item (.deadLettering exc))))
      (tables : next.tables =
        state.tables.pushDeadLetter item.request exc.message item.attempt state.now) :
      Records state label next (.deadLettered item.key state.tables.nextDeadLetterId)
  | removedDeadLetter {id : ℕ}
      (tables : next.tables = state.tables.removeDeadLetter id) :
      Records state label next (.removedDeadLetter id)
  | purged
      (tables : next.tables = state.tables.purgeDeadLetter) :
      Records state label next .purged
  | handled {id : ℕ} {item : QueueItem} {rest : List QueueItem}
      (idle : state.tasks id = some (.worker .idle))
      (waiting : state.queue.items = item :: rest)
      (taken : next.tasks id = some (.worker (.handling item .gating)))
      (tables : next.tables = state.tables) :
      Records state label next (.handled item.key item.attempt)
  | executed {id : ℕ} {item : QueueItem} {point : HandlePoint} {succeeded : Bool}
      (current : state.tasks id = some (.worker (.handling item point)))
      (tables : next.tables = state.tables) :
      Records state label next (.executed item.key succeeded)
  | settled {id : ℕ} {item : QueueItem} {point : HandlePoint} {future : ℕ}
      {outcome : Future Response}
      (current : state.tasks id = some (.worker (.handling item point)))
      (past : point.backed? item = none)
      (pending : state.dedup.pendingFuture? item.key = some future)
      (done : outcome.done = true)
      (dedup : next.dedup = state.dedup.settle item.key outcome)
      (tables : next.tables = state.tables) :
      Records state label next (.settled item.key future outcome)
  | crashed
      (isCrash : label = .crash)
      (tables : next.tables = state.tables) :
      Records state label next .crashed

namespace State

variable {env : Env} {state next : State} {label : Label} {id : ℕ}

/-- Settling a key records the future that was pending under it. -/
theorem settleKey_history
    (state : State)
    (key : Key)
    (outcome : Future Response) :
    (state.settleKey key outcome).history = state.history ∨
      ∃ future, state.dedup.pendingFuture? key = some future ∧
        (state.settleKey key outcome).history =
          .settled key future outcome :: state.history := by
  unfold settleKey
  split
  · next future pending => exact Or.inr ⟨future, pending, rfl⟩
  · exact Or.inl rfl

/-- The end of `_handle` records what it settles. -/
theorem records_of_settle
    {item : QueueItem}
    {point : HandlePoint}
    {outcome : Future Response}
    (current : state.tasks id = some (.worker (.handling item point)))
    (past : point.backed? item = none)
    (done : outcome.done = true)
    (ends : next = (state.settleKey item.key outcome).endHandle id) :
    (next.history = state.history ∧ next.tables = state.tables) ∨
      ∃ event, next.history = event :: state.history ∧ Records state label next event := by
  have dedup : next.dedup = state.dedup.settle item.key outcome := by
    rw [ends, settleKey_eq]
    rfl
  have tables : next.tables = state.tables := by
    rw [ends, settleKey_eq]
    rfl
  rcases state.settleKey_history item.key outcome with quiet | ⟨future, pending, recorded⟩
  · exact Or.inl ⟨ends ▸ quiet, tables⟩
  · refine Or.inr ⟨.settled item.key future outcome, ends ▸ recorded, ?_⟩
    exact .settled current past pending done dedup tables

/-- A step commits and records nothing, or it records one event. -/
theorem step_records
    (moved : HardenedClient.step env label state = some next) :
    (next.history = state.history ∧ next.tables = state.tables) ∨
      ∃ event, next.history = event :: state.history ∧ Records state label next event := by
  cases step_stepped moved with
  | purged => exact Or.inr ⟨_, rfl, .purged rfl⟩
  | upserted current => exact Or.inr ⟨_, rfl, .upserted rfl current rfl⟩
  | removed => exact Or.inr ⟨_, rfl, .removedDeadLetter rfl⟩
  | taken idle waiting =>
      exact Or.inr ⟨_, rfl, .handled idle waiting (moveTo_tasks_self _ _ _ _) rfl⟩
  | handled current _ handled =>
      cases handled with
      | advanced | rescheduled => exact Or.inl ⟨rfl, rfl⟩
      | succeeded | failed => exact Or.inr ⟨_, rfl, .executed current rfl⟩
      | deleted | retired => exact Or.inr ⟨_, rfl, .deleted current rfl rfl⟩
      | incremented => exact Or.inr ⟨_, rfl, .incremented current rfl⟩
      | pushed => exact Or.inr ⟨_, rfl, .deadLettered current rfl⟩
      | resolved | rejected => exact records_of_settle current rfl rfl rfl
  | escaped current _ escaped =>
      obtain ⟨rfl | rfl⟩ := escaped
      · exact Or.inl ⟨rfl, rfl⟩
      · exact Or.inr ⟨_, rfl, .executed current rfl⟩
  | crash => exact Or.inr ⟨_, rfl, .crashed rfl rfl⟩
  | _ => exact Or.inl ⟨rfl, rfl⟩

/-- Every past of a run's history was the history of a state on the run. -/
theorem exists_run_of_suffix
    {allowed : State → Label → Prop}
    {start : State}
    {later past : List Event}
    (run : Run (HardenedClient.step env) allowed start state)
    (empty : start.history = [])
    (split : state.history = later ++ past) :
    ∃ middle, Run (HardenedClient.step env) allowed start middle ∧ middle.history = past := by
  induction run generalizing later with
  | refl =>
      rw [empty] at split
      obtain ⟨_, rfl⟩ := List.append_eq_nil_iff.mp split.symm
      exact ⟨start, .refl, empty⟩
  | @tail state next label run permitted moved inductionHypothesis =>
      cases later with
      | nil => exact ⟨next, run.tail permitted moved, split⟩
      | cons first rest =>
          rcases step_records moved with ⟨quiet, _⟩ | ⟨event, recorded, _⟩
          · exact inductionHypothesis (quiet.symm.trans split)
          · exact inductionHypothesis (List.cons.inj (recorded.symm.trans split)).2

end State

end HardenedClient
