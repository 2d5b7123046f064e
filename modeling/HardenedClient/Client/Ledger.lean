import HardenedClient.Client.Frame

/-!
# Commits

The durable side of a step: what it commits to the tables, which task commits
it, and which event records it. The lemmas also say how a worker gets to the two
awaits at which it deletes a row.
-/

namespace HardenedClient

open Foundation

/-- Events that record no commit. -/
def Event.isVolatile : Event → Bool
  | .handled _ _ | .executed _ _ | .settled _ _ _ | .crashed => true
  | _ => false

/-- The awaits of `_handle` that delete the item's row. -/
def HandlePoint.deletes : HandlePoint → Bool
  | .deleting _ | .retiring _ => true
  | _ => false

/-- The tables and the history a step can leave. -/
inductive Commits (state : State) : Tables → List Event → Prop
  | none {events : List Event} (volatile : ∀ event ∈ events, event.isVolatile = true) :
      Commits state state.tables (events ++ state.history)
  | upserted {id : ℕ} {replayed : Option ℕ} {request : DurableRequest} {future : ℕ}
      (current : state.tasks id = some (.caller replayed (.upserting request future))) :
      Commits state (state.tables.upsertInflight request state.now)
        (.upserted request.key :: state.history)
  | incremented {key : Key} {error : PyStr} :
      Commits state (state.tables.incrementRetry key error state.now)
        (.incremented key :: state.history)
  | deleted {id : ℕ} {item : QueueItem} {point : HandlePoint}
      (current : state.tasks id = some (.worker (.handling item point)))
      (deletes : point.deletes = true) :
      Commits state (state.tables.deleteInflight item.key)
        (.deleted item.key :: state.history)
  | pushed {id : ℕ} {item : QueueItem} {exc : PyException}
      (current : state.tasks id = some (.worker (.handling item (.deadLettering exc)))) :
      Commits state
        (state.tables.pushDeadLetter item.request exc.message item.attempt state.now)
        (.deadLettered item.key state.tables.nextDeadLetterId :: state.history)
  | removed {id : ℕ} {replayed : Option ℕ} {row : DeadLetterRow}
      (current : state.tasks id = some (.caller replayed (.removing row))) :
      Commits state (state.tables.removeDeadLetter row.id)
        (.removedDeadLetter row.id :: state.history)
  | purged : Commits state state.tables.purgeDeadLetter (.purged :: state.history)

theorem Handled.commits
    {state next : State}
    {id : ℕ}
    {item : QueueItem}
    {point : HandlePoint}
    (current : state.tasks id = some (.worker (.handling item point)))
    (handled : Handled state id item point next) :
    Commits state next.tables next.history := by
  have quiet : Commits state state.tables state.history := @Commits.none state [] (by simp)
  have one : ∀ event : Event, event.isVolatile = true →
      Commits state state.tables (event :: state.history) := fun event volatile =>
    @Commits.none state [event] (by simpa using volatile)
  cases handled with
  | advanced | rescheduled => exact quiet
  | succeeded => exact one _ rfl
  | failed => exact one _ rfl
  | deleted | retired => exact .deleted current rfl
  | incremented => exact .incremented
  | pushed => exact .pushed current
  | resolved | rejected =>
      unfold State.settleKey
      split
      · exact one _ rfl
      · exact quiet

/-- Every step commits one of these. -/
theorem Stepped.commits
    {env : Env}
    {label : Label}
    {state next : State}
    (stepped : Stepped env state label next) :
    Commits state next.tables next.history := by
  have quiet : Commits state state.tables state.history := @Commits.none state [] (by simp)
  have one : ∀ event : Event, event.isVolatile = true →
      Commits state state.tables (event :: state.history) := fun event volatile =>
    @Commits.none state [event] (by simpa using volatile)
  cases stepped with
  | handled current _ handled => exact handled.commits current
  | escaped current _ escaped =>
      obtain ⟨executed⟩ := escaped
      rcases executed with same | same
      · exact same ▸ quiet
      · exact same ▸ one _ rfl
  | purged => exact .purged
  | upserted current => exact .upserted current
  | removed current => exact .removed current
  | taken => exact one _ rfl
  | crash => exact one _ rfl
  | _ => exact quiet

/-- Commits only add events to the history. -/
theorem Commits.history_suffix
    {state : State}
    {tables : Tables}
    {history : List Event}
    (commits : Commits state tables history) :
    state.history <:+ history := by
  cases commits with
  | none => exact List.suffix_append _ _
  | _ => exact List.suffix_cons _ _

/-- Dead letters stay, unless they are purged or a replay removes one of them. -/
theorem Stepped.deadLetters
    {env : Env}
    {label : Label}
    {state next : State}
    (stepped : Stepped env state label next) :
    (∀ row ∈ state.tables.deadLetters, row ∈ next.tables.deadLetters) ∨
      label = .purge ∨
      ∃ id replayed row, label = .step id .proceed ∧
        state.tasks id = some (.caller replayed (.removing row)) ∧
        state.connected = true ∧ next.tables = state.tables.removeDeadLetter row.id := by
  cases stepped with
  | purged => exact Or.inr (Or.inl rfl)
  | removed current connected =>
      exact Or.inr (Or.inr ⟨_, _, _, rfl, current, connected, rfl⟩)
  | handled _ _ handled =>
      refine Or.inl fun row present => ?_
      cases handled with
      | pushed => exact List.mem_append_left _ present
      | resolved | rejected =>
          rw [State.settleKey_eq]
          exact present
      | _ => exact present
  | escaped _ _ escaped =>
      obtain ⟨_⟩ := escaped
      exact Or.inl fun _ present => present
  | _ => exact Or.inl fun _ present => present

/-- A row is there after a commit when it was there before, or its key has just been
persisted. -/
theorem Commits.has_cases
    {state : State}
    {tables : Tables}
    {history : List Event}
    {key : Key}
    (commits : Commits state tables history)
    (row : tables.inflight.Has key) :
    state.tables.inflight.Has key ∨ history = .upserted key :: state.history := by
  cases commits with
  | none | pushed | removed | purged => exact Or.inl row
  | incremented => exact Or.inl (by simpa using row)
  | deleted => exact Or.inl (by simpa using And.left (by simpa using row))
  | upserted =>
      rw [Tables.has_upsertInflight] at row
      rcases row with rfl | row
      · exact Or.inr rfl
      · exact Or.inl row

/-- A row that is gone after a commit was deleted by the worker of its key. -/
theorem Commits.deletes_of_gone
    {state : State}
    {tables : Tables}
    {history : List Event}
    {key : Key}
    (commits : Commits state tables history)
    (gone : ¬ tables.inflight.Has key)
    (row : state.tables.inflight.Has key) :
    ∃ id item point, state.tasks id = some (.worker (.handling item point)) ∧
      point.deletes = true ∧ item.key = key := by
  cases commits with
  | none | pushed | removed | purged => exact absurd row gone
  | upserted => exact absurd (Or.inr row) (by simpa using gone)
  | incremented => exact absurd row (by simpa using gone)
  | deleted current deletes =>
      refine ⟨_, _, _, current, deletes, ?_⟩
      by_contra different
      exact gone (by simp [row, Ne.symm different])

/-- How a worker gets to the await it is at after a step: it was there, it has
just received a success, it has just pushed a dead letter, or the await deletes
no row. -/
theorem Stepped.stage
    {env : Env}
    {label : Label}
    {state next : State}
    {id : ℕ}
    {item : QueueItem}
    {point : HandlePoint}
    (stepped : Stepped env state label next)
    (tidy : state.Tidy)
    (current : next.tasks id = some (.worker (.handling item point))) :
    state.tasks id = some (.worker (.handling item point)) ∨
      (∃ response, point = .deleting response ∧
        next.history = .executed item.key true :: state.history) ∨
      (∃ exc, point = .retiring exc ∧
        next.tables =
          state.tables.pushDeadLetter item.request exc.message item.attempt state.now ∧
        next.history =
          .deadLettered item.key state.tables.nextDeadLetterId :: state.history) ∨
      point.deletes = false := by
  rcases stepped.origin tidy current with ⟨before, _⟩ | ⟨rfl, alive⟩ | born
  · exact Or.inl before
  swap
  · cases born
  cases stepped with
  | crash => exact absurd rfl alive
  | outside | purged => exact Or.inl current
  | @handled actor choice own before next present inside handled =>
      cases handled with
      | resolved | rejected | rescheduled =>
          simp only [Label.actor, State.endHandle_tasks_self] at current
          cases current
      | advanced advances =>
          simp only [Label.actor, State.moveTo_tasks_self] at current
          cases current
          refine Or.inr (Or.inr (Or.inr ?_))
          cases advances with
          | blocked disposes => cases disposes <;> rfl
          | answered _ chosen => rcases chosen with rfl | rfl <;> rfl
          | _ => rfl
      | failed disposes =>
          simp only [Label.actor, State.moveTo_tasks_self] at current
          cases current
          exact Or.inr (Or.inr (Or.inr (by cases disposes <;> rfl)))
      | succeeded =>
          simp only [Label.actor, State.moveTo_tasks_self] at current
          cases current
          exact Or.inr (Or.inl ⟨_, rfl, rfl⟩)
      | pushed =>
          simp only [Label.actor, State.moveTo_tasks_self] at current
          cases current
          exact Or.inr (Or.inr (Or.inl ⟨_, rfl, rfl, rfl⟩))
      | deleted | incremented | retired =>
          simp only [Label.actor, State.moveTo_tasks_self] at current
          cases current
          exact Or.inr (Or.inr (Or.inr rfl))
  | escaped _ _ escaped =>
      obtain ⟨_, ended⟩ := escaped.worker
      cases ended.symm.trans current
  | taken =>
      simp only [Label.actor, State.moveTo_tasks_self] at current
      cases current
      exact Or.inr (Or.inr (Or.inr rfl))
  | _ => simp [Label.actor] at current

end HardenedClient
