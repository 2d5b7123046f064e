import HardenedClient.Models
import HardenedClient.Errors
import Mathlib.Logic.Function.Basic

/-!
# In-flight deduplication registry

`InFlightRegistry` maps a key to the future its callers share. The registry
never awaits inside its lock, so each operation is one step. The futures it
has created are kept by identity beside the map: a caller that holds a future
keeps it after the map has moved on.
-/

namespace HardenedClient

/-- A shared `asyncio.Future`. -/
inductive Future (T : Type)
  | pending
  | result (value : T)
  | exception (exc : PyException)
  | cancelled

namespace Future

/-- `future.done()`. -/
def done : Future T → Bool
  | .pending => false
  | _ => true

@[simp] theorem done_pending : (pending : Future T).done = false := rfl

@[simp] theorem done_result (value : T) : (result value).done = true := rfl

@[simp] theorem done_exception (exc : PyException) :
    (exception exc : Future T).done = true := rfl

@[simp] theorem done_cancelled : (cancelled : Future T).done = true := rfl

theorem eq_pending_of_not_done
    {future : Future T}
    (open_ : future.done = false) :
    future = .pending := by
  cases future <;> simp_all

end Future

/-- `InFlightRegistry`, with the futures it has created so far. -/
structure InFlightRegistry (T : Type) where
  inflight : Key → Option ℕ := fun _ => none
  futures : ℕ → Future T := fun _ => .pending
  created : ℕ := 0
  dedupHits : ℕ := 0
  uniqueRequests : ℕ := 0

namespace InFlightRegistry

/-- The future registered for a key, when it is not done. -/
def pendingFuture? (registry : InFlightRegistry T) (key : Key) : Option ℕ :=
  (registry.inflight key).filter fun future => !(registry.futures future).done

/-- `get_or_create`: the registry afterwards, the future, and whether the
caller owns it. -/
def getOrCreate
    (registry : InFlightRegistry T)
    (key : Key) : InFlightRegistry T × ℕ × Bool :=
  match registry.pendingFuture? key with
  | some existing =>
      ({ registry with dedupHits := registry.dedupHits + 1 }, existing, false)
  | none =>
      ({ registry with
          inflight := Function.update registry.inflight key (some registry.created)
          futures := Function.update registry.futures registry.created .pending
          created := registry.created + 1
          uniqueRequests := registry.uniqueRequests + 1 },
        registry.created, true)

/-- Pop a key and settle its future unless that is done: `resolve` and `fail`
differ in the outcome only. Nothing awaits between the pop and the settling. -/
def settle
    (registry : InFlightRegistry T)
    (key : Key)
    (outcome : Future T) : InFlightRegistry T :=
  { registry with
    inflight := Function.update registry.inflight key none
    futures :=
      match registry.pendingFuture? key with
      | some future => Function.update registry.futures future outcome
      | none => registry.futures }

/-- `resolve`. -/
def resolve (registry : InFlightRegistry T) (key : Key) (value : T) : InFlightRegistry T :=
  registry.settle key (.result value)

/-- `fail`. -/
def fail
    (registry : InFlightRegistry T)
    (key : Key)
    (exc : PyException) : InFlightRegistry T :=
  registry.settle key (.exception exc)

/-- `discard`. -/
def discard (registry : InFlightRegistry T) (key : Key) : InFlightRegistry T :=
  { registry with inflight := Function.update registry.inflight key none }

/-- Cancelling a task that awaits a future cancels the future, unless done. -/
def cancel (registry : InFlightRegistry T) (future : ℕ) : InFlightRegistry T :=
  if (registry.futures future).done then registry
  else { registry with futures := Function.update registry.futures future .cancelled }

theorem pendingFuture?_eq_some_iff
    (registry : InFlightRegistry T)
    (key : Key)
    (future : ℕ) :
    registry.pendingFuture? key = some future ↔
      registry.inflight key = some future ∧ registry.futures future = .pending := by
  simp only [pendingFuture?, Option.filter_eq_some_iff, Bool.not_eq_eq_eq_not, Bool.not_true]
  constructor
  · rintro ⟨registered, notDone⟩
    exact ⟨registered, Future.eq_pending_of_not_done notDone⟩
  · rintro ⟨registered, pending⟩
    exact ⟨registered, by simp [pending]⟩

/-- Both ways `get_or_create` can end. -/
theorem getOrCreate_cases
    (registry : InFlightRegistry T)
    (key : Key) :
    (∃ existing, registry.inflight key = some existing ∧
      registry.futures existing = .pending ∧
      registry.getOrCreate key =
        ({ registry with dedupHits := registry.dedupHits + 1 }, existing, false)) ∨
    (registry.pendingFuture? key = none ∧
      registry.getOrCreate key =
        ({ registry with
            inflight := Function.update registry.inflight key (some registry.created)
            futures := Function.update registry.futures registry.created .pending
            created := registry.created + 1
            uniqueRequests := registry.uniqueRequests + 1 },
          registry.created, true)) := by
  cases current : registry.pendingFuture? key with
  | some existing =>
      obtain ⟨registered, pending⟩ :=
        (registry.pendingFuture?_eq_some_iff key existing).mp current
      exact Or.inl ⟨existing, registered, pending, by simp [getOrCreate, current]⟩
  | none => exact Or.inr ⟨rfl, by simp [getOrCreate, current]⟩

/-- A caller owns a key exactly when no pending future is registered for it. -/
theorem getOrCreate_owner_iff
    (registry : InFlightRegistry T)
    (key : Key) :
    (registry.getOrCreate key).2.2 = true ↔ registry.pendingFuture? key = none := by
  cases current : registry.pendingFuture? key <;> simp [getOrCreate, current]

/-- A key has a pending future once somebody has asked for one. -/
theorem pendingFuture?_getOrCreate_ne_none
    (registry : InFlightRegistry T)
    (key : Key) :
    (registry.getOrCreate key).1.pendingFuture? key ≠ none := by
  rw [Option.ne_none_iff_exists']
  rcases registry.getOrCreate_cases key with
    ⟨existing, registered, pending, called⟩ | ⟨_, called⟩ <;> rw [called]
  · exact ⟨existing, (pendingFuture?_eq_some_iff _ _ _).mpr ⟨registered, pending⟩⟩
  · refine ⟨registry.created, (pendingFuture?_eq_some_iff _ _ _).mpr ?_⟩
    simp

/-- Registering a key leaves the pending futures of other keys registered, since
the new future is none of theirs. -/
theorem pendingFuture?_getOrCreate_of_ne
    (registry : InFlightRegistry T)
    {key other : Key}
    (fresh : ∀ future, registry.inflight other = some future → future < registry.created)
    (different : other ≠ key) :
    (registry.getOrCreate key).1.pendingFuture? other = registry.pendingFuture? other := by
  rcases registry.getOrCreate_cases key with ⟨_, _, _, called⟩ | ⟨_, called⟩ <;> rw [called]
  · rfl
  · simp only [pendingFuture?, Function.update_of_ne different]
    cases registered : registry.inflight other with
    | none => rfl
    | some future => simp [Option.filter, (fresh future registered).ne]

/-- Settling a key settles the pending future registered for it, and no other. -/
theorem settle_futures
    (registry : InFlightRegistry T)
    (key : Key)
    (outcome : Future T)
    (future : ℕ) :
    (registry.settle key outcome).futures future =
      if registry.pendingFuture? key = some future then outcome
      else registry.futures future := by
  unfold settle
  cases registry.pendingFuture? key with
  | none => simp
  | some settled => simp [Function.update_apply, eq_comm]

/-- Settling a key leaves the pending futures of other keys registered, since no
two keys share one. -/
theorem pendingFuture?_settle_of_ne
    (registry : InFlightRegistry T)
    {key other : Key}
    (outcome : Future T)
    (apart : ∀ future, registry.inflight other = some future →
      registry.inflight key ≠ some future)
    (different : other ≠ key) :
    (registry.settle key outcome).pendingFuture? other = registry.pendingFuture? other := by
  have kept : (registry.settle key outcome).inflight other = registry.inflight other := by
    simp [settle, different]
  simp only [pendingFuture?, kept]
  cases registered : registry.inflight other with
  | none => rfl
  | some future =>
      have unsettled : registry.pendingFuture? key ≠ some future := fun settles =>
        apart future registered ((registry.pendingFuture?_eq_some_iff key future).mp settles).1
      simp [Option.filter, settle_futures, unsettled]

/-- Cancelling takes the future from pending to cancelled, and touches no
other. -/
theorem cancel_futures
    (registry : InFlightRegistry T)
    (cancelled future : ℕ) :
    (registry.cancel cancelled).futures future =
      if future = cancelled ∧ (registry.futures cancelled).done = false then .cancelled
      else registry.futures future := by
  unfold cancel
  cases (registry.futures cancelled).done <;> simp [Function.update_apply]

@[simp] theorem cancel_inflight (registry : InFlightRegistry T) (future : ℕ) :
    (registry.cancel future).inflight = registry.inflight := by
  unfold cancel
  split <;> rfl

@[simp] theorem cancel_created (registry : InFlightRegistry T) (future : ℕ) :
    (registry.cancel future).created = registry.created := by
  unfold cancel
  split <;> rfl

end InFlightRegistry

end HardenedClient
