import HardenedClient.Dedup
import HardenedClient.Foundation.Journal

/-!
# Interleaved calls of the registry

`resolve` and `fail` pop the key under the lock and settle the future after they
have released it. Each of the two halves is a step here, so any other call may
come between them, although nothing awaits there. The registry keeps its
specification all the same: a popped future has left the map, and only the call
that popped it can settle it.
-/

namespace HardenedClient

open Foundation

namespace InFlightRegistry

/-- The half of `resolve` and `fail` under the lock: the key is popped. -/
def pop (registry : InFlightRegistry T) (key : Key) : InFlightRegistry T × Option ℕ :=
  ({ registry with inflight := Function.update registry.inflight key none },
    registry.inflight key)

/-- The other half: the popped future is settled, unless it is done. -/
def finish
    (registry : InFlightRegistry T)
    (future : ℕ)
    (outcome : Future T) : InFlightRegistry T :=
  if (registry.futures future).done then registry
  else { registry with futures := Function.update registry.futures future outcome }

theorem inflight_of_pop
    {registry : InFlightRegistry T}
    {key name : Key}
    {future : ℕ}
    (registered : (registry.pop key).1.inflight name = some future) :
    registry.inflight name = some future ∧ name ≠ key := by
  simp only [pop, Function.update_apply] at registered
  split_ifs at registered with same
  exact ⟨registered, same⟩

end InFlightRegistry

/-- A registry with the calls of `resolve` and `fail` that have popped a future and not yet
settled it. -/
structure RegistryState (T : Type) where
  registry : InFlightRegistry T := {}
  settling : ℕ → Option (ℕ × Future T) := fun _ => none
  calls : ℕ := 0

/-- What can happen to a registry. -/
inductive RegistryLabel (T : Type)
  | getOrCreate (key : Key)
  | resolve (key : Key) (value : T)
  | fail (key : Key) (exc : PyException)
  | settle (call : ℕ)
  | discard (key : Key)

/-- The key whose future a call removes. -/
def RegistryLabel.removes? : RegistryLabel T → Option Key
  | .resolve key _ | .fail key _ | .discard key => some key
  | .getOrCreate _ | .settle _ => none

/-- What is seen of the calls: the future a `get_or_create` returns, that a key is removed,
and that a future is settled. -/
inductive RegistryEvent (T : Type)
  | returned (key : Key) (future : ℕ) (owner : Bool)
  | removed (key : Key)
  | settled (future : ℕ) (outcome : Future T)

namespace RegistryState

/-- The locked half of a call that settles a key. -/
def begin (state : RegistryState T) (key : Key) (outcome : Future T) : RegistryState T :=
  match state.registry.pop key with
  | (registry, some future) =>
      { registry := registry
        settling := Function.update state.settling state.calls (some (future, outcome))
        calls := state.calls + 1 }
  | (registry, none) => { state with registry := registry }

theorem begin_of_none
    {state : RegistryState T}
    {key : Key}
    (absent : state.registry.inflight key = none)
    (outcome : Future T) :
    state.begin key outcome = { state with registry := (state.registry.pop key).1 } := by
  simp only [begin, InFlightRegistry.pop, absent]

theorem begin_of_some
    {state : RegistryState T}
    {key : Key}
    {future : ℕ}
    (found : state.registry.inflight key = some future)
    (outcome : Future T) :
    state.begin key outcome =
      { registry := (state.registry.pop key).1
        settling := Function.update state.settling state.calls (some (future, outcome))
        calls := state.calls + 1 } := by
  simp only [begin, InFlightRegistry.pop, found]

/-- One call, or one half of it. -/
def step (label : RegistryLabel T) (state : RegistryState T) : Option (RegistryState T) :=
  match label with
  | .getOrCreate key => some { state with registry := (state.registry.getOrCreate key).1 }
  | .resolve key value => some (state.begin key (.result value))
  | .fail key exc => some (state.begin key (.exception exc))
  | .settle call =>
      (state.settling call).map fun popped =>
        { state with
          registry := state.registry.finish popped.1 popped.2
          settling := Function.update state.settling call none }
  | .discard key => some { state with registry := state.registry.discard key }

/-- What a move shows. -/
def observe (before : RegistryState T) (label : RegistryLabel T) (_ : RegistryState T) :
    List (RegistryEvent T) :=
  match label with
  | .getOrCreate key =>
      let (_, future, owner) := before.registry.getOrCreate key
      [.returned key future owner]
  | .resolve key _ | .fail key _ | .discard key => [.removed key]
  | .settle call =>
      match before.settling call with
      | some (future, outcome) =>
          if (before.registry.futures future).done then [] else [.settled future outcome]
      | none => []

/-! ## Where a pending future is -/

/-- Who keeps a future that is to be settled: the map under a key, or a call that has popped
it. -/
inductive Keeper
  | map (key : Key)
  | call (id : ℕ)
  deriving DecidableEq

/-- The future that a keeper has. -/
def kept (state : RegistryState T) : Keeper → Option ℕ
  | .map key => state.registry.inflight key
  | .call id => (state.settling id).map Prod.fst

/-- Every kept future has been created, is pending, and has one keeper. -/
structure Apart (state : RegistryState T) : Prop where
  known : ∀ keeper future, state.kept keeper = some future → future < state.registry.created
  pending : ∀ keeper future, state.kept keeper = some future →
    state.registry.futures future = .pending
  single : ∀ keeper other future, state.kept keeper = some future →
    state.kept other = some future → keeper = other
  fresh : ∀ future, state.registry.created ≤ future → state.registry.futures future = .pending

namespace Apart

variable {before after : RegistryState T}

/-- Keepers that had their futures before keep the state apart. -/
theorem of_kept
    (apart : before.Apart)
    (origin : Keeper → Keeper)
    (injective : ∀ keeper other future, after.kept keeper = some future →
      after.kept other = some future → origin keeper = origin other → keeper = other)
    (kept : ∀ keeper future, after.kept keeper = some future →
      before.kept (origin keeper) = some future)
    (created : after.registry.created = before.registry.created)
    (futures : ∀ future, before.registry.futures future = .pending →
      (∀ keeper, after.kept keeper = some future → after.registry.futures future = .pending) ∧
      (before.registry.created ≤ future → after.registry.futures future = .pending)) :
    after.Apart where
  known := by
    intro keeper future isKept
    rw [created]
    exact apart.known _ _ (kept keeper future isKept)
  pending := by
    intro keeper future isKept
    exact (futures future (apart.pending _ _ (kept keeper future isKept))).1 keeper isKept
  single := by
    intro keeper other future isKept otherKept
    exact injective keeper other future isKept otherKept
      (apart.single _ _ _ (kept _ _ isKept) (kept _ _ otherKept))
  fresh := by
    intro future unknown
    rw [created] at unknown
    exact (futures future (apart.fresh future unknown)).2 unknown

/-- Dropping futures keeps the state apart. -/
theorem of_dropped
    (apart : before.Apart)
    (kept : ∀ keeper future, after.kept keeper = some future →
      before.kept keeper = some future)
    (created : after.registry.created = before.registry.created)
    (futures : after.registry.futures = before.registry.futures) :
    after.Apart :=
  apart.of_kept id (fun _ _ _ _ _ same => same) kept created fun _ pending => by
    rw [futures]
    exact ⟨fun _ _ => pending, fun _ => pending⟩

/-- Removing a key keeps the state apart. -/
theorem remove
    (apart : before.Apart)
    (key : Key) :
    RegistryState.Apart { before with registry := (before.registry.pop key).1 } := by
  refine apart.of_dropped ?_ rfl rfl
  intro keeper future isKept
  cases keeper with
  | map name => exact (InFlightRegistry.inflight_of_pop isKept).1
  | call id => exact isKept

/-- Popping a key hands its future to the call. -/
theorem begin
    (apart : before.Apart)
    (key : Key)
    (outcome : Future T) :
    (before.begin key outcome).Apart := by
  cases found : before.registry.inflight key with
  | none =>
      rw [begin_of_none found]
      exact apart.remove key
  | some future =>
      rw [begin_of_some found]
      generalize isAfter : RegistryState.mk _ _ _ = after
      have popped : ∀ keeper other, after.kept keeper = some other →
          keeper = .call before.calls ∧ other = future ∨
            keeper ≠ .call before.calls ∧ keeper ≠ .map key ∧
              before.kept keeper = some other := by
        subst isAfter
        intro keeper other isKept
        cases keeper with
        | map name =>
            obtain ⟨stays, different⟩ := InFlightRegistry.inflight_of_pop isKept
            exact Or.inr ⟨Keeper.noConfusion, fun equal => different (Keeper.map.inj equal), stays⟩
        | call id =>
            by_cases same : id = before.calls
            · subst same
              left
              simpa [RegistryState.kept, eq_comm] using isKept
            · right
              refine ⟨fun equal => same (Keeper.call.inj equal), Keeper.noConfusion, ?_⟩
              simpa [RegistryState.kept, Function.update_of_ne same] using isKept
      refine apart.of_kept
        (fun keeper => if keeper = .call before.calls then .map key else keeper) ?_ ?_ ?_ ?_
      · intro keeper other shared isKept otherKept same
        rcases popped keeper shared isKept with ⟨rfl, rfl⟩ | ⟨notCall, notMap, _⟩
        · rcases popped other _ otherKept with ⟨rfl, _⟩ | ⟨notCall, notMap, _⟩
          · rfl
          · rw [if_pos rfl, if_neg notCall] at same
            exact absurd same.symm notMap
        · rcases popped other shared otherKept with ⟨rfl, _⟩ | ⟨otherNotCall, _, _⟩
          · rw [if_neg notCall, if_pos rfl] at same
            exact absurd same notMap
          · rwa [if_neg notCall, if_neg otherNotCall] at same
      · intro keeper other isKept
        rcases popped keeper other isKept with ⟨rfl, rfl⟩ | ⟨notCall, _, stays⟩
        · rw [if_pos rfl]
          exact found
        · rwa [if_neg notCall]
      · subst isAfter
        rfl
      · subst isAfter
        exact fun _ pending => ⟨fun _ _ => pending, fun _ => pending⟩

/-- The call that popped a future settles it. -/
theorem settle
    {call : ℕ}
    {popped : ℕ × Future T}
    (apart : before.Apart)
    (found : before.settling call = some popped) :
    RegistryState.Apart
      { before with
        registry := before.registry.finish popped.1 popped.2
        settling := Function.update before.settling call none } := by
  have settles : before.kept (.call call) = some popped.1 := by
    rw [RegistryState.kept, found, Option.map_some]
  have pending := apart.pending _ _ settles
  have finished : before.registry.finish popped.1 popped.2 =
      { before.registry with
        futures := Function.update before.registry.futures popped.1 popped.2 } := by
    simp [InFlightRegistry.finish, pending]
  rw [finished]
  have stays : ∀ keeper future, kept
      { before with
        registry := { before.registry with
          futures := Function.update before.registry.futures popped.1 popped.2 }
        settling := Function.update before.settling call none } keeper = some future →
      before.kept keeper = some future ∧ keeper ≠ .call call := by
    intro keeper future isKept
    cases keeper with
    | map key => exact ⟨isKept, Keeper.noConfusion⟩
    | call id =>
        simp only [RegistryState.kept, Function.update_apply] at isKept
        split_ifs at isKept with same
        · cases isKept
        · exact ⟨isKept, fun equal => same (Keeper.call.inj equal)⟩
  refine apart.of_kept id (fun _ _ _ _ _ same => same)
    (fun keeper future isKept => (stays keeper future isKept).1) rfl ?_
  intro future isPending
  refine ⟨fun keeper isKept => ?_, fun unknown => ?_⟩
  · obtain ⟨wasKept, different⟩ := stays keeper future isKept
    have other : future ≠ popped.1 := by
      rintro rfl
      exact different (apart.single _ _ _ wasKept settles)
    exact (Function.update_of_ne other _ _).trans isPending
  · have other : future ≠ popped.1 := ((apart.known _ _ settles).trans_le unknown).ne'
    exact (Function.update_of_ne other _ _).trans isPending

/-- A registered future is pending, so a call that finds one joins it. -/
theorem getOrCreate_cases
    (apart : before.Apart)
    (key : Key) :
    (∃ existing, before.registry.inflight key = some existing ∧
      before.registry.getOrCreate key =
        ({ before.registry with dedupHits := before.registry.dedupHits + 1 }, existing, false)) ∨
    (before.registry.inflight key = none ∧
      before.registry.getOrCreate key =
        ({ before.registry with
            inflight := Function.update before.registry.inflight key (some before.registry.created)
            created := before.registry.created + 1
            uniqueRequests := before.registry.uniqueRequests + 1 },
          before.registry.created, true)) := by
  rcases before.registry.getOrCreate_cases key with
    ⟨existing, registered, _, joins⟩ | ⟨notPending, creates⟩
  · exact Or.inl ⟨existing, registered, joins⟩
  · right
    have absent : before.registry.inflight key = none := by
      refine Option.eq_none_iff_forall_ne_some.mpr fun future registered => ?_
      have pending := apart.pending (.map key) future registered
      have isPending := (before.registry.pendingFuture?_eq_some_iff key future).mpr
        ⟨registered, pending⟩
      rw [notPending] at isPending
      cases isPending
    have unchanged := apart.fresh _ le_rfl
    refine ⟨absent, creates.trans ?_⟩
    rw [← unchanged, Function.update_eq_self]

/-- A new future is kept by the map alone. -/
theorem getOrCreate
    (apart : before.Apart)
    (key : Key) :
    RegistryState.Apart
      { before with registry := (before.registry.getOrCreate key).1 } := by
  rcases apart.getOrCreate_cases key with ⟨existing, registered, joins⟩ | ⟨absent, creates⟩
  · rw [joins]
    exact apart.of_dropped (fun keeper future isKept => by cases keeper <;> exact isKept) rfl rfl
  · rw [creates]
    generalize isAfter : RegistryState.mk _ _ _ = after
    have stays : ∀ keeper future, after.kept keeper = some future →
        keeper = .map key ∧ future = before.registry.created ∨
          keeper ≠ .map key ∧ before.kept keeper = some future := by
      subst isAfter
      intro keeper future isKept
      cases keeper with
      | map name =>
          by_cases same : name = key
          · subst same
            left
            simpa [RegistryState.kept, eq_comm] using isKept
          · right
            refine ⟨fun equal => same (Keeper.map.inj equal), ?_⟩
            simpa [RegistryState.kept, Function.update_of_ne same] using isKept
      | call id => exact Or.inr ⟨Keeper.noConfusion, isKept⟩
    have created : after.registry.created = before.registry.created + 1 := by rw [← isAfter]
    have futures : after.registry.futures = before.registry.futures := by rw [← isAfter]
    constructor
    · intro keeper future isKept
      rw [created]
      rcases stays keeper future isKept with ⟨_, rfl⟩ | ⟨_, wasKept⟩
      · exact Nat.lt_succ_self _
      · exact (apart.known keeper future wasKept).trans (Nat.lt_succ_self _)
    · intro keeper future isKept
      rw [futures]
      rcases stays keeper future isKept with ⟨_, rfl⟩ | ⟨_, wasKept⟩
      · exact apart.fresh _ le_rfl
      · exact apart.pending keeper future wasKept
    · intro keeper other future isKept otherKept
      rcases stays keeper future isKept with ⟨rfl, rfl⟩ | ⟨_, wasKept⟩
      · rcases stays other _ otherKept with ⟨rfl, _⟩ | ⟨_, otherWasKept⟩
        · rfl
        · exact absurd (apart.known other _ otherWasKept) (lt_irrefl _)
      · rcases stays other future otherKept with ⟨_, rfl⟩ | ⟨_, otherWasKept⟩
        · exact absurd (apart.known keeper _ wasKept) (lt_irrefl _)
        · exact apart.single keeper other future wasKept otherWasKept
    · intro future unknown
      rw [futures]
      rw [created] at unknown
      exact apart.fresh future (Nat.le_of_succ_le unknown)

/-- Every move keeps the futures apart. -/
theorem step
    {label : RegistryLabel T}
    (apart : before.Apart)
    (moved : before.step label = some after) :
    after.Apart := by
  cases label with
  | getOrCreate key => exact Option.some.inj moved ▸ apart.getOrCreate key
  | resolve key value => exact Option.some.inj moved ▸ apart.begin key (.result value)
  | fail key exc => exact Option.some.inj moved ▸ apart.begin key (.exception exc)
  | settle call =>
      obtain ⟨popped, found, rfl⟩ := Option.map_eq_some_iff.mp moved
      exact apart.settle found
  | discard key => exact Option.some.inj moved ▸ apart.remove key

end Apart

/-- The calls that have popped a future are about to settle it with an outcome. -/
def Decided (state : RegistryState T) : Prop :=
  ∀ call popped, state.settling call = some popped → popped.2.done = true

theorem Decided.begin
    {state : RegistryState T}
    (decided : state.Decided)
    (key : Key)
    {outcome : Future T}
    (isOutcome : outcome.done = true) :
    (state.begin key outcome).Decided := by
  intro call popped settling
  cases found : state.registry.inflight key with
  | none =>
      rw [begin_of_none found] at settling
      exact decided call popped settling
  | some future =>
      rw [begin_of_some found] at settling
      simp only [Function.update_apply] at settling
      split_ifs at settling
      · exact Option.some.inj settling ▸ isOutcome
      · exact decided call popped settling

theorem Decided.step
    {label : RegistryLabel T}
    {before after : RegistryState T}
    (decided : before.Decided)
    (moved : before.step label = some after) :
    after.Decided := by
  cases label with
  | getOrCreate key => exact Option.some.inj moved ▸ decided
  | resolve key value => exact Option.some.inj moved ▸ decided.begin key rfl
  | fail key exc => exact Option.some.inj moved ▸ decided.begin key rfl
  | settle call =>
      obtain ⟨_, _, rfl⟩ := Option.map_eq_some_iff.mp moved
      intro other popped settling
      simp only [Function.update_apply] at settling
      split_ifs at settling
      exact decided other popped settling
  | discard key => exact Option.some.inj moved ▸ decided

theorem begin_registry (state : RegistryState T) (key : Key) (outcome : Future T) :
    (state.begin key outcome).registry = (state.registry.pop key).1 := by
  cases found : state.registry.inflight key with
  | none => rw [begin_of_none found]
  | some future => rw [begin_of_some found]

/-- The calls that remove a key do so in one move. -/
theorem registry_of_removes
    {label : RegistryLabel T}
    {key : Key}
    {before after : RegistryState T}
    (removes : label.removes? = some key)
    (moved : before.step label = some after) :
    after.registry = (before.registry.pop key).1 := by
  cases label with
  | resolve other value | fail other exc =>
      obtain rfl := Option.some.inj removes
      obtain rfl := Option.some.inj moved
      exact begin_registry _ _ _
  | discard other =>
      obtain rfl := Option.some.inj removes
      obtain rfl := Option.some.inj moved
      rfl
  | getOrCreate | settle => cases removes

end RegistryState

/-! ## What the log tells -/

namespace RegistryEvent

/-- A call of `get_or_create` returned. -/
def isReturn : RegistryEvent T → Bool
  | .returned _ _ _ => true
  | .removed _ | .settled _ _ => false

/-- A call of `get_or_create` returned as the owner. -/
def isOwner : RegistryEvent T → Bool
  | .returned _ _ owner => owner
  | .removed _ | .settled _ _ => false

/-- A call returned a given future as its owner. -/
def owns (future : ℕ) : RegistryEvent T → Bool
  | .returned _ other owner => owner && other == future
  | .removed _ | .settled _ _ => false

/-- A given future is settled. -/
def settles (future : ℕ) : RegistryEvent T → Bool
  | .settled other _ => other == future
  | .removed _ | .returned _ _ _ => false

end RegistryEvent

/-- The future was created for the key, and the key has not been removed since. -/
def Current (log : List (RegistryEvent T)) (key : Key) (future : ℕ) : Prop :=
  ∃ earlier later, log = earlier ++ .returned key future true :: later ∧ .removed key ∉ later

theorem current_concat
    {log : List (RegistryEvent T)}
    {event : RegistryEvent T}
    {key : Key}
    {future : ℕ}
    (current : Current (log ++ [event]) key future) :
    event = .returned key future true ∨ Current log key future ∧ event ≠ .removed key := by
  obtain ⟨earlier, later, split, unremoved⟩ := current
  rcases split_concat split with ⟨_, isLast, _⟩ | ⟨before, rfl, same⟩
  · exact Or.inl isLast.symm
  · rw [List.mem_append, not_or, List.mem_singleton] at unremoved
    exact Or.inr ⟨⟨earlier, before, same, unremoved.1⟩, fun equal => unremoved.2 equal.symm⟩

/-- The calls for a key that has a current future return that future, and do not own it. -/
def SharedCalls (log : List (RegistryEvent T)) : Prop :=
  ∀ earlier key future owner later current,
    log = earlier ++ .returned key future owner :: later →
      Current earlier key current → future = current ∧ owner = false

theorem SharedCalls.concat
    {log : List (RegistryEvent T)}
    {event : RegistryEvent T}
    (shared : SharedCalls log)
    (last : ∀ key future owner current, event = .returned key future owner →
      Current log key current → future = current ∧ owner = false) :
    SharedCalls (log ++ [event]) := by
  intro earlier key future owner later current split isCurrent
  rcases split_concat split with ⟨rfl, isLast, _⟩ | ⟨before, _, same⟩
  · exact last key future owner current isLast.symm isCurrent
  · exact shared earlier key future owner before current same isCurrent

/-- What the registry promises to its callers. -/
structure MeetsSpec (reached : Journaled (RegistryState T) (RegistryEvent T)) : Prop where
  /-- Every future that was returned was returned to exactly one owner. -/
  owned : ∀ key future owner, .returned key future owner ∈ reached.log →
    reached.log.countP (RegistryEvent.owns future) = 1
  /-- The calls made between the creation of a key's future and its removal share it. -/
  shared : SharedCalls reached.log
  /-- Every future is settled at most once. -/
  settled : ∀ future, reached.log.countP (RegistryEvent.settles future) ≤ 1
  /-- All holders of a settled future see what it was settled with. -/
  observed : ∀ future outcome, .settled future outcome ∈ reached.log →
    reached.state.registry.futures future = outcome
  /-- The counters add up to the calls. -/
  calls : reached.state.registry.uniqueRequests + reached.state.registry.dedupHits =
    reached.log.countP RegistryEvent.isReturn
  /-- One counter is the number of owners. -/
  owners : reached.state.registry.uniqueRequests = reached.log.countP RegistryEvent.isOwner
  /-- No key has a settled future. -/
  registered : ∀ key future, reached.state.registry.inflight key = some future →
    reached.state.registry.futures future = .pending

/-- What carries the promises from one move to the next. -/
structure Told (reached : Journaled (RegistryState T) (RegistryEvent T)) : Prop where
  apart : reached.state.Apart
  owned : ∀ future, reached.log.countP (RegistryEvent.owns future) =
    if future < reached.state.registry.created then 1 else 0
  returned : ∀ key future owner, .returned key future owner ∈ reached.log →
    future < reached.state.registry.created
  current : ∀ key future, Current reached.log key future →
    reached.state.registry.inflight key = some future
  shared : SharedCalls reached.log
  settled : ∀ future, reached.log.countP (RegistryEvent.settles future) =
    if (reached.state.registry.futures future).done then 1 else 0
  observed : ∀ future outcome, .settled future outcome ∈ reached.log →
    reached.state.registry.futures future = outcome
  calls : reached.state.registry.uniqueRequests + reached.state.registry.dedupHits =
    reached.log.countP RegistryEvent.isReturn
  owners : reached.state.registry.uniqueRequests = reached.log.countP RegistryEvent.isOwner

theorem Told.meetsSpec
    {reached : Journaled (RegistryState T) (RegistryEvent T)}
    (told : Told reached) :
    MeetsSpec reached where
  owned := by
    intro key future owner member
    rw [told.owned, if_pos (told.returned key future owner member)]
  shared := told.shared
  settled := by
    intro future
    rw [told.settled]
    split_ifs <;> omega
  observed := told.observed
  calls := told.calls
  owners := told.owners
  registered := fun key future => told.apart.pending (.map key) future

namespace Told

variable {reached : Journaled (RegistryState T) (RegistryEvent T)} {after : RegistryState T}
  {key : Key}

/-- A call that joins a future. -/
theorem joined
    {existing : ℕ}
    (told : Told reached)
    (apart : after.Apart)
    (registered : reached.state.registry.inflight key = some existing)
    (joins : after.registry =
      { reached.state.registry with dedupHits := reached.state.registry.dedupHits + 1 }) :
    Told ⟨after, reached.log ++ [.returned key existing false]⟩ := by
  have known := told.apart.known (.map key) existing registered
  constructor
  · exact apart
  · intro future
    simpa [joins, RegistryEvent.owns] using told.owned future
  · intro name future owner member
    rw [joins]
    rcases List.mem_append.mp member with before | last
    · exact told.returned name future owner before
    · obtain ⟨_, rfl, _⟩ := RegistryEvent.returned.inj (List.mem_singleton.mp last)
      exact known
  · intro name future current
    rw [joins]
    rcases current_concat current with isLast | ⟨before, _⟩
    · cases isLast
    · exact told.current name future before
  · apply told.shared.concat
    intro name future owner current isLast isCurrent
    obtain ⟨rfl, rfl, rfl⟩ := RegistryEvent.returned.inj isLast
    exact ⟨Option.some.inj (registered.symm.trans (told.current _ current isCurrent)), rfl⟩
  · intro future
    simpa [joins, RegistryEvent.settles] using told.settled future
  · intro future outcome member
    rw [joins]
    exact told.observed future outcome (by simpa using member)
  · have calls := told.calls
    simp [joins, RegistryEvent.isReturn]
    omega
  · simpa [joins, RegistryEvent.isOwner] using told.owners

/-- A call that creates a future. -/
theorem created
    (told : Told reached)
    (apart : after.Apart)
    (absent : reached.state.registry.inflight key = none)
    (creates : after.registry =
      { reached.state.registry with
        inflight := Function.update reached.state.registry.inflight key
          (some reached.state.registry.created)
        created := reached.state.registry.created + 1
        uniqueRequests := reached.state.registry.uniqueRequests + 1 }) :
    Told ⟨after, reached.log ++ [.returned key reached.state.registry.created true]⟩ := by
  constructor
  · exact apart
  · intro future
    have owned := told.owned future
    simp only [List.countP_append, List.countP_singleton, owned, RegistryEvent.owns, creates]
    rcases lt_trichotomy future reached.state.registry.created with below | rfl | above
    · simp [below, below.ne', below.trans (Nat.lt_succ_self _)]
    · simp
    · simp [above.not_gt, above.ne, (Nat.succ_le_of_lt above).not_gt]
  · intro name future owner member
    rw [creates]
    rcases List.mem_append.mp member with before | last
    · exact (told.returned name future owner before).trans (Nat.lt_succ_self _)
    · obtain ⟨_, rfl, _⟩ := RegistryEvent.returned.inj (List.mem_singleton.mp last)
      exact Nat.lt_succ_self _
  · intro name future current
    rw [creates]
    rcases current_concat current with isLast | ⟨before, _⟩
    · obtain ⟨rfl, rfl, _⟩ := RegistryEvent.returned.inj isLast
      exact Function.update_self ..
    · have registered := told.current name future before
      have other : name ≠ key := by
        rintro rfl
        rw [absent] at registered
        cases registered
      exact (Function.update_of_ne other _ _).trans registered
  · apply told.shared.concat
    intro name future owner current isLast isCurrent
    obtain ⟨rfl, rfl, rfl⟩ := RegistryEvent.returned.inj isLast
    have registered := told.current _ current isCurrent
    rw [absent] at registered
    cases registered
  · intro future
    simpa [creates, RegistryEvent.settles] using told.settled future
  · intro future outcome member
    rw [creates]
    exact told.observed future outcome (by simpa using member)
  · have calls := told.calls
    simp [creates, RegistryEvent.isReturn]
    omega
  · simpa [creates, RegistryEvent.isOwner] using told.owners

/-- A call that removes a key. -/
theorem removed
    (told : Told reached)
    (apart : after.Apart)
    (removes : after.registry = (reached.state.registry.pop key).1) :
    Told ⟨after, reached.log ++ [.removed key]⟩ := by
  constructor
  · exact apart
  · intro future
    simpa [removes, InFlightRegistry.pop, RegistryEvent.owns] using told.owned future
  · intro name future owner member
    rw [removes]
    exact told.returned name future owner (by simpa using member)
  · intro name future current
    rw [removes]
    rcases current_concat current with isLast | ⟨before, different⟩
    · cases isLast
    · have other : name ≠ key := by
        rintro rfl
        exact different rfl
      exact (Function.update_of_ne other _ _).trans (told.current name future before)
  · exact told.shared.concat fun _ _ _ _ isLast => by cases isLast
  · intro future
    simpa [removes, InFlightRegistry.pop, RegistryEvent.settles] using told.settled future
  · intro future outcome member
    rw [removes]
    exact told.observed future outcome (by simpa using member)
  · simpa [removes, InFlightRegistry.pop, RegistryEvent.isReturn] using told.calls
  · simpa [removes, InFlightRegistry.pop, RegistryEvent.isOwner] using told.owners

/-- A call that settles the future it has popped. -/
theorem settled_
    {popped : ℕ × Future T}
    (told : Told reached)
    (apart : after.Apart)
    (pending : reached.state.registry.futures popped.1 = .pending)
    (isOutcome : popped.2.done = true)
    (finishes : after.registry = reached.state.registry.finish popped.1 popped.2) :
    Told ⟨after, reached.log ++ [.settled popped.1 popped.2]⟩ := by
  have finished : after.registry =
      { reached.state.registry with
        futures := Function.update reached.state.registry.futures popped.1 popped.2 } := by
    rw [finishes]
    simp [InFlightRegistry.finish, pending]
  constructor
  · exact apart
  · intro future
    simpa [finished, RegistryEvent.owns] using told.owned future
  · intro name future owner member
    rw [finished]
    exact told.returned name future owner (by simpa using member)
  · intro name future current
    rw [finished]
    rcases current_concat current with isLast | ⟨before, _⟩
    · cases isLast
    · exact told.current name future before
  · exact told.shared.concat fun _ _ _ _ isLast => by cases isLast
  · intro future
    have settled := told.settled future
    simp only [List.countP_append, List.countP_singleton, settled, RegistryEvent.settles,
      finished, beq_iff_eq]
    by_cases same : popped.1 = future
    · subst same
      simp [pending, isOutcome]
    · simp [same, Function.update_of_ne (Ne.symm same)]
  · intro future outcome member
    rw [finished]
    rcases List.mem_append.mp member with before | last
    · have observed := told.observed future outcome before
      have other : future ≠ popped.1 := by
        rintro rfl
        have unsettled := told.settled popped.1
        rw [pending, Future.done_pending, if_neg Bool.false_ne_true, List.countP_eq_zero]
          at unsettled
        exact unsettled _ before (by simp [RegistryEvent.settles])
      exact (Function.update_of_ne other _ _).trans observed
    · obtain ⟨rfl, rfl⟩ := RegistryEvent.settled.inj (List.mem_singleton.mp last)
      exact Function.update_self ..
  · simpa [finished, RegistryEvent.isReturn] using told.calls
  · simpa [finished, RegistryEvent.isOwner] using told.owners

theorem step
    {label : RegistryLabel T}
    {next : Journaled (RegistryState T) (RegistryEvent T)}
    (told : Told reached)
    (decided : reached.state.Decided)
    (moved : record RegistryState.step RegistryState.observe label reached = some next) :
    Told next := by
  obtain ⟨after, stepped, rfl⟩ := Option.map_eq_some_iff.mp moved
  have apart := told.apart.step stepped
  cases label with
  | getOrCreate key =>
      obtain rfl := Option.some.inj stepped
      rcases told.apart.getOrCreate_cases key with
        ⟨existing, registered, joins⟩ | ⟨absent, creates⟩
      · have shown : reached.state.observe (.getOrCreate key)
            { reached.state with registry := (reached.state.registry.getOrCreate key).1 } =
              [.returned key existing false] := by
          rw [RegistryState.observe, joins]
        rw [shown]
        exact told.joined apart registered (congrArg Prod.fst joins)
      · have shown : reached.state.observe (.getOrCreate key)
            { reached.state with registry := (reached.state.registry.getOrCreate key).1 } =
              [.returned key reached.state.registry.created true] := by
          rw [RegistryState.observe, creates]
        rw [shown]
        exact told.created apart absent (congrArg Prod.fst creates)
  | resolve | fail | discard =>
      exact told.removed apart (RegistryState.registry_of_removes rfl stepped)
  | settle call =>
      obtain ⟨popped, found, rfl⟩ := Option.map_eq_some_iff.mp stepped
      have kept : reached.state.kept (.call call) = some popped.1 := by
        rw [RegistryState.kept, found, Option.map_some]
      have pending := told.apart.pending _ _ kept
      simp only [RegistryState.observe, found, pending, Future.done_pending]
      exact told.settled_ apart pending (decided call popped found) rfl

end Told

/-- A key that a move does not remove keeps its future, pending. -/
theorem Told.isolated
    {reached : Journaled (RegistryState T) (RegistryEvent T)}
    {label : RegistryLabel T}
    {after : RegistryState T}
    (told : Told reached)
    (moved : reached.state.step label = some after)
    {key : Key}
    {future : ℕ}
    (registered : reached.state.registry.inflight key = some future)
    (notRemoved : label.removes? ≠ some key) :
    after.registry.inflight key = some future ∧ after.registry.futures future = .pending := by
  have stays : after.registry.inflight key = some future := by
    cases label with
    | getOrCreate other =>
        obtain rfl := Option.some.inj moved
        rcases told.apart.getOrCreate_cases other with
          ⟨existing, _, joins⟩ | ⟨absent, creates⟩
        · simp only [joins]
          exact registered
        · have different : key ≠ other := by
            rintro rfl
            rw [absent] at registered
            cases registered
          simp only [creates, Function.update_of_ne different]
          exact registered
    | resolve other value | fail other exc | discard other =>
        have different : key ≠ other := fun same => notRemoved (congrArg some same.symm)
        rw [RegistryState.registry_of_removes rfl moved]
        exact (Function.update_of_ne different _ _).trans registered
    | settle call =>
        obtain ⟨popped, _, rfl⟩ := Option.map_eq_some_iff.mp moved
        simp only [InFlightRegistry.finish]
        split_ifs <;> exact registered
  exact ⟨stays, (told.apart.step moved).pending (.map key) future stays⟩

/-- Only the call that popped a future settles it. -/
theorem Told.settler
    {reached : Journaled (RegistryState T) (RegistryEvent T)}
    {label : RegistryLabel T}
    {after : RegistryState T}
    (told : Told reached)
    (moved : reached.state.step label = some after)
    {future : ℕ}
    (changed : after.registry.futures future ≠ reached.state.registry.futures future) :
    ∃ call outcome, label = .settle call ∧
      reached.state.settling call = some (future, outcome) := by
  cases label with
  | getOrCreate key =>
      obtain rfl := Option.some.inj moved
      rcases told.apart.getOrCreate_cases key with ⟨_, _, joins⟩ | ⟨_, creates⟩
      · simp [joins] at changed
      · simp [creates] at changed
  | resolve | fail | discard =>
      rw [RegistryState.registry_of_removes rfl moved] at changed
      exact absurd rfl changed
  | settle call =>
      obtain ⟨popped, found, rfl⟩ := Option.map_eq_some_iff.mp moved
      refine ⟨call, popped.2, rfl, ?_⟩
      have same : popped.1 = future := by
        by_contra different
        apply changed
        simp only [InFlightRegistry.finish]
        split_ifs
        · rfl
        · exact Function.update_of_ne (Ne.symm different) _ _
      rw [found, ← same]

/-- A new registry has told nothing. -/
theorem told_initial : Told (⟨{}, []⟩ : Journaled (RegistryState T) (RegistryEvent T)) where
  apart := by
    have nothing : ∀ keeper, RegistryState.kept ({} : RegistryState T) keeper = none := by
      intro keeper
      cases keeper <;> rfl
    constructor <;> simp [nothing]
  owned := by simp
  returned := by simp
  current := by
    rintro key future ⟨earlier, later, split, _⟩
    simp at split
  shared := by
    intro earlier key future owner later current split
    simp at split
  settled := by simp
  observed := by simp
  calls := rfl
  owners := rfl

/-- The registry meets its specification under every interleaving of its calls, where the
settling of a popped future may come at any time after the pop. And a call removes no key but
its own, and settles no future but the one it has popped. -/
theorem registry_meets_spec
    {reached : Journaled (RegistryState T) (RegistryEvent T)}
    (run : Run (record RegistryState.step RegistryState.observe) (fun _ _ => True)
      ⟨{}, []⟩ reached) :
    MeetsSpec reached ∧
      ∀ label after, reached.state.step label = some after →
        (∀ key future, reached.state.registry.inflight key = some future →
          label.removes? ≠ some key →
            after.registry.inflight key = some future ∧
              after.registry.futures future = .pending) ∧
        ∀ future, after.registry.futures future ≠ reached.state.registry.futures future →
          ∃ call outcome, label = .settle call ∧
            reached.state.settling call = some (future, outcome) := by
  have holds := run.invariant (fun reached => Told reached ∧ reached.state.Decided) ?_ ?_
  · obtain ⟨told, _⟩ := holds
    refine ⟨told.meetsSpec, fun label after moved => ⟨?_, ?_⟩⟩
    · exact fun key future registered notRemoved => told.isolated moved registered notRemoved
    · exact fun future changed => told.settler moved changed
  · exact ⟨told_initial, fun _ _ absent => by cases absent⟩
  · rintro reached label next ⟨told, decided⟩ _ moved
    exact ⟨told.step decided moved, decided.step (record_eq_some_iff.mp moved).1⟩

/-- A key is asked for again between the two halves of its `resolve`, and afterwards. -/
def reentrantLabels : List (RegistryLabel Bool) :=
  [.getOrCreate [], .getOrCreate [], .resolve [] true, .getOrCreate [], .settle 0,
    .getOrCreate []]

theorem registry_meets_spec_reentrant :
    ∃ reached, Run (record RegistryState.step RegistryState.observe) (fun _ _ => True)
        (⟨{}, []⟩ : Journaled (RegistryState Bool) (RegistryEvent Bool)) reached ∧
      reached.log.length = 6 ∧ reached.state.registry.created = 2 ∧ MeetsSpec reached := by
  have passes : (executeChecked (record RegistryState.step RegistryState.observe)
      (fun _ _ => true) reentrantLabels ⟨{}, []⟩).any (fun reached =>
        decide (reached.log.length = 6 ∧ reached.state.registry.created = 2)) = true := by
    decide +kernel
  obtain ⟨reached, run, tested⟩ := exists_run_of_executeChecked (fun _ _ _ => trivial) passes
  obtain ⟨logged, created⟩ := of_decide_eq_true tested
  exact ⟨reached, run, logged, created, (registry_meets_spec run).1⟩

end HardenedClient
