import Mathlib.Data.List.Basic
import Mathlib.Order.Basic

/-!
# Jobs, tickets and promises

Agents share the work on a key: a registry maps the key to the ticket of a
promise, the agent that registers a ticket creates the job that will keep the
promise, and agents that come while the promise is pending only hold the
ticket. A job is carried by an agent or waits in a queue.

The module states what each kind of move does to jobs, tickets and promises,
and what holds of tickets after any sequence of moves.
-/

namespace Foundation

/-- The status of a promise. -/
inductive Promise
  | pending
  | kept
  | cancelled
  deriving DecidableEq

/-- Work on a key, done for the holders of a ticket. -/
@[ext] structure Job (κ : Type*) where
  key : κ
  ticket : ℕ

/-- Where a job can be. -/
inductive Place
  | queue (position : ℕ)
  | agent (id : ℕ)
  deriving DecidableEq

/-- The jobs and promises of a group of agents. -/
structure Flights (κ : Type*) where
  registered : κ → Option ℕ
  promises : ℕ → Promise
  created : ℕ
  queued : List (Job κ)
  carried : ℕ → Option (Job κ)
  held : ℕ → Option (Job κ)

namespace Flights

variable {κ : Type*}

/-- No job, no ticket. -/
def initial : Flights κ where
  registered := fun _ => none
  promises := fun _ => .pending
  created := 0
  queued := []
  carried := fun _ => none
  held := fun _ => none

/-- The job at a place. -/
def jobAt (flights : Flights κ) : Place → Option (Job κ)
  | .queue position => flights.queued[position]?
  | .agent id => flights.carried id

/-- The job is at some place. -/
def Live (flights : Flights κ) (job : Job κ) : Prop :=
  ∃ place, flights.jobAt place = some job

/-- A pending promise is registered for the key. -/
def Busy (flights : Flights κ) (key : κ) : Prop :=
  ∃ ticket, flights.registered key = some ticket ∧ flights.promises ticket = .pending

theorem live_iff (flights : Flights κ) (job : Job κ) :
    flights.Live job ↔
      job ∈ flights.queued ∨ ∃ id, flights.carried id = some job := by
  constructor
  · rintro ⟨position | id, found⟩
    · exact Or.inl (List.mem_of_getElem? found)
    · exact Or.inr ⟨id, found⟩
  · rintro (waiting | ⟨id, carried⟩)
    · obtain ⟨position, found⟩ := List.getElem?_of_mem waiting
      exact ⟨.queue position, found⟩
    · exact ⟨.agent id, carried⟩

/-! ## Moves -/

/-- The kinds of moves. -/
inductive Action (κ : Type*)
  | idle
  | own (agent : ℕ) (key : κ) (carry : Option κ) (hold : Bool)
  | attach (agent : ℕ) (key : κ)
  | put (agent : ℕ)
  | get (agent : ℕ)
  | pass (agent target : ℕ)
  | settle (agent : ℕ)
  | drop (agent : ℕ)
  | cancel (agent : ℕ)
  | release (agent : ℕ)
  | reset

variable [DecidableEq κ]

/-- A promise that leaves `pending` for another status, unless it has already. -/
def finish (promises : ℕ → Promise) (ticket : ℕ) (status : Promise) : ℕ → Promise :=
  if promises ticket = .pending then Function.update promises ticket status else promises

theorem finish_apply
    (promises : ℕ → Promise)
    (ticket other : ℕ)
    (status : Promise) :
    finish promises ticket status other =
      if other = ticket ∧ promises ticket = .pending then status else promises other := by
  unfold finish
  split_ifs <;> simp_all

/-- An agent registers a new ticket for a key. It carries a job for the ticket
under the key `carry`, unless its submission fails at once. -/
def own
    (flights : Flights κ)
    (agent : ℕ)
    (key : κ)
    (carry : Option κ)
    (hold : Bool) : Flights κ :=
  { flights with
    registered := Function.update flights.registered key (some flights.created)
    promises := Function.update flights.promises flights.created .pending
    created := flights.created + 1
    carried := Function.update flights.carried agent
      (carry.map fun own => ⟨own, flights.created⟩)
    held := Function.update flights.held agent
      (if hold then some ⟨key, flights.created⟩ else none) }

/-- An agent settles its job: the promise registered for the key of the job is
kept, whichever ticket the job was made for. -/
def settle (flights : Flights κ) (agent : ℕ) (job : Job κ) : Flights κ :=
  { flights with
    registered := Function.update flights.registered job.key none
    promises :=
      match flights.registered job.key with
      | some ticket => finish flights.promises ticket .kept
      | none => flights.promises
    carried := Function.update flights.carried agent none }

/-- What each move does. -/
inductive Move : Action κ → Flights κ → Flights κ → Prop
  | idle {flights : Flights κ} :
      Move .idle flights flights
  | own {flights : Flights κ} {agent : ℕ} {key : κ} {carry : Option κ} {hold : Bool}
      (free : ¬ flights.Busy key)
      (unladen : flights.carried agent = none) :
      Move (.own agent key carry hold) flights (flights.own agent key carry hold)
  | attach {flights : Flights κ} {agent : ℕ} {key : κ} {ticket : ℕ}
      (registered : flights.registered key = some ticket)
      (pending : flights.promises ticket = .pending) :
      Move (.attach agent key) flights
        { flights with held := Function.update flights.held agent (some ⟨key, ticket⟩) }
  | put {flights : Flights κ} {agent : ℕ} {job : Job κ}
      (laden : flights.carried agent = some job) :
      Move (.put agent) flights
        { flights with
          queued := flights.queued ++ [job]
          carried := Function.update flights.carried agent none }
  | get {flights : Flights κ} {agent : ℕ} {job : Job κ} {rest : List (Job κ)}
      (waiting : flights.queued = job :: rest)
      (unladen : flights.carried agent = none) :
      Move (.get agent) flights
        { flights with
          queued := rest
          carried := Function.update flights.carried agent (some job) }
  | pass {flights : Flights κ} {agent target : ℕ} {job : Job κ}
      (laden : flights.carried agent = some job)
      (different : target ≠ agent)
      (unladen : flights.carried target = none) :
      Move (.pass agent target) flights
        { flights with
          carried := Function.update (Function.update flights.carried target (some job))
            agent none }
  | settle {flights : Flights κ} {agent : ℕ} {job : Job κ}
      (laden : flights.carried agent = some job) :
      Move (.settle agent) flights (flights.settle agent job)
  | drop {flights : Flights κ} {agent : ℕ} :
      Move (.drop agent) flights
        { flights with
          carried := Function.update flights.carried agent none
          held := Function.update flights.held agent none }
  | cancel {flights : Flights κ} {agent : ℕ} {claim : Job κ}
      (holding : flights.held agent = some claim) :
      Move (.cancel agent) flights
        { flights with
          promises := finish flights.promises claim.ticket .cancelled
          held := Function.update flights.held agent none }
  | release {flights : Flights κ} {agent : ℕ} :
      Move (.release agent) flights
        { flights with held := Function.update flights.held agent none }
  | reset {flights : Flights κ} :
      Move .reset flights initial

/-! ## Tickets -/

/-- Tickets in use are old ones, a ticket is registered for one key and worked
on at one place, and a pending ticket is registered for the key its holders
want. -/
structure Sound (flights : Flights κ) : Prop where
  registered_lt : ∀ key ticket,
    flights.registered key = some ticket → ticket < flights.created
  registered_inj : ∀ key other ticket,
    flights.registered key = some ticket → flights.registered other = some ticket → key = other
  job_lt : ∀ place job, flights.jobAt place = some job → job.ticket < flights.created
  held_lt : ∀ agent claim, flights.held agent = some claim → claim.ticket < flights.created
  held_registered : ∀ agent claim,
    flights.held agent = some claim → flights.promises claim.ticket = .pending →
      flights.registered claim.key = some claim.ticket
  job_unique : ∀ place other job second,
    flights.jobAt place = some job → flights.jobAt other = some second →
      job.ticket = second.ticket → place = other

omit [DecidableEq κ] in
theorem sound_initial : (initial : Flights κ).Sound where
  registered_lt := by simp [initial]
  registered_inj := by simp [initial]
  job_lt := by rintro (_ | _) job <;> simp [initial, jobAt]
  held_lt := by simp [initial]
  held_registered := by simp [initial]
  job_unique := by rintro (_ | _) other job <;> simp [initial, jobAt]

/-- Every job after a move was at some place before it, and no two places have
one origin. -/
structure Relocates (before after : Flights κ) (origin : Place → Place) : Prop where
  kept : ∀ place job,
    after.jobAt place = some job → before.jobAt (origin place) = some job
  injective : ∀ place other job second,
    after.jobAt place = some job → after.jobAt other = some second →
      origin place = origin other → place = other

omit [DecidableEq κ] in
/-- When jobs stay where they are or vanish, each is its own origin. -/
theorem Relocates.stay
    {before after : Flights κ}
    (kept : ∀ place job, after.jobAt place = some job → before.jobAt place = some job) :
    Relocates before after id where
  kept := kept
  injective := fun _ _ _ _ _ _ same => same

/-- Every move but `own` relocates jobs. -/
theorem Move.relocates
    {action : Action κ}
    {before after : Flights κ}
    (move : Move action before after)
    (notOwn : ∀ agent key carry hold, action ≠ .own agent key carry hold) :
    ∃ origin, Relocates before after origin := by
  cases move with
  | own => exact absurd rfl (notOwn _ _ _ _)
  | idle | attach | cancel | release => exact ⟨id, .stay fun _ _ found => found⟩
  | settle | drop =>
      refine ⟨id, .stay ?_⟩
      rintro (position | id) job found
      · exact found
      · simp only [jobAt, Flights.settle, Function.update_apply] at found
        split_ifs at found
        exact found
  | reset => exact ⟨id, .stay fun place job => by cases place <;> simp [initial, jobAt]⟩
  | @put _ agent moved laden =>
      refine ⟨fun
        | .queue position =>
            if position = before.queued.length then .agent agent else .queue position
        | .agent id => .agent id, ?_, ?_⟩
      · rintro (position | id) job found
        · simp only [jobAt, List.getElem?_append] at found
          split_ifs at found with inside
          · simp [jobAt, found, show position ≠ before.queued.length by omega]
          · have last : position = before.queued.length := by
              have := List.getElem?_eq_some_iff.mp found
              simp at this
              omega
            simp_all [jobAt]
        · simp only [jobAt, Function.update_apply] at found ⊢
          split_ifs at found
          exact found
      · rintro (position | id) (other | second) job next found present same
        · simp only at same
          split_ifs at same with first second <;> simp_all
        · simp only [jobAt, Function.update_apply] at present
          simp only at same
          split_ifs at same present
          simp_all
        · simp only [jobAt, Function.update_apply] at found
          simp only at same
          split_ifs at same found
          simp_all
        · exact same
  | @get _ agent moved rest waiting unladen =>
      refine ⟨fun
        | .queue position => .queue (position + 1)
        | .agent id => if id = agent then .queue 0 else .agent id, ?_, ?_⟩
      · rintro (position | id) job found
        · simpa [jobAt, waiting] using found
        · simp only [jobAt, Function.update_apply] at found
          split_ifs at found with isAgent
          · simpa [jobAt, waiting, isAgent] using found
          · simpa [jobAt, isAgent] using found
      · rintro (position | id) (other | second) job next found present same
        · simpa using same
        · simp only at same
          split_ifs at same
          simp_all
        · simp only at same
          split_ifs at same
          simp_all
        · simp only at same
          split_ifs at same <;> simp_all
  | @pass _ agent target moved laden different unladen =>
      refine ⟨fun
        | .queue position => .queue position
        | .agent id => if id = target then .agent agent else .agent id, ?_, ?_⟩
      · rintro (position | id) job found
        · exact found
        · simp only [jobAt, Function.update_apply] at found
          split_ifs at found with isAgent isTarget
          · simpa [jobAt, isTarget, laden] using found
          · simpa [jobAt, isTarget] using found
      · rintro (position | id) (other | second) job next found present same
        · exact same
        · simp only at same
          split_ifs at same
        · simp only at same
          split_ifs at same
        · simp only [jobAt, Function.update_apply] at found present
          simp only at same
          split_ifs at same found present <;> simp_all


omit [DecidableEq κ] in
/-- A move that registers no ticket keeps tickets sound when it drops a key
from the registry only with its promise. -/
theorem Sound.of_shrink
    {before after : Flights κ}
    (sound : before.Sound)
    (created : after.created = before.created)
    (registered : ∀ key ticket,
      after.registered key = some ticket → before.registered key = some ticket)
    (pending : ∀ ticket,
      after.promises ticket = .pending → before.promises ticket = .pending)
    (still : ∀ key ticket,
      before.registered key = some ticket → after.promises ticket = .pending →
        after.registered key = some ticket)
    (held : ∀ agent claim, after.held agent = some claim →
      before.held agent = some claim ∨ before.registered claim.key = some claim.ticket)
    {origin : Place → Place}
    (relocates : Relocates before after origin) :
    after.Sound where
  registered_lt := fun key ticket found =>
    created ▸ sound.registered_lt key ticket (registered key ticket found)
  registered_inj := fun key other ticket first second =>
    sound.registered_inj key other ticket (registered _ _ first) (registered _ _ second)
  job_lt := fun place job found =>
    created ▸ sound.job_lt _ job (relocates.kept place job found)
  held_lt := by
    intro agent claim holding
    rw [created]
    rcases held agent claim holding with there | isRegistered
    · exact sound.held_lt agent claim there
    · exact sound.registered_lt claim.key _ isRegistered
  held_registered := by
    intro agent claim holding isPending
    apply still _ _ _ isPending
    rcases held agent claim holding with there | isRegistered
    · exact sound.held_registered agent claim there (pending _ isPending)
    · exact isRegistered
  job_unique := by
    intro place other job second found present same
    exact relocates.injective place other job second found present
      (sound.job_unique _ _ job second (relocates.kept _ _ found)
        (relocates.kept _ _ present) same)

/-- A job after an owner's move was there before, or is the owner's. -/
theorem jobAt_own
    {flights : Flights κ}
    {agent : ℕ}
    {key : κ}
    {carry : Option κ}
    {hold : Bool}
    {place : Place}
    {job : Job κ}
    (found : (flights.own agent key carry hold).jobAt place = some job) :
    flights.jobAt place = some job ∨
      place = .agent agent ∧ carry = some job.key ∧ job.ticket = flights.created := by
  cases place with
  | queue position => exact Or.inl found
  | agent id =>
      simp only [jobAt, own, Function.update_apply] at found ⊢
      split_ifs at found with isAgent
      · obtain ⟨own, carries, rfl⟩ := Option.map_eq_some_iff.mp found
        exact Or.inr ⟨congrArg Place.agent isAgent, carries, rfl⟩
      · exact Or.inl found

/-- What an agent holds after an owner's move it held before, or is the
owner's new ticket. -/
theorem held_own
    {flights : Flights κ}
    {agent id : ℕ}
    {key : κ}
    {carry : Option κ}
    {hold : Bool}
    {claim : Job κ}
    (holding : (flights.own agent key carry hold).held id = some claim) :
    flights.held id = some claim ∨ claim = ⟨key, flights.created⟩ := by
  simp only [own, Function.update_apply] at holding
  split_ifs at holding
  · exact Or.inr (Option.some.inj holding).symm
  · exact Or.inl holding

/-- A new ticket keeps tickets sound. -/
theorem Sound.own
    {flights : Flights κ}
    {key : κ}
    (sound : flights.Sound)
    (free : ¬ flights.Busy key)
    (agent : ℕ)
    (carry : Option κ)
    (hold : Bool) :
    (flights.own agent key carry hold).Sound where
  registered_lt := by
    intro other ticket registered
    simp only [Flights.own, Function.update_apply] at registered ⊢
    split_ifs at registered with isKey
    · rw [← Option.some.inj registered]
      exact Nat.lt_succ_self _
    · exact Nat.lt_succ_of_lt (sound.registered_lt other ticket registered)
  registered_inj := by
    intro one other ticket first second
    simp only [Flights.own, Function.update_apply] at first second
    have old : ∀ key, flights.registered key ≠ some flights.created :=
      fun key registered => Nat.lt_irrefl _ (sound.registered_lt key _ registered)
    split_ifs at first second with isFirst isSecond isSecond
    · exact isFirst.trans isSecond.symm
    · exact absurd (second.trans first.symm) (old other)
    · exact absurd (first.trans second.symm) (old one)
    · exact sound.registered_inj one other ticket first second
  job_lt := by
    intro place job found
    rcases jobAt_own found with there | ⟨_, _, isNew⟩
    · exact Nat.lt_succ_of_lt (sound.job_lt place job there)
    · rw [isNew]
      exact Nat.lt_succ_self _
  held_lt := by
    intro id claim holding
    rcases held_own holding with there | rfl
    · exact Nat.lt_succ_of_lt (sound.held_lt id claim there)
    · exact Nat.lt_succ_self _
  held_registered := by
    intro id claim holding pending
    rcases held_own holding with there | rfl
    · have older : claim.ticket ≠ flights.created :=
        Nat.ne_of_lt (sound.held_lt id claim there)
      simp only [Flights.own, Function.update_apply, older, if_false] at pending ⊢
      have registered := sound.held_registered id claim there pending
      -- the key is not busy, so the pending ticket is registered for another
      have otherKey : claim.key ≠ key := by
        rintro rfl
        exact free ⟨claim.ticket, registered, pending⟩
      simpa [otherKey] using registered
    · simp [Flights.own]
  job_unique := by
    intro place other job second found present same
    rcases jobAt_own found with there | ⟨atAgent, _, isNew⟩ <;>
      rcases jobAt_own present with here | ⟨isAgent, _, alsoNew⟩
    · exact sound.job_unique place other job second there here same
    · exact absurd (sound.job_lt place job there) (by omega)
    · exact absurd (sound.job_lt other second here) (by omega)
    · rw [atAgent, isAgent]

/-- A promise that is pending after some promise was finished was pending
before, and is another. -/
theorem finish_eq_pending
    {promises : ℕ → Promise}
    {ticket other : ℕ}
    {status : Promise}
    (finished : status ≠ .pending)
    (pending : finish promises ticket status other = .pending) :
    promises other = .pending ∧ other ≠ ticket := by
  rw [finish_apply] at pending
  split_ifs at pending with isTicket
  · exact absurd pending finished
  · refine ⟨pending, ?_⟩
    rintro rfl
    exact isTicket ⟨rfl, pending⟩

/-- A promise that is pending after a job was settled was pending before, and
was not registered for the key of the job. -/
theorem settle_promises_eq_pending
    {flights : Flights κ}
    {agent ticket : ℕ}
    {job : Job κ}
    (pending : (flights.settle agent job).promises ticket = .pending) :
    flights.promises ticket = .pending ∧ flights.registered job.key ≠ some ticket := by
  unfold settle at pending
  cases current : flights.registered job.key with
  | none =>
      rw [current] at pending
      exact ⟨pending, by simp⟩
  | some registered =>
      rw [current] at pending
      obtain ⟨isPending, different⟩ := finish_eq_pending (by decide) pending
      exact ⟨isPending, fun same => different (Option.some.inj same).symm⟩

/-- Every move keeps the tickets sound. -/
theorem Sound.move
    {action : Action κ}
    {before after : Flights κ}
    (sound : before.Sound)
    (move : Move action before after) :
    after.Sound := by
  by_cases owned : ∃ agent key carry hold, action = .own agent key carry hold
  · obtain ⟨agent, key, carry, hold, rfl⟩ := owned
    cases move with
    | own free unladen => exact sound.own free agent carry hold
  obtain ⟨origin, relocates⟩ := move.relocates fun agent key carry hold isOwn =>
    owned ⟨agent, key, carry, hold, isOwn⟩
  have fewer : ∀ {held : ℕ → Option (Job κ)} {agent id : ℕ} {claim : Job κ},
      Function.update held agent none id = some claim → held id = some claim := by
    intro held agent id claim holding
    rw [Function.update_apply] at holding
    split_ifs at holding
    exact holding
  cases move with
  | own => exact absurd ⟨_, _, _, _, rfl⟩ owned
  | reset => exact sound_initial
  | idle => exact sound
  | put | get | pass =>
      exact sound.of_shrink rfl (fun _ _ found => found) (fun _ pending => pending)
        (fun _ _ found _ => found) (fun _ _ holding => Or.inl holding) relocates
  | drop | release =>
      exact sound.of_shrink rfl (fun _ _ found => found) (fun _ pending => pending)
        (fun _ _ found _ => found) (fun _ _ holding => Or.inl (fewer holding)) relocates
  | @attach _ agent key ticket registered pending =>
      refine sound.of_shrink rfl (fun _ _ found => found) (fun _ pending => pending)
        (fun _ _ found _ => found) ?_ relocates
      intro id claim holding
      simp only [Function.update_apply] at holding
      split_ifs at holding
      · rw [← Option.some.inj holding]
        exact Or.inr registered
      · exact Or.inl holding
  | cancel holding =>
      exact sound.of_shrink rfl (fun _ _ found => found)
        (fun _ pending => (finish_eq_pending (by decide) pending).1)
        (fun _ _ found _ => found) (fun _ _ holding => Or.inl (fewer holding)) relocates
  | @settle _ agent job laden =>
      refine sound.of_shrink rfl ?_ (fun _ pending => (settle_promises_eq_pending pending).1)
        ?_ (fun _ _ holding => Or.inl holding) relocates
      · intro key ticket found
        simp only [settle, Function.update_apply] at found
        split_ifs at found
        exact found
      · intro key ticket found pending
        have otherKey : key ≠ job.key := by
          rintro rfl
          exact (settle_promises_eq_pending pending).2 found
        simpa [settle, otherKey] using found

/-- A claim is an older one, or is on a pending promise. -/
theorem Move.held_cases
    {action : Action κ}
    {before after : Flights κ}
    {id : ℕ}
    {claim : Job κ}
    (move : Move action before after)
    (holding : after.held id = some claim) :
    before.held id = some claim ∨ after.promises claim.ticket = .pending := by
  cases move with
  | idle | put | get | pass | settle => exact Or.inl holding
  | drop | cancel | release =>
      simp only [Function.update_apply] at holding
      split_ifs at holding
      exact Or.inl holding
  | reset => cases holding
  | own =>
      rcases held_own holding with there | rfl
      · exact Or.inl there
      · exact Or.inr (by simp [Flights.own])
  | @attach _ agent key ticket registered pending =>
      simp only [Function.update_apply] at holding
      split_ifs at holding
      · rw [← Option.some.inj holding]
        exact Or.inr pending
      · exact Or.inl holding

end Flights

end Foundation
