import HardenedClient.Foundation.Flights

/-!
# Single flight

Which moves keep at most one job per key, a job for every pending promise, and
the promises of the holders uncancelled. Each property comes with the condition
on a move under which the move keeps it.
-/

namespace Foundation

namespace Flights

variable {κ : Type*}

theorem Relocates.live
    {before after : Flights κ}
    {origin : Place → Place}
    {job : Job κ}
    (relocates : Relocates before after origin)
    (live : after.Live job) :
    before.Live job := by
  obtain ⟨place, found⟩ := live
  exact ⟨origin place, relocates.kept place job found⟩

/-! ## At most one job per key -/

/-- Every job works for the pending promise registered for its key. -/
def Exclusive (flights : Flights κ) : Prop :=
  ∀ job, flights.Live job →
    flights.registered job.key = some job.ticket ∧
      flights.promises job.ticket = .pending

/-- No two places have a job for one key. -/
def Single (flights : Flights κ) : Prop :=
  ∀ place other job second,
    flights.jobAt place = some job → flights.jobAt other = some second →
      job.key = second.key → place = other

theorem Exclusive.single
    {flights : Flights κ}
    (exclusive : flights.Exclusive)
    (sound : flights.Sound) :
    flights.Single := by
  intro place other job second found present sameKey
  have first := (exclusive job ⟨place, found⟩).1
  have next := (exclusive second ⟨other, present⟩).1
  rw [← sameKey, first] at next
  exact sound.job_unique place other job second found present (Option.some.inj next)

/-- An owner's job is for the key it registers, and a promise is cancelled only
when no job works for it. -/
def Careful (flights : Flights κ) : Action κ → Prop
  | .own _ key carry _ => ∀ own, carry = some own → own = key
  | .cancel agent => ∀ claim job,
      flights.held agent = some claim → flights.promises claim.ticket = .pending →
        flights.Live job → job.ticket ≠ claim.ticket
  | _ => True

variable [DecidableEq κ]

theorem live_own
    {flights : Flights κ}
    {agent : ℕ}
    {key : κ}
    {carry : Option κ}
    {hold : Bool}
    {job : Job κ}
    (live : (flights.own agent key carry hold).Live job) :
    flights.Live job ∨ carry = some job.key ∧ job.ticket = flights.created := by
  obtain ⟨place, found⟩ := live
  rcases jobAt_own found with there | ⟨_, isNew⟩
  · exact Or.inl ⟨place, there⟩
  · exact Or.inr isNew

/-- A job that is left after a settling was there before and has another
ticket. -/
theorem Sound.live_settle
    {flights : Flights κ}
    {agent : ℕ}
    {settled job : Job κ}
    (sound : flights.Sound)
    (laden : flights.carried agent = some settled)
    (live : (flights.settle agent settled).Live job) :
    flights.Live job ∧ job.ticket ≠ settled.ticket := by
  obtain ⟨place, found⟩ := live
  have elsewhere : flights.jobAt place = some job ∧ place ≠ .agent agent := by
    cases place with
    | queue position => exact ⟨found, by simp⟩
    | agent id =>
        simp only [jobAt, settle, Function.update_apply] at found
        split_ifs at found with isAgent
        exact ⟨found, by simpa using isAgent⟩
  exact ⟨⟨place, elsewhere.1⟩, fun same => elsewhere.2
    (sound.job_unique place (.agent agent) job settled elsewhere.1 laden same)⟩

/-- A careful move keeps at most one job per key. -/
theorem Exclusive.move
    {action : Action κ}
    {before after : Flights κ}
    (exclusive : before.Exclusive)
    (sound : before.Sound)
    (careful : before.Careful action)
    (move : Move action before after) :
    after.Exclusive := by
  have others : ∀ {origin : Place → Place}, Relocates before after origin →
      after.registered = before.registered → after.promises = before.promises →
      after.Exclusive := by
    intro origin relocates registered promises job live
    rw [registered, promises]
    exact exclusive job (relocates.live live)
  by_cases owned : ∃ agent key carry hold, action = .own agent key carry hold
  · obtain ⟨agent, key, carry, hold, rfl⟩ := owned
    cases move with
    | own free unladen =>
        intro job live
        rcases live_own live with there | ⟨carries, isNew⟩
        · obtain ⟨registered, pending⟩ := exclusive job there
          have otherKey : job.key ≠ key := by
            rintro rfl
            exact free ⟨job.ticket, registered, pending⟩
          have older : job.ticket ≠ before.created :=
            Nat.ne_of_lt (sound.registered_lt _ _ registered)
          simp [own, otherKey, older, registered, pending]
        · rw [careful job.key carries, isNew]
          simp [own]
  obtain ⟨origin, relocates⟩ := move.relocates fun agent key carry hold isOwn =>
    owned ⟨agent, key, carry, hold, isOwn⟩
  cases move with
  | own => exact absurd ⟨_, _, _, _, rfl⟩ owned
  | idle | attach | put | get | pass | drop | release => exact others relocates rfl rfl
  | reset => exact fun job live => by simp [live_iff, initial] at live
  | @cancel _ agent claim holding =>
      intro job live
      have there := relocates.live live
      obtain ⟨registered, pending⟩ := exclusive job there
      refine ⟨registered, ?_⟩
      change finish before.promises claim.ticket .cancelled job.ticket = .pending
      rw [finish_apply, if_neg, pending]
      rintro ⟨isTicket, claimPending⟩
      exact careful claim job holding claimPending there isTicket
  | @settle _ agent settled laden =>
      intro job live
      obtain ⟨there, otherTicket⟩ := sound.live_settle laden live
      obtain ⟨registered, pending⟩ := exclusive job there
      have settledRegistered := (exclusive settled ⟨.agent agent, laden⟩).1
      have otherKey : job.key ≠ settled.key := by
        intro sameKey
        rw [sameKey, settledRegistered] at registered
        exact otherTicket (Option.some.inj registered).symm
      constructor
      · simpa [settle, otherKey] using registered
      · simp only [settle, settledRegistered, finish_apply]
        rw [if_neg fun same => otherTicket same.1, pending]

/-! ## A job for every pending promise -/

/-- Every pending promise has a job that works for it. -/
def Attended (flights : Flights κ) : Prop :=
  ∀ ticket < flights.created, flights.promises ticket = .pending →
    ∃ job, flights.Live job ∧ job.ticket = ticket

/-- An owner carries a job, and no job is dropped. -/
def Keeping (flights : Flights κ) : Action κ → Prop
  | .own _ _ carry _ => carry.isSome
  | .drop agent => flights.carried agent = none
  | _ => True

/-- A job stays live unless its agent drops or settles it. -/
theorem Move.live
    {action : Action κ}
    {before after : Flights κ}
    {job : Job κ}
    (move : Move action before after)
    (kept : ∀ agent, action = .drop agent ∨ action = .settle agent →
      before.carried agent ≠ some job)
    (notReset : action ≠ .reset)
    (live : before.Live job) :
    after.Live job := by
  rw [live_iff] at live ⊢
  have elsewhere : ∀ {agent id : ℕ} {value : Option (Job κ)},
      before.carried id = some job → before.carried agent ≠ some job →
        Function.update before.carried agent value id = some job := by
    intro agent id value carried other
    have : id ≠ agent := by
      rintro rfl
      exact other carried
    rw [Function.update_of_ne this, carried]
  cases move with
  | idle | attach | cancel | release => exact live
  | reset => exact absurd rfl notReset
  | own free unladen =>
      exact live.imp_right fun ⟨id, carried⟩ => ⟨id, elsewhere carried (by simp [unladen])⟩
  | drop =>
      exact live.imp_right fun ⟨id, carried⟩ =>
        ⟨id, elsewhere carried (kept _ (Or.inl rfl))⟩
  | settle =>
      exact live.imp_right fun ⟨id, carried⟩ =>
        ⟨id, elsewhere carried (kept _ (Or.inr rfl))⟩
  | @put _ agent moved laden =>
      rcases live with waiting | ⟨id, carried⟩
      · exact Or.inl (List.mem_append_left _ waiting)
      · by_cases isAgent : id = agent
        · rw [isAgent, laden] at carried
          exact Or.inl (by simp [Option.some.inj carried])
        · exact Or.inr ⟨id, by simpa [isAgent] using carried⟩
  | @get _ agent moved rest waiting unladen =>
      rcases live with inQueue | ⟨id, carried⟩
      · rw [waiting, List.mem_cons] at inQueue
        rcases inQueue with rfl | behind
        · exact Or.inr ⟨agent, by simp⟩
        · exact Or.inl behind
      · exact Or.inr ⟨id, elsewhere carried (by simp [unladen])⟩
  | @pass _ agent target moved laden different unladen =>
      rcases live with waiting | ⟨id, carried⟩
      · exact Or.inl waiting
      · by_cases isAgent : id = agent
        · rw [isAgent, laden] at carried
          exact Or.inr ⟨target, by simp [different, Option.some.inj carried]⟩
        · have there : Function.update before.carried target (some moved) id = some job :=
            elsewhere carried (by simp [unladen])
          exact Or.inr ⟨id, by simpa [isAgent] using there⟩

/-- A key that is busy after a move was busy before, and the move does not settle
it, or the move claims the key. -/
theorem Move.busy_cases
    {action : Action κ}
    {before after : Flights κ}
    {key : κ}
    (move : Move action before after)
    (sound : before.Sound)
    (busy : after.Busy key) :
    (before.Busy key ∧ ∀ agent job, action = .settle agent →
        before.carried agent = some job → job.key ≠ key) ∨
      ¬ before.Busy key ∧ ∃ agent carry hold, action = .own agent key carry hold := by
  obtain ⟨ticket, registered, pending⟩ := busy
  cases move with
  | idle | attach | put | get | pass | drop | release =>
      exact Or.inl ⟨⟨ticket, registered, pending⟩, by simp⟩
  | reset => cases registered
  | cancel =>
      have wasPending := (finish_eq_pending (by decide) pending).1
      exact Or.inl ⟨⟨ticket, registered, wasPending⟩, by simp⟩
  | @settle _ agent job laden =>
      have wasPending := (settle_promises_eq_pending pending).1
      simp only [Flights.settle, Function.update_apply] at registered
      split_ifs at registered with isKey
      refine Or.inl ⟨⟨ticket, registered, wasPending⟩, fun other second settles carried => ?_⟩
      obtain rfl : agent = other := by simpa using settles
      obtain rfl : job = second := Option.some.inj (laden.symm.trans carried)
      exact fun same => isKey same.symm
  | @own _ agent other carry hold free unladen =>
      simp only [Flights.own, Function.update_apply] at registered pending
      split_ifs at registered with isKey
      · subst isKey
        exact Or.inr ⟨free, agent, carry, hold, rfl⟩
      · rw [if_neg (Nat.ne_of_lt (sound.registered_lt _ _ registered))] at pending
        exact Or.inl ⟨⟨ticket, registered, pending⟩, by simp⟩

/-- A busy key has a job after a move, if it had one before that is not dropped,
and whoever claims the key carries its job. -/
theorem Move.attended_key
    {action : Action κ}
    {before after : Flights κ}
    {key : κ}
    (move : Move action before after)
    (sound : before.Sound)
    (attended : before.Busy key → ∃ job, before.Live job ∧ job.key = key)
    (carries : ∀ agent carry hold, ¬ before.Busy key →
      action = .own agent key carry hold → carry = some key)
    (kept : ∀ agent job, action = .drop agent → before.carried agent = some job →
      job.key ≠ key)
    (busy : after.Busy key) :
    ∃ job, after.Live job ∧ job.key = key := by
  have notReset : action ≠ .reset := by
    rintro rfl
    obtain ⟨ticket, registered, _⟩ := busy
    cases move
    cases registered
  rcases move.busy_cases sound busy with ⟨wasBusy, unsettled⟩ | ⟨free, agent, carry, hold, rfl⟩
  · obtain ⟨job, live, sameKey⟩ := attended wasBusy
    refine ⟨job, move.live (fun agent ends carried => ?_) notReset live, sameKey⟩
    rcases ends with drops | settles
    · exact kept agent job drops carried sameKey
    · exact unsettled agent job settles carried sameKey
  · obtain rfl := carries agent carry hold free rfl
    cases move with
    | own => exact ⟨⟨key, before.created⟩, ⟨.agent agent, by simp [jobAt, Flights.own]⟩, rfl⟩

/-- A move that drops no job keeps a job for every pending promise. -/
theorem Attended.move
    {action : Action κ}
    {before after : Flights κ}
    (attended : before.Attended)
    (exclusive : before.Exclusive)
    (keeping : before.Keeping action)
    (move : Move action before after) :
    after.Attended := by
  have others : after.created = before.created →
      (∀ ticket, after.promises ticket = .pending → before.promises ticket = .pending) →
      (∀ agent, action ≠ .settle agent) → action ≠ .reset → after.Attended := by
    intro created pending notSettle notReset ticket old isPending
    obtain ⟨job, live, isTicket⟩ := attended ticket (created ▸ old) (pending ticket isPending)
    refine ⟨job, move.live (fun agent ends => ?_) notReset live, isTicket⟩
    rcases ends with rfl | settles
    · rw [show before.carried agent = none from keeping]
      simp
    · exact absurd settles (notSettle agent)
  cases move with
  | idle | attach | put | get | pass | drop | release =>
      exact others rfl (fun _ pending => pending) (by simp) (by simp)
  | cancel =>
      exact others rfl (fun _ pending => (finish_eq_pending (by decide) pending).1)
        (by simp) (by simp)
  | reset =>
      intro ticket old
      exact absurd old (Nat.not_lt_zero _)
  | @own _ agent key carry hold free unladen =>
      intro ticket old pending
      obtain ⟨own, carries⟩ := Option.isSome_iff_exists.mp keeping
      by_cases isNew : ticket = before.created
      · refine ⟨⟨own, before.created⟩, ⟨.agent agent, ?_⟩, isNew.symm⟩
        simp [jobAt, Flights.own, carries]
      · have older : ticket < before.created := by
          simp only [Flights.own] at old
          omega
        have wasPending : before.promises ticket = .pending := by
          simpa [Flights.own, isNew] using pending
        obtain ⟨job, live, isTicket⟩ := attended ticket older wasPending
        exact ⟨job, (Move.own free unladen).live (by simp) (by simp) live, isTicket⟩
  | @settle _ agent settled laden =>
      intro ticket old pending
      obtain ⟨wasPending, unregistered⟩ := settle_promises_eq_pending pending
      obtain ⟨job, live, isTicket⟩ := attended ticket old wasPending
      refine ⟨job, (Move.settle laden).live (fun other ends carried => ?_) (by simp) live,
        isTicket⟩
      -- the settled job worked for the promise registered for its key
      obtain rfl : agent = other := by simpa using ends
      obtain rfl : settled = job := Option.some.inj (laden.symm.trans carried)
      exact unregistered (isTicket ▸ (exclusive settled ⟨.agent agent, laden⟩).1)

/-! ## Uncancelled holders -/

/-- No agent holds a cancelled promise. -/
def Unharmed (flights : Flights κ) : Prop :=
  ∀ id claim, flights.held id = some claim →
    flights.promises claim.ticket ≠ .cancelled

/-- A pending promise is cancelled only by its last holder. -/
def Solitary (flights : Flights κ) : Action κ → Prop
  | .cancel agent => ∀ claim other second,
      flights.held agent = some claim → flights.promises claim.ticket = .pending →
        flights.held other = some second → other ≠ agent → second.ticket ≠ claim.ticket
  | _ => True

/-- A promise cancelled by its last holder leaves no holder with a cancelled
promise. -/
theorem Unharmed.move
    {action : Action κ}
    {before after : Flights κ}
    (unharmed : before.Unharmed)
    (sound : before.Sound)
    (solitary : before.Solitary action)
    (move : Move action before after) :
    after.Unharmed := by
  have fewer : ∀ {agent id : ℕ} {claim : Job κ},
      Function.update before.held agent none id = some claim →
        id ≠ agent ∧ before.held id = some claim := by
    intro agent id claim holding
    rw [Function.update_apply] at holding
    split_ifs at holding with isAgent
    exact ⟨isAgent, holding⟩
  intro id claim holding
  cases move with
  | idle | put | get | pass => exact unharmed id claim holding
  | drop | release => exact unharmed id claim (fewer holding).2
  | reset => simp [initial] at holding
  | @attach _ agent key ticket registered pending =>
      simp only [Function.update_apply] at holding
      split_ifs at holding
      · rw [← Option.some.inj holding]
        simp [pending]
      · exact unharmed id claim holding
  | @own _ agent key carry hold free unladen =>
      rcases held_own holding with there | rfl
      · have older : claim.ticket ≠ before.created :=
          Nat.ne_of_lt (sound.held_lt id claim there)
        simpa [Flights.own, older] using unharmed id claim there
      · simp [Flights.own]
  | @cancel _ agent mine isHeld =>
      obtain ⟨different, there⟩ := fewer holding
      change finish before.promises mine.ticket .cancelled claim.ticket ≠ .cancelled
      rw [finish_apply, if_neg]
      · exact unharmed id claim there
      · rintro ⟨sameTicket, pending⟩
        exact solitary mine id claim isHeld pending there different sameTicket
  | @settle _ agent settled laden =>
      have there := unharmed id claim holding
      cases registered : before.registered settled.key with
      | none => simpa [Flights.settle, registered] using there
      | some ticket =>
          simp only [Flights.settle, registered, finish_apply]
          split_ifs
          · decide
          · exact there

end Flights

end Foundation
