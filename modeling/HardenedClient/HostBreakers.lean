import HardenedClient.BreakerRun
import HardenedClient.Foundation.Journal
import HardenedClient.OpenCircuit

/-!
# Breakers run alone

The client keeps one breaker for each host and lets all workers at all of them. Seen from one
host, the client is that host's breaker alone: asked before each call to a URL of the host and
told the outcome of each, by a clock they share, and nothing else moves it.
-/

namespace HardenedClient

open Foundation

/-- What is seen of the breakers: time passes, or a worker makes a move for a URL. -/
inductive BreakerEvent
  | ticked (seconds : ℚ)
  | made (url : PyStr) (move : BreakerLabel)

/-- What an event is to the breaker of a host. -/
def BreakerEvent.moveOf? (env : Env) (host : PyStr) : BreakerEvent → Option BreakerLabel
  | .ticked seconds => some (.tick seconds)
  | .made url move => if env.hostOf? url = some host then some move else none

/-- What the end of an HTTP exchange is to the breaker. -/
def outcomeMove? (item : QueueItem) (event : HttpEvent) : Option BreakerLabel :=
  match execute item.request.request item.attempt event with
  | .ok _ => some .onSuccess
  | .error exc =>
      match caught? exc with
      | some (_, true) => some .onFailure
      | _ => none

/-- The breaker a worker asks at the gate, if the URL and the breaker can be had. -/
def State.asked? (env : Env) (state : State) (item : QueueItem) : Option CircuitBreaker :=
  (env.hostOf? item.request.request.url).bind
    (state.breakers.forHost? env.config.circuitBreaker)

/-- What a step shows of the breakers. -/
def State.observeBreakers
    (env : Env)
    (state : State)
    (label : Label)
    (_ : State) : List BreakerEvent :=
  match label with
  | .tick seconds => [.ticked seconds]
  | .step id choice =>
      match state.tasks id, choice with
      | some (.worker (.handling item .gating)), .jitter _ =>
          if (state.asked? env item).isSome then
            [.made item.request.request.url .beforeCall]
          else []
      | some (.worker (.handling item (.executing _ _))), .http event _ =>
          (outcomeMove? item event).toList.map (.made item.request.request.url)
      | _, _ => []
  | _ => []

theorem HostCircuitBreakers.lookup_report_self
    {registry : HostCircuitBreakers}
    {host : PyStr}
    (present : (registry.breakers host).isSome)
    (callback : CircuitBreaker → CircuitBreaker) :
    (registry.report host callback).lookup host = callback (registry.lookup host) := by
  obtain ⟨breaker, stored⟩ := Option.isSome_iff_exists.mp present
  simp [report, lookup, stored]

namespace State

variable {env : Env} {state next : State} {label : Label} {id : ℕ} {item : QueueItem}

/-- The gate stores what `before_call` makes of the breaker it asks. -/
theorem gate_asked
    (env : Env)
    (state : State)
    (id : ℕ)
    (item : QueueItem)
    (draw : ℚ) :
    (state.asked? env item = none ∧
        (state.gate env id item draw).breakers = state.breakers) ∨
      ∃ host, env.hostOf? item.request.request.url = some host ∧
        (state.asked? env item).isSome ∧
        (state.gate env id item draw).breakers = state.breakers.store host
          ((state.breakers.lookup host).beforeCall env.config.circuitBreaker state.now).1 := by
  cases parsed : env.hostOf? item.request.request.url with
  | none =>
      simp only [gate, parsed, asked?, Option.bind_none]
      exact Or.inl ⟨trivial, rfl⟩
  | some host =>
      cases found : state.breakers.forHost? env.config.circuitBreaker host with
      | none =>
          simp only [gate, parsed, found, asked?, Option.bind_some]
          exact Or.inl ⟨trivial, rfl⟩
      | some breaker =>
          simp only [gate, parsed, found, asked?, Option.bind_some]
          refine Or.inr ⟨host, rfl, rfl, ?_⟩
          rw [← HostCircuitBreakers.forHost?_eq_some found]
          split
          · exact (retryOrDlq_breakers _ _ _ _ _ _ _).1
          · rfl

/-- The end of an exchange tells the breaker of its host the outcome. -/
theorem receive_told
    (env : Env)
    (state : State)
    (id : ℕ)
    (item : QueueItem)
    (host : PyStr)
    (event : HttpEvent)
    (draw : ℚ) :
    (outcomeMove? item event = none ∧
        (state.receive env id item host event draw).breakers = state.breakers) ∨
      (outcomeMove? item event = some .onSuccess ∧
        (state.receive env id item host event draw).breakers =
          state.breakers.report host (CircuitBreaker.onSuccess env.config.circuitBreaker)) ∨
      outcomeMove? item event = some .onFailure ∧
        (state.receive env id item host event draw).breakers =
          state.breakers.report host
            (CircuitBreaker.onFailure env.config.circuitBreaker state.now) := by
  unfold receive outcomeMove?
  cases executed : execute item.request.request item.attempt event with
  | ok response => exact Or.inr (Or.inl ⟨rfl, rfl⟩)
  | error exc =>
      dsimp only
      cases handler : caught? exc with
      | none => exact Or.inl ⟨rfl, rfl⟩
      | some handled =>
          obtain ⟨error, reported⟩ := handled
          dsimp only
          rw [(retryOrDlq_breakers _ _ _ _ _ _ _).1]
          cases reported with
          | true => exact Or.inr (Or.inr ⟨rfl, rfl⟩)
          | false => exact Or.inl ⟨rfl, rfl⟩

/-- A step keeps the breakers there are. -/
theorem breakers_kept
    {host : PyStr}
    (alive : label ≠ .crash)
    (moved : HardenedClient.step env label state = some next)
    (present : (state.breakers.breakers host).isSome) :
    (next.breakers.breakers host).isSome := by
  have stored : ∀ other breaker,
      ((state.breakers.store other breaker).breakers host).isSome := by
    intro other breaker
    by_cases same : host = other
    · simp [same]
    · simp [Function.update_of_ne same, present]
  have reported : ∀ other callback,
      ((state.breakers.report other callback).breakers host).isSome := by
    intro other callback
    unfold HostCircuitBreakers.report
    split
    · exact stored other _
    · exact present
  rcases breakers_cases moved with
    isCrash | ⟨same, _⟩ | ⟨id, item, draw, _, _, rfl⟩ |
      ⟨id, item, other, probe, event, draw, _, _, rfl⟩
  · exact absurd isCrash alive
  · rwa [same]
  · rcases gate_asked env state id item draw with ⟨_, same⟩ | ⟨other, _, _, same⟩
    · rwa [same]
    · rw [same]
      exact stored other _
  · rcases receive_told env state id item other event draw with
      ⟨_, same⟩ | ⟨_, same⟩ | ⟨_, same⟩
    · rwa [same]
    · rw [same]
      exact reported other _
    · rw [same]
      exact reported other _

/-- Workers wait for, and call, hosts that have a breaker. -/
def Equipped (state : State) : Prop :=
  ∀ id item point host, state.tasks id = some (.worker (.handling item point)) →
    point.host? = some host → (state.breakers.breakers host).isSome

theorem Equipped.step
    (equipped : state.Equipped)
    (tidy : state.Tidy)
    (alive : label ≠ .crash)
    (moved : HardenedClient.step env label state = some next) :
    next.Equipped := by
  intro id item point host current isHost
  cases point with
  | acquiring asked probe bucket delayTotal wakeAt =>
      obtain rfl : asked = host := Option.some.inj isHost
      have waits : next.Waits asked probe id := ⟨item, bucket, delayTotal, wakeAt, current⟩
      rcases waits_origin tidy moved waits with ⟨_, _, _, _, old⟩ | ⟨_, _, _, _, rfl⟩
      · exact breakers_kept alive moved (equipped id _ _ asked old rfl)
      · obtain ⟨after, _, stored, _⟩ := gate_waits waits
        rw [stored]
        simp
  | executing asked probe =>
      obtain rfl : asked = host := Option.some.inj isHost
      have sends : next.Sends asked probe id := ⟨item, current⟩
      rcases sends_origin tidy moved sends with same | ⟨_, _, _, _, old⟩
      · exact breakers_kept alive moved (equipped id item _ asked (same.trans current) rfl)
      · exact breakers_kept alive moved (equipped id _ _ asked old rfl)
  | _ => cases isHost

/-- Time passes, a worker is at the gate or at the end of an exchange, or nothing is seen of the
breakers, which stay as they are. -/
theorem observeBreakers_cases
    (alive : label ≠ .crash)
    (moved : HardenedClient.step env label state = some next) :
    (∃ seconds, label = .tick seconds ∧ 0 ≤ seconds ∧
        next = { state with now := state.now + seconds }) ∨
      (∀ seconds, label ≠ .tick seconds) ∧
        ((∃ id item draw, next = state.gate env id item draw ∧
            state.observeBreakers env label next =
              if (state.asked? env item).isSome then [.made item.request.request.url .beforeCall]
              else []) ∨
          (∃ id item host probe event draw,
            state.tasks id = some (.worker (.handling item (.executing host probe))) ∧
            next = state.receive env id item host event draw ∧
            state.observeBreakers env label next =
              (outcomeMove? item event).toList.map (.made item.request.request.url)) ∨
          (next.breakers = state.breakers ∧ state.observeBreakers env label next = [])) := by
  have shown : (∀ seconds, label ≠ .tick seconds) →
      (∀ id item draw, label = .step id (.jitter draw) →
        state.tasks id ≠ some (.worker (.handling item .gating))) →
      (∀ id item host probe event draw, label = .step id (.http event draw) →
        state.tasks id ≠ some (.worker (.handling item (.executing host probe)))) →
      state.observeBreakers env label next = [] := by
    intro timeless notGating notExecuting
    unfold observeBreakers
    split
    · exact absurd rfl (timeless _)
    · split
      · next current => exact absurd current (notGating _ _ _ rfl)
      · next current => exact absurd current (notExecuting _ _ _ _ _ _ rfl)
      · rfl
    · rfl
  by_cases timed : ∃ seconds, label = .tick seconds
  · obtain ⟨seconds, rfl⟩ := timed
    simp only [HardenedClient.step, Option.ite_none_right_eq_some, Option.some.injEq] at moved
    exact Or.inl ⟨seconds, rfl, moved.1, moved.2.symm⟩
  refine Or.inr ⟨not_exists.mp timed, ?_⟩
  by_cases gating : ∃ id item draw, label = .step id (.jitter draw) ∧
      state.tasks id = some (.worker (.handling item .gating))
  · obtain ⟨id, item, draw, rfl, current⟩ := gating
    simp only [HardenedClient.step, stepTask, current, stepWorker, stepHandle] at moved
    split_ifs at moved
    exact Or.inl ⟨id, item, draw, (Option.some.inj moved).symm, by simp [observeBreakers, current]⟩
  right
  by_cases executing : ∃ id item host probe event draw, label = .step id (.http event draw) ∧
      state.tasks id = some (.worker (.handling item (.executing host probe)))
  · obtain ⟨id, item, host, probe, event, draw, rfl, current⟩ := executing
    simp only [HardenedClient.step, stepTask, current, stepWorker, stepHandle] at moved
    split_ifs at moved
    exact Or.inl ⟨id, item, host, probe, event, draw, current, (Option.some.inj moved).symm,
      by simp [observeBreakers, current]⟩
  right
  push Not at timed gating executing
  refine ⟨?_, shown timed gating executing⟩
  rcases breakers_cases moved with
    isCrash | ⟨same, _⟩ | ⟨id, item, draw, isStep, current, _⟩ |
      ⟨id, item, host, probe, event, draw, isStep, current, _⟩
  · exact absurd isCrash alive
  · exact same
  · exact absurd current (gating id item draw isStep)
  · exact absurd current (executing id item host probe event draw isStep)

/-! ## One host -/

/-- The breaker of a host is where a breaker on its own would be. -/
structure Follows (env : Env) (host : PyStr) (state : State) (view : BreakerState) : Prop where
  tidy : state.Tidy
  routed : state.Routed env
  equipped : state.Equipped
  clock : view.now = state.now
  breaker : view.breaker = state.breakers.lookup host

theorem Follows.boot
    (env : Env)
    (host : PyStr)
    (tables : Tables)
    (now : ℚ)
    (history : List Event) :
    Follows env host (boot tables now history) (BreakerState.initial host now) where
  tidy := tidy_boot tables now history
  routed := fun id item point other current => by cases current
  equipped := fun id item point other current => by cases current
  clock := rfl
  breaker := rfl

/-- A move for a URL is one of the breaker of its host, and of no other. -/
theorem executeAll_made
    {host other url : PyStr}
    {move : BreakerLabel}
    {view after : BreakerState}
    {breakers : HostCircuitBreakers}
    (isView : view.breaker = state.breakers.lookup host)
    (routed : env.hostOf? url = some other)
    (elsewhere : other ≠ host → breakers.lookup host = state.breakers.lookup host)
    (moves : other = host → BreakerState.step env.config.circuitBreaker move view = some after ∧
      after.now = view.now ∧ after.breaker = breakers.lookup host) :
    ∃ final, executeAll (BreakerState.step env.config.circuitBreaker)
        ([.made url move].filterMap (BreakerEvent.moveOf? env host)) view = some final ∧
      final.now = view.now ∧ final.breaker = breakers.lookup host := by
  by_cases own : other = host
  · obtain ⟨stepped, clock, breaker⟩ := moves own
    refine ⟨after, ?_, clock, breaker⟩
    simp [BreakerEvent.moveOf?, routed, own, executeAll, executeChecked, stepped]
  · refine ⟨view, ?_, rfl, isView.trans (elsewhere own).symm⟩
    simp [BreakerEvent.moveOf?, routed, own, executeAll, executeChecked]

/-- An outcome for a URL moves the breaker of its host. -/
theorem executeAll_reported
    {host other url : PyStr}
    {move : BreakerLabel}
    {view : BreakerState}
    {callback : CircuitBreaker → CircuitBreaker}
    (isView : view.breaker = state.breakers.lookup host)
    (routed : env.hostOf? url = some other)
    (present : (state.breakers.breakers other).isSome)
    (moves : BreakerState.step env.config.circuitBreaker move view =
      some { view with breaker := callback view.breaker }) :
    ∃ final, executeAll (BreakerState.step env.config.circuitBreaker)
        ([.made url move].filterMap (BreakerEvent.moveOf? env host)) view = some final ∧
      final.now = view.now ∧
      final.breaker = (state.breakers.report other callback).lookup host := by
  refine executeAll_made isView routed (fun different => ?_) fun own => ⟨moves, rfl, ?_⟩
  · exact state.breakers.lookup_report_of_ne callback different.symm
  · subst own
    rw [HostCircuitBreakers.lookup_report_self present, ← isView]

theorem Follows.step
    {host : PyStr}
    {view : BreakerState}
    (follows : Follows env host state view)
    (alive : label ≠ .crash)
    (moved : HardenedClient.step env label state = some next) :
    ∃ after,
      executeAll (BreakerState.step env.config.circuitBreaker)
        ((state.observeBreakers env label next).filterMap (BreakerEvent.moveOf? env host)) view =
          some after ∧
      Follows env host next after := by
  have tidy := (step_stepped moved).tidy follows.tidy
  have routed := follows.routed.step follows.tidy moved
  have equipped := follows.equipped.step follows.tidy alive moved
  rcases observeBreakers_cases alive moved with
    ⟨seconds, rfl, forward, rfl⟩ | ⟨timeless, ⟨id, item, draw, rfl, shown⟩ |
      ⟨id, item, other, probe, event, draw, current, rfl, shown⟩ | ⟨same, shown⟩⟩
  · refine ⟨{ view with now := view.now + seconds }, ?_, tidy, routed, equipped, ?_,
      follows.breaker⟩
    · simp [observeBreakers, BreakerEvent.moveOf?, executeAll, executeChecked, BreakerState.step,
        forward]
    · rw [← follows.clock]
  · have clock := now_step timeless moved
    rw [shown]
    rcases gate_asked env state id item draw with ⟨asked, same⟩ | ⟨other, parsed, asked, stored⟩
    · refine ⟨view, ?_, tidy, routed, equipped, follows.clock.trans clock.symm, ?_⟩
      · simp [asked, executeAll, executeChecked]
      · rw [same]
        exact follows.breaker
    · rw [if_pos asked]
      have elsewhere : other ≠ host →
          (state.gate env id item draw).breakers.lookup host = state.breakers.lookup host := by
        intro different
        rw [stored]
        exact HostCircuitBreakers.lookup_store_of_ne _ _ different.symm
      have asks : other = host →
          (view.breaker.beforeCall env.config.circuitBreaker view.now).1 =
            (state.gate env id item draw).breakers.lookup host := by
        rintro rfl
        rw [stored, HostCircuitBreakers.lookup_store_self, follows.breaker, follows.clock]
      obtain ⟨after, ran, kept, breaker⟩ := executeAll_made follows.breaker parsed elsewhere
        fun own => ⟨Eq.refl (BreakerState.step env.config.circuitBreaker .beforeCall view), rfl,
          asks own⟩
      exact ⟨after, ran, tidy, routed, equipped, kept.trans (follows.clock.trans clock.symm),
        breaker⟩
  · have clock := now_step timeless moved
    have parsed := follows.routed id item _ other current rfl
    have present := follows.equipped id item _ other current rfl
    rw [shown]
    rcases receive_told env state id item other event draw with
      ⟨none, same⟩ | ⟨success, reported⟩ | ⟨failure, reported⟩
    · refine ⟨view, ?_, tidy, routed, equipped, follows.clock.trans clock.symm, ?_⟩
      · simp [none, executeAll, executeChecked]
      · rw [same]
        exact follows.breaker
    · obtain ⟨after, ran, kept, breaker⟩ := @executeAll_reported env state host other
        item.request.request.url .onSuccess view
        (CircuitBreaker.onSuccess env.config.circuitBreaker) follows.breaker parsed present rfl
      rw [success]
      refine ⟨after, ran, tidy, routed, equipped, kept.trans (follows.clock.trans clock.symm), ?_⟩
      rw [breaker, reported]
    · obtain ⟨after, ran, kept, breaker⟩ := @executeAll_reported env state host other
        item.request.request.url .onFailure view
        (CircuitBreaker.onFailure env.config.circuitBreaker state.now) follows.breaker parsed
        present (by rw [← follows.clock]; rfl)
      rw [failure]
      refine ⟨after, ran, tidy, routed, equipped, kept.trans (follows.clock.trans clock.symm), ?_⟩
      rw [breaker, reported]
  · refine ⟨view, ?_, tidy, routed, equipped,
      follows.clock.trans (now_step timeless moved).symm, ?_⟩
    · rw [shown]
      rfl
    · rw [same]
      exact follows.breaker

end State

/-- In every run without a crash, the breaker of each host is where a breaker on its own comes
to by the moves of the run that are for URLs of the host: asked at the gate, told the outcomes
of its exchanges, by the same clock. No other host has a part in it. -/
theorem breakers_run_alone
    (env : Env)
    (tables : Tables)
    (now : ℚ)
    (history : List Event)
    (journal : Journaled State BreakerEvent)
    (run : Run (record (step env) (State.observeBreakers env)) (fun _ label => label ≠ .crash)
      ⟨State.boot tables now history, []⟩ journal)
    (host : PyStr) :
    ∃ alone,
      executeAll (BreakerState.step env.config.circuitBreaker)
        (journal.log.filterMap (BreakerEvent.moveOf? env host)) (BreakerState.initial host now) =
          some alone ∧
      alone.now = journal.state.now ∧
      alone.breaker = journal.state.breakers.lookup host := by
  obtain ⟨alone, ran, follows⟩ := Run.component (fun _ label => label ≠ Label.crash) run
    (State.Follows env host) (.boot env host tables now history)
    fun _ _ _ _ follows alive moved => follows.step alive moved
  exact ⟨alone, ran, follows.clock, follows.breaker⟩

/-- Calls to two hosts: the one that fails opens its breaker, and the other one stays closed. -/
theorem breakers_run_alone_apart :
    ∃ journal,
      Run (record (step fragile) (State.observeBreakers fragile)) (fun _ label => label ≠ .crash)
        ⟨State.boot {} 0 [], []⟩ journal ∧
      (journal.state.breakers.lookup "failing.org").state = .open ∧
      (journal.state.breakers.lookup "example.org").state = .closed ∧
      ∃ alone,
        executeAll (BreakerState.step fragile.config.circuitBreaker)
          (journal.log.filterMap (BreakerEvent.moveOf? fragile "failing.org"))
          (BreakerState.initial "failing.org" 0) = some alone ∧
        alone.now = journal.state.now ∧
        alone.breaker = journal.state.breakers.lookup "failing.org" := by
  have passes : (executeChecked (record (step fragile) (State.observeBreakers fragile))
      (fun (_ : Journaled State BreakerEvent) label => !label.isCrash)
      (startLabels ++ requestLabels 2 "http://example.org/" ++
        requestLabels 3 "http://failing.org/" ++ sendLabels 1 ++
        answerLabels 1 200 3 ++ sendLabels 1 ++ answerLabels 1 500 0)
      ⟨State.boot {} 0 [], []⟩).any (fun journal =>
        decide ((journal.state.breakers.lookup "failing.org").state = .open ∧
          (journal.state.breakers.lookup "example.org").state = .closed)) = true := by
    decide +kernel
  obtain ⟨journal, run, tested⟩ :=
    exists_run_of_executeChecked (fun _ _ => Label.ne_crash_of_not_isCrash) passes
  obtain ⟨failing, healthy⟩ := of_decide_eq_true tested
  exact ⟨journal, run, failing, healthy,
    breakers_run_alone fragile {} 0 [] journal run "failing.org"⟩

end HardenedClient
