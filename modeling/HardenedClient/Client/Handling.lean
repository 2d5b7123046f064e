import HardenedClient.Client.Step

/-!
# What a step of `_handle` can do

`Handled` lists the ways in which a step of a worker inside `_handle` can end
without an exception, and `Escaped` what an escaping exception leaves, each
with the state afterwards. Invariants over runs are proved by cases on them,
and do not look into the helpers of `_handle` again. `Escapes` is what the
state and the awaited result say about which of the two it is.
-/

namespace HardenedClient

namespace State

/-- The breakers, the rate limiter and the metrics have been written to. -/
def withBooks
    (state : State)
    (breakers : HostCircuitBreakers)
    (periods : PyStr → ℕ)
    (limiter : HostRateLimiter)
    (metrics : Metrics) : State :=
  { state with
    breakers := breakers
    periods := periods
    limiter := limiter
    metrics := metrics }

end State

/-- The two awaits `_handle_retry_or_dlq` can lead to. -/
inductive Disposes : HandlePoint → Prop
  | retrying (exc : PyException) (newAttempt : ℕ) (delay : PyFloat) :
      Disposes (.incrementing exc newAttempt delay)
  | terminal (exc : PyException) : Disposes (.deadLettering exc)

/-- Successive awaits of `_handle` between which nothing but the books is
written. -/
inductive Advances : HandlePoint → HandlePoint → Prop
  | blocked {next : HandlePoint} (disposes : Disposes next) : Advances .gating next
  | admitted (host : PyStr) (probe : Option ℕ) (wakeAt : ℚ) :
      Advances .gating (.acquiring host probe none 0 wakeAt)
  | waits (host : PyStr) (probe bucket : Option ℕ) (delayTotal wakeAt : ℚ)
      (held : ℕ) (total until_ : ℚ) :
      Advances (.acquiring host probe bucket delayTotal wakeAt)
        (.acquiring host probe (some held) total until_)
  | granted (host : PyStr) (probe bucket : Option ℕ) (delayTotal wakeAt : ℚ) :
      Advances (.acquiring host probe bucket delayTotal wakeAt) (.executing host probe)
  | answered (response : Response) {next : HandlePoint}
      (chosen : next = .hooking response ∨ next = .resolving response) :
      Advances (.deleted response) next
  | hooked (response : Response) : Advances (.hooking response) (.resolving response)

/-- The states a step of `_handle` can lead to. -/
inductive Handled (state : State) (id : ℕ) (item : QueueItem) : HandlePoint → State → Prop
  | advanced {point next : HandlePoint} {breakers : HostCircuitBreakers}
      {periods : PyStr → ℕ} {limiter : HostRateLimiter} {metrics : Metrics}
      (advances : Advances point next) :
      Handled state id item point
        ((state.withBooks breakers periods limiter metrics).moveTo id item next)
  | succeeded {host : PyStr} {probe : Option ℕ} {response : Response}
      {breakers : HostCircuitBreakers} {metrics : Metrics} :
      Handled state id item (.executing host probe)
        (((state.withBooks breakers state.periods state.limiter metrics).record
          (.executed item.key true)).moveTo id item (.deleting response))
  | failed {host : PyStr} {probe : Option ℕ} {next : HandlePoint}
      {breakers : HostCircuitBreakers} {metrics : Metrics}
      (disposes : Disposes next) :
      Handled state id item (.executing host probe)
        (((state.withBooks breakers state.periods state.limiter metrics).record
          (.executed item.key false)).moveTo id item next)
  | deleted {response : Response} :
      Handled state id item (.deleting response)
        (({ state with tables := state.tables.deleteInflight item.key }.record
          (.deleted item.key)).moveTo id item (.deleted response))
  | resolved {response : Response} :
      Handled state id item (.resolving response)
        ((state.settleKey item.key (.result response)).endHandle id)
  | incremented {exc : PyException} {newAttempt : ℕ} {delay : PyFloat} :
      Handled state id item (.incrementing exc newAttempt delay)
        (({ state with
            tables := state.tables.incrementRetry item.key exc.message state.now }.record
          (.incremented item.key)).moveTo id item (.scheduling newAttempt delay))
  | rescheduled {newAttempt : ℕ} {delay wakeAt : PyFloat} :
      Handled state id item (.scheduling newAttempt delay)
        ((state.spawn (.reschedule (.sleeping { item with attempt := newAttempt }
          wakeAt))).endHandle id)
  | pushed {exc : PyException} :
      Handled state id item (.deadLettering exc)
        (({ state with
            tables := state.tables.pushDeadLetter item.request exc.message item.attempt
              state.now }.record
          (.deadLettered item.key state.tables.nextDeadLetterId)).moveTo id item
            (.retiring exc))
  | retired {exc : PyException} :
      Handled state id item (.retiring exc)
        (({ state with tables := state.tables.deleteInflight item.key }.record
          (.deleted item.key)).moveTo id item (.failing exc))
  | rejected {exc : PyException} :
      Handled state id item (.failing exc)
        ((state.settleKey item.key (.exception (terminalError exc))).endHandle id)

/-- The states an exception that escapes from `_handle` can leave. -/
inductive Escaped (state : State) (id : ℕ) (item : QueueItem) : State → Prop
  | intro {exc : PyException} {breakers : HostCircuitBreakers}
      {periods : PyStr → ℕ} {metrics : Metrics} {history : List Event}
      (executed : history = state.history ∨
        history = .executed item.key false :: state.history) :
      Escaped state id item
        ({ state with
          breakers := breakers
          periods := periods
          metrics := metrics
          history := history }.escape id exc)

/-! ## When an exception escapes -/

/-- The retry decision about an error raises OverflowError: the error is to be
retried, no positive Retry-After overrides the exponential, and the attempt is
past the range of a float. -/
def Overflows (env : Env) (item : QueueItem) (exc : PyException) : Prop :=
  willRetry env.config.retry item.attempt exc = true ∧
    overrides exc.retryAfter? = false ∧
    PyFloat.overflowExponent ≤ item.attempt

/-- What lets an exception out of `_handle` at the await it is suspended at. -/
def Escapes (env : Env) (state : State) (item : QueueItem) : HandlePoint → Choice → Prop
  | .gating, _ =>
      match env.hostOf? item.request.request.url with
      | none => True
      | some host =>
          match state.breakers.forHost? env.config.circuitBreaker host with
          | none => True
          | some breaker => ∃ exc,
              (breaker.beforeCall env.config.circuitBreaker state.now).2 = some exc ∧
                Overflows env item exc
  | .acquiring host _ none _ _, _ =>
      state.limiter.buckets host = none ∧
        ((state.limiter.configFor env.config.rateLimit host).ratePerSecond ≤ 0 ∨
          (state.limiter.configFor env.config.rateLimit host).burst ≤ 0)
  | .executing _ _, .http event _ =>
      ∃ exc, execute item.request.request item.attempt event = .error exc ∧
        (exc.isException = false ∨
          ∃ error reported, caught? exc = some (error, reported) ∧ Overflows env item error)
  | .hooking _, .hook (some exc) => exc.isException = false
  | .deleting _, .proceed | .incrementing _ _ _, .proceed
  | .deadLettering _, .proceed | .retiring _, .proceed => state.connected = false
  | .deleting _, .storageError _ | .incrementing _ _ _, .storageError _
  | .scheduling _ _, .storageError _ | .deadLettering _, .storageError _
  | .retiring _, .storageError _ => True
  | _, _ => False

namespace State

variable {env : Env} {state : State} {id : ℕ} {item : QueueItem}

/-- `_handle_retry_or_dlq` leads to one of its two awaits, or overflows. -/
theorem retryOrDlq_cases
    (env : Env)
    (state : State)
    (id : ℕ)
    (item : QueueItem)
    (exc : PyException)
    (retryAfter : Option PyFloat)
    (draw : ℚ)
    (given : retryAfter.or exc.retryAfter? = exc.retryAfter?) :
    (Overflows env item exc ∧ ∃ metrics,
      state.retryOrDlq env id item exc retryAfter draw =
        { state with metrics := metrics }.escape id floatOverflow) ∨
    (¬ Overflows env item exc ∧ ∃ metrics next, Disposes next ∧
      state.retryOrDlq env id item exc retryAfter draw =
        { state with metrics := metrics }.moveTo id item next) := by
  have decision := dispose?_eq_none_iff env.config.retry item.attempt exc retryAfter draw
  rw [given] at decision
  unfold retryOrDlq
  cases decided : dispose? env.config.retry item.attempt exc retryAfter draw with
  | none => exact Or.inl ⟨decision.mp decided, _, rfl⟩
  | some disposition =>
      have fits : ¬ Overflows env item exc := by
        intro overflows
        simp [decision.mpr overflows] at decided
      cases disposition with
      | retry newAttempt delay => exact Or.inr ⟨fits, _, _, .retrying exc newAttempt delay, rfl⟩
      | terminal => exact Or.inr ⟨fits, _, _, .terminal exc, rfl⟩

/-- What the rest of a step leads to: an exception escapes when it must, and
otherwise the step is one of those listed. -/
def Ends
    (state : State)
    (id : ℕ)
    (item : QueueItem)
    (point : HandlePoint)
    (escapes : Prop)
    (next : State) : Prop :=
  (escapes ∧ Escaped state id item next) ∨ (¬ escapes ∧ Handled state id item point next)

theorem escaped_plain
    (state : State)
    (id : ℕ)
    (item : QueueItem)
    (exc : PyException) :
    Escaped state id item (state.escape id exc) :=
  .intro (Or.inl rfl)

theorem gate_ends
    (env : Env)
    (state : State)
    (id : ℕ)
    (item : QueueItem)
    (draw : ℚ) :
    state.Ends id item .gating (Escapes env state item .gating (.jitter draw))
      (state.gate env id item draw) := by
  cases parsed : env.hostOf? item.request.request.url with
  | none =>
      simp only [gate, Escapes, parsed]
      exact Or.inl ⟨trivial, state.escaped_plain id item badUrl⟩
  | some host =>
      cases found : state.breakers.forHost? env.config.circuitBreaker host with
      | none =>
          simp only [gate, Escapes, parsed, found]
          exact Or.inl ⟨trivial, state.escaped_plain id item badWindow⟩
      | some breaker =>
          cases called : (breaker.beforeCall env.config.circuitBreaker state.now).2 with
          | none =>
              simp only [gate, Escapes, parsed, found, called]
              exact Or.inr ⟨by simp, .advanced (.admitted host _ state.now)⟩
          | some exc =>
              simp only [gate, Escapes, parsed, found, called, Option.some.injEq,
                exists_eq_left']
              rcases retryOrDlq_cases env _ id item exc exc.retryAfter? draw
                  (by cases exc.retryAfter? <;> rfl) with
                ⟨overflows, metrics, same⟩ | ⟨fits, metrics, next, disposes, same⟩
              · rw [same]
                exact Or.inl ⟨overflows, .intro (Or.inl rfl)⟩
              · rw [same]
                exact Or.inr ⟨fits, .advanced (.blocked disposes)⟩

theorem acquire_ends
    {host : PyStr}
    {probe bucket : Option ℕ}
    {delayTotal wakeAt : ℚ}
    {next : State}
    (moved : state.acquire env id item host probe bucket delayTotal wakeAt = some next) :
    state.Ends id item (.acquiring host probe bucket delayTotal wakeAt)
      (Escapes env state item (.acquiring host probe bucket delayTotal wakeAt) .proceed)
      next := by
  have round : ∀ (limiter : HostRateLimiter) (held : ℕ),
      Handled state id item (.acquiring host probe bucket delayTotal wakeAt)
        ({ state with limiter := limiter }.acquireRound id item host probe held
          delayTotal) := by
    intro limiter held
    unfold acquireRound
    split
    · exact .advanced (.granted host probe bucket delayTotal wakeAt)
    · exact .advanced (.waits host probe bucket delayTotal wakeAt held _ _)
  unfold acquire at moved
  split_ifs at moved
  cases bucket with
  | some held =>
      rw [← Option.some.inj moved]
      exact Or.inr ⟨fun escapes => escapes, round state.limiter held⟩
  | none =>
      have raises := state.limiter.bucketFor?_eq_none_iff env.config.rateLimit state.now host
      simp only at moved
      split at moved
      · next missing =>
          rw [← Option.some.inj moved]
          exact Or.inl ⟨raises.mp missing, state.escaped_plain id item _⟩
      · next limiter held found =>
          rw [← Option.some.inj moved]
          refine Or.inr ⟨fun bad => ?_, round limiter held⟩
          simp [raises.mpr bad] at found

theorem receive_ends
    (env : Env)
    (state : State)
    (id : ℕ)
    (item : QueueItem)
    (host : PyStr)
    (probe : Option ℕ)
    (event : HttpEvent)
    (draw : ℚ) :
    state.Ends id item (.executing host probe)
      (Escapes env state item (.executing host probe) (.http event draw))
      (state.receive env id item host event draw) := by
  unfold receive
  simp only [Escapes]
  cases executed : execute item.request.request item.attempt event with
  | ok response =>
      refine Or.inr ⟨by simp, ?_⟩
      exact .succeeded
  | error exc =>
      simp only
      have only : ∀ {error : PyException}, Except.error exc = (Except.error error :
          Except PyException Response) ↔ exc = error := by simp
      cases handler : caught? exc with
      | none =>
          refine Or.inl ⟨⟨exc, rfl, Or.inl ((caught?_eq_none_iff exc).mp handler)⟩, ?_⟩
          exact .intro (Or.inr rfl)
      | some handled =>
          obtain ⟨error, reported⟩ := handled
          have isException : exc.isException ≠ false := by
            intro outside
            simp [(caught?_eq_none_iff exc).mpr outside] at handler
          simp only
          rcases retryOrDlq_cases env _ id item error none draw rfl with
            ⟨overflows, metrics, same⟩ | ⟨fits, metrics, next, disposes, same⟩
          · rw [same]
            exact Or.inl ⟨⟨exc, rfl, Or.inr ⟨error, reported, handler, overflows⟩⟩,
              .intro (Or.inr rfl)⟩
          · rw [same]
            refine Or.inr ⟨?_, .failed disposes⟩
            rintro ⟨other, raised, outside | ⟨second, told, caught, overflows⟩⟩
            · exact isException (only.mp raised ▸ outside)
            · rw [← only.mp raised, handler] at caught
              simp only [Option.some.injEq, Prod.mk.injEq] at caught
              exact fits (caught.1 ▸ overflows)

/-- Every step of `_handle` ends in one of the listed ways. -/
theorem stepHandle_ends
    {point : HandlePoint}
    {choice : Choice}
    {next : State}
    (moved : state.stepHandle env id item point choice = some next) :
    state.Ends id item point (Escapes env state item point choice) next := by
  have escapes : ∀ exc, next = state.escape id exc → Escaped state id item next :=
    fun exc same => same ▸ state.escaped_plain id item exc
  cases point <;> cases choice <;> simp only [stepHandle, reduceCtorEq] at moved
  case gating.jitter draw =>
    split_ifs at moved
    rw [← Option.some.inj moved]
    exact gate_ends env state id item draw
  case acquiring.proceed => exact acquire_ends moved
  case executing.http event draw =>
    split_ifs at moved
    rw [← Option.some.inj moved]
    exact receive_ends env state id item _ _ event draw
  case deleting.storageError exc | incrementing.storageError exc | scheduling.storageError exc
      | deadLettering.storageError exc | retiring.storageError exc =>
    exact Or.inl ⟨trivial, escapes exc (Option.some.inj moved).symm⟩
  case resolving.proceed =>
    rw [← Option.some.inj moved]
    exact Or.inr ⟨not_false, .resolved⟩
  case failing.proceed =>
    rw [← Option.some.inj moved]
    exact Or.inr ⟨not_false, .rejected⟩
  case scheduling.proceed =>
    rw [← Option.some.inj moved]
    exact Or.inr ⟨not_false, .rescheduled⟩
  case hooking.hook response raised =>
    cases raised with
    | none =>
        rw [← Option.some.inj moved]
        exact Or.inr ⟨not_false, .advanced (.hooked response)⟩
    | some exc =>
        cases outside : exc.isException with
        | false =>
            simp only [outside, Bool.false_eq_true, if_false, Option.some.injEq] at moved
            exact Or.inl ⟨outside, escapes exc moved.symm⟩
        | true =>
            simp only [outside, if_true] at moved
            rw [← Option.some.inj moved]
            exact Or.inr ⟨by simp [Escapes, outside], .advanced (.hooked response)⟩
  case deleted.proceed response =>
    rw [← Option.some.inj moved]
    refine Or.inr ⟨not_false, .advanced (.answered response ?_)⟩
    cases state.hook <;> simp
  case deleting.proceed | incrementing.proceed | deadLettering.proceed | retiring.proceed =>
    split_ifs at moved with connected
    · rw [← Option.some.inj moved]
      exact Or.inr ⟨by simp [Escapes, connected], by constructor⟩
    · exact Or.inl ⟨by simpa [Escapes] using connected,
        escapes notOpened (Option.some.inj moved).symm⟩

end State

end HardenedClient
