import HardenedClient.Foundation.Journal
import HardenedClient.Custody

/-!
# The life of a work item

Every pass of an item through `_handle` ends with success, with a failure that may be
retried, or with a permanent one. A journal of the client shows, future by future, what
happens to the item that works for it, and the closed form says what that has to be,
given how the passes end.
-/

namespace HardenedClient

open Foundation

/-! ## What is seen of an item -/

/-- How a pass through `_handle` ends. -/
inductive PassOutcome
  | success
  | retryable
  | permanent
  deriving DecidableEq

/-- What an HTTP exchange makes of a pass: 2xx and 3xx are successes, 5xx, 429 and
transient transport errors may be retried, other answers and errors may not. -/
def HttpEvent.outcome : HttpEvent → PassOutcome
  | .raises exc => if isRetryableException exc then .retryable else .permanent
  | .reply answered =>
      match readResponse answered with
      | .error exc => if isRetryableException exc then .retryable else .permanent
      | .ok _ =>
          if 200 ≤ answered.status ∧ answered.status < 400 then .success
          else if isRetryableStatus answered.status then .retryable
          else .permanent

/-- What happens to a work item: it comes into being at an attempt, `_handle` begins,
a pass ends with a response or an error, a dead letter is written, its row is deleted,
its future is settled. -/
inductive LifeEvent
  | began (attempt : ℕ)
  | handled
  | passed (outcome : PassOutcome) (result : Except PyException Response)
  | deadLettered (retryCount : ℕ)
  | deleted
  | settled (outcome : Future Response)

namespace LifeEvent

def began? : LifeEvent → Option ℕ
  | .began attempt => some attempt
  | _ => none

def isHandled : LifeEvent → Bool
  | .handled => true
  | _ => false

def isDelete : LifeEvent → Bool
  | .deleted => true
  | _ => false

def outcome? : LifeEvent → Option PassOutcome
  | .passed outcome _ => some outcome
  | _ => none

def error? : LifeEvent → Option PyException
  | .passed _ (.error exc) => some exc
  | _ => none

def retryCount? : LifeEvent → Option ℕ
  | .deadLettered retryCount => some retryCount
  | _ => none

def settlement? : LifeEvent → Option (Future Response)
  | .settled outcome => some outcome
  | _ => none

end LifeEvent

/-- The exception with which an open breaker ends a pass. -/
def State.shortCircuit? (env : Env) (state : State) (item : QueueItem) : Option PyException :=
  match env.hostOf? item.request.request.url with
  | none => none
  | some host =>
      match state.breakers.forHost? env.config.circuitBreaker host with
      | none => none
      | some breaker => (breaker.beforeCall env.config.circuitBreaker state.now).2

/-- The response to a request, or the error that the pass is ended with. -/
def passResult (item : QueueItem) (event : HttpEvent) : Except PyException Response :=
  match execute item.request.request item.attempt event with
  | .ok response => .ok response
  | .error exc => .error (((caught? exc).map Prod.fst).getD exc)

/-- What a step of `_handle` shows of its item. -/
def observeHandle
    (env : Env)
    (state next : State)
    (item : QueueItem)
    (point : HandlePoint)
    (choice : Choice) : List LifeEvent :=
  match point, choice with
  | .gating, _ => (state.shortCircuit? env item).toList.map fun exc => .passed .retryable (.error exc)
  | .executing _ _, .http event _ => [.passed event.outcome (passResult item event)]
  | .deleting _, _ | .retiring _, _ =>
      if state.tables.inflight.Has item.key ∧ ¬ next.tables.inflight.Has item.key then [.deleted]
      else []
  | .deadLettering _, _ =>
      (next.tables.deadLetters.drop state.tables.deadLetters.length).map fun row =>
        .deadLettered row.retryCount
  | .resolving _, _ | .failing _, _ =>
      if !(state.dedup.futures item.flight).done && (next.dedup.futures item.flight).done then
        [.settled (next.dedup.futures item.flight)]
      else []
  | _, _ => []

/-- A task that has come by an item for a new future. -/
def State.begun (state next : State) (id : ℕ) : List (ℕ × LifeEvent) :=
  match (next.tasks id).bind Task.item? with
  | some item =>
      if state.dedup.created ≤ item.flight then [(item.flight, .began item.attempt)] else []
  | none => []

/-- What a step shows, and of the item for which future. -/
def observe
    (env : Env)
    (state : State)
    (label : Label)
    (next : State) : List (ℕ × LifeEvent) :=
  match label with
  | .step id choice =>
      match state.tasks id with
      | some (.worker .idle) =>
          state.queue.items.head?.toList.map fun item => (item.flight, .handled)
      | some (.worker (.handling item point)) =>
          (observeHandle env state next item point choice).map fun event => (item.flight, event)
      | _ => state.begun next id
  | _ => state.begun next (label.actor state)

/-- The client with its journal. -/
abbrev journalStep (env : Env) :
    Label → Journaled State (ℕ × LifeEvent) → Option (Journaled State (ℕ × LifeEvent)) :=
  record (step env) (observe env)

/-- What has been seen of the item for a future. -/
def life (flight : ℕ) (log : List (ℕ × LifeEvent)) : List LifeEvent :=
  log.filterMap fun (seen, event) => if seen = flight then some event else none

@[simp] theorem life_append (flight : ℕ) (log more : List (ℕ × LifeEvent)) :
    life flight (log ++ more) = life flight log ++ life flight more :=
  List.filterMap_append

/-- Events that are shown of one item. -/
theorem life_map
    (flight seen : ℕ)
    (events : List LifeEvent) :
    life flight (events.map fun event => (seen, event)) = if seen = flight then events else [] := by
  induction events with
  | nil => simp [life]
  | cons event events inductionHypothesis =>
      rw [List.map_cons, life, List.filterMap_cons, ← life, inductionHypothesis]
      by_cases same : seen = flight <;> simp [same]

/-! ## The closed form -/

/-- `max(0, max_retries - start)`. -/
def retriesLeft (policy : RetryPolicy) (start : ℕ) : ℕ :=
  (policy.maxRetries - start).toNat

/-- The passes of an item have ended as given. -/
def Follows (outcomes : ℕ → PassOutcome) (events : List LifeEvent) : Prop :=
  ∀ index outcome,
    (events.filterMap LifeEvent.outcome?)[index]? = some outcome → outcomes index = outcome

/-- What becomes of an item that begins at an attempt, and of its future, when its passes
end as given: with the first success or permanent failure among those that the policy
allows, and otherwise with the last of them. -/
structure ClosedForm
    (policy : RetryPolicy)
    (start : ℕ)
    (outcomes : ℕ → PassOutcome)
    (events : List LifeEvent)
    (future : Future Response) : Prop where
  succeeds : ∀ index ≤ retriesLeft policy start, (∀ earlier < index, outcomes earlier = .retryable) →
    outcomes index = .success →
      events.countP LifeEvent.isHandled = index + 1 ∧
        events.filterMap LifeEvent.retryCount? = [] ∧
        ∃ response, response.retries = start + index ∧ future = .result response
  fails : ∀ index ≤ retriesLeft policy start, (∀ earlier < index, outcomes earlier = .retryable) →
    outcomes index = .permanent →
      events.countP LifeEvent.isHandled = index + 1 ∧
        events.filterMap LifeEvent.retryCount? = [start + index] ∧
        ∃ exc, (events.filterMap LifeEvent.error?).getLast? = some exc ∧
          exc.isNonRetryableError = true ∧ future = .exception exc
  exhausts : (∀ index ≤ retriesLeft policy start, outcomes index = .retryable) →
    events.countP LifeEvent.isHandled = retriesLeft policy start + 1 ∧
      events.filterMap LifeEvent.retryCount? = [start + retriesLeft policy start] ∧
      ∃ exc, (events.filterMap LifeEvent.error?).getLast? = some exc ∧
        future = .exception (.deadLetterError exc.message)
  deleted : events.countP LifeEvent.isDelete = 1
  settled : events.filterMap LifeEvent.settlement? = [future]

/-! ## The stages of an item -/

/-- The passes that ended with these errors and were retried. -/
def retriedPasses (retried : List PyException) : List LifeEvent :=
  retried.flatMap fun exc => [.handled, .passed .retryable (.error exc)]

/-- An error that ends an item at an attempt: it is permanent, or the attempts are used
up. -/
inductive Terminal (policy : RetryPolicy) (attempt : ℕ) : PassOutcome → PyException → Prop
  | permanent {exc : PyException}
      (isPermanent : exc.isNonRetryableError = true) :
      Terminal policy attempt .permanent exc
  | exhausted {exc : PyException}
      (isRetryable : exc.isNonRetryableError = false)
      (spent : policy.maxRetries ≤ attempt) :
      Terminal policy attempt .retryable exc

/-- An await of `_handle` before the HTTP exchange has ended. -/
def HandlePoint.works : HandlePoint → Bool
  | .gating | .acquiring _ _ _ _ _ | .executing _ _ => true
  | _ => false

/-- What has been seen of a live item, by the await of `_handle` that it is at. -/
inductive Underway (policy : RetryPolicy) (start : ℕ) :
    QueueItem → Option HandlePoint → List LifeEvent → Prop
  | waiting {item : QueueItem} {retried : List PyException}
      (attempt : item.attempt = start + retried.length)
      (within : retried.length ≤ retriesLeft policy start) :
      Underway policy start item none (.began start :: retriedPasses retried)
  | working {item : QueueItem} {point : HandlePoint} {events : List LifeEvent}
      (waited : Underway policy start item none events)
      (works : point.works = true) :
      Underway policy start item (some point) (events ++ [.handled])
  | retrying {item : QueueItem} {point : HandlePoint} {events : List LifeEvent}
      {exc : PyException} {delay : PyFloat}
      (waited : Underway policy start item none events)
      (more : (item.attempt : ℤ) < policy.maxRetries)
      (isPoint : point = .incrementing exc (item.attempt + 1) delay ∨
        point = .scheduling (item.attempt + 1) delay) :
      Underway policy start item (some point)
        (events ++ [.handled, .passed .retryable (.error exc)])
  | succeeded {item : QueueItem} {events : List LifeEvent} {response : Response}
      (waited : Underway policy start item none events)
      (retries : response.retries = item.attempt) :
      Underway policy start item (some (.deleting response))
        (events ++ [.handled, .passed .success (.ok response)])
  | answered {item : QueueItem} {point : HandlePoint} {events : List LifeEvent}
      {response : Response}
      (waited : Underway policy start item none events)
      (retries : response.retries = item.attempt)
      (isPoint : point = .deleted response ∨ point = .hooking response ∨
        point = .resolving response) :
      Underway policy start item (some point)
        (events ++ [.handled, .passed .success (.ok response), .deleted])
  | failed {item : QueueItem} {events : List LifeEvent} {outcome : PassOutcome}
      {exc : PyException}
      (waited : Underway policy start item none events)
      (terminal : Terminal policy item.attempt outcome exc) :
      Underway policy start item (some (.deadLettering exc))
        (events ++ [.handled, .passed outcome (.error exc)])
  | pushed {item : QueueItem} {events : List LifeEvent} {outcome : PassOutcome}
      {exc : PyException}
      (waited : Underway policy start item none events)
      (terminal : Terminal policy item.attempt outcome exc) :
      Underway policy start item (some (.retiring exc))
        (events ++ [.handled, .passed outcome (.error exc), .deadLettered item.attempt])
  | retired {item : QueueItem} {events : List LifeEvent} {outcome : PassOutcome}
      {exc : PyException}
      (waited : Underway policy start item none events)
      (terminal : Terminal policy item.attempt outcome exc) :
      Underway policy start item (some (.failing exc))
        (events ++ [.handled, .passed outcome (.error exc), .deadLettered item.attempt, .deleted])

/-- What has been seen of an item whose future is settled. -/
inductive Settled (policy : RetryPolicy) (start : ℕ) : List LifeEvent → Future Response → Prop
  | succeeded {item : QueueItem} {events : List LifeEvent} {response : Response}
      (waited : Underway policy start item none events)
      (retries : response.retries = item.attempt) :
      Settled policy start
        (events ++ [.handled, .passed .success (.ok response), .deleted,
          .settled (.result response)])
        (.result response)
  | failed {item : QueueItem} {events : List LifeEvent} {outcome : PassOutcome}
      {exc : PyException}
      (waited : Underway policy start item none events)
      (terminal : Terminal policy item.attempt outcome exc) :
      Settled policy start
        (events ++ [.handled, .passed outcome (.error exc), .deadLettered item.attempt,
          .deleted, .settled (.exception (terminalError exc))])
        (.exception (terminalError exc))

/-! ## From the stages to the closed form -/

variable {policy : RetryPolicy} {start : ℕ} {item : QueueItem} {events : List LifeEvent}

/-- What an item has behind it when it waits for a pass. -/
theorem Underway.behind
    (waited : Underway policy start item none events) :
    ∃ retried, item.attempt = start + retried.length ∧
      retried.length ≤ retriesLeft policy start ∧
      events = .began start :: retriedPasses retried := by
  cases waited with
  | waiting attempt within => exact ⟨_, attempt, within, rfl⟩

/-- An item is seen first where it begins. -/
theorem Underway.head
    {stage : Option HandlePoint}
    (underway : Underway policy start item stage events) :
    events.head? = some (.began start) := by
  cases underway with
  | waiting => rfl
  | working waited | retrying waited | succeeded waited | answered waited | failed waited
    | pushed waited | retired waited =>
      obtain ⟨_, _, _, rfl⟩ := waited.behind
      rfl

theorem Settled.head
    {future : Future Response}
    (settled : Settled policy start events future) :
    events.head? = some (.began start) := by
  cases settled with
  | succeeded waited | failed waited =>
      obtain ⟨_, _, _, rfl⟩ := waited.behind
      rfl

theorem Settled.ne_pending
    {future : Future Response}
    (settled : Settled policy start events future) :
    future ≠ .pending := by
  rintro rfl
  cases settled

theorem retriedPasses_concat (retried : List PyException) (exc : PyException) :
    retriedPasses (retried ++ [exc]) =
      retriedPasses retried ++ [.handled, .passed .retryable (.error exc)] := by
  rw [retriedPasses, List.flatMap_append]
  rfl

/-- What is shown of an item with retried passes behind it. -/
theorem retriedPasses_shows
    (start : ℕ)
    (retried : List PyException)
    (rest : List LifeEvent) :
    ((LifeEvent.began start :: retriedPasses retried) ++ rest).countP LifeEvent.isHandled =
        retried.length + rest.countP LifeEvent.isHandled ∧
      ((LifeEvent.began start :: retriedPasses retried) ++ rest).countP LifeEvent.isDelete =
        rest.countP LifeEvent.isDelete ∧
      ((LifeEvent.began start :: retriedPasses retried) ++ rest).filterMap LifeEvent.outcome? =
        List.replicate retried.length .retryable ++ rest.filterMap LifeEvent.outcome? ∧
      ((LifeEvent.began start :: retriedPasses retried) ++ rest).filterMap LifeEvent.retryCount? =
        rest.filterMap LifeEvent.retryCount? ∧
      ((LifeEvent.began start :: retriedPasses retried) ++ rest).filterMap LifeEvent.settlement? =
        rest.filterMap LifeEvent.settlement? := by
  have passed : (retriedPasses retried).countP LifeEvent.isHandled = retried.length ∧
      (retriedPasses retried).countP LifeEvent.isDelete = 0 ∧
      (retriedPasses retried).filterMap LifeEvent.outcome? =
        List.replicate retried.length .retryable ∧
      (retriedPasses retried).filterMap LifeEvent.retryCount? = [] ∧
      (retriedPasses retried).filterMap LifeEvent.settlement? = [] := by
    induction retried with
    | nil => exact ⟨rfl, rfl, rfl, rfl, rfl⟩
    | cons exc retried inductionHypothesis =>
        obtain ⟨handled, deletes, outcomes, letters, settlements⟩ := inductionHypothesis
        have unfolds : retriedPasses (exc :: retried) =
            [.handled, .passed .retryable (.error exc)] ++ retriedPasses retried := rfl
        simp only [unfolds, List.countP_append, List.filterMap_append, handled, deletes, outcomes,
          letters, settlements]
        refine ⟨?_, rfl, rfl, rfl, rfl⟩
        rw [List.length_cons, Nat.add_comm]
        rfl
  obtain ⟨handled, deletes, outcomes, letters, settlements⟩ := passed
  simp only [List.cons_append, List.countP_cons, List.countP_append, handled, deletes,
    List.filterMap_append, List.nil_append, List.filterMap_cons_none (show
      LifeEvent.outcome? (.began start) = none from rfl), List.filterMap_cons_none (show
      LifeEvent.retryCount? (.began start) = none from rfl), List.filterMap_cons_none (show
      LifeEvent.settlement? (.began start) = none from rfl), outcomes, letters, settlements]
  exact ⟨rfl, Nat.zero_add _, trivial, trivial, trivial⟩

/-- An item that is live has been handled as often as the policy allows, at most. -/
theorem Underway.handled_le
    {stage : Option HandlePoint}
    (underway : Underway policy start item stage events) :
    events.countP LifeEvent.isHandled ≤ retriesLeft policy start + 1 := by
  have bound : ∀ {past : List LifeEvent} (rest : List LifeEvent),
      Underway policy start item none past → rest.countP LifeEvent.isHandled ≤ 1 →
      (past ++ rest).countP LifeEvent.isHandled ≤ retriesLeft policy start + 1 := by
    intro past rest waited once
    obtain ⟨retried, _, within, rfl⟩ := waited.behind
    rw [(retriedPasses_shows start retried rest).1]
    omega
  cases underway with
  | @waiting retried attempt within =>
      have waited := @Underway.waiting policy start item retried attempt within
      exact List.append_nil (_ :: retriedPasses retried) ▸ bound [] waited (Nat.zero_le 1)
  | working waited | retrying waited | succeeded waited | answered waited | failed waited
    | pushed waited | retired waited => exact bound _ waited (Nat.le_refl 1)

theorem Follows.of_passes
    {outcomes : ℕ → PassOutcome}
    {count : ℕ}
    {last : PassOutcome}
    (follows : Follows outcomes events)
    (shown : events.filterMap LifeEvent.outcome? = List.replicate count .retryable ++ [last]) :
    (∀ index < count, outcomes index = .retryable) ∧ outcomes count = last := by
  constructor
  · intro index earlier
    apply follows
    rw [shown, List.getElem?_append_left (by simpa using earlier)]
    simp [earlier]
  · apply follows
    rw [shown, List.getElem?_append_right (by simp)]
    simp

/-- The passes end at one index. -/
theorem index_unique
    {outcomes : ℕ → PassOutcome}
    {index count : ℕ}
    (retried : ∀ earlier < count, outcomes earlier = .retryable)
    (ended : outcomes count ≠ .retryable)
    (before : ∀ earlier < index, outcomes earlier = .retryable)
    (ends : outcomes index ≠ .retryable) :
    index = count := by
  rcases Nat.lt_trichotomy index count with less | same | more
  · exact absurd (retried index less) ends
  · exact same
  · exact absurd (before count more) ended

/-- An item whose future is settled has lived as the closed form says. -/
theorem Settled.closedForm
    {outcomes : ℕ → PassOutcome}
    {future : Future Response}
    (settled : Settled policy start events future)
    (follows : Follows outcomes events) :
    ClosedForm policy start outcomes events future := by
  cases settled with
  | @succeeded item events response waited retries =>
      obtain ⟨retried, attempt, within, rfl⟩ := waited.behind
      obtain ⟨handled, deletes, passes, letters, settlements⟩ := retriedPasses_shows start retried
        [.handled, .passed .success (.ok response), .deleted, .settled (.result response)]
      obtain ⟨again, success⟩ := follows.of_passes passes
      have ended : outcomes retried.length ≠ .retryable := by
        rw [success]
        exact PassOutcome.noConfusion
      refine ⟨?_, ?_, fun all => absurd (all _ within) ended, deletes, settlements⟩
      · intro index _ earlier isSuccess
        obtain rfl := index_unique again ended earlier (by rw [isSuccess]; exact PassOutcome.noConfusion)
        exact ⟨handled, letters, response, retries.trans attempt, rfl⟩
      · intro index _ earlier isPermanent
        obtain rfl := index_unique again ended earlier
          (by rw [isPermanent]; exact PassOutcome.noConfusion)
        cases success.symm.trans isPermanent
  | @failed item events outcome exc waited terminal =>
      obtain ⟨retried, attempt, within, rfl⟩ := waited.behind
      obtain ⟨handled, deletes, passes, letters, settlements⟩ := retriedPasses_shows start retried
        [.handled, .passed outcome (.error exc), .deadLettered item.attempt, .deleted,
          .settled (.exception (terminalError exc))]
      have raised : (((LifeEvent.began start :: retriedPasses retried) ++
          ([.handled, .passed outcome (.error exc), .deadLettered item.attempt, .deleted,
            .settled (.exception (terminalError exc))] : List LifeEvent)).filterMap
              LifeEvent.error?).getLast? = some exc := by
        rw [List.filterMap_append]
        exact List.getLast?_concat
      have letter : ((LifeEvent.began start :: retriedPasses retried) ++
          ([.handled, .passed outcome (.error exc), .deadLettered item.attempt, .deleted,
            .settled (.exception (terminalError exc))] : List LifeEvent)).filterMap
              LifeEvent.retryCount? = [start + retried.length] :=
        letters.trans (congrArg (fun count => [count]) attempt)
      obtain ⟨again, last⟩ := follows.of_passes passes
      cases terminal with
      | permanent isPermanent =>
          have ended : outcomes retried.length ≠ .retryable := by
            rw [last]
            exact PassOutcome.noConfusion
          refine ⟨?_, ?_, fun all => absurd (all _ within) ended, deletes, settlements⟩
          · intro index _ earlier isSuccess
            obtain rfl := index_unique again ended earlier
              (by rw [isSuccess]; exact PassOutcome.noConfusion)
            cases last.symm.trans isSuccess
          · intro index _ earlier ends
            obtain rfl := index_unique again ended earlier
              (by rw [ends]; exact PassOutcome.noConfusion)
            refine ⟨handled, letter, exc, raised, isPermanent, ?_⟩
            rw [terminalError, if_pos isPermanent]
      | exhausted isRetryable spent =>
          -- the last pass is the last one that the policy allows
          have full : retriesLeft policy start = retried.length := by
            unfold retriesLeft at within ⊢
            omega
          have all : ∀ index ≤ retriesLeft policy start, outcomes index = .retryable := by
            intro index inBudget
            rw [full] at inBudget
            rcases Nat.lt_or_eq_of_le inBudget with less | rfl
            · exact again index less
            · exact last
          refine ⟨?_, ?_, fun _ => ?_, deletes, settlements⟩
          · intro index inBudget _ isSuccess
            cases (all index inBudget).symm.trans isSuccess
          · intro index inBudget _ isPermanent
            cases (all index inBudget).symm.trans isPermanent
          · rw [full]
            refine ⟨handled, letter, exc, raised, ?_⟩
            rw [terminalError, if_neg (by rw [isRetryable]; exact Bool.false_ne_true)]

end HardenedClient
