import HardenedClient.ReplayAll
import HardenedClient.SingleFlight

/-!
# `replay_all` on a running client

The loop of `replay_all` makes one call after the other, and the client's own
coroutines run between its steps. While nobody else calls, the only work item is that of
the current entry, and where it is tells what has happened to the dead-letter queue. So
whatever the coroutines do, the loop ends as the one over given outcomes.
-/

namespace HardenedClient

open Foundation

/-- Where `replay_all` is suspended: at its query, or at the `replay_entry` of a row,
which is the task `caller`. -/
inductive ReplayAllPoint
  | listing
  | replaying (row : DeadLetterRow) (caller : ℕ) (rest : List DeadLetterRow)
  | returned
  | raised (exc : PyException)

/-- A call of `replay_all` with its client. -/
structure ReplayAllState where
  client : State
  point : ReplayAllPoint := .listing
  results : List ReplayResult := []

/-- What `replay_entry` returns or raises, when the task `caller` is done. -/
def State.replayed?
    (state : State)
    (caller : ℕ)
    (row : DeadLetterRow) : Option (Except PyException ReplayResult) :=
  match state.tasks caller with
  | some (.caller _ (.received _ _ (.result _))) => some (.ok ⟨row.id, row.requestId, true, none⟩)
  | some (.caller _ (.received _ _ (.exception exc))) | some (.caller _ (.raised exc)) =>
      some (if exc.isAsyncHardenedError then
        .ok ⟨row.id, row.requestId, false, some exc.message⟩
      else .error exc)
  | some (.caller _ (.received _ _ .cancelled)) | some (.caller _ .cancelled) =>
      some (.error .cancelledError)
  | _ => none

namespace ReplayAllState

/-- The head of the loop: the next row is replayed, or the results are returned. -/
def walk (client : State) (results : List ReplayResult) : List DeadLetterRow → ReplayAllState
  | [] => ⟨client, .returned, results⟩
  | row :: rest =>
      ⟨client.spawn (.caller (some row.id) (.removing row)), .replaying row client.spawned rest,
        results⟩

/-- `replay_all` goes on from the await it is suspended at. -/
def proceed (state : ReplayAllState) : Option ReplayAllState :=
  match state.point with
  | .listing =>
      if state.client.connected then
        some (walk state.client [] (state.client.tables.listDeadLetter replayLimit))
      else some { state with point := .raised notOpened }
  | .replaying row caller rest =>
      match state.client.replayed? caller row with
      | some (.ok result) => some (walk state.client (state.results ++ [result]) rest)
      | some (.error exc) => some { state with point := .raised exc }
      | none => none
  | .returned | .raised _ => none

end ReplayAllState

/-- One step of `replay_all` and its client. -/
def replayAllStep
    (env : Env)
    (label : CommandLabel)
    (state : ReplayAllState) : Option ReplayAllState :=
  match label, state.point with
  | .client label, _ =>
      if label.isInternal then
        (step env label state.client).map fun next => { state with client := next }
      else none
  | .proceed, _ => state.proceed
  | .storageError exc, .listing => some { state with point := .raised exc }
  | .storageError _, _ => none

/-! ## A client that serves one call -/

/-- The call has returned or raised. -/
def CallerPoint.isOver : CallerPoint → Bool
  | .received _ _ _ | .raised _ | .cancelled => true
  | _ => false

namespace State

/-- Beside the task `caller` no call is going on. -/
structure Undisturbed (state : State) (caller : ℕ) : Prop extends state.SingleFlight where
  others : ∀ id replayed point, state.tasks id = some (.caller replayed point) →
    id ≠ caller → point.isOver = true
  noCall : ∀ id task, state.tasks id = some task → task.inLifecycle = false

/-- No work item is queued or carried by another task. -/
structure Free (state : State) (caller : ℕ) : Prop where
  queue : state.queue.items = []
  tasks : ∀ id task, id ≠ caller → state.tasks id = some task → task.item? = none

/-- No call is going on, and there is no work item. -/
structure Quiet (state : State) : Prop where
  callers : ∀ id replayed point, state.tasks id = some (.caller replayed point) →
    point.isOver = true
  noCall : ∀ id task, state.tasks id = some task → task.inLifecycle = false
  queue : state.queue.items = []
  tasks : ∀ id task, state.tasks id = some task → task.item? = none

variable {env : Env} {state next : State} {label : Label} {caller : ℕ}

theorem step_of_isOver
    {id : ℕ}
    {choice : Choice}
    {replayed : Option ℕ}
    {point : CallerPoint}
    (current : state.tasks id = some (.caller replayed point))
    (ended : point.isOver = true) :
    HardenedClient.step env (.step id choice) state = none := by
  cases point <;> cases ended <;> cases choice <;>
    simp [HardenedClient.step, stepTask, current, stepCaller]

/-- The client's own coroutines make no calls. -/
theorem Undisturbed.step
    (undisturbed : state.Undisturbed caller)
    (internal : label.isInternal = true)
    (moved : HardenedClient.step env label state = some next) :
    next.Undisturbed caller := by
  have stepped := step_stepped moved
  have alive : label ≠ .crash := by
    rintro rfl
    cases internal
  have keeps : KeepsSingle state label := by
    constructor
    · rintro ⟨id, _, _, _, _, _, rfl, _⟩
      cases internal
    · intro row recovered
      unfold recovered? at recovered
      split at recovered <;> try cases recovered
      split at recovered <;> cases recovered
      next current => cases undisturbed.noCall _ _ current
  have unborn := undisturbed.tidy state.spawned (Nat.le_refl _)
  refine ⟨undisturbed.toSingleFlight.step keeps moved, ?_, ?_⟩
  · intro id replayed point current different
    rcases stepped.origin undisturbed.tidy current with ⟨there, _⟩ | ⟨rfl, _⟩ | born
    · exact undisturbed.others id replayed point there different
    swap
    · cases born
    have stuck : ∀ actor choice before, label = .step actor choice →
        state.tasks actor = some (.caller replayed before) → False := by
      rintro actor choice before rfl there
      rw [step_of_isOver there (undisturbed.others _ _ _ there different)] at moved
      cases moved
    cases stepped with
    | crash => exact absurd rfl alive
    | request | replay | drain | start | stop | purged | cancelCaller | cancelStarter =>
        cases internal
    | outside isOutside =>
        have actor : label.actor state = state.spawned := by
          cases label <;> first | rfl | cases isOutside
        rw [actor] at current
        cases unborn.symm.trans current
    | caller there | upserted there | removed there =>
        simp only [Label.actor, setTask_tasks_self, Option.some.injEq, Task.caller.injEq] at current
        obtain ⟨rfl, _⟩ := current
        exact (stuck _ _ _ rfl there).elim
    | handled _ _ handled =>
        obtain ⟨_, isWorker⟩ := handled.worker
        cases isWorker.symm.trans current
    | escaped _ _ escaped =>
        obtain ⟨_, isWorker⟩ := escaped.worker
        cases isWorker.symm.trans current
    | _ => simp [Label.actor] at current
  · intro id task current
    rcases stepped.origin undisturbed.tidy current with ⟨there, _⟩ | ⟨rfl, _⟩ | born
    · exact undisturbed.noCall id task there
    swap
    · cases born <;> rfl
    cases stepped with
    | crash => exact absurd rfl alive
    | request | replay | drain | start | stop | purged | cancelCaller | cancelStarter =>
        cases internal
    | outside isOutside =>
        have actor : label.actor state = state.spawned := by
          cases label <;> first | rfl | cases isOutside
        rw [actor] at current
        cases unborn.symm.trans current
    | starter there _ _ _ active | stopper there _ active =>
        rw [undisturbed.noCall _ _ there] at active
        cases active
    | online there => cases undisturbed.noCall _ _ there
    | handled _ _ handled =>
        obtain ⟨_, isWorker⟩ := handled.worker
        cases isWorker.symm.trans current
        rfl
    | escaped _ _ escaped =>
        obtain ⟨_, isWorker⟩ := escaped.worker
        cases isWorker.symm.trans current
        rfl
    | _ =>
        simp only [Label.actor, setTask_tasks_self, moveTo_tasks_self, Option.some.injEq] at current
        subst current
        rfl

theorem Free.setTask
    {id : ℕ}
    {task : Task}
    (free : state.Free caller)
    (unladen : task.item? = none) :
    (state.setTask id task).Free caller where
  queue := free.queue
  tasks := by
    intro other found different current
    by_cases isActor : other = id
    · rw [isActor, setTask_tasks_self] at current
      rw [← Option.some.inj current, unladen]
    · rw [setTask_tasks_of_ne _ _ isActor] at current
      exact free.tasks other found different current

/-- Without a work item the other coroutines have nothing to do. -/
theorem Free.step
    (free : state.Free caller)
    (undisturbed : state.Undisturbed caller)
    (internal : label.isInternal = true)
    (different : label.actor state ≠ caller)
    (moved : HardenedClient.step env label state = some next) :
    next.Free caller ∧ next.tables = state.tables ∧ next.dedup = state.dedup := by
  cases label with
  | tick seconds =>
      simp only [HardenedClient.step] at moved
      split_ifs at moved
      rw [← Option.some.inj moved]
      exact ⟨⟨free.queue, free.tasks⟩, rfl, rfl⟩
  | cancelWorker id =>
      simp only [HardenedClient.step, cancelWorker] at moved
      split_ifs at moved
      split at moved
      · rw [← Option.some.inj moved]
        exact ⟨free.setTask rfl, rfl, rfl⟩
      · next current => cases free.tasks id _ different current
      · cases moved
  | step id choice =>
      cases current : state.tasks id with
      | none => simp [HardenedClient.step, stepTask, current] at moved
      | some task =>
          have unladen := free.tasks id task different current
          have outside := undisturbed.noCall id task current
          cases task with
          | caller replayed point =>
              rw [step_of_isOver current (undisturbed.others id _ _ current different)] at moved
              cases moved
          | worker point =>
              simp only [HardenedClient.step, stepTask, current] at moved
              cases point with
              | idle => cases choice <;> simp [stepWorker, free.queue] at moved
              | handling => cases unladen
              | ended | cancelled => cases choice <;> cases moved
          | reschedule point =>
              simp only [HardenedClient.step, stepTask, current] at moved
              cases point with
              | sleeping | enqueueing => cases unladen
              | done => cases choice <;> cases moved
          | starter point =>
              simp only [HardenedClient.step, stepTask, current] at moved
              cases point <;> cases outside <;> cases choice <;> cases moved
          | drainer point =>
              simp only [HardenedClient.step, stepTask, current] at moved
              obtain ⟨_, after, _, rfl⟩ := stepDrainer_eq_some_iff.mp moved
              exact ⟨free.setTask rfl, rfl, rfl⟩
          | stopper point =>
              simp only [HardenedClient.step, stepTask, current] at moved
              cases point <;> cases outside
              cases choice <;> cases moved
  | _ => cases internal

end State

/-! ## The flight of an entry -/

/-- The dead-letter queues are the same. -/
structure Tables.SameLetters (tables other : Tables) : Prop where
  rows : tables.deadLetters = other.deadLetters
  next : tables.nextDeadLetterId = other.nextDeadLetterId

theorem Tables.SameLetters.remove
    {tables other : Tables}
    (same : tables.SameLetters other)
    (id : ℕ) :
    (tables.removeDeadLetter id).SameLetters (other.removeDeadLetter id) :=
  ⟨by rw [removeDeadLetter, removeDeadLetter, same.rows], same.next⟩

theorem Tables.SameLetters.push
    {tables other : Tables}
    (same : tables.SameLetters other)
    (request : DurableRequest)
    (error : PyStr)
    (retryCount : ℕ)
    (now : ℚ) :
    (tables.pushDeadLetter request error retryCount now).SameLetters
      (other.pushDeadLetter request error retryCount now) :=
  ⟨by rw [pushDeadLetter, pushDeadLetter, same.rows, same.next], by
    rw [pushDeadLetter, pushDeadLetter, same.next]⟩

/-- The error of a terminal failure whose dead letter is committed. -/
def Task.pushed? : Task → Option PyException
  | .worker (.handling _ (.retiring exc)) | .worker (.handling _ (.failing exc)) => some exc
  | _ => none

/-- An item of the replay of a row, and what the dead-letter queue is while it is there:
without the row, or with a new one once the failure is committed. -/
inductive Retries (row : DeadLetterRow) (before tables : Tables) (future : ℕ) :
    QueueItem → Option PyException → Prop
  | trying {requestId : String} {createdAt : ℚ} {attempt : ℕ}
      (letters : tables.SameLetters (before.removeDeadLetter row.id)) :
      Retries row before tables future
        ⟨row.resubmitted requestId createdAt, attempt, future⟩ none
  | pushed {requestId : String} {createdAt : ℚ} {attempt : ℕ} {exc : PyException} {now : ℚ}
      (letters : tables.SameLetters (replayEntry before row
        (.failed requestId createdAt exc attempt now))) :
      Retries row before tables future
        ⟨row.resubmitted requestId createdAt, attempt, future⟩ (some exc)

/-- Every work item is that of the replay of a row, whose future is not settled. -/
structure State.InFlight
    (state : State)
    (row : DeadLetterRow)
    (before : Tables)
    (future : ℕ) : Prop where
  pending : state.dedup.futures future = .pending
  queue : ∀ item ∈ state.queue.items, Retries row before state.tables future item none
  tasks : ∀ id task item, state.tasks id = some task → task.item? = some item →
    Retries row before state.tables future item task.pushed?

/-- What the future of a replay is settled with. -/
inductive SettlesWith : ReplayOutcome → Future Response → Prop
  | succeeded (response : Response) : SettlesWith .succeeded (.result response)
  | failed (requestId : String) (createdAt : ℚ) (exc : PyException) (attempt : ℕ) (now : ℚ) :
      SettlesWith (.failed requestId createdAt exc attempt now) (.exception (terminalError exc))

theorem isAsyncHardenedError_terminalError (exc : PyException) :
    (terminalError exc).isAsyncHardenedError = true := by
  cases exc <;> rfl

theorem message_terminalError (exc : PyException) :
    (terminalError exc).message = exc.message := by
  cases exc <;> rfl

/-- Where the caller of an entry is tells what has become of the row, if the caller has not
raised. -/
inductive ReplayStage (row : DeadLetterRow) (before : Tables) (caller : ℕ) (state : State) :
    CallerPoint → Prop
  | removing
      (letters : state.tables.SameLetters before)
      (free : state.Free caller) :
      ReplayStage row before caller state (.removing row)
  | removed
      (letters : state.tables.SameLetters (before.removeDeadLetter row.id))
      (free : state.Free caller) :
      ReplayStage row before caller state (.removed row)
  | submitting {point : CallerPoint} {requestId : String} {createdAt : ℚ} {future : ℕ}
      (isPoint : (Task.caller none point).item? =
        some ⟨row.resubmitted requestId createdAt, 0, future⟩)
      (letters : state.tables.SameLetters (before.removeDeadLetter row.id))
      (free : state.Free caller) :
      ReplayStage row before caller state point
  | awaiting {key : Key} {future : ℕ}
      (flying : state.InFlight row before future) :
      ReplayStage row before caller state (.awaiting key future)
  | settled {key : Key} {future : ℕ} {outcome : ReplayOutcome}
      (settles : SettlesWith outcome (state.dedup.futures future))
      (letters : state.tables.SameLetters (replayEntry before row outcome))
      (free : state.Free caller) :
      ReplayStage row before caller state (.awaiting key future)
  | received {key : Key} {future : ℕ} {outcome : ReplayOutcome} {result : Future Response}
      (settles : SettlesWith outcome result)
      (letters : state.tables.SameLetters (replayEntry before row outcome))
      (free : state.Free caller) :
      ReplayStage row before caller state (.received key future result)
  | raised {exc : PyException}
      (other : exc.isAsyncHardenedError = false) :
      ReplayStage row before caller state (.raised exc)

theorem Tables.SameLetters.trans
    {tables other third : Tables}
    (same : tables.SameLetters other)
    (also : other.SameLetters third) :
    tables.SameLetters third :=
  ⟨same.rows.trans also.rows, same.next.trans also.next⟩

variable {env : Env} {state next base : State} {label : Label} {caller id : ℕ}
  {row : DeadLetterRow} {before tables other : Tables} {future : ℕ} {item : QueueItem}

theorem Retries.of_sameLetters
    {pushed : Option PyException}
    (retries : Retries row before tables future item pushed)
    (same : other.SameLetters tables) :
    Retries row before other future item pushed := by
  cases retries with
  | trying letters => exact .trying (same.trans letters)
  | pushed letters => exact .pushed (same.trans letters)

theorem Retries.flight
    {pushed : Option PyException}
    (retries : Retries row before tables future item pushed) :
    item.flight = future := by
  cases retries <;> rfl

/-- A retry is handed on at another attempt. -/
theorem Retries.reattempt
    (retries : Retries row before tables future item none)
    (attempt : ℕ) :
    Retries row before tables future { item with attempt := attempt } none := by
  cases retries with
  | trying letters => exact .trying letters

namespace State

/-- A task of the client goes on with an item of the flight, or without one. -/
theorem InFlight.setTask
    {task : Task}
    (flying : state.InFlight row before future)
    (tasks : base.tasks = state.tasks)
    (dedup : base.dedup = state.dedup)
    (letters : base.tables.SameLetters state.tables)
    (queue : ∀ item ∈ base.queue.items, item ∈ state.queue.items ∨
      Retries row before state.tables future item none)
    (retries : ∀ item, task.item? = some item →
      Retries row before state.tables future item task.pushed?) :
    (base.setTask id task).InFlight row before future where
  pending := by
    change base.dedup.futures future = .pending
    rw [dedup]
    exact flying.pending
  queue := by
    intro item queued
    rcases queue item queued with there | new
    · exact (flying.queue item there).of_sameLetters letters
    · exact new.of_sameLetters letters
  tasks := by
    intro other found item current carries
    by_cases isActor : other = id
    · rw [isActor, setTask_tasks_self] at current
      cases current
      exact (retries item carries).of_sameLetters letters
    · rw [setTask_tasks_of_ne _ _ isActor, tasks] at current
      exact (flying.tasks other found item current carries).of_sameLetters letters

/-- The item a worker handles is the only one. -/
theorem InFlight.alone
    {point : HandlePoint}
    (flying : state.InFlight row before future)
    (single : state.SingleFlight)
    (current : state.tasks id = some (.worker (.handling item point))) :
    state.queue.items = [] ∧
      ∀ other task, other ≠ id → state.tasks other = some task → task.item? = none := by
  have mine : state.itemAt (.agent id) = some item := by simp [itemAt, current, Task.item?]
  have same : ∀ place second, state.itemAt place = some second → second.flight = future →
      place = .agent id := by
    intro place second found isFlight
    have isMine : item.flight = future := (flying.tasks id _ item current rfl).flight
    apply single.sound.job_unique place (.agent id) second.job item.job
    · rw [jobAt_flights, found]
      rfl
    · rw [jobAt_flights, mine]
      rfl
    · exact isFlight.trans isMine.symm
  constructor
  · apply List.eq_nil_iff_forall_not_mem.mpr
    intro second queued
    obtain ⟨position, found⟩ := List.getElem?_of_mem queued
    cases same (.queue position) second found (flying.queue second queued).flight
  · intro other task different there
    cases carries : task.item? with
    | none => rfl
    | some second =>
        have found : state.itemAt (.agent other) = some second := by
          simp [itemAt, there, carries]
        exact absurd (Place.agent.inj (same _ second found
          (flying.tasks other task second there carries).flight)) different

/-- The future of the entry is settled, and nothing else is going on. -/
def Finished
    (state : State)
    (row : DeadLetterRow)
    (before : Tables)
    (future caller : ℕ) : Prop :=
  ∃ outcome, SettlesWith outcome (state.dedup.futures future) ∧
    state.tables.SameLetters (replayEntry before row outcome) ∧ state.Free caller

/-- A worker settles the future of its item, which is the only one. -/
theorem InFlight.settle
    {point : HandlePoint}
    {outcome : ReplayOutcome}
    {result : Future Response}
    (flying : state.InFlight row before future)
    (single : state.SingleFlight)
    (current : state.tasks id = some (.worker (.handling item point)))
    (settles : SettlesWith outcome result)
    (letters : state.tables.SameLetters (replayEntry before row outcome)) :
    ((state.settleKey item.key result).endHandle id).Finished row before future caller := by
  obtain ⟨queue, tasks⟩ := flying.alone single current
  have found : state.itemAt (.agent id) = some item := by simp [itemAt, current, Task.item?]
  have isMine : item.flight = future := (flying.tasks id _ item current rfl).flight
  have registered := single.registered found
  rw [isMine] at registered
  have isPending := (state.dedup.pendingFuture?_eq_some_iff item.key future).mpr registered
  rw [settleKey_eq]
  refine ⟨outcome, ?_, letters, ⟨queue, fun other task _ present => ?_⟩⟩
  · change SettlesWith outcome ((state.dedup.settle item.key result).futures future)
    rw [InFlightRegistry.settle_futures, if_pos isPending]
    exact settles
  · by_cases isActor : other = id
    · rw [isActor, endHandle_tasks_self] at present
      rw [← Option.some.inj present]
      rfl
    · apply tasks other task isActor
      simpa [endHandle, State.setTask, isActor] using present

/-- A step of `_handle`. -/
theorem InFlight.handled
    {point : HandlePoint}
    (flying : state.InFlight row before future)
    (single : state.SingleFlight)
    (current : state.tasks id = some (.worker (.handling item point)))
    (handled : Handled state id item point next) :
    next.InFlight row before future ∨ next.Finished row before future caller := by
  have mine := flying.tasks id _ item current rfl
  have goes : ∀ {base : State} {after : HandlePoint}, base.tasks = state.tasks →
      base.dedup = state.dedup → base.tables.SameLetters state.tables →
      base.queue = state.queue →
      (Task.worker (.handling item after)).pushed? =
        (Task.worker (.handling item point)).pushed? →
      (base.moveTo id item after).InFlight row before future := by
    intro base after tasks dedup letters queue same
    apply flying.setTask tasks dedup letters
    · rw [queue]
      exact fun _ queued => Or.inl queued
    · rintro _ ⟨⟩
      rw [same]
      exact mine
  cases handled with
  | advanced advances =>
      refine Or.inl (goes rfl rfl ⟨rfl, rfl⟩ rfl ?_)
      cases advances with
      | blocked disposes => cases disposes <;> rfl
      | answered _ chosen => rcases chosen with rfl | rfl <;> rfl
      | _ => rfl
  | failed disposes =>
      refine Or.inl (goes rfl rfl ⟨rfl, rfl⟩ rfl ?_)
      cases disposes <;> rfl
  | succeeded | deleted | incremented | retired =>
      exact Or.inl (goes rfl rfl ⟨rfl, rfl⟩ rfl rfl)
  | @rescheduled newAttempt delay wakeAt =>
      left
      have spawned : (state.spawn (.reschedule
          (.sleeping { item with attempt := newAttempt } wakeAt))).InFlight row before future := by
        apply @InFlight.setTask state { state with spawned := state.spawned + 1 } state.spawned
          row before future _ flying rfl rfl ⟨rfl, rfl⟩
        · exact fun _ queued => Or.inl queued
        · rintro _ ⟨⟩
          exact mine.reattempt newAttempt
      generalize state.spawn _ = after at spawned ⊢
      apply @InFlight.setTask after { after with queue := after.queue.taskDone } id row before
        future (.worker .idle) spawned rfl rfl ⟨rfl, rfl⟩
      · exact fun _ queued => Or.inl queued
      · rintro _ ⟨⟩
  | @pushed exc =>
      obtain ⟨queue, tasks⟩ := flying.alone single current
      refine Or.inl ⟨flying.pending, fun second queued => ?_, ?_⟩
      · have none_ : second ∈ state.queue.items := queued
        rw [queue] at none_
        cases none_
      · intro other task second present carries
        by_cases isActor : other = id
        · rw [isActor, moveTo_tasks_self] at present
          cases present
          cases carries
          cases mine with
          | trying letters => exact .pushed (letters.push _ _ _ _)
        · have there : state.tasks other = some task := by
            simpa [moveTo, record, State.setTask, isActor] using present
          rw [tasks other task isActor there] at carries
          cases carries
  | @resolved response =>
      right
      cases mine with
      | trying letters => exact flying.settle single current (.succeeded response) letters
  | @rejected exc =>
      right
      cases mine with
      | pushed letters => exact flying.settle single current (.failed _ _ exc _ _) letters

/-- While the future of an entry is pending, the client's own coroutines work for it or
settle it. -/
theorem InFlight.step
    (flying : state.InFlight row before future)
    (undisturbed : state.Undisturbed caller)
    (internal : label.isInternal = true)
    (different : label.actor state ≠ caller)
    (moved : HardenedClient.step env label state = some next) :
    next.InFlight row before future ∨ next.Finished row before future caller := by
  have drops : ∀ {base : State} {id : ℕ} {task : Task}, base.tasks = state.tasks →
      base.dedup = state.dedup → base.tables = state.tables →
      base.queue.items = state.queue.items → task.item? = none →
      (base.setTask id task).InFlight row before future := by
    intro base id task tasks dedup tables queue unladen
    apply flying.setTask tasks dedup (tables ▸ ⟨rfl, rfl⟩)
    · rw [queue]
      exact fun _ queued => Or.inl queued
    · intro item carries
      cases unladen.symm.trans carries
  cases label with
  | tick seconds =>
      simp only [HardenedClient.step] at moved
      split_ifs at moved
      rw [← Option.some.inj moved]
      exact Or.inl ⟨flying.pending, flying.queue, flying.tasks⟩
  | cancelWorker id =>
      simp only [HardenedClient.step, cancelWorker] at moved
      split_ifs at moved
      split at moved <;> try cases moved
      · exact Or.inl (drops rfl rfl rfl rfl rfl)
      · exact Or.inl (drops rfl rfl rfl rfl rfl)
  | step id choice =>
      cases current : state.tasks id with
      | none => simp [HardenedClient.step, stepTask, current] at moved
      | some task =>
          have outside := undisturbed.noCall id task current
          have mine := fun item => flying.tasks id task item current
          cases task with
          | caller replayed point =>
              rw [step_of_isOver current (undisturbed.others id _ _ current different)] at moved
              cases moved
          | worker point =>
              simp only [HardenedClient.step, stepTask, current] at moved
              cases point with
              | idle =>
                  cases choice <;> simp only [stepWorker, reduceCtorEq] at moved
                  split at moved <;> cases moved
                  next item rest waiting =>
                  left
                  refine flying.setTask rfl rfl ⟨rfl, rfl⟩ ?_ ?_
                  · intro second queued
                    exact Or.inl (waiting ▸ List.mem_cons_of_mem item queued)
                  · rintro _ ⟨⟩
                    exact flying.queue item (waiting ▸ List.mem_cons_self)
              | handling item point =>
                  rcases stepHandle_ends moved with ⟨_, escaped⟩ | ⟨_, handled⟩
                  · cases escaped
                    exact Or.inl (drops rfl rfl rfl rfl rfl)
                  · exact flying.handled undisturbed.toSingleFlight current handled
              | ended | cancelled => cases choice <;> cases moved
          | reschedule point =>
              simp only [HardenedClient.step, stepTask, current] at moved
              cases point with
              | sleeping item wakeAt =>
                  cases choice <;> simp only [stepReschedule, reduceCtorEq] at moved
                  split_ifs at moved
                  · rw [← Option.some.inj moved]
                    exact Or.inl (drops rfl rfl rfl rfl rfl)
                  · rw [← Option.some.inj moved]
                    left
                    refine flying.setTask rfl rfl ⟨rfl, rfl⟩ (fun _ queued => Or.inl queued) ?_
                    rintro _ ⟨⟩
                    exact mine item rfl
              | enqueueing item =>
                  cases choice <;> simp only [stepReschedule, reduceCtorEq] at moved
                  split_ifs at moved
                  rw [← Option.some.inj moved]
                  left
                  refine flying.setTask rfl rfl ⟨rfl, rfl⟩ ?_ ?_
                  · intro second queued
                    rcases List.mem_append.mp queued with there | isItem
                    · exact Or.inl there
                    · rw [List.mem_singleton.mp isItem]
                      exact Or.inr (mine item rfl)
                  · rintro _ ⟨⟩
              | done => cases choice <;> cases moved
          | starter point =>
              simp only [HardenedClient.step, stepTask, current] at moved
              cases point <;> cases outside <;> cases choice <;> cases moved
          | drainer point =>
              simp only [HardenedClient.step, stepTask, current] at moved
              obtain ⟨_, after, _, rfl⟩ := stepDrainer_eq_some_iff.mp moved
              exact Or.inl (drops rfl rfl rfl rfl rfl)
          | stopper point =>
              simp only [HardenedClient.step, stepTask, current] at moved
              cases point <;> cases outside
              cases choice <;> cases moved
  | _ => cases internal

end State

/-! ## The steps of a replayed entry -/

/-- A request rebuilt from storage has its key, if it is not too large for one. -/
theorem Payload.idempotencyKey?_request
    {python : Interpreter}
    {payload : Payload}
    {key : Key}
    (hashes : payload.request.request.idempotencyKey? python = some key) :
    payload.request.key = key :=
  Option.some.inj
    ((hashText?_fromStorage _ payload).symm.trans (Request.hashText?_of_idempotencyKey? hashes))

/-- A request rebuilt from storage makes the durable request it was stored as. -/
theorem Payload.durable?_request
    {python : Interpreter}
    {payload : Payload}
    {durable : DurableRequest}
    (packed : payload.request.request.durable? python = some durable) :
    durable = payload.request := by
  have sameRequest := Request.request_of_durable? packed
  have sameKey := Payload.idempotencyKey?_request (Request.idempotencyKey?_of_durable? packed)
  have stores := durable.stores
  rw [sameRequest, payload.request.stores] at stores
  obtain ⟨request, key, stored, _, _⟩ := durable
  dsimp only at sameRequest sameKey stores
  subst sameRequest sameKey
  obtain rfl := Option.some.inj stores
  rfl

namespace State

theorem Free.setOwn
    {base : State}
    {task : Task}
    (free : state.Free caller)
    (tasks : base.tasks = state.tasks)
    (queue : base.queue = state.queue) :
    (base.setTask caller task).Free caller where
  queue := (congrArg RequestQueue.items queue).trans free.queue
  tasks := by
    intro other found different current
    rw [setTask_tasks_of_ne _ _ different, tasks] at current
    exact free.tasks other found different current

/-- The request of a removed row is submitted, or waits for a future that is there. -/
theorem stage_callRequest
    (free : state.Free caller)
    (letters : state.tables.SameLetters (before.removeDeadLetter row.id))
    (replayed : Option ℕ)
    (requestId : String)
    (createdAt : ℚ) :
    ∃ point, (state.callRequest env caller replayed
        (replayRequest row requestId createdAt)).tasks caller = some (.caller replayed point) ∧
      ReplayStage row before caller
        (state.callRequest env caller replayed (replayRequest row requestId createdAt)) point := by
  have method : ofUnits (Foundation.toUnits (PyStr.upper (ofUnits row.payload.method))) =
      PyStr.upper (ofUnits row.payload.method) :=
    ofUnits_toUnits (PyStr.unpaired_upper (unpaired_ofUnits _))
  have accepted : { replayRequest row requestId createdAt with
      method := (replayRequest row requestId createdAt).method.upper } =
      (row.resubmitted requestId createdAt).request := by
    simp only [replayRequest, DeadLetterRow.resubmitted, Payload.request, Request.fromStorage,
      method]
  unfold callRequest
  split
  swap
  · exact ⟨_, setTask_tasks_self _ _ _, .raised rfl⟩
  rw [accepted]
  unfold submit
  cases hashes : (row.resubmitted requestId createdAt).request.idempotencyKey? env.python with
  | none => exact ⟨_, setTask_tasks_self _ _ _, .raised rfl⟩
  | some key =>
  have isKey : (row.resubmitted requestId createdAt).key = key :=
    Payload.idempotencyKey?_request hashes
  dsimp only
  rw [← isKey]
  cases found : state.dedup.pendingFuture? (row.resubmitted requestId createdAt).key with
  | some future =>
      simp only [InFlightRegistry.getOrCreate, found]
      refine ⟨_, setTask_tasks_self _ _ _, .awaiting ⟨?_, ?_, ?_⟩⟩
      · exact ((state.dedup.pendingFuture?_eq_some_iff _ _).mp found).2
      · intro item queued
        have absent : item ∈ state.queue.items := queued
        rw [free.queue] at absent
        cases absent
      · intro id task item current carries
        by_cases isCaller : id = caller
        · rw [isCaller, setTask_tasks_self] at current
          cases current
          cases carries
        · rw [setTask_tasks_of_ne _ _ isCaller] at current
          cases (free.tasks id task isCaller current).symm.trans carries
  | none =>
      simp only [InFlightRegistry.getOrCreate, found]
      cases packed : (row.resubmitted requestId createdAt).request.durable? env.python with
      | none => exact ⟨_, setTask_tasks_self _ _ _, .raised rfl⟩
      | some durable =>
          have isOwn : durable = row.resubmitted requestId createdAt :=
            Payload.durable?_request packed
          rw [isOwn]
          exact ⟨_, setTask_tasks_self _ _ _, .submitting rfl letters (free.setOwn rfl rfl)⟩

end State

/-- A step of `replay_entry` itself. -/
theorem ReplayStage.own
    {replayed : Option ℕ}
    {point : CallerPoint}
    {choice : Choice}
    (stage : ReplayStage row before caller state point)
    (single : state.SingleFlight)
    (current : state.tasks caller = some (.caller replayed point))
    (stored : ∀ exc, choice = .storageError exc → exc.isAsyncHardenedError = false)
    (moved : state.stepCaller env caller replayed point choice = some next) :
    ∃ after, next.tasks caller = some (.caller replayed after) ∧
      ReplayStage row before caller next after := by
  cases stage with
  | removing letters free =>
      cases choice <;> simp only [State.stepCaller, reduceCtorEq] at moved
      case proceed =>
        split_ifs at moved <;> rw [← Option.some.inj moved]
        · exact ⟨_, State.setTask_tasks_self _ _ _,
            .removed (letters.remove row.id) (free.setOwn rfl rfl)⟩
        · exact ⟨_, State.setTask_tasks_self _ _ _, .raised rfl⟩
      case storageError exc =>
        rw [← Option.some.inj moved]
        exact ⟨_, State.setTask_tasks_self _ _ _, .raised (stored exc rfl)⟩
  | removed letters free =>
      cases choice <;> simp only [State.stepCaller, reduceCtorEq] at moved
      case resubmit requestId createdAt =>
        rw [← Option.some.inj moved]
        exact State.stage_callRequest free letters replayed requestId createdAt
  | @submitting _ requestId createdAt future isPoint letters free =>
      cases point <;> cases isPoint <;> cases choice <;>
        simp only [State.stepCaller, reduceCtorEq] at moved
      case upserting.refl.proceed =>
        split_ifs at moved <;> rw [← Option.some.inj moved]
        · exact ⟨_, State.setTask_tasks_self _ _ _,
            .submitting rfl ⟨letters.rows, letters.next⟩ (free.setOwn rfl rfl)⟩
        · exact ⟨_, State.setTask_tasks_self _ _ _, .raised rfl⟩
      case upserting.refl.storageError exc =>
        rw [← Option.some.inj moved]
        exact ⟨_, State.setTask_tasks_self _ _ _, .raised (stored exc rfl)⟩
      case upserted.refl.proceed =>
        rw [← Option.some.inj moved]
        exact ⟨_, State.setTask_tasks_self _ _ _, .submitting rfl letters (free.setOwn rfl rfl)⟩
      case enqueueing.refl.proceed =>
        split_ifs at moved
        rw [← Option.some.inj moved]
        have found : state.itemAt (.agent caller) =
            some ⟨row.resubmitted requestId createdAt, 0, future⟩ := by
          simp [State.itemAt, current, Task.item?]
        refine ⟨_, State.setTask_tasks_self _ _ _, .awaiting ⟨(single.registered found).2, ?_, ?_⟩⟩
        · intro item queued
          rcases List.mem_append.mp queued with there | isItem
          · rw [free.queue] at there
            cases there
          · rw [List.mem_singleton.mp isItem]
            exact .trying letters
        · intro id task item there carries
          by_cases isCaller : id = caller
          · rw [isCaller, State.setTask_tasks_self] at there
            cases there
            cases carries
          · rw [State.setTask_tasks_of_ne _ _ isCaller] at there
            cases (free.tasks id task isCaller there).symm.trans carries
  | awaiting flying =>
      cases choice <;> simp only [State.stepCaller, reduceCtorEq] at moved
      case proceed =>
        rw [flying.pending] at moved
        cases moved
  | settled settles letters free =>
      cases choice <;> simp only [State.stepCaller, reduceCtorEq] at moved
      case proceed =>
        split_ifs at moved
        rw [← Option.some.inj moved]
        exact ⟨_, State.setTask_tasks_self _ _ _, .received settles letters (free.setOwn rfl rfl)⟩
  | received | raised => cases choice <;> cases moved

/-- What one step of the client makes of a replayed entry. -/
theorem ReplayStage.step
    {replayed : Option ℕ}
    {point : CallerPoint}
    (stage : ReplayStage row before caller state point)
    (undisturbed : state.Undisturbed caller)
    (current : state.tasks caller = some (.caller replayed point))
    (internal : label.isInternal = true)
    (stored : ∀ id exc, label = .step id (.storageError exc) → exc.isAsyncHardenedError = false)
    (moved : HardenedClient.step env label state = some next) :
    ∃ after, next.tasks caller = some (.caller replayed after) ∧
      ReplayStage row before caller next after := by
  by_cases isActor : label.actor state = caller
  · cases label with
    | tick =>
        have known := undisturbed.tidy.lt_of_task current
        exact absurd isActor known.ne'
    | cancelWorker id =>
        simp only [Label.actor] at isActor
        subst isActor
        simp only [HardenedClient.step, State.cancelWorker, current] at moved
        split_ifs at moved
    | step id choice =>
        simp only [Label.actor] at isActor
        subst isActor
        simp only [HardenedClient.step, State.stepTask, current] at moved
        exact stage.own undisturbed.toSingleFlight current
          (fun exc same => stored id exc (same ▸ rfl)) moved
    | _ => cases internal
  have alive : label ≠ .crash := by
    rintro rfl
    cases internal
  have known := undisturbed.tidy.lt_of_task current
  have kept := ((step_stepped moved).frame undisturbed.tidy alive).others caller known
    (Ne.symm isActor)
  refine ⟨point, kept.trans current, ?_⟩
  have idle := fun free => @State.Free.step env state next label caller free undisturbed internal isActor moved
  cases stage with
  | removing letters free =>
      obtain ⟨stays, tables, _⟩ := idle free
      exact .removing (tables ▸ letters) stays
  | removed letters free =>
      obtain ⟨stays, tables, _⟩ := idle free
      exact .removed (tables ▸ letters) stays
  | submitting isPoint letters free =>
      obtain ⟨stays, tables, _⟩ := idle free
      exact .submitting isPoint (tables ▸ letters) stays
  | awaiting flying =>
      rcases flying.step undisturbed internal isActor moved with
        flies | ⟨outcome, settles, letters, free⟩
      · exact .awaiting flies
      · exact .settled settles letters free
  | settled settles letters free =>
      obtain ⟨stays, tables, dedup⟩ := idle free
      exact .settled (dedup ▸ settles) (tables ▸ letters) stays
  | received settles letters free =>
      obtain ⟨stays, tables, _⟩ := idle free
      exact .received settles (tables ▸ letters) stays
  | raised other => exact .raised other

/-! ## The loop over the snapshot -/

namespace State

/-- Without work items no future is promised to anyone. -/
theorem Orderly.singleFlight
    (orderly : state.Orderly)
    (quiet : state.Quiet) :
    state.SingleFlight where
  toOrderly := orderly
  exclusive := by
    rintro job ⟨place, found⟩
    rw [jobAt_flights] at found
    have absent : state.itemAt place = none := by
      cases place with
      | queue position => simp [itemAt, quiet.queue]
      | agent id =>
          cases current : state.tasks id with
          | none => simp [itemAt, current]
          | some task => simp [itemAt, current, quiet.tasks id task current]
    rw [absent] at found
    cases found

theorem Quiet.undisturbed
    (quiet : state.Quiet)
    (single : state.SingleFlight)
    (caller : ℕ) :
    state.Undisturbed caller where
  toSingleFlight := single
  others := fun id replayed point current _ => quiet.callers id replayed point current
  noCall := quiet.noCall

theorem Quiet.free (quiet : state.Quiet) (caller : ℕ) : state.Free caller where
  queue := quiet.queue
  tasks := fun id task _ => quiet.tasks id task

/-- A client whose only call is over is quiet. -/
theorem Undisturbed.quiet
    (undisturbed : state.Undisturbed caller)
    (free : state.Free caller)
    (ended : ∀ task, state.tasks caller = some task →
      ∃ replayed point, task = .caller replayed point ∧ point.isOver = true) :
    state.Quiet where
  callers := by
    intro id replayed point current
    by_cases isCaller : id = caller
    · subst isCaller
      obtain ⟨_, _, same, isOver⟩ := ended _ current
      cases same
      exact isOver
    · exact undisturbed.others id replayed point current isCaller
  noCall := undisturbed.noCall
  queue := free.queue
  tasks := by
    intro id task current
    by_cases isCaller : id = caller
    · subst isCaller
      obtain ⟨_, point, rfl, isOver⟩ := ended _ current
      cases point <;> first | rfl | cases isOver
    · exact free.tasks id task isCaller current

/-- A quiet client stays so. -/
theorem Quiet.step
    (quiet : state.Quiet)
    (single : state.SingleFlight)
    (internal : label.isInternal = true)
    (moved : HardenedClient.step env label state = some next) :
    next.Quiet ∧ next.SingleFlight ∧ next.tables = state.tables := by
  -- a task number that is not used, neither before the step nor after it
  let unused := next.spawned + label.actor state + 1
  have undisturbed := (quiet.undisturbed single unused).step internal moved
  obtain ⟨free, tables, _⟩ := (quiet.free unused).step (quiet.undisturbed single unused) internal
    (by omega) moved
  refine ⟨undisturbed.quiet free fun task current => ?_, undisturbed.toSingleFlight, tables⟩
  have beyond := undisturbed.tidy unused (by omega)
  cases beyond.symm.trans current

/-- The call of `replay_entry` on a quiet client. -/
theorem Quiet.spawn
    (quiet : state.Quiet)
    (single : state.SingleFlight)
    (env : Env)
    (row : DeadLetterRow) :
    (state.spawn (.caller (some row.id) (.removing row))).Undisturbed state.spawned ∧
      (state.spawn (.caller (some row.id) (.removing row))).Free state.spawned := by
  have called : HardenedClient.step env (.replay row) state =
      some (state.spawn (.caller (some row.id) (.removing row))) := rfl
  have keeps : KeepsSingle state (.replay row) := by
    refine ⟨?_, fun other recovered => by cases recovered⟩
    rintro ⟨_, _, _, _, _, _, isCancel, _⟩
    cases isCancel
  refine ⟨⟨single.step keeps called, ?_, ?_⟩, ⟨quiet.queue, ?_⟩⟩
  · intro id replayed point current different
    rw [spawn_tasks_of_ne _ _ different] at current
    exact quiet.callers id replayed point current
  · intro id task current
    by_cases isCaller : id = state.spawned
    · rw [isCaller, spawn_tasks_self] at current
      cases current
      rfl
    · rw [spawn_tasks_of_ne _ _ isCaller] at current
      exact quiet.noCall id task current
  · intro id task different current
    rw [spawn_tasks_of_ne _ _ different] at current
    exact quiet.tasks id task current

end State

/-- What `replay_all` has made of the dead-letter queue: its entries so far are replayed
to given ends, and the current one is at its stage. -/
inductive Replaying (base : Tables) : ReplayAllState → Prop
  | listing {client : State}
      (quiet : client.Quiet)
      (single : client.SingleFlight)
      (letters : client.tables.SameLetters base) :
      Replaying base ⟨client, .listing, []⟩
  | replaying {client : State} {row : DeadLetterRow} {caller : ℕ} {rest : List DeadLetterRow}
      {replays : List (DeadLetterRow × ReplayOutcome)} {replayed : Option ℕ} {point : CallerPoint}
      (snapshot : replays.map Prod.fst ++ row :: rest = base.listDeadLetter replayLimit)
      (undisturbed : client.Undisturbed caller)
      (current : client.tasks caller = some (.caller replayed point))
      (stage : ReplayStage row (replayRows base replays).1 caller client point) :
      Replaying base ⟨client, .replaying row caller rest, (replayRows base replays).2⟩
  | returned {client : State} {replays : List (DeadLetterRow × ReplayOutcome)}
      (snapshot : replays.map Prod.fst = base.listDeadLetter replayLimit)
      (quiet : client.Quiet)
      (single : client.SingleFlight)
      (letters : client.tables.SameLetters (replayRows base replays).1) :
      Replaying base ⟨client, .returned, (replayRows base replays).2⟩
  | raised {client : State} {exc : PyException} {results : List ReplayResult} :
      Replaying base ⟨client, .raised exc, results⟩

/-- Errors of the database are not the client's own. -/
def DatabaseErrors (label : CommandLabel) : Prop :=
  ∀ id exc, label = .client (.step id (.storageError exc)) → exc.isAsyncHardenedError = false

namespace Replaying

variable {tables : Tables} {state next : ReplayAllState} {label : CommandLabel}

/-- The head of the loop. -/
theorem walk
    (env : Env)
    {client : State}
    {replays : List (DeadLetterRow × ReplayOutcome)}
    {rest : List DeadLetterRow}
    (quiet : client.Quiet)
    (single : client.SingleFlight)
    (letters : client.tables.SameLetters (replayRows tables replays).1)
    (snapshot : replays.map Prod.fst ++ rest = tables.listDeadLetter replayLimit) :
    Replaying tables (.walk client (replayRows tables replays).2 rest) := by
  cases rest with
  | nil =>
      rw [List.append_nil] at snapshot
      exact .returned snapshot quiet single letters
  | cons row rest =>
      obtain ⟨undisturbed, free⟩ := quiet.spawn single env row
      exact .replaying snapshot undisturbed (State.spawn_tasks_self _ _) (.removing letters free)

/-- An entry that is over has become what its outcome says. -/
theorem proceed
    (env : Env)
    (replaying : Replaying tables state)
    (moved : state.proceed = some next) :
    Replaying tables next := by
  cases replaying with
  | @listing client quiet single letters =>
      simp only [ReplayAllState.proceed] at moved
      split_ifs at moved
      · rw [← Option.some.inj moved]
        refine @walk _ env client [] _ quiet single letters ?_
        rw [Tables.listDeadLetter, letters.rows]
        rfl
      · rw [← Option.some.inj moved]
        exact .raised
  | @replaying client row caller rest replays replayed point snapshot undisturbed current stage =>
      simp only [ReplayAllState.proceed, State.replayed?, current] at moved
      cases stage with
      | removing | removed | awaiting | settled => cases moved
      | submitting isPoint => cases point <;> cases isPoint <;> cases moved
      | @received key future outcome result settles letters free =>
          have quiet := undisturbed.quiet free fun task present =>
            ⟨_, _, Option.some.inj (present.symm.trans current), rfl⟩
          have going : some (ReplayAllState.walk client
              ((replayRows tables replays).2 ++ [replayResult row outcome]) rest) = some next := by
            rw [← moved]
            cases settles with
            | succeeded => rfl
            | failed _ _ exc => simp [isAsyncHardenedError_terminalError, message_terminalError,
                replayResult]
          rw [← Option.some.inj going]
          have more := replayRows_concat tables replays row outcome
          rw [show (replayRows tables replays).2 ++ [replayResult row outcome] =
            (replayRows tables (replays ++ [(row, outcome)])).2 from
              (congrArg Prod.snd more).symm]
          refine walk env quiet undisturbed.toSingleFlight ?_ ?_
          · rw [more]
            exact letters
          · rw [← snapshot, List.map_append, List.append_assoc]
            rfl
      | raised other =>
          simp only [other] at moved
          rw [← Option.some.inj moved]
          exact .raised
  | returned | raised => cases moved

theorem step
    (replaying : Replaying tables state)
    (database : DatabaseErrors label)
    (moved : replayAllStep env label state = some next) :
    Replaying tables next := by
  cases label with
  | client label =>
      simp only [replayAllStep] at moved
      split_ifs at moved with internal
      obtain ⟨after, stepped, rfl⟩ := Option.map_eq_some_iff.mp moved
      cases replaying with
      | listing quiet single letters =>
          obtain ⟨stays, alone, same⟩ := quiet.step single internal stepped
          exact .listing stays alone (same ▸ letters)
      | replaying snapshot undisturbed current stage =>
          obtain ⟨point, there, goes⟩ := stage.step undisturbed current internal
            (fun id exc same => database id exc (same ▸ rfl)) stepped
          exact .replaying snapshot (undisturbed.step internal stepped) there goes
      | returned snapshot quiet single letters =>
          obtain ⟨stays, alone, same⟩ := quiet.step single internal stepped
          exact .returned snapshot stays alone (same ▸ letters)
      | raised => exact .raised
  | proceed =>
      simp only [replayAllStep] at moved
      exact replaying.proceed env moved
  | storageError exc =>
      cases replaying with
      | listing =>
          rw [← Option.some.inj moved]
          exact .raised
      | _ => cases moved

end Replaying

/-- While nobody else uses the client, and whatever becomes of the requests, `replay_all`
covers the dead-letter queue exactly when that has no more than 10000 rows. Whatever the
client's coroutines do, a run that returns is one over given outcomes. -/
theorem replay_all_covers_iff
    (env : Env)
    (tables : Tables)
    (now : ℚ)
    (base : State)
    (reached : Reachable (step env) (State.boot tables now) base)
    (quiet : base.Quiet)
    (wellFormed : base.tables.WellFormedLetters) :
    (∀ outcomes, CoversDeadLetters base.tables (replayAll base.tables outcomes).2
        (replayAll base.tables outcomes).1 ↔ base.tables.deadLetters.length ≤ replayLimit) ∧
    ∀ state, Run (replayAllStep env) (fun _ label => DatabaseErrors label) { client := base } state →
      state.point = .returned →
        (∃ outcomes, state.results = (replayAll base.tables outcomes).2 ∧
          state.client.tables.deadLetters = (replayAll base.tables outcomes).1.deadLetters) ∧
        (CoversDeadLetters base.tables state.results state.client.tables ↔
          base.tables.deadLetters.length ≤ replayLimit) := by
  constructor
  · intro outcomes
    apply coversDeadLetters_iff wellFormed
    rw [List.map_map]
    exact List.map_id _
  intro state run isReturned
  have orderly : base.Orderly := reached.invariant State.Orderly (.boot tables now [])
    fun _ _ _ orderly _ moved => orderly.step moved
  have replaying : Replaying base.tables state := run.invariant (Replaying base.tables)
    (.listing quiet (orderly.singleFlight quiet) ⟨rfl, rfl⟩)
    fun _ _ _ replaying database moved => replaying.step database moved
  cases replaying with
  | listing | replaying | raised => cases isReturned
  | @returned client replays snapshot _ _ letters =>
      have distinct : (replays.map fun replay => replay.1.id).Nodup := by
        obtain ⟨sorted, perm, listed⟩ := listDeadLetter_eq_take base.tables replayLimit
        have ids : replays.map (fun replay => replay.1.id) =
            (base.tables.listDeadLetter replayLimit).map DeadLetterRow.id := by
          rw [← snapshot, List.map_map]
          rfl
        rw [ids, listed]
        apply List.Nodup.sublist ((List.take_sublist _ _).map _)
        exact (perm.map DeadLetterRow.id).nodup_iff.mpr wellFormed.distinct
      obtain ⟨outcomes, same⟩ := exists_outcomes replays distinct
      rw [snapshot] at same
      have whole : replayAll base.tables outcomes = replayRows base.tables replays := by
        rw [replayAll, same]
      refine ⟨⟨outcomes, by rw [whole], by rw [whole]; exact letters.rows⟩, ?_⟩
      rw [← coversDeadLetters_iff wellFormed replays snapshot]
      constructor
      · rintro ⟨rows, fresh⟩
        exact ⟨rows, letters.rows ▸ fresh⟩
      · rintro ⟨rows, fresh⟩
        exact ⟨rows, by rw [letters.rows]; exact fresh⟩

/-! ## A replay of two dead letters -/

/-- The coroutine is no call that goes on, and has no work item. -/
def Task.isQuiet : Task → Bool
  | .caller _ point => point.isOver
  | task => task.item?.isNone && !task.inLifecycle

theorem State.Tidy.quiet
    (tidy : state.Tidy)
    (passes : ((List.range state.spawned).all fun id =>
      (state.tasks id).all Task.isQuiet) = true)
    (empty : state.queue.items = []) :
    state.Quiet := by
  have quiet := tidy.forall_task passes
  refine ⟨fun id replayed point current => quiet id _ current, ?_, empty, ?_⟩
  · intro id task current
    have isQuiet := quiet id task current
    cases task with
    | caller => rfl
    | _ =>
        simp only [Task.isQuiet, Bool.and_eq_true, Bool.not_eq_true'] at isQuiet
        exact isQuiet.2
  · intro id task current
    have isQuiet := quiet id task current
    cases task with
    | caller replayed point => cases point <;> first | rfl | cases isQuiet
    | _ =>
        simp only [Task.isQuiet, Bool.and_eq_true, Option.isNone_iff_eq_none] at isQuiet
        exact isQuiet.1

/-- A check for `DatabaseErrors` on replayed runs. -/
def isDatabaseError : CommandLabel → Bool
  | .client (.step _ (.storageError exc)) => !exc.isAsyncHardenedError
  | _ => true

theorem isDatabaseError_sound
    (label : CommandLabel)
    (passes : isDatabaseError label = true) :
    DatabaseErrors label := by
  rintro id exc rfl
  simpa [isDatabaseError] using passes

/-- The results have been returned. -/
def ReplayAllPoint.isReturned : ReplayAllPoint → Bool
  | .returned => true
  | _ => false

/-- An entry is replayed by the task `id` and answered with the status, three steps
before its future is settled. -/
def entryLabels (id status : ℕ) : List CommandLabel :=
  let labels : List Label :=
    replayLabels id ++ sendLabels 1 ++ answerLabels 1 status 3 ++ proceedLabels id 1
  labels.map .client ++ [.proceed]

/-- Of two dead letters with one key, the first fails again and the second succeeds. -/
theorem replay_all_covers_two :
    ∃ base state,
      Run (replayAllStep oneWorker) (fun _ label => DatabaseErrors label) { client := base } state ∧
      base.tables.deadLetters.length = 2 ∧ state.client.tables.deadLetters.length = 1 ∧
      CoversDeadLetters base.tables state.results state.client.tables := by
  have passes :
      (executeChecked (step oneWorker) (fun _ _ => true) startLabels
        (State.boot (manyLetters 2))).any (fun base =>
          (((List.range base.spawned).all fun id => (base.tasks id).all Task.isQuiet) &&
            base.queue.items.isEmpty &&
            decide (base.tables.WellFormedLetters ∧ base.tables.deadLetters.length = 2)) &&
          (executeChecked (replayAllStep oneWorker) (fun _ => isDatabaseError)
            (.proceed :: entryLabels 2 404 ++ entryLabels 3 200) { client := base }).any
              fun state => state.point.isReturned &&
                decide (state.client.tables.deadLetters.length = 1)) = true := by
    decide +kernel
  obtain ⟨base, reached, tested⟩ := exists_run_of_executeChecked (fun _ _ _ => trivial) passes
  simp only [Bool.and_eq_true, decide_eq_true_eq, List.isEmpty_iff] at tested
  obtain ⟨⟨⟨calm, empty⟩, wellFormed, count⟩, replayed⟩ := tested
  obtain ⟨state, run, ends⟩ := exists_run_of_executeChecked
    (fun _ label passed => isDatabaseError_sound label passed) replayed
  simp only [Bool.and_eq_true, decide_eq_true_eq] at ends
  have isReturned : state.point = .returned := by
    cases isPoint : state.point <;> rw [isPoint] at ends <;> first | rfl | cases ends.1
  have tidy := State.Tidy.of_run (State.tidy_boot _ _ _) reached
  have covers := (replay_all_covers_iff oneWorker (manyLetters 2) 0 base reached
    (tidy.quiet calm empty) wellFormed).2 state run isReturned
  refine ⟨base, state, run, count, ends.2, covers.2.mpr ?_⟩
  rw [count]
  decide

end HardenedClient
