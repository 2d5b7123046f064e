import HardenedClient.CallerCancellation
import HardenedClient.Client.Moves
import HardenedClient.Client.Replay
import HardenedClient.Foundation.Journal

/-!
# Delays of retries

A failed pass that is retried has a delay, from the backoff or from the `Retry-After` of the
answer. Until the delay is over, the item is with its worker or with a task that sleeps, and
only after that can it come to the queue and be handled again.
-/

namespace HardenedClient

open Foundation

/-- What is seen of the retries of an item: a pass that ends with one, after an exception and
with a delay, and the beginning of a pass. -/
inductive DelayEvent
  | retried (time : ℚ) (exc : PyException) (delay : PyFloat)
  | handled (time : ℚ)

/-- What a step shows, and of the item for which future. -/
def observeDelay (state : State) (label : Label) (next : State) : List (ℕ × DelayEvent) :=
  match label with
  | .step id _ =>
      match state.tasks id, next.tasks id with
      | some (.worker .idle), some (.worker (.handling item _)) =>
          [(item.flight, .handled state.now)]
      | some (.worker (.handling _ _)),
          some (.worker (.handling item (.incrementing exc _ delay))) =>
          [(item.flight, .retried state.now exc delay)]
      | _, _ => []
  | _ => []

/-- The task keeps its item from the queue until a time. -/
inductive Task.HoldsUntil (now bound : ℚ) : Task → Prop
  | incrementing {item : QueueItem} {exc : PyException} {newAttempt : ℕ} {seconds : ℚ}
      (within : bound ≤ now + seconds) :
      HoldsUntil now bound
        (.worker (.handling item (.incrementing exc newAttempt (.finite seconds))))
  | scheduling {item : QueueItem} {newAttempt : ℕ} {seconds : ℚ}
      (within : bound ≤ now + seconds) :
      HoldsUntil now bound (.worker (.handling item (.scheduling newAttempt (.finite seconds))))
  | sleeping {item : QueueItem} {wakeAt : ℚ}
      (within : bound ≤ wakeAt) :
      HoldsUntil now bound (.reschedule (.sleeping item (.finite wakeAt)))

theorem Task.HoldsUntil.mono
    {now later bound : ℚ}
    {task : Task}
    (holds : task.HoldsUntil now bound)
    (forward : now ≤ later) :
    task.HoldsUntil later bound := by
  cases holds with
  | incrementing within => exact .incrementing (by linarith)
  | scheduling within => exact .scheduling (by linarith)
  | sleeping within => exact .sleeping within

namespace State

variable {env : Env} {state next : State} {label : Label} {id : ℕ} {bound : ℚ}

/-- The item at a place does not come to the queue before a time. -/
def Early (state : State) (place : Place) (bound : ℚ) : Prop :=
  bound ≤ state.now ∨
    ∃ id task, place = .agent id ∧ state.tasks id = some task ∧ task.HoldsUntil state.now bound

/-- A task gives up its item: no place has it any more. -/
theorem gone_of_setTask
    {base : State}
    {old task : Task}
    {held : QueueItem}
    (orderly : state.Orderly)
    (current : state.tasks id = some old)
    (carries : old.item? = some held)
    (tasks : base.tasks = state.tasks)
    (queue : base.queue.items = state.queue.items)
    (gives : task.item? = none)
    {place : Place}
    {item : QueueItem}
    (found : (base.setTask id task).itemAt place = some item) :
    item.flight ≠ held.flight := by
  intro same
  have mine : state.itemAt (.agent id) = some held := by simp [itemAt, current, carries]
  have moved : place ≠ .agent id := by
    rintro rfl
    simp [itemAt, gives] at found
  have before : state.itemAt place = some item := by
    cases place with
    | queue position =>
        rw [itemAt, ← queue]
        exact found
    | agent other =>
        have different : other ≠ id := fun isId => moved (isId ▸ rfl)
        simpa only [itemAt, setTask_tasks_of_ne _ _ different, tasks] using found
  exact moved (orderly.sound.job_unique place (.agent id) item.job held.job
    (by rw [jobAt_flights, before]; rfl) (by rw [jobAt_flights, mine]; rfl) same)

/-- What holds an item goes on to hold it, lets it go when it is time, or loses it. -/
theorem holds_step
    {task : Task}
    {held : QueueItem}
    (orderly : state.Orderly)
    (alive : label ≠ .crash)
    (moved : HardenedClient.step env label state = some next)
    (current : state.tasks id = some task)
    (carries : task.item? = some held)
    (holds : task.HoldsUntil state.now bound) :
    (∃ place item, next.itemAt place = some item ∧ item.flight = held.flight ∧
        next.Early place bound) ∨
      ∀ place item, next.itemAt place = some item → item.flight ≠ held.flight := by
  have forward := now_le_step moved
  have known := orderly.tidy.lt_of_task current
  by_cases isActor : id = label.actor state
  swap
  · have same := ((step_stepped moved).frame orderly.tidy alive).others id known isActor
    refine Or.inl ⟨.agent id, held, ?_, rfl, Or.inr ⟨id, task, rfl, ?_, holds.mono forward⟩⟩
    · simp [itemAt, same, current, carries]
    · rw [same, current]
  cases label with
  | step actor choice =>
      obtain rfl : id = actor := isActor
      simp only [HardenedClient.step, stepTask, current] at moved
      cases holds with
      | @incrementing item exc newAttempt seconds within =>
          obtain rfl : item = held := Option.some.inj carries
          cases choice <;> simp only [stepWorker, stepHandle, reduceCtorEq] at moved
          case proceed =>
            split_ifs at moved with connected <;> rw [← Option.some.inj moved]
            · refine Or.inl ⟨.agent id, item, ?_, rfl, Or.inr ⟨id, _, rfl,
                moveTo_tasks_self _ _ _ _, .scheduling within⟩⟩
              simp [itemAt, Task.item?]
            · exact Or.inr fun place other found =>
                gone_of_setTask orderly current carries rfl rfl rfl found
          case storageError =>
            rw [← Option.some.inj moved]
            exact Or.inr fun place other found =>
              gone_of_setTask orderly current carries rfl rfl rfl found
      | @scheduling item newAttempt seconds within =>
          obtain rfl : item = held := Option.some.inj carries
          cases choice <;> simp only [stepWorker, stepHandle, reduceCtorEq] at moved
          case proceed =>
            rw [← Option.some.inj moved]
            have different : state.spawned ≠ id := known.ne'
            have there : ((state.spawn (.reschedule (.sleeping { item with attempt := newAttempt }
                (PyFloat.add (.finite state.now) (.finite seconds))))).endHandle id).tasks
                  state.spawned = some (.reschedule (.sleeping { item with attempt := newAttempt }
                    (.finite (state.now + seconds)))) := by
              rw [endHandle, setTask_tasks_of_ne _ _ different]
              exact spawn_tasks_self _ _
            refine Or.inl ⟨.agent state.spawned, { item with attempt := newAttempt }, ?_, rfl,
              Or.inr ⟨state.spawned, _, rfl, there, .sleeping within⟩⟩
            rw [itemAt, there]
            rfl
          case storageError =>
            rw [← Option.some.inj moved]
            exact Or.inr fun place other found =>
              gone_of_setTask orderly current carries rfl rfl rfl found
      | @sleeping item wakeAt within =>
          obtain rfl : item = held := Option.some.inj carries
          cases choice <;> simp only [stepReschedule, reduceCtorEq] at moved
          split_ifs at moved with asleep stopping <;> rw [← Option.some.inj moved]
          · exact Or.inr fun place other found =>
              gone_of_setTask orderly current carries rfl rfl rfl found
          · have woken : wakeAt ≤ state.now := by simpa [PyFloat.lt] using asleep
            refine Or.inl ⟨.agent id, item, ?_, rfl, Or.inl (within.trans woken)⟩
            simp [itemAt, Task.item?]
  | cancelWorker actor =>
      obtain rfl : id = actor := isActor
      simp only [HardenedClient.step, cancelWorker] at moved
      split_ifs at moved
      cases holds with
      | incrementing | scheduling =>
          simp only [current] at moved
          rw [← Option.some.inj moved]
          exact Or.inr fun place other found =>
            gone_of_setTask orderly current carries rfl rfl rfl found
      | sleeping =>
          simp only [current] at moved
          cases moved
  | cancel actor =>
      obtain rfl : id = actor := isActor
      simp only [HardenedClient.step, cancelTask] at moved
      cases holds <;> simp [current] at moved
  | crash => exact absurd rfl alive
  | _ =>
      obtain rfl : id = state.spawned := isActor
      exact absurd known (Nat.lt_irrefl _)

/-- An item for an older future comes no earlier to the queue after a step than before. -/
theorem early_step
    {place : Place}
    {item : QueueItem}
    (orderly : state.Orderly)
    (alive : label ≠ .crash)
    (moved : HardenedClient.step env label state = some next)
    (found : next.itemAt place = some item)
    (known : item.flight < state.dedup.created)
    (early : ∀ before old, state.itemAt before = some old → old.flight = item.flight →
      state.Early before bound) :
    next.Early place bound := by
  obtain ⟨before, old, there, same⟩ := serves_of_old orderly.tidy moved found known
  rcases early before old there same with past | ⟨id, task, rfl, current, holds⟩
  · exact Or.inl (past.trans (now_le_step moved))
  have carries : task.item? = some old := by simpa [itemAt, current] using there
  rcases holds_step orderly alive moved current carries holds with
    ⟨target, after, reached, isSame, stays⟩ | gone
  · have unique := (orderly.step moved).sound.job_unique place target item.job after.job
      (by rw [jobAt_flights, found]; rfl) (by rw [jobAt_flights, reached]; rfl)
      (same.symm.trans isSame.symm)
    exact unique ▸ stays
  · exact absurd same.symm (gone place item found)

end State

/-! ## What is shown -/

/-- The delay is the hint of the exception, as far as the policy allows, when it has a
positive one. -/
def HonoursHint (policy : RetryPolicy) (exc : PyException) (delay : PyFloat) : Prop :=
  ∀ hint, exc.retryAfter? = some hint → (PyFloat.finite 0).lt hint = true →
    delay = hint.pyMin policy.maxDelay

namespace State

variable {env : Env} {state next : State} {label : Label} {id : ℕ}

theorem honours_of_retryOrDlq
    {item other : QueueItem}
    {exc raised : PyException}
    {retryAfter : Option PyFloat}
    {draw : ℚ}
    {newAttempt : ℕ}
    {delay : PyFloat}
    (given : retryAfter.or exc.retryAfter? = exc.retryAfter?)
    (reached : (state.retryOrDlq env id item exc retryAfter draw).tasks id =
      some (.worker (.handling other (.incrementing raised newAttempt delay)))) :
    HonoursHint env.config.retry raised delay := by
  unfold retryOrDlq at reached
  cases decided : dispose? env.config.retry item.attempt exc retryAfter draw with
  | none => simp [decided] at reached
  | some disposition =>
      cases disposition with
      | terminal => simp [decided] at reached
      | retry again seconds =>
          simp only [decided, moveTo_tasks_self, Option.some.injEq, Task.worker.injEq,
            WorkerPoint.handling.injEq, HandlePoint.incrementing.injEq] at reached
          obtain ⟨_, rfl, _, rfl⟩ := reached
          intro hint isHint positive
          unfold dispose? at decided
          split_ifs at decided
          · obtain ⟨waits, backs, same⟩ := Option.map_eq_some_iff.mp decided
            rw [given, isHint] at backs
            simp only [backoffSeconds?, positive, if_true, Option.some.injEq] at backs
            rw [backs]
            exact (Disposition.retry.inj same).2.symm
          · cases decided

/-- A worker comes to a retry only with a delay that honours the hint. -/
theorem honours_of_stepHandle
    {item other : QueueItem}
    {point : HandlePoint}
    {choice : Choice}
    {exc : PyException}
    {newAttempt : ℕ}
    {delay : PyFloat}
    (moved : state.stepHandle env id item point choice = some next)
    (reached : next.tasks id =
      some (.worker (.handling other (.incrementing exc newAttempt delay)))) :
    HonoursHint env.config.retry exc delay := by
  cases point <;> cases choice <;> simp only [stepHandle, reduceCtorEq] at moved
  case gating.jitter draw =>
    split_ifs at moved
    rw [← Option.some.inj moved] at reached
    unfold gate at reached
    split at reached
    · simp at reached
    · split at reached
      · simp at reached
      · dsimp only at reached
        split at reached
        · next blocked _ =>
            exact honours_of_retryOrDlq (by cases blocked.retryAfter? <;> rfl) reached
        · simp at reached
  case executing.http host probe event draw =>
    split_ifs at moved
    rw [← Option.some.inj moved] at reached
    unfold receive at reached
    split at reached
    · simp at reached
    · dsimp only at reached
      split at reached
      · simp at reached
      · exact honours_of_retryOrDlq rfl reached
  case acquiring.proceed =>
    rcases acquire_ends moved with ⟨_, escaped⟩ | ⟨_, handled⟩
    · obtain ⟨_⟩ := escaped
      simp at reached
    · cases handled with
      | advanced advances => cases advances <;> simp at reached
  case resolving.proceed | failing.proceed | scheduling.proceed =>
    rw [← Option.some.inj moved] at reached
    simp at reached
  case deleted.proceed =>
    rw [← Option.some.inj moved] at reached
    split_ifs at reached <;> simp at reached
  case hooking.hook response raised =>
    cases raised with
    | none =>
        rw [← Option.some.inj moved] at reached
        simp at reached
    | some exc =>
        dsimp only at moved
        split_ifs at moved <;> rw [← Option.some.inj moved] at reached <;> simp at reached
  all_goals
    try split_ifs at moved
    all_goals
      rw [← Option.some.inj moved] at reached
      simp at reached

/-- A step shows that an item is taken from the queue, or that one is retried. -/
theorem observeDelay_cases
    (moved : HardenedClient.step env label state = some next) :
    observeDelay state label next = [] ∨
      (∃ item, state.itemAt (.queue 0) = some item ∧
        observeDelay state label next = [(item.flight, .handled state.now)]) ∨
      ∃ id item exc newAttempt delay,
        next.tasks id = some (.worker (.handling item (.incrementing exc newAttempt delay))) ∧
        HonoursHint env.config.retry exc delay ∧
        observeDelay state label next = [(item.flight, .retried state.now exc delay)] := by
  cases label with
  | step id choice =>
      simp only [observeDelay]
      split
      · next item point idle taken =>
          right
          left
          simp only [HardenedClient.step, stepTask, idle] at moved
          cases choice <;> simp only [stepWorker, reduceCtorEq] at moved
          split at moved
          · cases moved
          · next head rest waiting =>
              rw [← Option.some.inj moved, moveTo_tasks_self] at taken
              simp only [Option.some.injEq, Task.worker.injEq, WorkerPoint.handling.injEq] at taken
              obtain ⟨rfl, _⟩ := taken
              exact ⟨head, by simp [itemAt, waiting], rfl⟩
      · next held point item exc newAttempt delay current reached =>
          right
          right
          simp only [HardenedClient.step, stepTask, current, stepWorker] at moved
          exact ⟨id, item, exc, newAttempt, delay, reached,
            honours_of_stepHandle moved reached, rfl⟩
      · exact Or.inl rfl
  | _ => exact Or.inl rfl

/-! ## The run -/

/-- Every item that was retried waits until its delay is over, and so did those that were
handled since. -/
structure Paced (env : Env) (state : State) (log : List (ℕ × DelayEvent)) : Prop
    extends state.Orderly where
  known : ∀ flight event, (flight, event) ∈ log → flight < state.dedup.created
  waiting : ∀ flight time exc seconds, (flight, .retried time exc (.finite seconds)) ∈ log →
    ∀ place item, state.itemAt place = some item → item.flight = flight →
      state.Early place (time + seconds)
  waited : ∀ flight time exc seconds resumed,
    [(flight, .retried time exc (.finite seconds)), (flight, .handled resumed)].Sublist log →
      time + seconds ≤ resumed
  hinted : ∀ flight time exc delay, (flight, .retried time exc delay) ∈ log →
    HonoursHint env.config.retry exc delay

theorem Paced.boot
    (env : Env)
    (tables : Tables)
    (now : ℚ)
    (history : List Event) :
    Paced env (boot tables now history) [] where
  toOrderly := .boot tables now history
  known := fun _ _ member => by cases member
  waiting := fun _ _ _ _ member => by cases member
  waited := fun _ _ _ _ _ sublist => by cases sublist
  hinted := fun _ _ _ _ member => by cases member

variable {log : List (ℕ × DelayEvent)}

/-- A step that shows nothing. -/
theorem Paced.quiet
    (paced : Paced env state log)
    (alive : label ≠ .crash)
    (moved : HardenedClient.step env label state = some next) :
    Paced env next log where
  toOrderly := paced.toOrderly.step moved
  known := fun flight event member =>
    (paced.known flight event member).trans_le ((step_stepped moved).created_le alive)
  waiting := by
    intro flight time exc seconds member place item found same
    refine early_step paced.toOrderly alive moved found ?_ fun before old there isSame =>
      paced.waiting flight time exc seconds member before old there (isSame.trans same)
    exact same ▸ paced.known flight _ member
  waited := paced.waited
  hinted := paced.hinted

/-- An item that comes to the head of the queue has waited. -/
theorem Paced.handled
    {item : QueueItem}
    (paced : Paced env state log)
    (quiet : Paced env next log)
    (head : state.itemAt (.queue 0) = some item)
    (alive : item.flight < next.dedup.created) :
    Paced env next (log ++ [(item.flight, .handled state.now)]) where
  toOrderly := quiet.toOrderly
  known := by
    intro flight event member
    rcases List.mem_append.mp member with old | new
    · exact quiet.known flight event old
    · rw [List.mem_singleton, Prod.mk.injEq] at new
      exact new.1 ▸ alive
  waiting := by
    intro flight time exc seconds member
    rcases List.mem_append.mp member with old | new
    · exact quiet.waiting flight time exc seconds old
    · simp at new
  waited := by
    intro flight time exc seconds resumed sublist
    rcases pair_sublist_concat_iff.mp sublist with old | ⟨first, last⟩
    · exact quiet.waited flight time exc seconds resumed old
    · simp only [Prod.mk.injEq, DelayEvent.handled.injEq] at last
      obtain ⟨rfl, rfl⟩ := last
      rcases paced.waiting item.flight time exc seconds first _ item head rfl with
        past | ⟨_, _, isAgent, _⟩
      · exact past
      · cases isAgent
  hinted := by
    intro flight time exc delay member
    rcases List.mem_append.mp member with old | new
    · exact quiet.hinted flight time exc delay old
    · simp at new

/-- An item that is retried is held by its worker. -/
theorem Paced.retried
    {item : QueueItem}
    {exc : PyException}
    {newAttempt : ℕ}
    {delay : PyFloat}
    {time : ℚ}
    (quiet : Paced env next log)
    (current : next.tasks id =
      some (.worker (.handling item (.incrementing exc newAttempt delay))))
    (past : time ≤ next.now)
    (honours : HonoursHint env.config.retry exc delay) :
    Paced env next (log ++ [(item.flight, .retried time exc delay)]) where
  toOrderly := quiet.toOrderly
  known := by
    intro flight event member
    rcases List.mem_append.mp member with old | new
    · exact quiet.known flight event old
    · rw [List.mem_singleton, Prod.mk.injEq] at new
      exact new.1 ▸ quiet.sound.job_lt (.agent id) item.job
        (by simp [jobAt_flights, itemAt, current, Task.item?])
  waiting := by
    intro flight then_ raised seconds member place other found same
    rcases List.mem_append.mp member with old | new
    · exact quiet.waiting flight then_ raised seconds old place other found same
    · simp only [List.mem_singleton, Prod.mk.injEq, DelayEvent.retried.injEq] at new
      obtain ⟨rfl, rfl, rfl, rfl⟩ := new
      have unique := quiet.sound.job_unique place (.agent id) other.job item.job
        (by rw [jobAt_flights, found]; rfl) (by simp [jobAt_flights, itemAt, current, Task.item?])
        same
      exact Or.inr ⟨id, _, unique, current, .incrementing (by linarith)⟩
  waited := by
    intro flight then_ raised seconds resumed sublist
    rcases pair_sublist_concat_iff.mp sublist with old | ⟨_, last⟩
    · exact quiet.waited flight then_ raised seconds resumed old
    · simp at last
  hinted := by
    intro flight then_ raised other member
    rcases List.mem_append.mp member with old | new
    · exact quiet.hinted flight then_ raised other old
    · simp only [List.mem_singleton, Prod.mk.injEq, DelayEvent.retried.injEq] at new
      obtain ⟨_, _, rfl, rfl⟩ := new
      exact honours

theorem Paced.step
    (paced : Paced env state log)
    (alive : label ≠ .crash)
    (moved : HardenedClient.step env label state = some next) :
    Paced env next (log ++ observeDelay state label next) := by
  have quiet := paced.quiet alive moved
  rcases observeDelay_cases moved with
    none | ⟨item, head, shown⟩ | ⟨id, item, exc, newAttempt, delay, current, honours, shown⟩
  · rw [none, List.append_nil]
    exact quiet
  · rw [shown]
    refine paced.handled quiet head (Nat.lt_of_lt_of_le ?_ ((step_stepped moved).created_le alive))
    exact paced.sound.job_lt (.queue 0) item.job (by rw [jobAt_flights, head]; rfl)
  · rw [shown]
    exact quiet.retried current (now_le_step moved) honours

end State

/-- In every run without a crash: when a pass of an item ends with a retry after a delay, no
pass of the item begins before the delay is over, and the delay is the `Retry-After` that the
failure came with, capped by `max_delay`, if there was a positive one. -/
theorem retries_wait_out_delays
    (env : Env)
    (tables : Tables)
    (now : ℚ)
    (history : List Event)
    (journal : Journaled State (ℕ × DelayEvent))
    (run : Run (record (step env) observeDelay) (fun _ label => label ≠ .crash)
      ⟨State.boot tables now history, []⟩ journal)
    (flight : ℕ)
    (time resumed : ℚ)
    (exc : PyException)
    (delay : PyFloat)
    (seen : [(flight, .retried time exc delay), (flight, .handled resumed)].Sublist journal.log) :
    (∀ seconds, delay = .finite seconds → time + seconds ≤ resumed) ∧
      ∀ hint, exc.retryAfter? = some hint → (PyFloat.finite 0).lt hint = true →
        delay = hint.pyMin env.config.retry.maxDelay := by
  have paced : State.Paced env journal.state journal.log :=
    run.invariant (fun reached => State.Paced env reached.state reached.log)
      (.boot env tables now history) fun before label after paced alive moved => by
        obtain ⟨stepped, extended⟩ := record_eq_some_iff.mp moved
        rw [extended]
        exact paced.step alive stepped
  constructor
  · rintro seconds rfl
    exact paced.waited flight time exc seconds resumed seen
  · exact paced.hinted flight time exc delay (seen.subset List.mem_cons_self)

/-- The first pass of an item, a retry with a delay of seven seconds, and the next pass. -/
def retriesAfterSeven : List (ℕ × DelayEvent) → Bool
  | [(0, .handled _), (0, .retried time exc (.finite seconds)), (0, .handled _)] =>
      decide (time = 0 ∧ seconds = 7 ∧ exc.retryAfter? = some (.finite 7))
  | _ => false

theorem pair_of_retriesAfterSeven
    {log : List (ℕ × DelayEvent)}
    (passes : retriesAfterSeven log = true) :
    ∃ exc resumed, exc.retryAfter? = some (.finite 7) ∧
      [(0, .retried 0 exc (.finite 7)), (0, .handled resumed)].Sublist log := by
  unfold retriesAfterSeven at passes
  split at passes
  · next first time exc seconds resumed =>
      obtain ⟨rfl, rfl, isHint⟩ := of_decide_eq_true passes
      exact ⟨exc, resumed, isHint, List.sublist_cons_self _ _⟩
  · cases passes

/-- An answer with status 429 asks to wait for seven seconds. -/
theorem retries_wait_out_delays_hinted :
    ∃ journal exc resumed,
      Run (record (step oneWorker) observeDelay) (fun _ label => label ≠ .crash)
        ⟨State.boot {} 0 [], []⟩ journal ∧
      [(0, .retried 0 exc (.finite 7)), (0, .handled resumed)].Sublist journal.log ∧
      0 + 7 ≤ resumed ∧ PyFloat.finite 7 = PyFloat.pyMin (.finite 7) oneWorker.config.retry.maxDelay := by
  have passes : (executeChecked (record (step oneWorker) observeDelay)
      (fun _ label => !label.isCrash)
      (startLabels ++ requestLabels 2 "http://example.org/" ++ sendLabels 1 ++
        [.step 1 (.http (.reply { status := 429, headers := [("Retry-After", "7")] }) 0),
          .step 1 .proceed, .step 1 .proceed, .tick 7, .step 3 .proceed, .step 3 .proceed,
          .step 1 .proceed])
      ⟨State.boot {} 0 [], []⟩).any (fun journal => retriesAfterSeven journal.log) = true := by
    decide +kernel
  obtain ⟨journal, run, tested⟩ :=
    exists_run_of_executeChecked (fun _ _ => Label.ne_crash_of_not_isCrash) passes
  obtain ⟨exc, resumed, isHint, seen⟩ := pair_of_retriesAfterSeven tested
  obtain ⟨waits, hinted⟩ :=
    retries_wait_out_delays oneWorker {} 0 [] journal run 0 0 resumed exc (.finite 7) seen
  exact ⟨journal, exc, resumed, run, seen, waits 7 rfl, hinted (.finite 7) isHint rfl⟩

end HardenedClient
