import HardenedClient.Client.Arrivals
import HardenedClient.Client.Ledger
import HardenedClient.Client.Replay
import HardenedClient.Foundation.Journal

/-!
# Rows and their recovery

What an inflight row is about is fixed when it is inserted: later submissions, retries and
restarts change its counter and its status only. `start()` lists the rows by their time of
creation and deals with them in that order, whatever else runs in between.
-/

namespace HardenedClient

open Foundation

/-! ## What a row keeps -/

/-- The rows are about the same submission. -/
structure InflightRow.Continues (before after : InflightRow) : Prop where
  key : after.idempotencyKey = before.idempotencyKey
  requestId : after.requestId = before.requestId
  payload : after.payload = before.payload
  createdAt : after.createdAt = before.createdAt

theorem InflightRow.Continues.refl (row : InflightRow) : row.Continues row :=
  ⟨rfl, rfl, rfl, rfl⟩

theorem InflightRow.Continues.trans
    {first second third : InflightRow}
    (former : first.Continues second)
    (latter : second.Continues third) :
    first.Continues third where
  key := latter.key.trans former.key
  requestId := latter.requestId.trans former.requestId
  payload := latter.payload.trans former.payload
  createdAt := latter.createdAt.trans former.createdAt

/-- Rows by their time of creation, oldest first. -/
def ByCreation (rows : List InflightRow) : Prop :=
  rows.Pairwise fun earlier later => earlier.createdAt ≤ later.createdAt

theorem byCreation_insert
    (row : InflightRow)
    {rows : List InflightRow}
    (sorted : ByCreation rows) :
    ByCreation (Tables.insertByCreation row rows) := by
  induction rows with
  | nil => exact List.pairwise_singleton _ _
  | cons head rest inductionHypothesis =>
      obtain ⟨first, sortedRest⟩ := List.pairwise_cons.mp sorted
      rw [Tables.insertByCreation]
      split_ifs with older
      · refine List.pairwise_cons.mpr ⟨fun other member => ?_, sorted⟩
        rcases List.mem_cons.mp member with rfl | later
        · exact older.le
        · exact older.le.trans (first other later)
      · refine List.pairwise_cons.mpr ⟨fun other member => ?_, inductionHypothesis sortedRest⟩
        rcases List.mem_cons.mp ((Tables.insertByCreation_perm row rest).mem_iff.mp member) with
          rfl | later
        · exact not_lt.mp older
        · exact first other later

theorem byCreation_listInflight (tables : Tables) : ByCreation tables.listInflight := by
  have general : ∀ rows sorted : List InflightRow, ByCreation sorted →
      ByCreation (rows.foldl (fun sorted row => Tables.insertByCreation row sorted) sorted) := by
    intro rows
    induction rows with
    | nil => exact fun _ isSorted => isSorted
    | cons row rows inductionHypothesis =>
        exact fun sorted isSorted => inductionHypothesis _ (byCreation_insert row isSorted)
  exact general tables.inflight.rows [] List.Pairwise.nil

/-! ## Dealing with the rows -/

/-- What is seen of a `start()` call: it lists the table, skips a row whose key is busy, or
puts the item of a row on the queue. -/
inductive RecoveryEvent
  | listed (table : List InflightRow)
  | skipped (row : InflightRow)
  | enqueued (item : QueueItem)

/-- What a step shows of which `start()` call. -/
def State.observeRecovery
    (state : State)
    (label : Label)
    (_ : State) : List (ℕ × RecoveryEvent) :=
  match label with
  | .step id .proceed =>
      match state.tasks id with
      | some (.starter .listing) =>
          if state.connected then [(id, .listed state.tables.inflight.rows)] else []
      | some (.starter (.recovering (row :: _))) =>
          if (state.dedup.pendingFuture? row.idempotencyKey).isSome then [(id, .skipped row)]
          else []
      | some (.starter (.reenqueueing item _)) => [(id, .enqueued item)]
      | _ => []
  | _ => []

/-- What is seen of one `start()` call. -/
def eventsOf (id : ℕ) (log : List (ℕ × RecoveryEvent)) : List RecoveryEvent :=
  (log.filter fun entry => entry.1 = id).map Prod.snd

theorem eventsOf_append (id : ℕ) (log more : List (ℕ × RecoveryEvent)) :
    eventsOf id (log ++ more) = eventsOf id log ++ eventsOf id more := by
  simp [eventsOf]

@[simp] theorem eventsOf_singleton (id : ℕ) (event : RecoveryEvent) :
    eventsOf id [(id, event)] = [event] := by
  simp [eventsOf]

@[simp] theorem eventsOf_nil (id : ℕ) : eventsOf id [] = [] := rfl

/-- An event that deals with a row: it is skipped, or an item with its request and its
counter is put on the queue. -/
def InflightRow.DealtBy (row : InflightRow) : RecoveryEvent → Prop
  | .listed _ => False
  | .skipped other => other = row
  | .enqueued item => item.request = row.payload.request ∧ item.attempt = row.retryCount

/-- The rows that a `start()` call has still to deal with. -/
inductive Faces : List InflightRow → Task → Prop
  | recovering {rows : List InflightRow} : Faces rows (.starter (.recovering rows))
  | reenqueueing {row : InflightRow} {rows : List InflightRow} {item : QueueItem}
      (dealt : row.DealtBy (.enqueued item)) :
      Faces (row :: rows) (.starter (.reenqueueing item rows))
  | started : Faces [] (.starter .started)
  | failed {rows : List InflightRow} {exc : PyException} :
      Faces rows (.starter (.failed exc))

/-- The task is no `start()` call that has listed the rows. -/
def Task.unlisted : Option Task → Bool
  | some (.starter (.recovering _)) | some (.starter (.reenqueueing _ _))
  | some (.starter .started) => false
  | _ => true

/-- What a task has shown of its recovery. -/
inductive Recovering : Option Task → List RecoveryEvent → Prop
  | quiet {task : Option Task} (unlisted : Task.unlisted task = true) : Recovering task []
  | dealing {task : Task} {table listing done rest : List InflightRow}
      {events : List RecoveryEvent}
      (same : listing.Perm table)
      (sorted : ByCreation listing)
      (split : listing = done ++ rest)
      (dealt : List.Forall₂ InflightRow.DealtBy done events)
      (faces : Faces rest task) :
      Recovering (some task) (.listed table :: events)

/-- A task that is no `start()` call has shown nothing. -/
theorem Recovering.eq_nil
    {task : Option Task}
    {own : List RecoveryEvent}
    (recovers : Recovering task own)
    (other : ∀ point, task ≠ some (.starter point)) :
    own = [] := by
  cases recovers with
  | quiet => rfl
  | dealing _ _ _ _ faces => cases faces <;> exact absurd rfl (other _)

/-- A `start()` call fails or is cancelled. -/
theorem Recovering.fail
    {task : Task}
    {own : List RecoveryEvent}
    (recovers : Recovering (some task) own)
    (exc : PyException) :
    Recovering (some (.starter (.failed exc))) own := by
  cases recovers with
  | quiet => exact .quiet rfl
  | dealing same sorted split dealt => exact .dealing same sorted split dealt .failed

namespace State

variable {env : Env} {state next : State} {label : Label} {id : ℕ} {own : List RecoveryEvent}

/-- Nothing is seen of a task that is no `start()` call. -/
theorem eventsOf_observeRecovery
    (other : ∀ point, label = .step id .proceed → state.tasks id ≠ some (.starter point)) :
    eventsOf id (state.observeRecovery label next) = [] := by
  unfold observeRecovery
  split
  · next actor =>
      by_cases same : actor = id
      · subst same
        split
        · next current => exact absurd current (other _ rfl)
        · next current => exact absurd current (other _ rfl)
        · next current => exact absurd current (other _ rfl)
        · rfl
      · split
        · split_ifs <;> simp [eventsOf, same]
        · split_ifs <;> simp [eventsOf, same]
        · simp [eventsOf, same]
        · rfl
  · rfl

/-- A step of a `start()` call deals with at most one row, in order. -/
theorem recovering_stepStarter
    {point : StartPoint}
    {choice : Choice}
    (recovers : Recovering (some (.starter point)) own)
    (current : state.tasks id = some (.starter point))
    (moved : state.stepStarter env id point choice = some next) :
    Recovering (next.tasks id)
      (own ++ eventsOf id (state.observeRecovery (.step id choice) next)) := by
  have silent : eventsOf id (state.observeRecovery (.step id choice) next) = [] →
      Recovering (next.tasks id) own → Recovering (next.tasks id)
        (own ++ eventsOf id (state.observeRecovery (.step id choice) next)) := by
    intro none goes
    rwa [none, List.append_nil]
  cases point <;> cases choice <;>
    simp only [stepStarter, failStart, reduceCtorEq] at moved
  case opening.proceed | preparing.proceed =>
    refine silent (by simp [observeRecovery, current, eventsOf]) ?_
    rw [← Option.some.inj moved, setTask_tasks_self]
    cases recovers with
    | quiet => exact .quiet rfl
    | dealing _ _ _ _ faces => cases faces
  case opening.storageError exc | preparing.storageError exc | listing.storageError exc =>
    refine silent rfl ?_
    rw [← Option.some.inj moved, setTask_tasks_self]
    exact recovers.fail exc
  case listing.proceed =>
    split_ifs at moved with connected <;> rw [← Option.some.inj moved, setTask_tasks_self]
    · cases recovers with
      | quiet =>
          simp only [observeRecovery, current, connected, if_true, eventsOf_singleton]
          exact .dealing state.tables.listInflight_perm (byCreation_listInflight state.tables)
            (List.nil_append _).symm .nil .recovering
      | dealing _ _ _ _ faces => cases faces
    · refine (congrArg _ ?_).mp (recovers.fail notOpened)
      simp [observeRecovery, current, connected]
  case recovering.proceed rows =>
    cases recovers with
    | quiet unlisted => cases unlisted
    | @dealing _ table listing done rest events same sorted split dealt faces =>
      cases faces
      cases rows with
      | nil =>
          refine silent (by simp [observeRecovery, current, eventsOf]) ?_
          rw [← Option.some.inj moved, online_tasks_self]
          exact .dealing same sorted split dealt .started
      | cons row rows =>
          obtain rfl := Option.some.inj moved
          rcases state.dedup.getOrCreate_cases row.idempotencyKey with
            ⟨existing, registered, pending, called⟩ | ⟨free, called⟩
          · have busy := (state.dedup.pendingFuture?_eq_some_iff _ _).mpr ⟨registered, pending⟩
            simp only [recoverRow, called, setTask_tasks_self, observeRecovery, current, busy,
              Option.isSome_some, if_true, eventsOf_singleton]
            refine .dealing same sorted (?_ : listing = (done ++ [row]) ++ rows) ?_ .recovering
            · rw [split, List.append_assoc, List.singleton_append]
            · exact List.rel_append dealt (.cons rfl .nil)
          · refine silent (by simp [observeRecovery, current, free]) ?_
            simp only [recoverRow, called, setTask_tasks_self]
            exact .dealing same sorted split dealt (.reenqueueing ⟨rfl, rfl⟩)
  case reenqueueing.proceed item rows =>
    split_ifs at moved with room
    cases recovers with
    | quiet unlisted => cases unlisted
    | @dealing _ table listing done rest events same sorted split dealt faces =>
      cases faces with
      | @reenqueueing row _ _ puts =>
        rw [← Option.some.inj moved, setTask_tasks_self]
        simp only [observeRecovery, current, eventsOf_singleton]
        refine .dealing same sorted (?_ : listing = (done ++ [row]) ++ rows) ?_ .recovering
        · rw [split, List.append_assoc, List.singleton_append]
        · exact List.rel_append dealt (.cons puts .nil)

/-- A step keeps what every `start()` call has shown in order. -/
theorem recovering_step
    (tidy : state.Tidy)
    (alive : label ≠ .crash)
    (recovers : Recovering (state.tasks id) own)
    (moved : HardenedClient.step env label state = some next) :
    Recovering (next.tasks id) (own ++ eventsOf id (state.observeRecovery label next)) := by
  have stepped := step_stepped moved
  by_cases starts : ∃ point, state.tasks id = some (.starter point)
  · obtain ⟨point, current⟩ := starts
    rw [current] at recovers
    by_cases isActor : id = label.actor state
    swap
    · have same := (stepped.frame tidy alive).others id (tidy.lt_of_task current) isActor
      have silent : eventsOf id (state.observeRecovery label next) = [] := by
        apply eventsOf_observeRecovery
        rintro _ rfl
        exact absurd rfl isActor
      rw [silent, List.append_nil, same, current]
      exact recovers
    cases label with
    | step actor choice =>
        obtain rfl : id = actor := isActor
        simp only [HardenedClient.step, stepTask, current] at moved
        exact recovering_stepStarter recovers current moved
    | cancel actor =>
        obtain rfl : id = actor := isActor
        rw [eventsOf_observeRecovery (by simp), List.append_nil]
        simp only [HardenedClient.step, cancelTask, current] at moved
        cases point <;> simp only [reduceCtorEq] at moved
        all_goals
          rw [← Option.some.inj moved, setTask_tasks_self]
          exact recovers.fail .cancelledError
    | cancelWorker actor =>
        obtain rfl : id = actor := isActor
        simp only [HardenedClient.step, cancelWorker, current] at moved
        split_ifs at moved
    | crash => exact absurd rfl alive
    | _ =>
        obtain rfl : id = state.spawned := isActor
        exact absurd (tidy.lt_of_task current) (Nat.lt_irrefl _)
  · have unseen : own = [] := recovers.eq_nil (not_exists.mp starts)
    rw [eventsOf_observeRecovery fun point _ current => starts ⟨point, current⟩, unseen]
    apply Recovering.quiet
    cases after : next.tasks id with
    | none => rfl
    | some task =>
      cases task with
      | starter point =>
          rcases stepped.starter_cases tidy after with
            ⟨before, _⟩ | ⟨_, rfl | rfl⟩ | ⟨_, before, _, current, _⟩ | ⟨_, rfl⟩
          · exact absurd ⟨point, before⟩ starts
          · rfl
          · rfl
          · exact absurd ⟨before, current⟩ starts
          · rfl
      | _ => rfl

end State

/-- In every run without a crash, each `start()` call deals with the rows that were in the
table when it listed them by their time of creation, oldest first: it skips a row, or puts an
item with the row's request and counter on the queue, and when it returns it has dealt with
all of them. -/
theorem recovery_follows_creation
    (env : Env)
    (tables : Tables)
    (now : ℚ)
    (history : List Event)
    (journal : Journaled State (ℕ × RecoveryEvent))
    (run : Run (record (step env) State.observeRecovery) (fun _ label => label ≠ .crash)
      ⟨State.boot tables now history, []⟩ journal)
    (id : ℕ)
    (table : List InflightRow)
    (later : List RecoveryEvent)
    (seen : eventsOf id journal.log = .listed table :: later) :
    ∃ done rest : List InflightRow,
      (done ++ rest).Perm table ∧
      (done ++ rest).Pairwise (fun earlier later => earlier.createdAt ≤ later.createdAt) ∧
      List.Forall₂ InflightRow.DealtBy done later ∧
      (journal.state.tasks id = some (.starter .started) → rest = []) := by
  obtain ⟨_, recovers⟩ := run.invariant
    (fun reached => reached.state.Tidy ∧
      Recovering (reached.state.tasks id) (eventsOf id reached.log))
    ⟨State.tidy_boot tables now history, .quiet rfl⟩ fun before label after holds alive moved => by
      obtain ⟨stepped, extended⟩ := record_eq_some_iff.mp moved
      obtain ⟨tidy, recovers⟩ := holds
      refine ⟨(step_stepped stepped).tidy tidy, ?_⟩
      rw [extended, eventsOf_append]
      exact State.recovering_step tidy alive recovers stepped
  rw [seen] at recovers
  generalize reached : journal.state.tasks id = task at recovers ⊢
  cases recovers with
  | @dealing task _ listing done rest _ same sorted split dealt faces =>
      rw [split] at same sorted
      refine ⟨done, rest, same, sorted, dealt, fun isStarted => ?_⟩
      rw [Option.some.inj isStarted] at faces
      cases faces
      rfl

/-- Two rows, of which the first one in the table is the younger one. -/
def youngerFirst : Tables :=
  (({} : Tables).upsertInflight (getPayload "http://example.org/young").request 5).upsertInflight
    (getPayload "http://example.org/old").request 3

/-- A start has listed two rows and put the items of both on the queue. -/
def recoversTwo : List RecoveryEvent → Bool
  | [.listed table, .enqueued first, .enqueued second] =>
      decide (table.map InflightRow.createdAt = [5, 3] ∧
        first.request.request.url = "http://example.org/old" ∧
        second.request.request.url = "http://example.org/young")
  | _ => false

theorem recovery_follows_creation_reversed :
    ∃ journal table later,
      Run (record (step oneWorker) State.observeRecovery) (fun _ label => label ≠ .crash)
        ⟨State.boot youngerFirst 10 [], []⟩ journal ∧
      eventsOf 0 journal.log = .listed table :: later ∧ later.length = 2 ∧
      table.map InflightRow.createdAt = [5, 3] ∧
      ∃ done rest : List InflightRow,
        (done ++ rest).Perm table ∧
        (done ++ rest).Pairwise (fun earlier later => earlier.createdAt ≤ later.createdAt) ∧
        List.Forall₂ InflightRow.DealtBy done later ∧
        (journal.state.tasks 0 = some (.starter .started) → rest = []) := by
  have passes : (executeChecked (record (step oneWorker) State.observeRecovery)
      (fun (_ : Journaled State (ℕ × RecoveryEvent)) label => !label.isCrash)
      (.start :: proceedLabels 0 8)
      ⟨State.boot youngerFirst 10 [], []⟩).any (fun journal =>
        recoversTwo (eventsOf 0 journal.log)) = true := by
    decide +kernel
  obtain ⟨journal, run, tested⟩ :=
    exists_run_of_executeChecked (fun _ _ => Label.ne_crash_of_not_isCrash) passes
  unfold recoversTwo at tested
  split at tested
  · next table first second seen =>
      exact ⟨journal, table, _, run, seen, rfl, (of_decide_eq_true tested).1,
        recovery_follows_creation oneWorker youngerFirst 10 [] journal run 0 table _ seen⟩
  · cases tested

end HardenedClient
