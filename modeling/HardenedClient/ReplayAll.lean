import HardenedClient.Cli
import HardenedClient.Client.Replay
import Mathlib.Data.List.Induction

/-!
# Replay of the dead-letter queue

`replay_all` walks a snapshot of the dead-letter queue. Here each entry is replayed
to a given end: its row is removed, and a request that fails again comes back as a new
row with an id beyond those of the snapshot.
-/

namespace HardenedClient

open Foundation

/-- `ReplayResult`. -/
structure ReplayResult where
  rowId : ℕ
  requestId : String
  succeeded : Bool
  error : Option PyStr
  deriving DecidableEq

/-- How the request that `replay_entry` submits ends: with success, or with an error
at an attempt, after which the request is a dead letter again. The id and the creation
time are those of the new request. -/
inductive ReplayOutcome
  | succeeded
  | failed (requestId : String) (createdAt : ℚ) (exc : PyException) (attempt : ℕ) (now : ℚ)

/-- The request `replay_entry` submits for a row. -/
def DeadLetterRow.resubmitted
    (row : DeadLetterRow)
    (requestId : String)
    (createdAt : ℚ) : DurableRequest :=
  Payload.request { row.payload with
    method := toUnits (Request.fromStorage row.payload).method.upper
    requestId := requestId
    createdAt := createdAt }

/-- What `replay_entry` returns. -/
def replayResult (row : DeadLetterRow) : ReplayOutcome → ReplayResult
  | .succeeded => ⟨row.id, row.requestId, true, none⟩
  | .failed _ _ exc _ _ => ⟨row.id, row.requestId, false, some exc.message⟩

/-- What `replay_entry` leaves in the dead-letter queue. -/
def replayEntry (tables : Tables) (row : DeadLetterRow) : ReplayOutcome → Tables
  | .succeeded => tables.removeDeadLetter row.id
  | .failed requestId createdAt exc attempt now =>
      (tables.removeDeadLetter row.id).pushDeadLetter (row.resubmitted requestId createdAt)
        exc.message attempt now

/-- The loop of `replay_all` over rows that are replayed to the given ends. -/
def replayRows
    (tables : Tables)
    (replays : List (DeadLetterRow × ReplayOutcome)) : Tables × List ReplayResult :=
  replays.foldl
    (fun (reached, results) (row, outcome) =>
      (replayEntry reached row outcome, results ++ [replayResult row outcome]))
    (tables, [])

/-- The number of rows `replay_all` lists at most. -/
def replayLimit : ℕ := 10000

/-- `replay_all`, given what becomes of the request of each row. -/
def replayAll
    (tables : Tables)
    (outcomes : DeadLetterRow → ReplayOutcome) : Tables × List ReplayResult :=
  replayRows tables
    ((tables.listDeadLetter replayLimit).map fun row => (row, outcomes row))

/-! ## What is to be covered -/

/-- Two rows hold the same method, URL, parameters, headers and body. -/
def DeadLetterRow.SameRequest (row other : DeadLetterRow) : Prop :=
  let request := Request.fromStorage row.payload
  let second := Request.fromStorage other.payload
  request.method = second.method ∧ request.url = second.url ∧
    request.params = second.params ∧ request.headers = second.headers ∧
    request.body = second.body

/-- The dead letter holds the request of the row that was replayed, and the new
error. -/
def RecordsFailure (before : Tables) (letter : DeadLetterRow) (result : ReplayResult) : Prop :=
  ∃ row ∈ before.deadLetters, row.id = result.rowId ∧ letter.SameRequest row ∧
    result.error = some letter.error

/-- There is one result for each row there was, and one dead letter for each failed
result. -/
structure CoversDeadLetters
    (before : Tables)
    (results : List ReplayResult)
    (after : Tables) : Prop where
  rows : (results.map ReplayResult.rowId).Perm (before.deadLetters.map DeadLetterRow.id)
  letters : List.Forall₂ (RecordsFailure before) after.deadLetters
    (results.filter fun result => !result.succeeded)

/-- The ids are those of a PRIMARY KEY AUTOINCREMENT column, and methods are stored as
`request()` accepts them. -/
structure Tables.WellFormedLetters (tables : Tables) : Prop where
  distinct : (tables.deadLetters.map DeadLetterRow.id).Nodup
  counted : ∀ row ∈ tables.deadLetters, row.id < tables.nextDeadLetterId
  accepted : ∀ row ∈ tables.deadLetters,
    (Request.fromStorage row.payload).method.upper = (Request.fromStorage row.payload).method

instance (tables : Tables) : Decidable tables.WellFormedLetters :=
  decidable_of_iff
    ((tables.deadLetters.map DeadLetterRow.id).Nodup ∧
      (∀ row ∈ tables.deadLetters, row.id < tables.nextDeadLetterId) ∧
      ∀ row ∈ tables.deadLetters,
        (Request.fromStorage row.payload).method.upper = (Request.fromStorage row.payload).method)
    ⟨fun ⟨distinct, counted, accepted⟩ => ⟨distinct, counted, accepted⟩,
      fun ⟨distinct, counted, accepted⟩ => ⟨distinct, counted, accepted⟩⟩

/-! ## The snapshot -/

/-- The rows of the dead-letter queue, newest first. -/
theorem listDeadLetter_eq_take
    (tables : Tables)
    (limit : ℕ) :
    ∃ sorted : List DeadLetterRow, sorted.Perm tables.deadLetters ∧
      tables.listDeadLetter limit = sorted.take limit := by
  have general : ∀ rows sorted : List DeadLetterRow,
      (rows.foldl (fun sorted row => insertByAttempt row sorted) sorted).Perm
        (rows.reverse ++ sorted) := by
    intro rows
    induction rows with
    | nil => exact fun sorted => .refl _
    | cons head rest inductionHypothesis =>
        intro sorted
        refine (inductionHypothesis _).trans ?_
        rw [List.reverse_cons, List.append_assoc]
        exact (insertByAttempt_perm head sorted).append_left _
  refine ⟨_, ?_, rfl⟩
  refine (general tables.deadLetters []).trans ?_
  rw [List.append_nil]
  exact List.reverse_perm _

/-- A snapshot holds every row exactly when there are no more than its limit. -/
theorem listDeadLetter_perm_iff (tables : Tables) (limit : ℕ) :
    (tables.listDeadLetter limit).Perm tables.deadLetters ↔
      tables.deadLetters.length ≤ limit := by
  obtain ⟨sorted, perm, listed⟩ := listDeadLetter_eq_take tables limit
  rw [listed, ← perm.length_eq]
  constructor
  · intro whole
    have count := whole.length_eq.trans perm.length_eq.symm
    rw [List.length_take] at count
    omega
  · intro fits
    rwa [List.take_of_length_le fits]

/-! ## The loop -/

/-- One more iteration. -/
theorem replayRows_concat
    (tables : Tables)
    (replays : List (DeadLetterRow × ReplayOutcome))
    (row : DeadLetterRow)
    (outcome : ReplayOutcome) :
    replayRows tables (replays ++ [(row, outcome)]) =
      (replayEntry (replayRows tables replays).1 row outcome,
        (replayRows tables replays).2 ++ [replayResult row outcome]) := by
  rw [replayRows, List.foldl_append]
  rfl

/-- The loop returns one result after the other. -/
theorem replayRows_results
    (tables : Tables)
    (replays : List (DeadLetterRow × ReplayOutcome)) :
    (replayRows tables replays).2 =
      replays.map fun replay => replayResult replay.1 replay.2 := by
  induction replays using List.reverseRecOn with
  | nil => rfl
  | append_singleton replays replay inductionHypothesis =>
      rw [replayRows_concat, inductionHypothesis, List.map_append]
      rfl

/-- The rows of the requests that fail again, from the next id on. -/
def freshLetters : ℕ → List (DeadLetterRow × ReplayOutcome) → List DeadLetterRow
  | _, [] => []
  | next, (_, .succeeded) :: replays => freshLetters next replays
  | next, (row, .failed requestId createdAt exc attempt now) :: replays =>
      { id := next
        idempotencyKey := (row.resubmitted requestId createdAt).key
        requestId := requestId
        payload := (row.resubmitted requestId createdAt).payload
        error := exc.message
        retryCount := attempt
        firstSeen := now
        lastAttempt := now } :: freshLetters (next + 1) replays

/-- The tables after the loop, from its first iteration on. -/
theorem replayRows_cons
    (tables : Tables)
    (row : DeadLetterRow)
    (outcome : ReplayOutcome)
    (replays : List (DeadLetterRow × ReplayOutcome)) :
    (replayRows tables ((row, outcome) :: replays)).1 =
      (replayRows (replayEntry tables row outcome) replays).1 := by
  induction replays using List.reverseRecOn with
  | nil => rfl
  | append_singleton replays replay inductionHypothesis =>
      rw [← List.cons_append, replayRows_concat, replayRows_concat, inductionHypothesis]

/-- The loop removes the rows it replays and nothing else, since fresh rows have ids
beyond theirs. -/
theorem deadLetters_replayRows
    (tables : Tables)
    (replays : List (DeadLetterRow × ReplayOutcome))
    (counted : ∀ replay ∈ replays, replay.1.id < tables.nextDeadLetterId) :
    (replayRows tables replays).1.deadLetters =
      (tables.deadLetters.filter fun row => row.id ∉ replays.map fun replay => replay.1.id) ++
        freshLetters tables.nextDeadLetterId replays := by
  induction replays generalizing tables with
  | nil => simp [replayRows, freshLetters]
  | cons replay replays inductionHypothesis =>
      obtain ⟨row, outcome⟩ := replay
      obtain ⟨_, others⟩ := List.forall_mem_cons.mp counted
      rw [replayRows_cons]
      have removed : (tables.removeDeadLetter row.id).deadLetters.filter
            (fun other => other.id ∉ replays.map fun replay => replay.1.id) =
          tables.deadLetters.filter fun other =>
            other.id ∉ ((row, outcome) :: replays).map fun replay => replay.1.id := by
        rw [Tables.removeDeadLetter, List.filter_filter]
        apply List.filter_congr
        intro other _
        rw [← Bool.decide_and, decide_eq_decide, List.map_cons, List.mem_cons, not_or, and_comm]
      cases outcome with
      | succeeded =>
          refine (inductionHypothesis (replayEntry tables row .succeeded) others).trans ?_
          rw [← removed]
          rfl
      | failed requestId createdAt exc attempt now =>
          refine (inductionHypothesis (replayEntry tables row
            (.failed requestId createdAt exc attempt now)) fun replay member =>
              (others replay member).trans (Nat.lt_succ_self _)).trans ?_
          -- the fresh row is none of those that are still to be replayed
          have fresh : tables.nextDeadLetterId ∉ replays.map fun replay => replay.1.id := by
            intro member
            obtain ⟨replay, inReplays, isNext⟩ := List.mem_map.mp member
            exact absurd isNext (others replay inReplays).ne
          rw [← removed, replayEntry, Tables.pushDeadLetter, List.filter_append,
            List.append_assoc]
          congr 1
          rw [List.filter_singleton]
          simp only [Tables.removeDeadLetter, fresh, not_false_eq_true, decide_true]
          rfl

/-- Every request that fails again is recorded with its new error, and no other. -/
theorem forall₂_freshLetters
    {before : Tables}
    (accepted : ∀ row ∈ before.deadLetters,
      (Request.fromStorage row.payload).method.upper = (Request.fromStorage row.payload).method)
    (replays : List (DeadLetterRow × ReplayOutcome))
    (present : ∀ replay ∈ replays, replay.1 ∈ before.deadLetters)
    (next : ℕ) :
    List.Forall₂ (RecordsFailure before) (freshLetters next replays)
      ((replays.map fun replay => replayResult replay.1 replay.2).filter
        fun result => !result.succeeded) := by
  induction replays generalizing next with
  | nil => exact .nil
  | cons replay replays inductionHypothesis =>
      obtain ⟨row, outcome⟩ := replay
      obtain ⟨inTable, others⟩ := List.forall_mem_cons.mp present
      cases outcome with
      | succeeded => exact inductionHypothesis others next
      | failed requestId createdAt exc attempt now =>
          refine .cons ⟨row, inTable, rfl, ?_, rfl⟩ (inductionHypothesis others (next + 1))
          have restored := fromStorage_payload_request { row.payload with
            method := toUnits (Request.fromStorage row.payload).method.upper
            requestId := requestId
            createdAt := createdAt }
          simp only [DeadLetterRow.SameRequest, DeadLetterRow.resubmitted, restored]
          refine ⟨?_, rfl, rfl, rfl, rfl⟩
          have kept : Unpaired (Request.fromStorage row.payload).method.upper :=
            PyStr.unpaired_upper (unpaired_ofUnits _)
          exact (ofUnits_toUnits kept).trans (accepted row inTable)

/-- Whatever becomes of the requests, the queue is covered exactly when it is not longer
than the snapshot may be. -/
theorem coversDeadLetters_iff
    {tables : Tables}
    (wellFormed : tables.WellFormedLetters)
    (replays : List (DeadLetterRow × ReplayOutcome))
    (snapshot : replays.map Prod.fst = tables.listDeadLetter replayLimit) :
    CoversDeadLetters tables (replayRows tables replays).2 (replayRows tables replays).1 ↔
      tables.deadLetters.length ≤ replayLimit := by
  have ids : replays.map (fun replay => replay.1.id) =
      (tables.listDeadLetter replayLimit).map DeadLetterRow.id := by
    rw [← snapshot, List.map_map]
    rfl
  have results : (replayRows tables replays).2.map ReplayResult.rowId =
      (tables.listDeadLetter replayLimit).map DeadLetterRow.id := by
    rw [replayRows_results, List.map_map, ← ids]
    apply List.map_congr_left
    rintro ⟨row, outcome⟩ _
    cases outcome <;> rfl
  have present : ∀ replay ∈ replays, replay.1 ∈ tables.deadLetters := fun replay member =>
    Tables.mem_of_mem_listDeadLetter (snapshot ▸ List.mem_map_of_mem member)
  constructor
  · intro covers
    obtain ⟨sorted, perm, listed⟩ := listDeadLetter_eq_take tables replayLimit
    have count := covers.rows.length_eq
    rw [results, List.length_map, List.length_map, listed, List.length_take,
      perm.length_eq] at count
    omega
  · intro fits
    have whole := (listDeadLetter_perm_iff tables replayLimit).mpr fits
    refine ⟨results ▸ whole.map DeadLetterRow.id, ?_⟩
    have gone : (tables.deadLetters.filter fun row =>
        row.id ∉ replays.map fun replay => replay.1.id) = [] := by
      apply List.filter_eq_nil_iff.mpr
      intro row member absent
      rw [ids, decide_eq_true_eq] at absent
      exact absent (List.mem_map_of_mem (whole.mem_iff.mpr member))
    rw [deadLetters_replayRows tables replays fun replay member =>
      wellFormed.counted _ (present replay member), gone, List.nil_append, replayRows_results]
    exact forall₂_freshLetters wellFormed.accepted replays present _

/-- Rows that are told apart by their ids are replayed to ends that depend on the row
alone. -/
theorem exists_outcomes
    (replays : List (DeadLetterRow × ReplayOutcome))
    (distinct : (replays.map fun replay => replay.1.id).Nodup) :
    ∃ outcomes : DeadLetterRow → ReplayOutcome,
      (replays.map Prod.fst).map (fun row => (row, outcomes row)) = replays := by
  induction replays with
  | nil => exact ⟨fun _ => .succeeded, rfl⟩
  | cons replay replays inductionHypothesis =>
      rw [List.map_cons, List.nodup_cons] at distinct
      obtain ⟨outcomes, same⟩ := inductionHypothesis distinct.2
      refine ⟨fun row => if row.id = replay.1.id then replay.2 else outcomes row, ?_⟩
      rw [List.map_cons, List.map_cons]
      dsimp only
      rw [if_pos rfl]
      congr 1
      refine Eq.trans ?_ same
      apply List.map_congr_left
      intro row member
      obtain ⟨other, inReplays, rfl⟩ := List.mem_map.mp member
      have different : other.1.id ≠ replay.1.id := fun clash =>
        distinct.1 (clash ▸ List.mem_map_of_mem inReplays)
      rw [if_neg different]

/-- The dead letters of a request, `count` of them. -/
def manyLetters (count : ℕ) : Tables where
  deadLetters := (List.range count).map fun id =>
    { id := id + 1
      idempotencyKey := (getPayload "http://example.org/").request.key
      requestId := ""
      payload := getPayload "http://example.org/"
      error := "HTTP 404"
      retryCount := 0
      firstSeen := 0
      lastAttempt := 0 }
  nextDeadLetterId := count + 1

theorem wellFormed_manyLetters (count : ℕ) : (manyLetters count).WellFormedLetters where
  distinct := by
    rw [manyLetters, List.map_map]
    exact List.nodup_range.map (Nat.succ_injective)
  counted := by
    intro row member
    obtain ⟨id, inRange, rfl⟩ := List.mem_map.mp member
    exact Nat.succ_lt_succ (List.mem_range.mp inRange)
  accepted := by
    intro row member
    obtain ⟨id, _, rfl⟩ := List.mem_map.mp member
    have capital : (Request.fromStorage (getPayload "http://example.org/")).method.upper =
        (Request.fromStorage (getPayload "http://example.org/")).method := by
      decide +kernel
    exact capital

/-- Of 10001 dead letters one stays where it is, without a result. -/
theorem not_covers_many :
    ¬ CoversDeadLetters (manyLetters 10001) (replayAll (manyLetters 10001) fun _ => .succeeded).2
      (replayAll (manyLetters 10001) fun _ => .succeeded).1 := by
  intro covers
  have fits := (coversDeadLetters_iff (wellFormed_manyLetters 10001) _ (by
    rw [List.map_map]
    exact List.map_id _)).mp covers
  simp [manyLetters, replayLimit] at fits

end HardenedClient
