import Mathlib.Data.List.Basic

/-!
# Histories

A history lists events newest first. `Since mark holds history` says that
`holds` is true of the events after every marked event, which is how a
statement such as "from that commit on" is written over a recorded run.
`Recorded held history` says that every event was recorded when `held` was true
of the events before it.
-/

namespace Foundation

/-- After every event satisfying `mark`, the later events satisfy `holds`. -/
def Since (mark : α → Prop) (holds : List α → Prop) (history : List α) : Prop :=
  ∀ later event earlier,
    history = later ++ event :: earlier → mark event → holds later

theorem since_nil (mark : α → Prop) (holds : List α → Prop) :
    Since mark holds [] := by
  intro later event earlier split
  simp at split

/-- Recording one event: a marked event starts a new obligation, and the older
obligations see one event more. -/
theorem since_cons
    (mark : α → Prop)
    (holds : List α → Prop)
    (event : α)
    (history : List α) :
    Since mark holds (event :: history) ↔
      (mark event → holds []) ∧
        Since mark (fun later => holds (event :: later)) history := by
  constructor
  · intro since
    refine ⟨fun marked => since [] event history rfl marked, ?_⟩
    intro later marked earlier split isMarked
    exact since (event :: later) marked earlier (by rw [split]; rfl) isMarked
  · rintro ⟨head, tail⟩ later marked earlier split isMarked
    cases later with
    | nil =>
        obtain ⟨rfl, _⟩ := List.cons.inj split
        exact head isMarked
    | cons first rest =>
        obtain ⟨rfl, remaining⟩ := List.cons.inj split
        exact tail rest marked earlier remaining isMarked

theorem Since.mono
    {mark : α → Prop}
    {holds weaker : List α → Prop}
    {history : List α}
    (since : Since mark holds history)
    (implies : ∀ later, holds later → weaker later) :
    Since mark weaker history :=
  fun later event earlier split marked =>
    implies later (since later event earlier split marked)

/-- An obligation that holds whatever came later holds since every mark. -/
theorem Since.of_forall
    {mark : α → Prop}
    {holds : List α → Prop}
    (history : List α)
    (always : ∀ later, holds later) :
    Since mark holds history :=
  fun later _ _ _ _ => always later

/-- An unmarked event keeps an obligation that later events cannot break. -/
theorem Since.cons_of_not_mark
    {mark : α → Prop}
    {holds : List α → Prop}
    {event : α}
    {history : List α}
    (since : Since mark holds history)
    (unmarked : ¬ mark event)
    (grows : ∀ later, holds later → holds (event :: later)) :
    Since mark holds (event :: history) :=
  (since_cons mark holds event history).mpr
    ⟨fun marked => absurd marked unmarked, since.mono grows⟩

/-- Events recorded in front of a history keep an obligation to have seen some
event after every mark, when none of them is itself a mark. -/
theorem Since.append
    {mark : α → Prop}
    {holds : List α → Prop}
    {history : List α}
    (since : Since mark holds history)
    (events : List α)
    (unmarked : ∀ event ∈ events, ¬ mark event)
    (grows : ∀ event later, holds later → holds (event :: later)) :
    Since mark holds (events ++ history) := by
  induction events with
  | nil => exact since
  | cons event events inductionHypothesis =>
      exact (inductionHypothesis fun other present =>
          unmarked other (List.mem_cons_of_mem _ present)).cons_of_not_mark
        (unmarked event List.mem_cons_self) (grows event)

/-- Each event was recorded after a history that `held` admits. -/
def Recorded (held : α → List α → Prop) (history : List α) : Prop :=
  ∀ later event earlier, history = later ++ event :: earlier → held event earlier

theorem recorded_nil (held : α → List α → Prop) : Recorded held [] := by
  intro later event earlier split
  simp at split

theorem recorded_cons
    (held : α → List α → Prop)
    (event : α)
    (history : List α) :
    Recorded held (event :: history) ↔ held event history ∧ Recorded held history := by
  constructor
  · intro recorded
    refine ⟨recorded [] event history rfl, fun later other earlier split => ?_⟩
    exact recorded (event :: later) other earlier (by rw [split]; rfl)
  · rintro ⟨head, tail⟩ later other earlier split
    cases later with
    | nil =>
        obtain ⟨rfl, rfl⟩ := List.cons.inj split
        exact head
    | cons first rest =>
        obtain ⟨rfl, remaining⟩ := List.cons.inj split
        exact tail rest other earlier remaining

end Foundation
