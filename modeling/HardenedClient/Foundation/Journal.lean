import HardenedClient.Foundation.Schedule
import Mathlib.Data.List.Sublists

/-!
# Runs with a journal

A transition system is observed: every move appends what it shows to a log.
The log takes no part in the moves, so a run of the system is a run of the
observed one and the other way round.
-/

namespace Foundation

/-- A state with the log of what was seen on the way to it. -/
structure Journaled (S E : Type*) where
  state : S
  log : List E := []

/-- A move that appends what it shows. -/
def record
    (step : L → S → Option S)
    (observe : S → L → S → List E)
    (label : L)
    (before : Journaled S E) : Option (Journaled S E) :=
  (step label before.state).map fun after =>
    ⟨after, before.log ++ observe before.state label after⟩

theorem record_eq_some_iff
    {step : L → S → Option S}
    {observe : S → L → S → List E}
    {label : L}
    {before after : Journaled S E} :
    record step observe label before = some after ↔
      step label before.state = some after.state ∧
        after.log = before.log ++ observe before.state label after.state := by
  obtain ⟨state, log⟩ := after
  simp only [record, Option.map_eq_some_iff, Journaled.mk.injEq]
  constructor
  · rintro ⟨next, moved, rfl, rfl⟩
    exact ⟨moved, rfl⟩
  · rintro ⟨moved, rfl⟩
    exact ⟨state, moved, rfl, rfl⟩

/-- A run without its journal. -/
theorem Run.forget
    {step : L → S → Option S}
    {observe : S → L → S → List E}
    {allowed : Journaled S E → L → Prop}
    {permitted : S → L → Prop}
    (permits : ∀ before label, allowed before label → permitted before.state label)
    {start final : Journaled S E}
    (run : Run (record step observe) allowed start final) :
    Run step permitted start.state final.state := by
  induction run with
  | refl => exact .refl
  | tail _ isAllowed moved inductionHypothesis =>
      exact .tail inductionHypothesis (permits _ _ isAllowed) (record_eq_some_iff.mp moved).1

/-- Every run has a journal. -/
theorem Run.journaled
    {step : L → S → Option S}
    (observe : S → L → S → List E)
    {permitted : S → L → Prop}
    {start final : S}
    (run : Run step permitted start final) :
    ∃ log, Run (record step observe) (fun before label => permitted before.state label)
      ⟨start, []⟩ ⟨final, log⟩ := by
  induction run with
  | refl => exact ⟨[], .refl⟩
  | @tail state next label _ isPermitted moved inductionHypothesis =>
      obtain ⟨log, run⟩ := inductionHypothesis
      refine ⟨log ++ observe state label next, .tail run isPermitted ?_⟩
      exact record_eq_some_iff.mpr ⟨moved, rfl⟩

/-- An event of a longer log is the last one, or was seen before. -/
theorem split_concat
    {log earlier later : List E}
    {event last : E}
    (split : log ++ [last] = earlier ++ event :: later) :
    earlier = log ∧ event = last ∧ later = [] ∨
      ∃ before, later = before ++ [last] ∧ log = earlier ++ event :: before := by
  rcases List.eq_nil_or_concat later with rfl | ⟨before, final, rfl⟩
  · obtain ⟨same, isLast⟩ := List.append_inj' split rfl
    exact Or.inl ⟨same.symm, (List.cons.inj isLast).1.symm, rfl⟩
  · right
    rw [List.concat_eq_append, ← List.cons_append, ← List.append_assoc] at split
    obtain ⟨same, isLast⟩ := List.append_inj' split rfl
    rw [(List.cons.inj isLast).1]
    exact ⟨before, List.concat_eq_append, same⟩

/-- Every event that sets something was followed by one that clears it. -/
def Undone (sets clears : E → Prop) (log : List E) : Prop :=
  ∀ earlier event later, log = earlier ++ event :: later → sets event →
    ∃ other ∈ later, clears other

theorem undone_nil (sets clears : E → Prop) : Undone sets clears [] := by
  intro earlier event later split
  simp at split

/-- The last event sets nothing, and it clears what was set or nothing was left to
clear. -/
theorem undone_concat_iff
    {sets clears : E → Prop}
    {log : List E}
    {last : E} :
    Undone sets clears (log ++ [last]) ↔
      ¬ sets last ∧ (clears last ∨ Undone sets clears log) := by
  constructor
  · intro undone
    refine ⟨fun isSet => ?_, ?_⟩
    · obtain ⟨_, member, _⟩ := undone log last [] rfl isSet
      cases member
    · by_cases cleared : clears last
      · exact Or.inl cleared
      · refine Or.inr fun earlier event later split isSet => ?_
        obtain ⟨other, member, clearing⟩ :=
          undone earlier event (later ++ [last]) (by rw [split]; simp) isSet
        rcases List.mem_append.mp member with before | isLast
        · exact ⟨other, before, clearing⟩
        · exact absurd (List.mem_singleton.mp isLast ▸ clearing) cleared
  · rintro ⟨notSet, cleared⟩ earlier event later split isSet
    rcases split_concat split with ⟨_, rfl, _⟩ | ⟨before, rfl, same⟩
    · exact absurd isSet notSet
    · rcases cleared with clearing | undone
      · exact ⟨last, by simp, clearing⟩
      · obtain ⟨other, member, clearing⟩ := undone earlier event before same isSet
        exact ⟨other, List.mem_append_left _ member, clearing⟩

/-- What moves break and restore holds exactly when every breach was undone, and it held
at the start or was restored since. -/
theorem Run.undone_iff
    {step : L → S → Option S}
    {event : S → L → E}
    {allowed : Journaled S E → L → Prop}
    {sets clears : E → Prop}
    {good : S → Prop}
    (kept : ∀ before label after, good before → step label before = some after → good after)
    (holds : S → Prop)
    (moves : ∀ before label after, good before → step label before = some after →
      (holds after ↔ ¬ sets (event before label) ∧
        (clears (event before label) ∨ holds before)))
    {start : S}
    {final : Journaled S E}
    (isGood : good start)
    (run : Run (record step fun before label _ => [event before label]) allowed
      ⟨start, []⟩ final) :
    holds final.state ↔ Undone sets clears final.log ∧
      (¬ holds start → ∃ seen ∈ final.log, clears seen) := by
  have invariant : good final.state ∧ (holds final.state ↔ Undone sets clears final.log ∧
      (¬ holds start → ∃ seen ∈ final.log, clears seen)) := by
    induction run with
    | refl => exact ⟨isGood, by simp [undone_nil]⟩
    | @tail middle next label _ _ moved inductionHypothesis =>
        obtain ⟨goodMiddle, holdsMiddle⟩ := inductionHypothesis
        obtain ⟨stepped, extended⟩ := record_eq_some_iff.mp moved
        refine ⟨kept _ _ _ goodMiddle stepped, ?_⟩
        rw [moves _ _ _ goodMiddle stepped, extended, undone_concat_iff, holdsMiddle]
        by_cases clearing : clears (event middle.state label)
        · simp only [clearing, true_or, and_true, List.mem_append, List.mem_singleton, or_and_right,
            exists_or, exists_eq_left, or_true, implies_true]
        · simp only [clearing, false_or, List.mem_append, List.mem_singleton, or_and_right,
            exists_or, exists_eq_left, or_false]
          rw [and_assoc]
  exact invariant.2

/-- A pair seen in order in a longer log was seen before, or its second part is new. -/
theorem pair_sublist_concat_iff
    {first second last : E}
    {log : List E} :
    [first, second].Sublist (log ++ [last]) ↔
      [first, second].Sublist log ∨ first ∈ log ∧ second = last := by
  constructor
  · intro sublist
    obtain ⟨early, late, split, inLog, inLast⟩ := List.sublist_append_iff.mp sublist
    rcases List.sublist_singleton.mp inLast with rfl | rfl
    · rw [List.append_nil] at split
      exact Or.inl (split ▸ inLog)
    · obtain ⟨isEarly, isLast⟩ :=
        List.append_inj' (show [first] ++ [second] = early ++ [last] from split) rfl
      subst isEarly
      exact Or.inr ⟨List.singleton_sublist.mp inLog, (List.cons.inj isLast).1⟩
  · rintro (sublist | ⟨member, rfl⟩)
    · exact sublist.trans (List.sublist_append_left log [last])
    · exact (List.singleton_sublist.mpr member).append (List.Sublist.refl [second])

/-- A store that hands out what it was given in the order it was given: what was put is
what was taken, followed by what is still there. -/
theorem Run.first_in_first_out
    {step : L → S → Option S}
    {observe : S → L → S → List E}
    {allowed : Journaled S E → L → Prop}
    (content : S → List A)
    (put? took? : E → Option A)
    (moves : ∀ before label after, allowed before label → step label before.state = some after →
      (observe before.state label after).filterMap took? ++ content after =
        content before.state ++ (observe before.state label after).filterMap put?)
    {start : S}
    {final : Journaled S E}
    (empty : content start = [])
    (run : Run (record step observe) allowed ⟨start, []⟩ final) :
    final.log.filterMap put? = final.log.filterMap took? ++ content final.state := by
  induction run with
  | refl => simp [empty]
  | tail _ isAllowed moved inductionHypothesis =>
      obtain ⟨stepped, extended⟩ := record_eq_some_iff.mp moved
      rw [extended, List.filterMap_append, List.filterMap_append, inductionHypothesis,
        List.append_assoc, List.append_assoc, moves _ _ _ isAllowed stepped]

/-- A component runs on its own: replaying its part of the journal in another system gives
what the run made of it. -/
theorem Run.component
    {step : L → S → Option S}
    {observe : S → L → S → List E}
    {other : M → T → Option T}
    {own : E → Option M}
    (allowed : S → L → Prop)
    {start : S}
    {view : T}
    {final : Journaled S E}
    (run : Run (record step observe) (fun before label => allowed before.state label)
      ⟨start, []⟩ final)
    (relates : S → T → Prop)
    (related : relates start view)
    (simulates : ∀ before label after view, relates before view → allowed before label →
      step label before = some after →
        ∃ next, executeAll other ((observe before label after).filterMap own) view = some next ∧
          relates after next) :
    ∃ next, executeAll other (final.log.filterMap own) view = some next ∧
      relates final.state next := by
  induction run with
  | refl => exact ⟨view, rfl, related⟩
  | tail _ isAllowed moved inductionHypothesis =>
      obtain ⟨stepped, extended⟩ := record_eq_some_iff.mp moved
      obtain ⟨middle, ran, relatedMiddle⟩ := inductionHypothesis
      obtain ⟨next, moves, relatedNext⟩ := simulates _ _ _ middle relatedMiddle isAllowed stepped
      refine ⟨next, ?_, relatedNext⟩
      rw [extended, List.filterMap_append, executeAll_append, ran]
      exact moves

/-- Every allowed label moves the view as the label it becomes does, or leaves the
view alone when it is erased. -/
def Erases
    (step : L → S → Option S)
    (other : M → T → Option T)
    (view : S → T)
    (erase : L → Option M)
    (allowed : S → L → Prop) : Prop :=
  ∀ label state next, allowed state label → step label state = some next →
    (erase label).elim (view next = view state) fun seen =>
      other seen (view state) = some (view next)

/-- A run in which every label is allowed runs in the other system without its erased
labels. -/
theorem Erases.executeAll
    {step : L → S → Option S}
    {other : M → T → Option T}
    {view : S → T}
    {erase : L → Option M}
    {allowed : S → L → Prop}
    (erases : Erases step other view erase allowed)
    {start : S}
    {final : Journaled S L}
    (run : Run (record step fun _ label _ => [label])
      (fun before label => allowed before.state label) ⟨start, []⟩ final) :
    Foundation.executeAll other (final.log.filterMap erase) (view start) =
      some (view final.state) := by
  have simulated : ∀ before label after seen, seen = view before → allowed before label →
      step label before = some after →
        ∃ next, Foundation.executeAll other ([label].filterMap erase) seen = some next ∧
          next = view after := by
    rintro before label after _ rfl isAllowed moved
    have simulates := erases label before after isAllowed moved
    refine ⟨view after, ?_, rfl⟩
    cases becomes : erase label with
    | none =>
        rw [becomes, Option.elim_none] at simulates
        rw [List.filterMap_cons_none becomes, simulates]
        rfl
    | some seen =>
        rw [becomes, Option.elim_some] at simulates
        rw [List.filterMap_cons_some becomes, List.filterMap_nil]
        change (other seen (view before)).bind _ = _
        rw [simulates]
        rfl
  obtain ⟨_, ran, rfl⟩ := run.component allowed (fun state seen => seen = view state) rfl simulated
  exact ran

end Foundation
