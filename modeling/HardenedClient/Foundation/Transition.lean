import Mathlib.Order.Basic
import Mathlib.Tactic.SplitIfs

/-!
# Partial step functions and their runs

A transition system is given by a partial step function on labelled moves.
`Run` is the set of runs whose steps all satisfy a given condition on the state
before the step and its label; `executeChecked` replays one from a list of
labels. The invariant rules turn one step lemma into a statement about whole
runs.
-/

namespace Foundation

/-- Runs from `start` in which every step satisfies `allowed`. -/
inductive Run
    (step : L → S → Option S)
    (allowed : S → L → Prop)
    (start : S) : S → Prop
  | refl : Run step allowed start start
  | tail {state next : S} {label : L} :
      Run step allowed start state →
      allowed state label →
      step label state = some next →
      Run step allowed start next

/-- States reachable by any sequence of enabled moves. -/
abbrev Reachable (step : L → S → Option S) (start : S) : S → Prop :=
  Run step (fun _ _ => True) start

namespace Run

variable {step : L → S → Option S} {allowed : S → L → Prop}

/-- A predicate that holds at the start and is preserved by every allowed
step holds in every state of an allowed run. -/
theorem invariant
    {start state : S}
    (holds : S → Prop)
    (initially : holds start)
    (preserved : ∀ before label after,
      holds before → allowed before label →
      step label before = some after → holds after)
    (run : Run step allowed start state) :
    holds state := by
  induction run with
  | refl => exact initially
  | tail _ permitted moved inductionHypothesis =>
      exact preserved _ _ _ inductionHypothesis permitted moved

/-- Relaxing the condition on steps keeps a run. -/
theorem mono
    {start state : S}
    {relaxed : S → L → Prop}
    (weaker : ∀ before label, allowed before label → relaxed before label)
    (run : Run step allowed start state) :
    Run step relaxed start state := by
  induction run with
  | refl => exact .refl
  | tail _ permitted moved inductionHypothesis =>
      exact .tail inductionHypothesis (weaker _ _ permitted) moved

/-- Every run is a reachability witness. -/
theorem reachable
    {start state : S}
    (run : Run step allowed start state) :
    Reachable step start state :=
  run.mono fun _ _ _ => trivial

/-- Runs compose. -/
theorem trans
    {start middle state : S}
    (first : Run step allowed start middle)
    (second : Run step allowed middle state) :
    Run step allowed start state := by
  induction second with
  | refl => exact first
  | tail _ permitted moved inductionHypothesis =>
      exact .tail inductionHypothesis permitted moved

/-- A single allowed move is a run. -/
theorem single
    {start state : S}
    {label : L}
    (permitted : allowed start label)
    (moved : step label start = some state) :
    Run step allowed start state :=
  .tail .refl permitted moved

/-- Strengthen the condition on steps by an invariant of the run. -/
theorem with_invariant
    {start state : S}
    (holds : S → Prop)
    (initially : holds start)
    (preserved : ∀ before label after,
      holds before → allowed before label →
      step label before = some after → holds after)
    (run : Run step allowed start state) :
    Run step (fun before label => holds before ∧ allowed before label)
      start state := by
  induction run with
  | refl => exact .refl
  | tail previous permitted moved inductionHypothesis =>
      exact .tail inductionHypothesis
        ⟨previous.invariant holds initially preserved, permitted⟩ moved

end Run

/-- Replay a list of labels, failing on a disabled move and on one that does
not pass a check. -/
def executeChecked
    (step : L → S → Option S)
    (check : S → L → Bool) : List L → S → Option S
  | [], state => some state
  | label :: labels, state =>
      if check state label then
        (step label state).bind (executeChecked step check labels)
      else none

/-- Replaying a list of labels whose steps pass a check for being allowed is a
run. -/
theorem run_of_executeChecked
    {step : L → S → Option S}
    {allowed : S → L → Prop}
    {check : S → L → Bool}
    (checks : ∀ state label, check state label = true → allowed state label)
    {labels : List L}
    {start state : S}
    (replayed : executeChecked step check labels start = some state) :
    Run step allowed start state := by
  induction labels generalizing start with
  | nil =>
      obtain rfl : start = state := Option.some.inj replayed
      exact .refl
  | cons label labels inductionHypothesis =>
      simp only [executeChecked] at replayed
      split_ifs at replayed with passes
      obtain ⟨middle, moved, rest⟩ := Option.bind_eq_some_iff.mp replayed
      exact (Run.single (checks _ _ passes) moved).trans (inductionHypothesis rest)

/-- A run reaches a state with a decidable property when some replay does. -/
theorem exists_run_of_executeChecked
    {step : L → S → Option S}
    {allowed : S → L → Prop}
    {check : S → L → Bool}
    (checks : ∀ state label, check state label = true → allowed state label)
    {labels : List L}
    {start : S}
    {test : S → Bool}
    (passes : (executeChecked step check labels start).any test = true) :
    ∃ state, Run step allowed start state ∧ test state = true := by
  obtain ⟨state, replayed, tested⟩ := (Option.any_eq_true _ _).mp passes
  exact ⟨state, run_of_executeChecked checks replayed, tested⟩

end Foundation
