import HardenedClient.Foundation.Transition

/-!
# Schedules

A list of labels is replayed from a state, one label after the other.
-/

namespace Foundation

/-- Replay a list of labels. -/
abbrev executeAll (step : L → S → Option S) : List L → S → Option S :=
  executeChecked step fun _ _ => true

theorem executeAll_append
    (step : L → S → Option S)
    (labels more : List L)
    (start : S) :
    executeAll step (labels ++ more) start =
      (executeAll step labels start).bind (executeAll step more) := by
  induction labels generalizing start with
  | nil => rfl
  | cons label labels inductionHypothesis =>
      simp only [executeAll, executeChecked, List.cons_append, if_true, Option.bind_assoc]
      exact congrArg _ (funext inductionHypothesis)

end Foundation
