import Mathlib.Algebra.Order.BigOperators.Group.List
import Mathlib.Algebra.Order.Field.Basic
import Mathlib.Tactic.Linarith
import Mathlib.Tactic.Ring

/-!
# Metered draws

A reservoir that is filled at a rate up to a capacity and drawn from. The
amounts drawn in a window of time are bounded by the capacity and the refill of
that window. The potential behind it is the empty part of the reservoir: what
was drawn since a time is at most what is missing now and what was refilled
since.
-/

namespace Foundation

/-- One draw: when it was made, and how much it took. -/
structure Draw (𝕜 : Type) where
  time : 𝕜
  amount : 𝕜

section Windows

/-- The window from a time on. -/
def since [LinearOrder 𝕜] (first time : 𝕜) : Bool := decide (first ≤ time)

/-- The window between two times. -/
def within [LinearOrder 𝕜] (first last time : 𝕜) : Bool :=
  decide (first ≤ time ∧ time ≤ last)

variable {𝕜 : Type} [AddCommMonoid 𝕜]

/-- Total of the draws in a window of time. -/
def drawn (window : 𝕜 → Bool) (draws : List (Draw 𝕜)) : 𝕜 :=
  ((draws.filter fun draw => window draw.time).map Draw.amount).sum

@[simp] theorem drawn_nil (window : 𝕜 → Bool) : drawn window [] = 0 := rfl

theorem drawn_cons_of_mem
    {window : 𝕜 → Bool}
    {draw : Draw 𝕜}
    (draws : List (Draw 𝕜))
    (inside : window draw.time = true) :
    drawn window (draw :: draws) = draw.amount + drawn window draws := by
  simp [drawn, inside]

theorem drawn_cons_of_not_mem
    {window : 𝕜 → Bool}
    {draw : Draw 𝕜}
    (draws : List (Draw 𝕜))
    (outside : window draw.time = false) :
    drawn window (draw :: draws) = drawn window draws := by
  simp [drawn, outside]

/-- A window that no draw falls into. -/
theorem drawn_eq_zero
    {window : 𝕜 → Bool}
    {draws : List (Draw 𝕜)}
    (outside : ∀ draw ∈ draws, window draw.time = false) :
    drawn window draws = 0 := by
  induction draws with
  | nil => exact drawn_nil window
  | cons draw draws inductionHypothesis =>
      rw [drawn_cons_of_not_mem draws (outside draw List.mem_cons_self)]
      exact inductionHypothesis fun other member =>
        outside other (List.mem_cons_of_mem draw member)

/-- A smaller window has a smaller total. -/
theorem drawn_mono
    [LinearOrder 𝕜] [IsOrderedAddMonoid 𝕜]
    {window larger : 𝕜 → Bool}
    {draws : List (Draw 𝕜)}
    (nonnegative : ∀ draw ∈ draws, 0 ≤ draw.amount)
    (contained : ∀ time, window time = true → larger time = true) :
    drawn window draws ≤ drawn larger draws := by
  induction draws with
  | nil => simp
  | cons draw draws inductionHypothesis =>
      have rest : drawn window draws ≤ drawn larger draws :=
        inductionHypothesis fun other member =>
          nonnegative other (List.mem_cons_of_mem draw member)
      have amount : 0 ≤ draw.amount := nonnegative draw List.mem_cons_self
      by_cases inside : window draw.time = true
      · rw [drawn_cons_of_mem draws inside,
          drawn_cons_of_mem draws (contained _ inside)]
        exact add_le_add_right rest draw.amount
      · rw [drawn_cons_of_not_mem draws (by simpa using inside)]
        by_cases larger' : larger draw.time = true
        · rw [drawn_cons_of_mem draws larger']
          exact le_add_of_nonneg_of_le amount rest
        · rwa [drawn_cons_of_not_mem draws (by simpa using larger')]

end Windows

section Metering

variable {𝕜 : Type} [Field 𝕜] [LinearOrder 𝕜] [IsStrictOrderedRing 𝕜]

/-- The draws of a reservoir at a level, last filled at a time. -/
structure Metered
    (rate capacity level last : 𝕜)
    (draws : List (Draw 𝕜)) : Prop where
  nonneg : 0 ≤ level
  le_capacity : level ≤ capacity
  amounts : ∀ draw ∈ draws, 0 ≤ draw.amount
  past : ∀ draw ∈ draws, draw.time ≤ last
  drawn_since : ∀ first, first ≤ last →
    drawn (since first) draws ≤ capacity - level + rate * (last - first)
  drawn_within : ∀ first final, first ≤ final →
    drawn (within first final) draws ≤ capacity + rate * (final - first)

namespace Metered

variable {rate capacity level last : 𝕜} {draws : List (Draw 𝕜)}

/-- A full reservoir that nothing was drawn from. -/
theorem initial
    (ratePositive : 0 < rate)
    (capacityNonneg : 0 ≤ capacity)
    (start : 𝕜) :
    Metered rate capacity capacity start [] where
  nonneg := capacityNonneg
  le_capacity := le_refl capacity
  amounts _ member := absurd member List.not_mem_nil
  past _ member := absurd member List.not_mem_nil
  drawn_since first before := by
    have : 0 ≤ rate * (start - first) := by
      apply mul_nonneg ratePositive.le
      linarith
    simpa using this
  drawn_within first final before := by
    have : 0 ≤ rate * (final - first) := by
      apply mul_nonneg ratePositive.le
      linarith
    simp only [drawn_nil]
    linarith

/-- Filling up to the capacity. -/
theorem refill
    (metered : Metered rate capacity level last draws)
    (ratePositive : 0 < rate)
    {now : 𝕜}
    (later : last ≤ now) :
    Metered rate capacity (min capacity (level + (now - last) * rate)) now draws where
  nonneg := by
    have : 0 ≤ (now - last) * rate := by
      apply mul_nonneg _ ratePositive.le
      linarith
    have := metered.nonneg
    have := metered.le_capacity
    apply le_min <;> linarith
  le_capacity := min_le_left _ _
  amounts := metered.amounts
  past draw member := (metered.past draw member).trans later
  drawn_since first before := by
    have filled := min_le_right capacity (level + (now - last) * rate)
    have capped := min_le_left capacity (level + (now - last) * rate)
    by_cases old : first ≤ last
    · have bound := metered.drawn_since first old
      have split : rate * (now - first) =
          (now - last) * rate + rate * (last - first) := by ring
      linarith
    · -- The window starts after the last draw.
      have nothing : drawn (since first) draws = 0 := by
        apply drawn_eq_zero
        intro draw member
        have := metered.past draw member
        simp only [since, decide_eq_false_iff_not]
        linarith
      have : 0 ≤ rate * (now - first) := by
        apply mul_nonneg ratePositive.le
        linarith
      linarith
  drawn_within := metered.drawn_within

/-- Drawing at most the level, at the time of the last filling. -/
theorem draw
    (metered : Metered rate capacity level last draws)
    (ratePositive : 0 < rate)
    {amount : 𝕜}
    (nonneg : 0 ≤ amount)
    (enough : amount ≤ level) :
    Metered rate capacity (level - amount) last (⟨last, amount⟩ :: draws) := by
  have levelBound := metered.le_capacity
  have amounts : ∀ draw ∈ (⟨last, amount⟩ :: draws : List (Draw 𝕜)), 0 ≤ draw.amount := by
    simpa [nonneg] using metered.amounts
  have sinceBound : ∀ first, first ≤ last →
      drawn (since first) (⟨last, amount⟩ :: draws) ≤
        capacity - (level - amount) + rate * (last - first) := by
    intro first before
    rw [drawn_cons_of_mem draws (by simpa [since] using before)]
    have := metered.drawn_since first before
    linarith
  refine ⟨by linarith, by linarith, amounts, by simpa using metered.past, sinceBound, ?_⟩
  intro first final ordered
  have grown : 0 ≤ rate * (final - first) := by
    apply mul_nonneg ratePositive.le
    linarith
  by_cases inside : within first final last = true
  · -- A window with the new draw in it is part of the one that is open to now.
    obtain ⟨before, after⟩ : first ≤ last ∧ last ≤ final := by
      simpa [within] using inside
    have wider : rate * (last - first) ≤ rate * (final - first) := by
      apply mul_le_mul_of_nonneg_left _ ratePositive.le
      linarith
    calc drawn (within first final) (⟨last, amount⟩ :: draws)
        ≤ drawn (since first) (⟨last, amount⟩ :: draws) := by
          apply drawn_mono amounts
          intro time member
          simp only [within, since, decide_eq_true_eq] at member ⊢
          exact member.1
      _ ≤ capacity - (level - amount) + rate * (last - first) := sinceBound first before
      _ ≤ capacity + rate * (final - first) := by linarith
  · rw [drawn_cons_of_not_mem draws (by simpa using inside)]
    exact metered.drawn_within first final ordered

end Metered

/-- Some window accounts for what is missing from a reservoir: at least that, and the refill of
the window, was drawn in it. -/
def Spent
    (rate capacity level last : 𝕜)
    (draws : List (Draw 𝕜)) : Prop :=
  ∃ first, first ≤ last ∧
    capacity - level + rate * (last - first) ≤ drawn (since first) draws

namespace Spent

variable {rate capacity level last : 𝕜} {draws : List (Draw 𝕜)}

omit [IsStrictOrderedRing 𝕜] in
theorem initial (rate capacity start : 𝕜) : Spent rate capacity capacity start [] :=
  ⟨start, le_refl start, by simp⟩

theorem refill
    (spent : Spent rate capacity level last draws)
    (amounts : ∀ draw ∈ draws, 0 ≤ draw.amount)
    {now : 𝕜}
    (later : last ≤ now) :
    Spent rate capacity (min capacity (level + (now - last) * rate)) now draws := by
  obtain ⟨first, before, accounts⟩ := spent
  rcases le_total capacity (level + (now - last) * rate) with full | short
  · refine ⟨now, le_refl now, ?_⟩
    rw [min_eq_left full, sub_self, sub_self, mul_zero, add_zero]
    calc (0 : 𝕜) = drawn (fun _ => false) draws := (drawn_eq_zero fun _ _ => rfl).symm
      _ ≤ drawn (since now) draws := drawn_mono amounts fun _ inside => by cases inside
  · refine ⟨first, before.trans later, ?_⟩
    rw [min_eq_right short]
    have split : rate * (now - first) =
        (now - last) * rate + rate * (last - first) := by ring
    linarith

/-- Drawing at the time of the last filling. -/
theorem draw
    (spent : Spent rate capacity level last draws)
    (amount : 𝕜) :
    Spent rate capacity (level - amount) last (⟨last, amount⟩ :: draws) := by
  obtain ⟨first, before, accounts⟩ := spent
  refine ⟨first, before, ?_⟩
  rw [drawn_cons_of_mem draws (by simpa [since] using before)]
  linarith

/-- A reservoir that holds too little was overdrawn: with the new amount some window takes more
than the capacity and its refill. -/
theorem exceeds
    (spent : Spent rate capacity level last draws)
    {amount : 𝕜}
    (short : level < amount) :
    ∃ first, first ≤ last ∧
      capacity + rate * (last - first) < amount + drawn (since first) draws := by
  obtain ⟨first, before, accounts⟩ := spent
  exact ⟨first, before, by linarith⟩

end Spent

end Metering

end Foundation
