import Mathlib.Data.List.Basic
import Mathlib.Data.List.Chain

/-!
# Code points and UTF-16 units

A text over all code points may hold surrogates of its own. Written in UTF-16,
a high surrogate that a low one follows is read back as one code point above
them, and every other text is read back as it was.
-/

namespace Foundation

/-- A Unicode code point; surrogates are among them. -/
abbrev CodePoint := Fin 0x110000

/-- A unit of UTF-16. -/
abbrev CodeUnit := Fin 0x10000

/-- The first half of a surrogate pair. -/
abbrev IsHigh (value : ℕ) : Prop := 0xD800 ≤ value ∧ value < 0xDC00

/-- The second half of a surrogate pair. -/
abbrev IsLow (value : ℕ) : Prop := 0xDC00 ≤ value ∧ value < 0xE000

/-- The units of a code point. -/
def unitsOf (point : CodePoint) : List CodeUnit :=
  if basic : point.val < 0x10000 then [⟨point.val, basic⟩]
  else
    [⟨0xD800 + (point.val - 0x10000) / 0x400, by have := point.isLt; omega⟩,
      ⟨0xDC00 + (point.val - 0x10000) % 0x400, by omega⟩]

/-- A text in UTF-16. -/
def toUnits (text : List CodePoint) : List CodeUnit := text.flatMap unitsOf

/-- A unit on its own. -/
def CodeUnit.point (unit : CodeUnit) : CodePoint := ⟨unit.val, by have := unit.isLt; omega⟩

/-- The code point of a surrogate pair. -/
def joinPair (high low : CodeUnit) (pair : IsHigh high.val ∧ IsLow low.val) : CodePoint :=
  ⟨0x10000 + (high.val - 0xD800) * 0x400 + (low.val - 0xDC00), by omega⟩

/-- The text that units are read as. -/
def ofUnits : List CodeUnit → List CodePoint
  | [] => []
  | [unit] => [CodeUnit.point unit]
  | first :: second :: rest =>
      if pair : IsHigh first.val ∧ IsLow second.val then joinPair first second pair :: ofUnits rest
      else CodeUnit.point first :: ofUnits (second :: rest)

/-- No high surrogate is directly followed by a low one. -/
def Unpaired (text : List CodePoint) : Prop :=
  text.IsChain fun (first second : CodePoint) => ¬ (IsHigh first.val ∧ IsLow second.val)

instance (text : List CodePoint) : Decidable (Unpaired text) := by
  unfold Unpaired
  infer_instance

/-! ## Units and back -/

theorem CodeUnit.val_point (unit : CodeUnit) : (CodeUnit.point unit).val = unit.val := rfl

theorem val_joinPair
    {high low : CodeUnit}
    (pair : IsHigh high.val ∧ IsLow low.val) :
    (joinPair high low pair).val =
      0x10000 + (high.val - 0xD800) * 0x400 + (low.val - 0xDC00) := rfl

theorem toUnits_cons (point : CodePoint) (text : List CodePoint) :
    toUnits (point :: text) = unitsOf point ++ toUnits text := List.flatMap_cons

theorem unitsOf_point (unit : CodeUnit) : unitsOf (CodeUnit.point unit) = [unit] := by
  have basic : (CodeUnit.point unit).val < 0x10000 := by
    rw [CodeUnit.val_point]
    exact unit.isLt
  rw [unitsOf, dif_pos basic]
  simp only [CodeUnit.val_point]

theorem unitsOf_joinPair
    {high low : CodeUnit}
    (pair : IsHigh high.val ∧ IsLow low.val) :
    unitsOf (joinPair high low pair) = [high, low] := by
  have value := val_joinPair pair
  have above : ¬ (joinPair high low pair).val < 0x10000 := by omega
  rw [unitsOf, dif_neg above]
  simp only [value, List.cons.injEq, Fin.ext_iff, and_true]
  omega

/-- Reading loses no unit. -/
theorem toUnits_ofUnits (units : List CodeUnit) : toUnits (ofUnits units) = units := by
  fun_induction ofUnits units with
  | case1 => rfl
  | case2 unit => rw [toUnits_cons, unitsOf_point, toUnits, List.flatMap_nil, List.append_nil]
  | case3 first second rest pair inductionHypothesis =>
      rw [toUnits_cons, unitsOf_joinPair, inductionHypothesis, List.cons_append,
        List.singleton_append]
  | case4 first second rest unpaired inductionHypothesis =>
      rw [toUnits_cons, unitsOf_point, inductionHypothesis, List.singleton_append]

theorem ofUnits_injective : Function.Injective ofUnits :=
  Function.LeftInverse.injective toUnits_ofUnits

/-- A unit that starts no pair is read on its own. -/
theorem ofUnits_cons
    {unit : CodeUnit}
    {units : List CodeUnit}
    (alone : ∀ second ∈ units.head?, ¬ (IsHigh unit.val ∧ IsLow second.val)) :
    ofUnits (unit :: units) = CodeUnit.point unit :: ofUnits units := by
  cases units with
  | nil => rw [ofUnits, ofUnits]
  | cons second rest => rw [ofUnits, dif_neg (alone second rfl)]

/-- The two units of a code point above the others are read as it. -/
theorem ofUnits_unitsOf_append
    {point : CodePoint}
    (astral : 0x10000 ≤ point.val)
    (units : List CodeUnit) :
    ofUnits (unitsOf point ++ units) = point :: ofUnits units := by
  have below := point.isLt
  have isPair : IsHigh (0xD800 + (point.val - 0x10000) / 0x400) ∧
      IsLow (0xDC00 + (point.val - 0x10000) % 0x400) := by omega
  rw [unitsOf, dif_neg (by omega), List.cons_append, List.singleton_append, ofUnits,
    dif_pos isPair]
  simp only [List.cons.injEq, Fin.ext_iff, val_joinPair, and_true]
  omega

/-- A text starts with a low surrogate when its units do. -/
theorem isLow_head_of_toUnits
    {text : List CodePoint}
    {unit : CodeUnit}
    (first : unit ∈ (toUnits text).head?)
    (low : IsLow unit.val) :
    ∃ point rest, text = point :: rest ∧ IsLow point.val := by
  cases text with
  | nil => cases first
  | cons point rest =>
      refine ⟨point, rest, rfl, ?_⟩
      rw [toUnits_cons, unitsOf] at first
      have below := point.isLt
      split_ifs at first with basic
      · obtain rfl := Option.some.inj first
        exact low
      · obtain rfl := Option.some.inj first
        dsimp only at low
        omega

/-- A text without pairs is read back as it was. -/
theorem ofUnits_toUnits
    {text : List CodePoint}
    (unpaired : Unpaired text) :
    ofUnits (toUnits text) = text := by
  induction text with
  | nil => rfl
  | cons point rest inductionHypothesis =>
      have restRead := inductionHypothesis (List.IsChain.tail unpaired)
      rw [toUnits_cons]
      by_cases basic : point.val < 0x10000
      · have alone : ∀ second ∈ (toUnits rest).head?,
            ¬ (IsHigh point.val ∧ IsLow second.val) := by
          rintro second first ⟨high, low⟩
          obtain ⟨next, others, rfl, nextLow⟩ := isLow_head_of_toUnits first low
          exact (List.isChain_cons_cons.mp unpaired).1 ⟨high, nextLow⟩
        rw [unitsOf, dif_pos basic, List.singleton_append, ofUnits_cons alone, restRead]
        rfl
      · rw [ofUnits_unitsOf_append (by omega), restRead]

theorem head_ofUnits (unit : CodeUnit) (units : List CodeUnit) :
    ∃ point rest, ofUnits (unit :: units) = point :: rest ∧
      (point = CodeUnit.point unit ∨ 0x10000 ≤ point.val) := by
  cases units with
  | nil => exact ⟨_, _, by rw [ofUnits], Or.inl rfl⟩
  | cons second others =>
      rw [ofUnits]
      split_ifs with pair
      · refine ⟨_, _, rfl, Or.inr ?_⟩
        rw [val_joinPair]
        omega
      · exact ⟨_, _, rfl, Or.inl rfl⟩

/-- What is read from units has no pairs. -/
theorem unpaired_ofUnits (units : List CodeUnit) : Unpaired (ofUnits units) := by
  fun_induction ofUnits units with
  | case1 => exact List.isChain_nil
  | case2 unit => exact List.isChain_singleton _
  | case3 first second rest pair inductionHypothesis =>
      cases following : ofUnits rest with
      | nil => exact List.isChain_singleton _
      | cons next others =>
          rw [following] at inductionHypothesis
          refine List.isChain_cons_cons.mpr ⟨?_, inductionHypothesis⟩
          rintro ⟨high, _⟩
          rw [val_joinPair] at high
          omega
  | case4 first second rest unpaired inductionHypothesis =>
      obtain ⟨point, others, head, kind⟩ := head_ofUnits second rest
      rw [head] at inductionHypothesis ⊢
      refine List.isChain_cons_cons.mpr ⟨?_, inductionHypothesis⟩
      rintro ⟨high, low⟩
      rcases kind with rfl | astral
      · exact unpaired ⟨high, low⟩
      · omega

/-- Writing a text and reading it keeps exactly the texts without pairs. -/
theorem ofUnits_toUnits_eq_iff {text : List CodePoint} :
    ofUnits (toUnits text) = text ↔ Unpaired text :=
  ⟨fun same => same ▸ unpaired_ofUnits _, ofUnits_toUnits⟩

/-- Texts without pairs are told apart by their units. -/
theorem toUnits_inj
    {first second : List CodePoint}
    (unpaired : Unpaired first)
    (other : Unpaired second) :
    toUnits first = toUnits second ↔ first = second := by
  refine ⟨fun same => ?_, congrArg toUnits⟩
  rw [← ofUnits_toUnits unpaired, same, ofUnits_toUnits other]

/-- A map of code points to texts that makes no surrogate of anything else keeps
texts without pairs. -/
theorem Unpaired.flatMap
    {text : List CodePoint}
    {map : CodePoint → List CodePoint}
    (unpaired : Unpaired text)
    (inhabited : ∀ point, map point ≠ [])
    (keeps : ∀ point, ∀ letter ∈ map point,
      (IsHigh letter.val → IsHigh point.val) ∧ (IsLow letter.val → IsLow point.val)) :
    Unpaired (text.flatMap map) := by
  have alone : ∀ point, Unpaired (map point) := by
    intro point
    apply List.Pairwise.isChain
    apply List.pairwise_of_forall_mem_list
    rintro first isFirst second isSecond ⟨high, low⟩
    have isHigh := (keeps point first isFirst).1 high
    have isLow := (keeps point second isSecond).2 low
    omega
  induction text with
  | nil => exact List.isChain_nil
  | cons point rest inductionHypothesis =>
      rw [List.flatMap_cons, Unpaired, List.isChain_append]
      refine ⟨alone point, inductionHypothesis (List.IsChain.tail unpaired), ?_⟩
      rintro last isLast first isFirst ⟨high, low⟩
      cases rest with
      | nil => cases isFirst
      | cons next others =>
          rw [List.flatMap_cons, List.head?_append_of_ne_nil _ (inhabited next)] at isFirst
          exact (List.isChain_cons_cons.mp unpaired).1
            ⟨(keeps point last (List.mem_of_getLast? isLast)).1 high,
              (keeps next first (List.mem_of_head? isFirst)).2 low⟩

end Foundation
