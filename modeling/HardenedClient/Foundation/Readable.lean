import Mathlib.Data.List.Basic

/-!
# Uniquely readable texts

When a text that starts with a code word determines the word and the rest, the
code is prefix free, and sequences of code words up to a closing symbol are
determined too. Words that end only where a stop symbol follows are read alike
when their texts agree; separated sequences of such words are determined by
their text.
-/

namespace Foundation

variable {α β : Type}

/-- A text that starts with a code word determines the word and the rest. -/
def PrefixFree (code : α → List β) : Prop :=
  ∀ ⦃first second : α⦄ ⦃left right : List β⦄,
    code first ++ left = code second ++ right → first = second ∧ left = right

namespace PrefixFree

variable {code : α → List β}

/-- A reader for code words makes the code prefix free. -/
theorem of_read
    {read : List β → Option (α × List β)}
    (reads : ∀ symbol rest, read (code symbol ++ rest) = some (symbol, rest)) :
    PrefixFree code := by
  intro first second left right equal
  have pairs : (first, left) = (second, right) := by
    apply Option.some.inj
    rw [← reads first left, equal, reads second right]
  exact Prod.mk.inj pairs

/-- A sequence of code words ends where the closing symbol stands. -/
theorem flatMap_unique
    (free : PrefixFree code)
    {close : β}
    (begins : ∀ symbol, ∃ head tail, code symbol = head :: tail ∧ head ≠ close)
    {symbols others : List α}
    {left right : List β}
    (equal : symbols.flatMap code ++ close :: left = others.flatMap code ++ close :: right) :
    symbols = others ∧ left = right := by
  induction symbols generalizing others with
  | nil =>
      cases others with
      | nil => simpa using equal
      | cons other others =>
          obtain ⟨head, tail, word, different⟩ := begins other
          simp only [List.flatMap_nil, List.flatMap_cons, word, List.nil_append,
            List.cons_append, List.cons.injEq] at equal
          exact absurd equal.1.symm different
  | cons symbol symbols inductionHypothesis =>
      cases others with
      | nil =>
          obtain ⟨head, tail, word, different⟩ := begins symbol
          simp only [List.flatMap_nil, List.flatMap_cons, word, List.nil_append,
            List.cons_append, List.cons.injEq] at equal
          exact absurd equal.1 different
      | cons other others =>
          rw [List.flatMap_cons, List.flatMap_cons, List.append_assoc,
            List.append_assoc] at equal
          obtain ⟨rfl, rest⟩ := free equal
          obtain ⟨rfl, same⟩ := inductionHypothesis rest
          exact ⟨rfl, same⟩

end PrefixFree

/-- The text is empty, or starts with a stop symbol. -/
def Stops (stop : β → Prop) (text : List β) : Prop :=
  ∀ head tail, text = head :: tail → stop head

theorem stops_cons {stop : β → Prop} {head : β} (tail : List β) (isStop : stop head) :
    Stops stop (head :: tail) := by
  intro other rest equal
  rwa [← (List.cons.inj equal).1]

/-- Where a stop follows, the text of one word is not that of the other with
more behind it. -/
def ReadAlike (stop : β → Prop) (word other : List β) : Prop :=
  ∀ ⦃left right : List β⦄, Stops stop left → Stops stop right →
    word ++ left = other ++ right → word = other ∧ left = right

/-- Words without stop symbols. -/
theorem readAlike_of_forall
    {stop : β → Prop}
    {word other : List β}
    (inside : ∀ symbol ∈ word, ¬ stop symbol)
    (insideOther : ∀ symbol ∈ other, ¬ stop symbol) :
    ReadAlike stop word other := by
  intro left right leftStops rightStops equal
  induction word generalizing other with
  | nil =>
      cases other with
      | nil => exact ⟨rfl, equal⟩
      | cons head tail =>
          exact absurd (leftStops head _ equal) (insideOther head List.mem_cons_self)
  | cons symbol word inductionHypothesis =>
      cases other with
      | nil =>
          exact absurd (rightStops symbol _ equal.symm) (inside symbol List.mem_cons_self)
      | cons head tail =>
          obtain ⟨rfl, rest⟩ := List.cons.inj equal
          obtain ⟨rfl, same⟩ := inductionHypothesis
            (fun other member => inside other (List.mem_cons_of_mem _ member))
            (fun other member => insideOther other (List.mem_cons_of_mem _ member)) rest
          exact ⟨rfl, same⟩

/-- Words separated by a symbol. -/
def joined (separator : β) : List (List β) → List β
  | [] => []
  | [word] => word
  | word :: words => word ++ separator :: joined separator words

/-- The words after the first one, with their separators. -/
def joinedTail (separator : β) : List (List β) → List β
  | [] => []
  | words => separator :: joined separator words

theorem joined_cons (separator : β) (word : List β) (words : List (List β)) :
    joined separator (word :: words) = word ++ joinedTail separator words := by
  cases words <;> simp [joined, joinedTail]

/-- Separated words up to a closing symbol are determined by their text. -/
theorem joined_unique
    {stop : β → Prop}
    {separator close : β}
    (separatorStops : stop separator)
    (closeStops : stop close)
    (different : separator ≠ close)
    {words others : List (List β)}
    (alike : ∀ word ∈ words, ∀ other ∈ others, ReadAlike stop word other)
    (begins : ∀ word, word ∈ words ∨ word ∈ others →
      ∃ head tail, word = head :: tail ∧ head ≠ close)
    {left right : List β}
    (equal : joined separator words ++ close :: left =
      joined separator others ++ close :: right) :
    words = others ∧ left = right := by
  have tailStops : ∀ (words : List (List β)) (rest : List β),
      Stops stop (joinedTail separator words ++ close :: rest) := by
    intro words rest
    cases words with
    | nil => exact stops_cons rest closeStops
    | cons word words => exact stops_cons _ separatorStops
  induction words generalizing others with
  | nil =>
      cases others with
      | nil => simpa [joined] using equal
      | cons other others =>
          obtain ⟨head, tail, rfl, notClose⟩ := begins other (by simp)
          rw [joined_cons] at equal
          simp only [joined, List.nil_append, List.cons_append, List.cons.injEq] at equal
          exact absurd equal.1.symm notClose
  | cons word words inductionHypothesis =>
      cases others with
      | nil =>
          obtain ⟨head, tail, rfl, notClose⟩ := begins word (by simp)
          rw [joined_cons] at equal
          simp only [joined, List.nil_append, List.cons_append, List.cons.injEq] at equal
          exact absurd equal.1 notClose
      | cons other others =>
          rw [joined_cons, joined_cons, List.append_assoc, List.append_assoc] at equal
          obtain ⟨rfl, rest⟩ := alike word (by simp) other (by simp)
            (tailStops words left) (tailStops others right) equal
          have smaller : joined separator words ++ close :: left =
              joined separator others ++ close :: right := by
            cases words with
            | nil =>
                cases others with
                | nil => simpa [joined, joinedTail] using rest
                | cons head tail =>
                    simp only [joinedTail, List.nil_append, List.cons_append,
                      List.cons.injEq] at rest
                    exact absurd rest.1.symm different
            | cons next words =>
                cases others with
                | nil =>
                    simp only [joinedTail, List.nil_append, List.cons_append,
                      List.cons.injEq] at rest
                    exact absurd rest.1 different
                | cons head tail =>
                    simpa only [joinedTail, List.cons_append, List.cons.injEq,
                      true_and] using rest
          obtain ⟨rfl, same⟩ := inductionHypothesis
            (fun one member two memberTwo =>
              alike one (List.mem_cons_of_mem _ member) two (List.mem_cons_of_mem _ memberTwo))
            (fun one member => begins one (by
              rcases member with member | member <;> simp [member]))
            smaller
          exact ⟨rfl, same⟩

end Foundation
