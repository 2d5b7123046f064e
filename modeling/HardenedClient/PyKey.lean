import HardenedClient.PyFloat
import Mathlib.Data.List.Perm.Basic

/-!
# Dictionary keys and their order

`json.dumps(sort_keys=True)` sorts the fields of a dictionary by their Python
keys. Python compares strings by code points and numbers by value, and raises on
keys of different kinds. With nan among the keys no order is documented, so what
`sorted` does is a parameter: a `KeyOrder` keeps every key and is in order where
the keys can be ordered.
-/

namespace HardenedClient

open Foundation

/-- A character of a number or of a literal name. -/
def isBareChar (char : Char) : Bool :=
  char.isAlphanum || char = '.' || char = '+' || char = '-'

/-- A text a float can be written as: it is made of bare characters, and it is
neither an integer nor one of the literal names. -/
def isFloatText (text : String) : Bool :=
  text.toList.all isBareChar && text.toList.any (fun char => !char.isDigit && char ≠ '-') &&
    !(["null", "true", "false"].contains text)

/-- A Python float inside a JSON-encodable value, with the text json writes for
it. -/
structure FloatLiteral where
  /-- Numeric value. -/
  value : PyFloat
  /-- The text `float.__repr__` gives. -/
  repr : String
  /-- The text is that of a float. -/
  isFloat : isFloatText repr = true
  deriving DecidableEq

/-- A dictionary key. -/
inductive PyKey
  | str (text : PyStr)
  | int (value : ℤ)
  | float (literal : FloatLiteral)
  | bool (value : Bool)
  | none
  | other (text : PyStr)
  deriving DecidableEq

namespace PyKey

/-- Kinds of keys that Python can order among themselves. -/
inductive Kind
  | text
  | number
  | unit
  | foreign
  deriving DecidableEq

/-- The ordering kind of a key. -/
def kind : PyKey → Kind
  | .str _ => .text
  | .int _ | .float _ | .bool _ => .number
  | .none => .unit
  | .other _ => .foreign

/-- Numeric value of a number key. -/
def number : PyKey → PyFloat
  | .int value => .finite value
  | .float literal => literal.value
  | .bool value => .finite (if value then 1 else 0)
  | _ => .finite 0

/-- The comparison `x < y` on keys of one kind. -/
def lt : PyKey → PyKey → Bool
  | .str x, .str y => decide (x < y)
  | .other x, .other y => decide (x < y)
  | x, y => x.number.lt y.number

/-- The text json writes for a key; `none` is the TypeError on other keys. -/
def coerce? : PyKey → Option PyStr
  | .str text => some text
  | .int value => some (PyStr.ofString (toString value))
  | .float literal => some (PyStr.ofString literal.repr)
  | .bool value => some (PyStr.ofString (if value then "true" else "false"))
  | .none => some (PyStr.ofString "null")
  | .other _ => Option.none

end PyKey

/-- Whether `sorted` can compare a list of distinct keys: a single key is never
compared, several ones have to be of one ordered kind. -/
def sortable (keys : List PyKey) : Bool :=
  match keys with
  | [] | [_] => true
  | key :: rest =>
      decide (key.kind ≠ .unit) && rest.all fun other => decide (other.kind = key.kind)

/-! ## Sorting -/

/-- What the interpreter's `sorted` does to a list of keys. -/
structure KeyOrder where
  /-- The positions the sorted keys had before. -/
  positions : List PyKey → List ℕ
  /-- Sorting keeps every key. -/
  perm : ∀ keys, (positions keys).Perm (List.range keys.length)
  /-- Keys that can be ordered come in order. -/
  ascends : ∀ keys, sortable keys = true → (∀ key ∈ keys, key.number ≠ .nan) →
    ((positions keys).filterMap (keys[·]?)).Pairwise fun first second => second.lt first = false

/-- The fields of a dictionary in the order of their keys. -/
def KeyOrder.arrange (order : KeyOrder) (fields : List (PyKey × α)) : List (PyKey × α) :=
  (order.positions (fields.map Prod.fst)).filterMap (fields[·]?)

theorem filterMap_range_getElem? (items : List α) :
    (List.range items.length).filterMap (items[·]?) = items := by
  induction items with
  | nil => rfl
  | cons item items inductionHypothesis =>
      rw [List.length_cons, List.range_succ_eq_map, List.filterMap_cons, List.filterMap_map]
      simpa [Function.comp_def] using inductionHypothesis

/-- Arranging keeps every field. -/
theorem KeyOrder.arrange_perm (order : KeyOrder) (fields : List (PyKey × α)) :
    (order.arrange fields).Perm fields := by
  have perm := (order.perm (fields.map Prod.fst)).filterMap (fields[·]?)
  rwa [List.length_map, filterMap_range_getElem?] at perm

/-- Arranging looks at the keys alone. -/
theorem KeyOrder.arrange_map
    (order : KeyOrder)
    (change : α → β)
    (fields : List (PyKey × α)) :
    order.arrange (fields.map (Prod.map id change)) =
      (order.arrange fields).map (Prod.map id change) := by
  have keys : (fields.map (Prod.map id change)).map Prod.fst = fields.map Prod.fst := by
    rw [List.map_map]
    rfl
  rw [arrange, arrange, keys, List.map_filterMap]
  simp only [List.getElem?_map]

/-- The keys of arranged fields are the sorted keys. -/
theorem KeyOrder.map_fst_arrange (order : KeyOrder) (fields : List (PyKey × α)) :
    (order.arrange fields).map Prod.fst =
      (order.positions (fields.map Prod.fst)).filterMap ((fields.map Prod.fst)[·]?) := by
  rw [arrange, List.map_filterMap]
  simp only [List.getElem?_map]

/-! ## Insertion sort -/

/-- Insert a field into fields ordered by key, after the keys not above it. -/
def insertField (field : PyKey × α) : List (PyKey × α) → List (PyKey × α)
  | [] => [field]
  | head :: rest =>
      if field.1.lt head.1 then field :: head :: rest
      else head :: insertField field rest

theorem insertField_perm (field : PyKey × α) (fields : List (PyKey × α)) :
    (insertField field fields).Perm (field :: fields) := by
  induction fields with
  | nil => exact List.Perm.refl _
  | cons head rest inductionHypothesis =>
      simp only [insertField]
      split_ifs
      · exact List.Perm.refl _
      · exact (inductionHypothesis.cons head).trans (List.Perm.swap field head rest)

/-- Fields inserted one by one. -/
def sortFields (fields : List (PyKey × α)) : List (PyKey × α) :=
  fields.foldl (fun sorted field => insertField field sorted) []

theorem foldl_insertField_perm (fields sorted : List (PyKey × α)) :
    (fields.foldl (fun sorted field => insertField field sorted) sorted).Perm
      (fields ++ sorted) := by
  induction fields generalizing sorted with
  | nil => exact List.Perm.refl _
  | cons field fields inductionHypothesis =>
      rw [List.foldl_cons]
      apply (inductionHypothesis _).trans
      apply (List.Perm.append_left fields (insertField_perm field sorted)).trans
      exact List.perm_middle

/-- Sorting keeps every field. -/
theorem sortFields_perm (fields : List (PyKey × α)) :
    (sortFields fields).Perm fields := by
  have perm := foldl_insertField_perm fields []
  rwa [List.append_nil] at perm

theorem PyFloat.lt_asymm
    {first second : PyFloat}
    (below : first.lt second = true) :
    second.lt first = false := by
  cases first <;> cases second <;> simp [lt] at below ⊢
  exact below.le

/-- What is not below a number is not below one that this is not below. -/
theorem PyFloat.not_lt_trans
    {first second third : PyFloat}
    (number : second ≠ .nan)
    (below : second.lt first = false)
    (above : third.lt second = false) :
    third.lt first = false := by
  cases first <;> cases second <;> cases third <;> simp [lt] at number below above ⊢
  exact below.trans above

namespace PyKey

/-- Keys are compared as strings, as foreign objects or by their numbers. -/
theorem lt_cases (first second : PyKey) :
    (∃ x y, first = .str x ∧ second = .str y) ∨ (∃ x y, first = .other x ∧ second = .other y) ∨
      first.lt second = first.number.lt second.number ∧
        second.lt first = second.number.lt first.number := by
  cases first <;> cases second <;> simp [lt]

theorem lt_asymm
    {first second : PyKey}
    (below : first.lt second = true) :
    second.lt first = false := by
  obtain ⟨x, y, rfl, rfl⟩ | ⟨x, y, rfl, rfl⟩ | ⟨isNumber, isOther⟩ := lt_cases first second
  · simp only [lt, decide_eq_true_eq, decide_eq_false_iff_not, not_lt] at below ⊢
    exact below.le
  · simp only [lt, decide_eq_true_eq, decide_eq_false_iff_not, not_lt] at below ⊢
    exact below.le
  · rw [isOther]
    exact PyFloat.lt_asymm (isNumber ▸ below)

theorem exists_str_of_kind {key : PyKey} (isText : key.kind = .text) : ∃ text, key = .str text := by
  cases key with
  | str text => exact ⟨text, rfl⟩
  | _ => cases isText

theorem exists_other_of_kind {key : PyKey} (isForeign : key.kind = .foreign) :
    ∃ text, key = .other text := by
  cases key with
  | other text => exact ⟨text, rfl⟩
  | _ => cases isForeign

/-- What is not below a key is not below one that this key is not below. -/
theorem not_lt_trans
    {kind : Kind}
    {first second third : PyKey}
    (isFirst : first.kind = kind)
    (isSecond : second.kind = kind)
    (isThird : third.kind = kind)
    (number : second.number ≠ .nan)
    (below : second.lt first = false)
    (above : third.lt second = false) :
    third.lt first = false := by
  have byNumbers : ∀ {key other : PyKey}, key.kind = kind → other.kind = kind →
      kind ≠ .text → kind ≠ .foreign → key.lt other = key.number.lt other.number := by
    rintro key other rfl same notText notForeign
    cases key <;> cases other <;> first | rfl | exact absurd rfl notText | exact absurd rfl notForeign
  by_cases isText : kind = .text
  · obtain ⟨x, rfl⟩ := exists_str_of_kind (isFirst.trans isText)
    obtain ⟨y, rfl⟩ := exists_str_of_kind (isSecond.trans isText)
    obtain ⟨z, rfl⟩ := exists_str_of_kind (isThird.trans isText)
    simp only [lt, decide_eq_false_iff_not, not_lt] at below above ⊢
    exact below.trans above
  by_cases isForeign : kind = .foreign
  · obtain ⟨x, rfl⟩ := exists_other_of_kind (isFirst.trans isForeign)
    obtain ⟨y, rfl⟩ := exists_other_of_kind (isSecond.trans isForeign)
    obtain ⟨z, rfl⟩ := exists_other_of_kind (isThird.trans isForeign)
    simp only [lt, decide_eq_false_iff_not, not_lt] at below above ⊢
    exact below.trans above
  · rw [byNumbers isSecond isFirst isText isForeign] at below
    rw [byNumbers isThird isSecond isText isForeign] at above
    rw [byNumbers isThird isFirst isText isForeign]
    exact PyFloat.not_lt_trans number below above

end PyKey

/-- Keys of one kind, none of them nan. -/
def Comparable (kind : PyKey.Kind) (key : PyKey) : Prop :=
  key.kind = kind ∧ key.number ≠ .nan

theorem insertField_ascends
    {kind : PyKey.Kind}
    {field : PyKey × α}
    {fields : List (PyKey × α)}
    (comparable : Comparable kind field.1)
    (all : ∀ other ∈ fields, Comparable kind other.1)
    (ascends : fields.Pairwise fun first second => second.1.lt first.1 = false) :
    (insertField field fields).Pairwise fun first second => second.1.lt first.1 = false := by
  induction fields with
  | nil => exact List.pairwise_singleton _ _
  | cons head rest inductionHypothesis =>
      obtain ⟨least, restAscends⟩ := List.pairwise_cons.mp ascends
      have headComparable := all head List.mem_cons_self
      have restComparable : ∀ other ∈ rest, Comparable kind other.1 := fun other member =>
        all other (List.mem_cons_of_mem _ member)
      simp only [insertField]
      split_ifs with below
      · refine List.pairwise_cons.mpr ⟨fun other member => ?_, ascends⟩
        rcases List.mem_cons.mp member with rfl | member
        · exact PyKey.lt_asymm below
        · exact PyKey.not_lt_trans comparable.1 headComparable.1 (restComparable other member).1
            headComparable.2 (PyKey.lt_asymm below) (least other member)
      · refine List.pairwise_cons.mpr ⟨fun other member => ?_,
          inductionHypothesis restComparable restAscends⟩
        rcases List.mem_cons.mp ((insertField_perm field rest).mem_iff.mp member) with rfl | member
        · simpa using below
        · exact least other member

/-- Inserting comparable keys one by one leaves them in order. -/
theorem sortFields_ascends
    {kind : PyKey.Kind}
    {fields : List (PyKey × α)}
    (all : ∀ field ∈ fields, Comparable kind field.1) :
    (sortFields fields).Pairwise fun first second => second.1.lt first.1 = false := by
  have folded : ∀ sorted : List (PyKey × α), (∀ field ∈ sorted, Comparable kind field.1) →
      sorted.Pairwise (fun first second => second.1.lt first.1 = false) →
        (fields.foldl (fun sorted field => insertField field sorted) sorted).Pairwise
          fun first second => second.1.lt first.1 = false := by
    induction fields with
    | nil => exact fun _ _ ascends => ascends
    | cons field fields inductionHypothesis =>
        intro sorted sortedAll ascends
        obtain ⟨comparable, rest⟩ := List.forall_mem_cons.mp all
        apply inductionHypothesis rest _ _ (insertField_ascends comparable sortedAll ascends)
        intro other member
        rcases List.mem_cons.mp ((insertField_perm field sorted).mem_iff.mp member) with
          rfl | member
        · exact comparable
        · exact sortedAll other member
  exact folded [] (List.forall_mem_nil _) List.Pairwise.nil

/-- Several keys that can be sorted are of one kind. -/
theorem kind_eq_of_sortable
    {first second : PyKey}
    {rest : List PyKey}
    (comparable : sortable (first :: second :: rest) = true) :
    ∀ key ∈ first :: second :: rest, key.kind = first.kind := by
  simp only [sortable, Bool.and_eq_true, List.all_eq_true, decide_eq_true_eq] at comparable
  exact List.forall_mem_cons.mpr ⟨rfl, comparable.2⟩

/-- Insertion sort, which orders nan as it finds it. -/
def KeyOrder.insertion : KeyOrder where
  positions keys := (sortFields keys.zipIdx).map Prod.snd
  perm keys := by
    have perm := (sortFields_perm keys.zipIdx).map Prod.snd
    rwa [List.zipIdx_map_snd, ← List.range_eq_range'] at perm
  ascends := by
    intro keys comparable numbers
    have found : ((sortFields keys.zipIdx).map Prod.snd).filterMap (keys[·]?) =
        (sortFields keys.zipIdx).map Prod.fst := by
      rw [List.filterMap_map, ← List.filterMap_eq_map]
      apply List.filterMap_congr
      rintro ⟨key, position⟩ member
      exact List.mem_zipIdx_iff_getElem?.mp ((sortFields_perm _).mem_iff.mp member)
    rw [found, List.pairwise_map]
    match keys with
    | [] => exact List.Pairwise.nil
    | [key] => exact List.pairwise_singleton _ _
    | first :: second :: rest =>
        apply @sortFields_ascends _ first.kind
        rintro ⟨key, position⟩ member
        have inKeys := List.fst_mem_of_mem_zipIdx member
        exact ⟨kind_eq_of_sortable comparable key inKeys, numbers key inKeys⟩

end HardenedClient
