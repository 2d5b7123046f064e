import HardenedClient.PyValue
import Mathlib.Data.List.Perm.Basic

/-!
# The order of fields

`json.dumps(sort_keys=True)` orders the fields of a dictionary by their Python
keys and spells the keys afterwards. The order depends on the keys alone, keeps
every field, and is the order of the names when every key is a string.
-/

namespace HardenedClient

/-! ## Spelling the keys -/

/-- The spelling of a field's key, beside its value. -/
def coerceField? (field : PyKey × α) : Option (PyStr × α) :=
  field.1.coerce?.map fun name => (name, field.2)

theorem coerceFields?_eq_some_iff
    {fields : List (PyKey × α)}
    {named : List (PyStr × α)} :
    coerceFields? fields = some named ↔ fields.map coerceField? = named.map some := by
  induction fields generalizing named with
  | nil => cases named <;> simp [coerceFields?]
  | cons field fields inductionHypothesis =>
      obtain ⟨key, value⟩ := field
      simp only [coerceFields?, Option.bind_eq_bind, Option.bind_eq_some_iff, List.map_cons]
      constructor
      · rintro ⟨name, coerced, others, rest, equal⟩
        obtain rfl := Option.some.inj equal
        simp [coerceField?, coerced, inductionHypothesis.mp rest]
      · intro equal
        cases named with
        | nil => simp at equal
        | cons head named =>
            simp only [List.map_cons, List.cons.injEq, coerceField?,
              Option.map_eq_some_iff] at equal
            obtain ⟨⟨name, coerced, rfl⟩, rest⟩ := equal
            exact ⟨name, coerced, named, inductionHypothesis.mpr rest, rfl⟩

/-- A permutation of fields is spelled as a permutation of named fields. -/
theorem coerceFields?_perm
    {fields others : List (PyKey × α)}
    {named otherNamed : List (PyStr × α)}
    (perm : fields.Perm others)
    (spelled : coerceFields? fields = some named)
    (otherSpelled : coerceFields? others = some otherNamed) :
    named.Perm otherNamed := by
  rw [coerceFields?_eq_some_iff] at spelled otherSpelled
  apply (List.map_perm_map_iff (Option.some_injective _)).mp
  rw [← spelled, ← otherSpelled]
  exact perm.map coerceField?

/-- The names `json.dumps(sort_keys=True)` writes for the keys of a dictionary,
in its order. -/
def spelledKeys? (order : KeyOrder) (keys : List PyKey) : Option (List PyStr) :=
  ((orderFields? (some order) (keys.map fun key => (key, ()))).bind coerceFields?).map
    (List.map Prod.fst)

theorem orderFields?_some
    (order : KeyOrder)
    (fields : List (PyKey × α)) :
    orderFields? (some order) fields =
      if sortable (fields.map Prod.fst) then some (order.arrange fields) else none := rfl

theorem coerceFields?_map
    (change : α → β)
    (fields : List (PyKey × α)) :
    coerceFields? (fields.map (Prod.map id change)) =
      (coerceFields? fields).map (List.map (Prod.map id change)) := by
  induction fields with
  | nil => rfl
  | cons field fields inductionHypothesis =>
      obtain ⟨key, value⟩ := field
      simp only [List.map_cons, Prod.map, id_eq, coerceFields?, inductionHypothesis]
      cases key.coerce? <;> cases coerceFields? fields <;> rfl

/-- The names of a dictionary depend on its keys alone. -/
theorem spelledKeys?_of_named
    {order : KeyOrder}
    {fields ordered : List (PyKey × α)}
    {named : List (PyStr × α)}
    (sorted : orderFields? (some order) fields = some ordered)
    (spelled : coerceFields? ordered = some named) :
    spelledKeys? order (fields.map Prod.fst) = some (named.map Prod.fst) := by
  rw [orderFields?_some] at sorted
  split_ifs at sorted with comparable
  obtain rfl := Option.some.inj sorted
  have units : (fields.map Prod.fst).map (fun key => (key, ())) =
      fields.map (Prod.map id fun _ => ()) := by
    rw [List.map_map]
    rfl
  have sameKeys : (fields.map (Prod.map id fun _ => ())).map Prod.fst =
      fields.map Prod.fst := by
    rw [List.map_map]
    rfl
  rw [spelledKeys?, units, orderFields?_some, sameKeys, if_pos comparable, Option.bind_some,
    order.arrange_map, coerceFields?_map, spelled]
  simp only [Option.map_some, List.map_map, Option.some.injEq]
  rfl

/-! ## String keys -/

/-- A named field as a field with a string key. -/
def strField (field : PyStr × α) : PyKey × α := (.str field.1, field.2)

/-- The name of a field with a string key. -/
def nameField : PyKey × α → PyStr × α
  | (.str name, value) => (name, value)
  | (_, value) => ([], value)

/-- Named fields in the order of their names. -/
def NamesAscend (fields : List (PyStr × α)) : Prop :=
  fields.Pairwise fun first second => first.1 ≤ second.1

theorem map_fst_strField (fields : List (PyStr × α)) :
    (fields.map strField).map Prod.fst = (fields.map Prod.fst).map PyKey.str := by
  rw [List.map_map, List.map_map]
  rfl

/-- String keys can be compared. -/
theorem sortable_of_keys_str
    {keys : List PyKey}
    (keysStr : ∀ key ∈ keys, ∃ name, key = .str name) :
    sortable keys = true := by
  match keys with
  | [] => rfl
  | [key] => rfl
  | key :: next :: rest =>
      obtain ⟨name, rfl⟩ := keysStr key List.mem_cons_self
      simp only [sortable, PyKey.kind, Bool.and_eq_true, List.all_eq_true]
      refine ⟨rfl, fun other present => ?_⟩
      obtain ⟨otherName, rfl⟩ := keysStr other (List.mem_cons_of_mem _ present)
      rfl

theorem keys_strField_str (fields : List (PyStr × α)) :
    ∀ key ∈ (fields.map strField).map Prod.fst, ∃ name, key = PyKey.str name := by
  intro key member
  rw [map_fst_strField] at member
  obtain ⟨name, _, rfl⟩ := List.mem_map.mp member
  exact ⟨name, rfl⟩

/-- Fields with string keys are sorted by their names. -/
theorem arrange_strField (order : KeyOrder) (fields : List (PyStr × α)) :
    ∃ sorted, order.arrange (fields.map strField) = sorted.map strField ∧
      sorted.Perm fields ∧ NamesAscend sorted := by
  have perm := order.arrange_perm (fields.map strField)
  have named : order.arrange (fields.map strField) =
      ((order.arrange (fields.map strField)).map nameField).map strField := by
    have same : ∀ field ∈ order.arrange (fields.map strField),
        (strField ∘ nameField) field = id field := by
      intro field member
      obtain ⟨source, _, rfl⟩ := List.mem_map.mp (perm.mem_iff.mp member)
      rfl
    rw [List.map_map, List.map_congr_left same, List.map_id]
  refine ⟨_, named, ?_, ?_⟩
  · have back := perm.map nameField
    rw [List.map_map] at back
    simpa [Function.comp_def, nameField, strField] using back
  · have ascends := order.ascends _ (sortable_of_keys_str (keys_strField_str fields)) <| by
      intro key member
      obtain ⟨name, rfl⟩ := keys_strField_str fields key member
      simp [PyKey.number]
    rw [← order.map_fst_arrange, named, map_fst_strField, List.pairwise_map,
      List.pairwise_map] at ascends
    apply ascends.imp
    intro first second notBelow
    simpa [PyKey.lt] using notBelow

theorem coerceFields?_strField (fields : List (PyStr × α)) :
    coerceFields? (fields.map strField) = some fields := by
  rw [coerceFields?_eq_some_iff, List.map_map]
  apply List.map_congr_left
  intro field _
  rfl

/-- Fields with distinct string keys are encoded in the strict order of their
names. -/
theorem orderFields?_strField
    (order : KeyOrder)
    {fields : List (PyStr × α)}
    (distinct : (fields.map Prod.fst).Nodup) :
    ∃ sorted, (orderFields? (some order) (fields.map strField)).bind coerceFields? = some sorted ∧
      sorted.Perm fields ∧ (sorted.map Prod.fst).Pairwise (· < ·) := by
  obtain ⟨sorted, same, perm, ascends⟩ := arrange_strField order fields
  refine ⟨sorted, ?_, perm, ?_⟩
  · rw [orderFields?_some, if_pos (sortable_of_keys_str (keys_strField_str fields)),
      Option.bind_some, same, coerceFields?_strField]
  · have ordered : (sorted.map Prod.fst).Pairwise (· ≤ ·) := List.pairwise_map.mpr ascends
    have nodup : (sorted.map Prod.fst).Nodup := (perm.map Prod.fst).nodup_iff.mpr distinct
    apply (ordered.and nodup).imp
    exact fun {first second} both => lt_of_le_of_ne both.1 both.2

/-- Two orders of the same names, both strict, are one. -/
theorem eq_of_names_ascend
    {fields others : List (PyStr × α)}
    (perm : fields.Perm others)
    (ascends : (fields.map Prod.fst).Pairwise (· < ·))
    (otherAscends : (others.map Prod.fst).Pairwise (· < ·)) :
    fields = others := by
  apply List.Perm.eq_of_pairwise _ (List.pairwise_map.mp ascends)
    (List.pairwise_map.mp otherAscends) perm
  intro first second _ _ below above
  exact absurd below (lt_asymm above)

/-- Every order of keys leaves fields with distinct string keys in one order. -/
theorem orderFields?_strField_eq
    (order other : KeyOrder)
    {fields : List (PyStr × α)}
    (distinct : (fields.map Prod.fst).Nodup) :
    (orderFields? (some order) (fields.map strField)).bind coerceFields? =
      (orderFields? (some other) (fields.map strField)).bind coerceFields? := by
  obtain ⟨sorted, isSorted, perm, ascends⟩ := orderFields?_strField order distinct
  obtain ⟨others, isOther, otherPerm, otherAscends⟩ := orderFields?_strField other distinct
  rw [isSorted, isOther, eq_of_names_ascend (perm.trans otherPerm.symm) ascends otherAscends]

end HardenedClient
