import HardenedClient.StoredIdentity

/-!
# Canonical keys

Two requests share an idempotency key when their canonical dumps are one text.
For JSON values with string keys and without floats this is equality of the
values: the dump sorts the fields of every object, so the order of insertion is
lost, and the text of a document determines the document. It does not determine
every string, since json writes a pair of surrogates like the code point above
them.
-/

namespace HardenedClient

open Foundation

/-- A document that is a literal name or an integer. -/
inductive Json.IsWord : Json → Prop
  | null : Json.IsWord .null
  | bool (value : Bool) : Json.IsWord (.bool value)
  | int (value : ℤ) : Json.IsWord (.int value)

/-- A document without floats. -/
inductive Json.FloatFree : Json → Prop
  | word {document : Json} (isWord : document.IsWord) : Json.FloatFree document
  | str (text : JsonText) : Json.FloatFree (.str text)
  | arr {items : List Json} (parts : ∀ item ∈ items, Json.FloatFree item) :
      Json.FloatFree (.arr items)
  | obj {fields : List (JsonText × Json)} (parts : ∀ field ∈ fields, Json.FloatFree field.2) :
      Json.FloatFree (.obj fields)

/-! ## Integers -/

theorem render_natCast (value : ℕ) : render (.int value) = Nat.toDigits 10 value := by
  rw [render]
  exact Nat.toList_repr

theorem render_negSucc (value : ℕ) :
    render (.int (.negSucc value)) = '-' :: Nat.toDigits 10 (value + 1) := by
  rw [render]
  change ("-" ++ (value + 1).repr).toList = _
  rw [String.toList_append, Nat.toList_repr]
  rfl

/-- An integer starts with a digit or a sign. -/
theorem render_int_begins (value : ℤ) :
    ∃ head tail, render (.int value) = head :: tail ∧ (head.isDigit = true ∨ head = '-') := by
  cases value with
  | ofNat value =>
      obtain ⟨head, tail, spelled⟩ := List.exists_cons_of_ne_nil (@Nat.toDigits_ne_nil value 10)
      refine ⟨head, tail, (render_natCast value).trans spelled, Or.inl ?_⟩
      exact Nat.isDigit_of_mem_toDigits (by decide) (by decide) (spelled ▸ List.mem_cons_self)
  | negSucc value => exact ⟨'-', _, render_negSucc value, Or.inr rfl⟩

theorem toDigits_injective
    {first second : ℕ}
    (equal : Nat.toDigits 10 first = Nat.toDigits 10 second) :
    first = second := by
  have read := congrArg (fun digits => Nat.ofDigitChars 10 digits 0) equal
  simpa using read

/-- A number without a sign is not one with a sign. -/
theorem toDigits_ne_minus (first second : ℕ) :
    Nat.toDigits 10 first ≠ '-' :: Nat.toDigits 10 second := by
  intro equal
  have digit : '-'.isDigit = true :=
    Nat.isDigit_of_mem_toDigits (by decide) (by decide) (equal ▸ List.mem_cons_self)
  exact absurd digit (by decide)

theorem render_int_injective
    {first second : ℤ}
    (equal : render (.int first) = render (.int second)) :
    first = second := by
  cases first with
  | ofNat first =>
      cases second with
      | ofNat second =>
          rw [Int.ofNat_eq_natCast, Int.ofNat_eq_natCast, render_natCast, render_natCast] at equal
          rw [toDigits_injective equal]
      | negSucc second =>
          rw [Int.ofNat_eq_natCast, render_natCast, render_negSucc] at equal
          exact absurd equal (toDigits_ne_minus _ _)
  | negSucc first =>
      cases second with
      | ofNat second =>
          rw [Int.ofNat_eq_natCast, render_natCast, render_negSucc] at equal
          exact absurd equal.symm (toDigits_ne_minus _ _)
      | negSucc second =>
          rw [render_negSucc, render_negSucc] at equal
          have same := toDigits_injective (List.cons.inj equal).2
          rw [Nat.succ_injective same]

/-- An integer is not spelled like a literal name. -/
theorem render_int_ne_name
    (value : ℤ)
    {head : Char}
    (letter : head.isDigit = false)
    (unsigned : head ≠ '-')
    (tail : List Char) :
    render (.int value) ≠ head :: tail := by
  intro equal
  obtain ⟨first, rest, spelled, kind⟩ := render_int_begins value
  obtain rfl := (List.cons.inj (spelled.symm.trans equal)).1
  rcases kind with digit | sign
  · rw [letter] at digit
    cases digit
  · exact unsigned sign

/-! ## Documents without floats -/

/-- Lists with one image are one where the function is injective on them. -/
theorem eq_of_map_eq
    {function : α → β}
    {items others : List α}
    (equal : items.map function = others.map function)
    (injective : ∀ item ∈ items, ∀ other ∈ others, function item = function other →
      item = other) :
    items = others := by
  induction items generalizing others with
  | nil => exact (List.map_eq_nil_iff.mp equal.symm).symm
  | cons item items inductionHypothesis =>
      obtain ⟨other, rest, rfl, same, tail⟩ := List.map_eq_cons_iff.mp equal.symm
      rw [injective item List.mem_cons_self other List.mem_cons_self same.symm]
      rw [inductionHypothesis tail.symm]
      intro first member second otherMember
      exact injective first (List.mem_cons_of_mem _ member) second
        (List.mem_cons_of_mem _ otherMember)

/-- Words with one spelling are one. -/
theorem eq_of_render_word
    {first second : Json}
    (isWord : first.IsWord)
    (isOther : second.IsWord)
    (equal : render first = render second) :
    first = second := by
  have names : ∀ value, render (.int value) ≠ "null".toList ∧
      render (.int value) ≠ "true".toList ∧ render (.int value) ≠ "false".toList := by
    intro value
    exact ⟨render_int_ne_name value (by decide) (by decide) _,
      render_int_ne_name value (by decide) (by decide) _,
      render_int_ne_name value (by decide) (by decide) _⟩
  cases isWord <;> cases isOther
  case null.null => rfl
  case null.bool literal => cases literal <;> simp [render] at equal
  case null.int value => exact absurd equal.symm (names value).1
  case bool.null literal => cases literal <;> simp [render] at equal
  case bool.bool literal other => cases literal <;> cases other <;> simp [render] at equal ⊢
  case bool.int literal value =>
    cases literal
    · exact absurd equal.symm (names value).2.2
    · exact absurd equal.symm (names value).2.1
  case int.null value => exact absurd equal (names value).1
  case int.bool value literal =>
    cases literal
    · exact absurd equal (names value).2.2
    · exact absurd equal (names value).2.1
  case int.int => rw [render_int_injective equal]

theorem Json.IsWord.bareWord
    {document : Json}
    (isWord : document.IsWord) :
    BareWord (render document) := by
  cases isWord <;> exact (bareWord_or _).resolve_right (by simp)

/-- A word is not spelled like the beginning of a string or a container. -/
theorem Json.IsWord.render_ne
    {document : Json}
    (isWord : document.IsWord)
    {head : Char}
    (notBare : isBareChar head = false)
    (tail : List Char) :
    render document ≠ head :: tail := by
  have different := isWord.bareWord.append_ne_cons notBare [] tail
  rwa [List.append_nil] at different

/-- Documents without floats are determined by their spelling. -/
theorem render_injective
    {first second : Json}
    (floatFree : first.FloatFree)
    (other : second.FloatFree)
    (equal : render first = render second) :
    first = second := by
  induction floatFree generalizing second with
  | word isWord =>
      cases other with
      | word isOther => exact eq_of_render_word isWord isOther equal
      | str => exact absurd equal (isWord.render_ne (by decide) _)
      | arr => exact absurd equal (isWord.render_ne (by decide) _)
      | obj => exact absurd equal (isWord.render_ne (by decide) _)
  | str text =>
      cases other with
      | word isOther => exact absurd equal.symm (isOther.render_ne (by decide) _)
      | str other =>
          rw [render, render] at equal
          rw [(renderString_prefixFree (congrArg (· ++ []) equal)).1]
      | arr => simp [render, renderString] at equal
      | obj => simp [render, renderString] at equal
  | arr parts each =>
      cases other with
      | word isOther => exact absurd equal.symm (isOther.render_ne (by decide) _)
      | str => simp [render, renderString] at equal
      | arr others =>
          rw [eq_of_map_eq (map_render_of_render_arr_eq equal)]
          intro item member other otherMember same
          exact each item member (others other otherMember) same
      | obj => simp [render] at equal
  | obj parts each =>
      cases other with
      | word isOther => exact absurd equal.symm (isOther.render_ne (by decide) _)
      | str => simp [render, renderString] at equal
      | arr => simp [render] at equal
      | obj others =>
          rw [eq_of_map_eq (map_renderField_of_render_obj_eq equal)]
          intro field member other otherMember same
          obtain ⟨sameName, sameValue⟩ := renderField_inj same
          exact Prod.ext sameName (each field member (others other otherMember) sameValue)

/-! ## Values of one meaning -/

/-- A JSON value with string keys at every depth, without floats, and without
surrogate pairs in its strings. -/
inductive PyValue.Exact : PyValue → Prop
  | none : PyValue.Exact .none
  | bool (value : Bool) : PyValue.Exact (.bool value)
  | int (value : ℤ) : PyValue.Exact (.int value)
  | str {text : PyStr} (unpaired : Unpaired text) : PyValue.Exact (.str text)
  | list {items : List PyValue} (parts : ∀ item ∈ items, PyValue.Exact item) :
      PyValue.Exact (.list items)
  | dict {fields : List (PyStr × PyValue)} (distinct : (fields.map Prod.fst).Nodup)
      (names : ∀ name ∈ fields.map Prod.fst, Unpaired name)
      (parts : ∀ field ∈ fields, PyValue.Exact field.2) :
      PyValue.Exact (.dict (fields.map strField))

/-- Two values are equal as JSON values: lists agree item by item, and dictionaries have
the same keys with equal values, in whatever order they were inserted. -/
inductive SameJson : PyValue → PyValue → Prop
  | none : SameJson .none .none
  | bool (value : Bool) : SameJson (.bool value) (.bool value)
  | int (value : ℤ) : SameJson (.int value) (.int value)
  | str (text : PyStr) : SameJson (.str text) (.str text)
  | list {items others : List PyValue}
      (length : items.length = others.length)
      (values : ∀ (index : ℕ) item other, items[index]? = some item →
        others[index]? = some other → SameJson item other) :
      SameJson (.list items) (.list others)
  | dict {entries others : PyDict}
      (keys : ∀ key, key ∈ entries.map Prod.fst ↔ key ∈ others.map Prod.fst)
      (values : ∀ key value other, (key, value) ∈ entries → (key, other) ∈ others →
        SameJson value other) :
      SameJson (.dict entries) (.dict others)

variable {order : KeyOrder}

/-- The canonical document of a value. -/
def PyValue.dump (order : KeyOrder) (value : PyValue) : Json :=
  (encode? (some order) value).getD .null

/-- A field with the canonical document of its value. -/
def dumpField (order : KeyOrder) (field : PyStr × PyValue) : PyStr × Json :=
  (field.1, field.2.dump order)

theorem encodeItems?_dump
    {items : List PyValue}
    (encodes : ∀ item ∈ items, encode? (some order) item = some (item.dump order)) :
    encodeItems? (some order) items = some (items.map (PyValue.dump order)) := by
  induction items with
  | nil => rfl
  | cons item items inductionHypothesis =>
      obtain ⟨head, tail⟩ := List.forall_mem_cons.mp encodes
      simp [encodeItems?, head, inductionHypothesis tail]

theorem encodeEntries?_dump
    {fields : List (PyStr × PyValue)}
    (encodes : ∀ field ∈ fields, encode? (some order) field.2 = some (field.2.dump order)) :
    encodeEntries? (some order) (fields.map strField) =
      some ((fields.map (dumpField order)).map strField) := by
  induction fields with
  | nil => rfl
  | cons field fields inductionHypothesis =>
      obtain ⟨head, tail⟩ := List.forall_mem_cons.mp encodes
      have rest := inductionHypothesis tail
      simp only [List.map_cons, strField, encodeEntries?, head] at rest ⊢
      rw [rest]
      rfl

theorem map_fst_dumpField (fields : List (PyStr × PyValue)) :
    (fields.map (dumpField order)).map Prod.fst = fields.map Prod.fst := by
  rw [List.map_map]
  rfl

/-- The document of a dictionary lists its fields in the order of their names. -/
theorem encode?_dict_dump
    {fields : List (PyStr × PyValue)}
    (distinct : (fields.map Prod.fst).Nodup)
    (encodes : ∀ field ∈ fields, encode? (some order) field.2 = some (field.2.dump order)) :
    ∃ sorted : List (PyStr × Json), encode? (some order) (.dict (fields.map strField)) =
        some (.obj (sorted.map unitField)) ∧
      sorted.Perm (fields.map (dumpField order)) ∧ (sorted.map Prod.fst).Pairwise (· < ·) := by
  obtain ⟨sorted, isSorted, perm, ascends⟩ :=
    @orderFields?_strField _ order (fields.map (dumpField order)) (by rwa [map_fst_dumpField])
  refine ⟨sorted, ?_, perm, ascends⟩
  rw [encode?, encodeEntries?_dump encodes]
  obtain ⟨ordered, isOrdered, named⟩ := Option.bind_eq_some_iff.mp isSorted
  simp only [Option.bind_eq_bind, Option.bind_some, isOrdered, named]
  rfl

/-- A value without floats has a canonical document without floats. -/
theorem PyValue.Exact.encodes
    (order : KeyOrder)
    {value : PyValue}
    (exact_ : value.Exact) :
    encode? (some order) value = some (value.dump order) ∧ (value.dump order).FloatFree := by
  induction exact_ with
  | none => exact ⟨rfl, .word .null⟩
  | bool value => exact ⟨rfl, .word (.bool value)⟩
  | int value => exact ⟨rfl, .word (.int value)⟩
  | str => exact ⟨rfl, .str _⟩
  | @list items parts each =>
      have encoded : encode? (some order) (.list items) = some (.arr (items.map (dump order))) := by
        rw [encode?, encodeItems?_dump fun item member => (each item member).1]
        rfl
      refine ⟨by rw [dump, encoded]; rfl, ?_⟩
      rw [dump, encoded]
      apply Json.FloatFree.arr
      intro document member
      obtain ⟨item, inItems, rfl⟩ := List.mem_map.mp member
      exact (each item inItems).2
  | @dict fields distinct names parts each =>
      obtain ⟨sorted, encoded, perm, _⟩ :=
        encode?_dict_dump distinct fun field member => (each field member).1
      refine ⟨by rw [dump, encoded]; rfl, ?_⟩
      rw [dump, encoded]
      apply Json.FloatFree.obj
      intro field member
      obtain ⟨named, inSorted, rfl⟩ := List.mem_map.mp member
      obtain ⟨source, inFields, rfl⟩ := List.mem_map.mp (perm.mem_iff.mp inSorted)
      exact (each source inFields).2

/-- Fields with distinct names are distinct with their documents. -/
theorem nodup_dumpField
    {fields : List (PyStr × PyValue)}
    (distinct : (fields.map Prod.fst).Nodup) :
    (fields.map (dumpField order)).Nodup :=
  .of_map Prod.fst (by rwa [map_fst_dumpField])

/-- What the document of a value without floats is. -/
inductive Dumped (order : KeyOrder) : PyValue → Json → Prop
  | none : Dumped order .none .null
  | bool (value : Bool) : Dumped order (.bool value) (.bool value)
  | int (value : ℤ) : Dumped order (.int value) (.int value)
  | str {text : PyStr} {units : JsonText} (unpaired : Unpaired text)
      (isUnits : units = toUnits text) : Dumped order (.str text) (.str units)
  | list {items : List PyValue} {documents : List Json}
      (isDocuments : documents = items.map (PyValue.dump order)) :
      Dumped order (.list items) (.arr documents)
  | dict {entries : PyDict} {fields : List (PyStr × PyValue)} {sorted : List (PyStr × Json)}
      {named : List (JsonText × Json)}
      (isEntries : entries = fields.map strField)
      (isNamed : named = sorted.map unitField)
      (distinct : (fields.map Prod.fst).Nodup)
      (names : ∀ name ∈ fields.map Prod.fst, Unpaired name)
      (perm : sorted.Perm (fields.map (dumpField order)))
      (ascends : (sorted.map Prod.fst).Pairwise (· < ·)) :
      Dumped order (.dict entries) (.obj named)

theorem PyValue.Exact.dumped
    (order : KeyOrder)
    {value : PyValue}
    (exact_ : value.Exact) :
    Dumped order value (value.dump order) := by
  cases exact_ with
  | none => exact .none
  | bool value => exact .bool value
  | int value => exact .int value
  | str unpaired => exact .str unpaired rfl
  | @list items parts =>
      have encoded : encode? (some order) (.list items) = some (.arr (items.map (dump order))) := by
        rw [encode?, encodeItems?_dump fun item member => ((parts item member).encodes order).1]
        rfl
      rw [dump, encoded]
      exact .list rfl
  | @dict fields distinct names parts =>
      obtain ⟨sorted, encoded, perm, ascends⟩ :=
        encode?_dict_dump distinct fun field member => ((parts field member).encodes order).1
      rw [dump, encoded]
      exact .dict rfl rfl distinct names perm ascends

theorem PyValue.Exact.items
    {items : List PyValue}
    (exact_ : (PyValue.list items).Exact) :
    ∀ item ∈ items, item.Exact := by
  cases exact_ with
  | list parts => exact parts

theorem PyValue.Exact.values
    {entries : PyDict}
    (exact_ : (PyValue.dict entries).Exact) :
    ∀ entry ∈ entries, entry.2.Exact := by
  cases exact_ with
  | dict distinct names parts =>
      intro entry member
      obtain ⟨field, inFields, rfl⟩ := List.mem_map.mp member
      exact parts field inFields

theorem mem_map_strField_iff
    {fields : List (PyStr × α)}
    {key : PyKey}
    {value : α} :
    (key, value) ∈ fields.map strField ↔ ∃ name, key = .str name ∧ (name, value) ∈ fields := by
  constructor
  · intro member
    obtain ⟨⟨name, other⟩, inFields, same⟩ := List.mem_map.mp member
    obtain ⟨rfl, rfl⟩ := Prod.mk.inj same
    exact ⟨name, rfl, inFields⟩
  · rintro ⟨name, rfl, inFields⟩
    exact List.mem_map_of_mem (f := strField) inFields

theorem mem_keys_strField_iff
    {fields : List (PyStr × α)}
    {name : PyStr} :
    PyKey.str name ∈ (fields.map strField).map Prod.fst ↔ name ∈ fields.map Prod.fst := by
  rw [map_fst_strField, List.mem_map_of_injective fun _ _ => PyKey.str.inj]

/-- The documents of two dictionaries agree when those of their values do. -/
theorem dumpField_perm
    {fields others : List (PyStr × PyValue)}
    (distinct : (fields.map Prod.fst).Nodup)
    (otherDistinct : (others.map Prod.fst).Nodup)
    (names : ∀ name, name ∈ fields.map Prod.fst ↔ name ∈ others.map Prod.fst)
    (values : ∀ name value other, (name, value) ∈ fields → (name, other) ∈ others →
      value.dump order = other.dump order) :
    (fields.map (dumpField order)).Perm (others.map (dumpField order)) := by
  rw [List.perm_ext_iff_of_nodup (nodup_dumpField distinct) (nodup_dumpField otherDistinct)]
  have carried : ∀ {first second : List (PyStr × PyValue)} {field : PyStr × Json},
      (∀ name, name ∈ first.map Prod.fst → name ∈ second.map Prod.fst) →
      (∀ name value other, (name, value) ∈ first → (name, other) ∈ second →
        value.dump order = other.dump order) →
      field ∈ first.map (dumpField order) → field ∈ second.map (dumpField order) := by
    intro first second field names values member
    obtain ⟨⟨name, value⟩, inFirst, rfl⟩ := List.mem_map.mp member
    obtain ⟨⟨same, other⟩, inSecond, rfl⟩ :=
      List.mem_map.mp (names name (List.mem_map_of_mem (f := Prod.fst) inFirst))
    refine List.mem_map.mpr ⟨_, inSecond, ?_⟩
    rw [dumpField, dumpField, values _ value other inFirst inSecond]
  intro field
  refine ⟨carried (fun name => (names name).mp) values, ?_⟩
  exact carried (fun name => (names name).mpr) fun name value other member otherMember =>
    (values name other value otherMember member).symm

/-- Values of one meaning have one document. -/
theorem dump_eq_of_same
    {first second : PyValue}
    (same : SameJson first second)
    (exact_ : first.Exact)
    (other : second.Exact) :
    first.dump order = second.dump order := by
  induction same with
  | none | bool | int | str => rfl
  | @list items others length values each =>
      have dumped := exact_.dumped order
      have otherDumped := other.dumped order
      generalize PyValue.dump order (.list items) = document at dumped ⊢
      generalize PyValue.dump order (.list others) = otherDocument at otherDumped ⊢
      cases dumped with | list isDocuments =>
      cases otherDumped with | list areDocuments =>
      subst isDocuments areDocuments
      congr 1
      apply List.ext_getElem (by simpa using length)
      intro index below otherBelow
      rw [List.length_map] at below otherBelow
      rw [List.getElem_map, List.getElem_map]
      exact each index _ _ (List.getElem?_eq_getElem below) (List.getElem?_eq_getElem otherBelow)
        (exact_.items _ (List.getElem_mem below)) (other.items _ (List.getElem_mem otherBelow))
  | @dict entries others keys values each =>
      have parts := exact_.values
      have otherParts := other.values
      have dumped := exact_.dumped order
      have otherDumped := other.dumped order
      generalize PyValue.dump order (.dict entries) = document at dumped ⊢
      generalize PyValue.dump order (.dict others) = otherDocument at otherDumped ⊢
      cases dumped with | @dict _ fields sorted _ isEntries isNamed distinct _ perm ascends =>
      cases otherDumped with
      | @dict _ otherFields otherSorted _ areEntries areNamed otherDistinct _ otherPerm
          otherAscends =>
      subst isEntries areEntries isNamed areNamed
      have documents : (fields.map (dumpField order)).Perm
          (otherFields.map (dumpField order)) := by
        apply dumpField_perm distinct otherDistinct
        · intro name
          rw [← mem_keys_strField_iff, keys, mem_keys_strField_iff]
        · intro name value other member otherMember
          have inEntries := mem_map_strField_iff.mpr ⟨name, rfl, member⟩
          have inOthers := mem_map_strField_iff.mpr ⟨name, rfl, otherMember⟩
          exact each (.str name) value other inEntries inOthers (parts _ inEntries)
            (otherParts _ inOthers)
      rw [eq_of_names_ascend (perm.trans (documents.trans otherPerm.symm)) ascends otherAscends]

/-- Names that are spelled in the same fields are the same. -/
theorem mem_names_of_dumpField_perm
    {fields others : List (PyStr × PyValue)}
    (documents : (fields.map (dumpField order)).Perm (others.map (dumpField order)))
    {name : PyStr} :
    name ∈ fields.map Prod.fst ↔ name ∈ others.map Prod.fst := by
  have names := (documents.map Prod.fst).mem_iff (a := name)
  rwa [map_fst_dumpField, map_fst_dumpField] at names

/-- The values that two dictionaries of the same documents have under a name have one
document. -/
theorem dump_eq_of_dumpField_perm
    {fields others : List (PyStr × PyValue)}
    (distinct : (others.map Prod.fst).Nodup)
    (documents : (fields.map (dumpField order)).Perm (others.map (dumpField order)))
    {name : PyStr}
    {value other : PyValue}
    (member : (name, value) ∈ fields)
    (otherMember : (name, other) ∈ others) :
    value.dump order = other.dump order := by
  have spelled : (name, value.dump order) ∈ others.map (dumpField order) :=
    documents.mem_iff.mp (List.mem_map_of_mem (f := dumpField order) member)
  obtain ⟨source, inOthers, same⟩ := List.mem_map.mp spelled
  have sameName : source.1 = name := congrArg Prod.fst same
  have sameDump : source.2.dump order = value.dump order := congrArg Prod.snd same
  have isOther : source = (name, other) :=
    List.inj_on_of_nodup_map distinct inOthers otherMember sameName
  rw [← sameDump, isOther]

/-- Values with one document have one meaning. -/
theorem same_of_dump_eq
    {first second : PyValue}
    (exact_ : first.Exact)
    (other : second.Exact)
    (equal : first.dump order = second.dump order) :
    SameJson first second := by
  have dumped := exact_.dumped order
  have otherDumped := other.dumped order
  rw [← equal] at otherDumped
  induction first using PyValue.partsInduction generalizing second with
  | none =>
      cases dumped
      cases otherDumped
      exact .none
  | bool value =>
      cases dumped
      cases otherDumped
      exact .bool value
  | int value =>
      cases dumped
      cases otherDumped
      exact .int value
  | str text =>
      generalize PyValue.dump order (.str text) = document at dumped otherDumped
      cases dumped with | str unpaired isUnits =>
      cases otherDumped with | str otherUnpaired areUnits =>
      rw [(toUnits_inj unpaired otherUnpaired).mp (isUnits.symm.trans areUnits)]
      exact .str _
  | list items each =>
      have parts := exact_.items
      generalize PyValue.dump order (.list items) = document at dumped otherDumped
      cases dumped with | list isDocuments =>
      cases otherDumped with | @list others _ areDocuments =>
      have otherParts := other.items
      have documents := isDocuments.symm.trans areDocuments
      refine .list (by simpa using congrArg List.length documents) ?_
      intro index item other isItem isOther
      have sameDump : some (item.dump order) = some (other.dump order) := by
        simpa [isItem, isOther] using congrArg (·[index]?) documents
      have inItems := parts _ (List.mem_of_getElem? isItem)
      have inOthers := otherParts _ (List.mem_of_getElem? isOther)
      have dumps := Option.some.inj sameDump
      exact each item (List.mem_of_getElem? isItem) inItems inOthers dumps (inItems.dumped order)
        (dumps ▸ inOthers.dumped order)
  | dict entries each =>
      have parts := exact_.values
      generalize PyValue.dump order (.dict entries) = document at dumped otherDumped
      cases dumped with | @dict _ fields sorted _ isEntries isNamed distinct names perm ascends =>
      cases otherDumped with
      | @dict others otherFields otherSorted _ areEntries areNamed otherDistinct otherNames
          otherPerm _ =>
      have otherParts := other.values
      subst isEntries areEntries
      have sortedNames : ∀ name ∈ sorted.map Prod.fst, Unpaired name := by
        intro name member
        apply names
        rwa [(perm.map Prod.fst).mem_iff, map_fst_dumpField] at member
      have otherSortedNames : ∀ name ∈ otherSorted.map Prod.fst, Unpaired name := by
        intro name member
        apply otherNames
        rwa [(otherPerm.map Prod.fst).mem_iff, map_fst_dumpField] at member
      obtain rfl := eq_of_map_unitField_eq sortedNames otherSortedNames
        (isNamed.symm.trans areNamed)
      have documents := perm.symm.trans otherPerm
      refine .dict ?_ ?_
      · intro key
        rw [map_fst_strField, map_fst_strField, List.mem_map, List.mem_map]
        simp only [mem_names_of_dumpField_perm documents]
      · intro key value other member otherMember
        obtain ⟨name, rfl, inFields⟩ := mem_map_strField_iff.mp member
        obtain ⟨same, isName, inOthers⟩ := mem_map_strField_iff.mp otherMember
        obtain rfl := PyKey.str.inj isName
        have dumps := dump_eq_of_dumpField_perm otherDistinct documents inFields inOthers
        have exactValue := parts _ member
        have exactOther := otherParts _ otherMember
        exact each _ member exactValue exactOther dumps (exactValue.dumped order)
          (dumps ▸ exactOther.dumped order)
  | float | tuple | bytes | other => cases dumped

/-- Two values without floats have one canonical text exactly when they are equal as JSON
values. -/
theorem canonicalText?_eq_iff
    {first second : PyValue}
    (exact_ : first.Exact)
    (other : second.Exact) :
    canonicalText? order first = canonicalText? order second ↔ SameJson first second := by
  obtain ⟨encoded, isExact⟩ := exact_.encodes order
  obtain ⟨otherEncoded, isOther⟩ := other.encodes order
  rw [canonicalText?, canonicalText?, encoded, otherEncoded, Option.map_some, Option.map_some,
    Option.some.injEq]
  constructor
  · intro equal
    exact same_of_dump_eq exact_ other (render_injective isExact isOther equal)
  · intro same
    rw [dump_eq_of_same same exact_ other]

/-! ## The key of a request -/

/-- Parameters and body are JSON values with string keys at every depth and without
floats, and no string has a surrogate pair. -/
structure Request.Exact (request : Request) : Prop where
  method : Unpaired request.method
  url : Unpaired request.url
  params : (PyValue.dict request.params).Exact
  body : request.body.Exact

theorem Request.Exact.identity
    {request : Request}
    (exact_ : request.Exact) :
    request.identity.Exact := by
  change (PyValue.dict (request.identityFields.map strField)).Exact
  refine .dict request.nodup_identityFields ?_ ?_
  · change ∀ name ∈ (["method", "url", "params", "body"] : List PyStr), Unpaired name
    decide +kernel
  · simp only [identityFields, List.forall_mem_cons]
    exact ⟨.str (PyStr.unpaired_upper exact_.method), .str exact_.url, exact_.params, exact_.body,
      List.forall_mem_nil _⟩

/-- A request without floats has a key unless it is too large for one. -/
theorem Request.Exact.isSome_idempotencyKey?
    {request : Request}
    (exact_ : request.Exact)
    (python : Interpreter) :
    (request.idempotencyKey? python).isSome =
      request.identity.fits python python.recursionLimit := by
  rw [idempotencyKey?, stableDump?, canonicalText?, (exact_.identity.encodes python.order).1]
  split_ifs with fits
  · exact fits.symm
  · exact (Bool.eq_false_iff.mpr fits).symm

theorem SameJson.eq_of_str
    {first second : PyStr}
    (same : SameJson (.str first) (.str second)) :
    first = second := by
  cases same
  rfl

theorem same_identity_iff (first second : Request) :
    SameJson first.identity second.identity ↔
      first.method.upper = second.method.upper ∧ first.url = second.url ∧
        SameJson (.dict first.params) (.dict second.params) ∧
          SameJson first.body second.body := by
  constructor
  · intro same
    cases same with | dict keys values =>
    exact ⟨(values (.str "method") _ _ (by simp) (by simp)).eq_of_str,
      (values (.str "url") _ _ (by simp) (by simp)).eq_of_str,
      values (.str "params") _ _ (by simp) (by simp),
      values (.str "body") _ _ (by simp) (by simp)⟩
  · rintro ⟨methods, urls, params, bodies⟩
    rw [Request.identity, Request.identity, methods, urls]
    have distinct : (["method", "url", "params", "body"] : List PyStr).Nodup := by decide +kernel
    simp only [List.nodup_cons, List.mem_cons, List.not_mem_nil, or_false, not_or] at distinct
    obtain ⟨⟨methodUrl, methodParams, methodBody⟩, ⟨urlParams, urlBody⟩, paramsBody, _⟩ := distinct
    refine .dict (fun key => Iff.rfl) ?_
    intro key value other member otherMember
    simp only [List.mem_cons, List.not_mem_nil, or_false, Prod.mk.injEq] at member otherMember
    rcases member with ⟨rfl, rfl⟩ | ⟨rfl, rfl⟩ | ⟨rfl, rfl⟩ | ⟨rfl, rfl⟩ <;>
      simp [methodUrl, methodParams, methodBody, urlParams, urlBody, paramsBody, Ne.symm methodUrl,
        Ne.symm methodParams, Ne.symm methodBody, Ne.symm urlParams, Ne.symm urlBody,
        Ne.symm paramsBody] at otherMember <;> subst otherMember
    · exact .str _
    · exact .str _
    · exact params
    · exact bodies

/-- The idempotency key is canonical. Requests whose parameters and body are JSON values with
string keys and without floats, and whose strings have no surrogate pairs, have a key each
unless they are too large for the interpreter, and two keys are equal if and only if the
methods agree in upper case, the URLs agree, and parameters and bodies are equal as JSON
values; headers, priority, id and time of creation do not enter the key. -/
theorem idempotency_key_canonical
    (python : Interpreter)
    (first second : Request)
    (exact_ : first.Exact)
    (other : second.Exact) :
    (∀ key otherKey, first.idempotencyKey? python = some key →
      second.idempotencyKey? python = some otherKey →
      (key = otherKey ↔
        first.method.upper = second.method.upper ∧ first.url = second.url ∧
          SameJson (.dict first.params) (.dict second.params) ∧
            SameJson first.body second.body)) ∧
    (first.idempotencyKey? python).isSome =
      first.identity.fits python python.recursionLimit ∧
    ∀ headers priority requestId createdAt,
      { first with headers, priority, requestId, createdAt }.idempotencyKey? python =
        first.idempotencyKey? python := by
  refine ⟨?_, exact_.isSome_idempotencyKey? python,
    fun headers priority requestId createdAt => rfl⟩
  intro key otherKey isKey isOther
  have hashed := Request.hashText?_of_idempotencyKey? isKey
  have otherHashed := Request.hashText?_of_idempotencyKey? isOther
  rw [← same_identity_iff,
    ← @canonicalText?_eq_iff python.order _ _ exact_.identity other.identity]
  rw [Request.hashText?] at hashed otherHashed
  rw [hashed, otherHashed, Option.some.injEq]

/-- A request without params or body for a URL that ends in a given text. -/
def endingIn (text : PyStr) : Request where
  method := "GET"
  url := PyStr.ofString "http://example.org/" ++ text

/-- Two URLs that differ in a pair of surrogates and the code point it stands for have one
key; and an integer of 4301 digits has none. -/
theorem idempotency_key_not_canonical :
    (∃ key, (endingIn pairedText).idempotencyKey? {} = some key ∧
      (endingIn joinedText).idempotencyKey? {} = some key) ∧
    (endingIn pairedText).url ≠ (endingIn joinedText).url ∧
    (postRequest (.int (10 ^ 4300))).idempotencyKey? {} = none := by
  have hashes : ((endingIn pairedText).idempotencyKey? {}).isSome = true := by decide +kernel
  have same : (endingIn joinedText).idempotencyKey? {} =
      (endingIn pairedText).idempotencyKey? {} := by
    decide +kernel
  obtain ⟨key, isKey⟩ := Option.isSome_iff_exists.mp hashes
  refine ⟨⟨key, isKey, same.trans isKey⟩, by decide +kernel, ?_⟩
  have tooLarge : (postRequest (.int (10 ^ 4300))).identity.fits {} 1000 = false := by
    decide +kernel
  rw [Request.idempotencyKey?, stableDump?, tooLarge]
  rfl

/-- A body with a note, and a list with a nested object. -/
def noteBody (note : PyValue) : PyValue :=
  .dict [(.str "note", note), (.str "tags", .list [.dict [(.str "b", .none),
    (.str "a", .bool true)], .int 1])]

/-- A body with the same contents as `noteBody`, inserted in another order at both depths. -/
def reorderedBody (note : PyValue) : PyValue :=
  .dict [(.str "tags", .list [.dict [(.str "a", .bool true), (.str "b", .none)], .int 1]),
    (.str "note", note)]

theorem PyValue.Exact.pair
    {firstName secondName : PyStr}
    {first second : PyValue}
    (different : firstName ≠ secondName)
    (unpaired : Unpaired firstName)
    (otherUnpaired : Unpaired secondName)
    (exact_ : first.Exact)
    (other : second.Exact) :
    (PyValue.dict [(.str firstName, first), (.str secondName, second)]).Exact := by
  change (PyValue.dict ([(firstName, first), (secondName, second)].map strField)).Exact
  refine .dict (by simpa using different) ?_ ?_
  · simp only [List.map_cons, List.map_nil, List.forall_mem_cons]
    exact ⟨unpaired, otherUnpaired, List.forall_mem_nil _⟩
  · simp only [List.forall_mem_cons]
    exact ⟨exact_, other, List.forall_mem_nil _⟩

theorem exact_postRequest
    {body : PyValue}
    (exact_ : body.Exact) :
    (postRequest body).Exact where
  method := by
    change Unpaired (PyStr.ofString "POST")
    decide +kernel
  url := by
    change Unpaired (PyStr.ofString "http://example.org/")
    decide +kernel
  params := @PyValue.Exact.dict [] List.nodup_nil (List.forall_mem_nil _) (List.forall_mem_nil _)
  body := exact_

theorem exact_tags :
    (PyValue.list [.dict [(.str "b", .none), (.str "a", .bool true)], .int 1]).Exact ∧
      (PyValue.list [.dict [(.str "a", .bool true), (.str "b", .none)], .int 1]).Exact := by
  constructor
  all_goals
    apply PyValue.Exact.list
    simp only [List.forall_mem_cons]
  · exact ⟨.pair (by decide +kernel) (by decide +kernel) (by decide +kernel) .none (.bool true),
      .int 1, List.forall_mem_nil _⟩
  · exact ⟨.pair (by decide +kernel) (by decide +kernel) (by decide +kernel) (.bool true) .none,
      .int 1, List.forall_mem_nil _⟩

theorem exact_noteBody
    {note : PyValue}
    (exact_ : note.Exact) :
    (noteBody note).Exact :=
  .pair (by decide +kernel) (by decide +kernel) (by decide +kernel) exact_ exact_tags.1

theorem exact_reorderedBody
    {note : PyValue}
    (exact_ : note.Exact) :
    (reorderedBody note).Exact :=
  .pair (by decide +kernel) (by decide +kernel) (by decide +kernel) exact_tags.2 exact_

/-- The order of insertion is lost in the key, and the string `"1"` is told from the number. -/
theorem idempotency_key_canonical_notes :
    SameJson (noteBody (.str "1")) (reorderedBody (.str "1")) ∧
      (postRequest (noteBody (.str "1"))).idempotencyKey? {} ≠
        (postRequest (noteBody (.int 1))).idempotencyKey? {} := by
  have text : (PyValue.str "1").Exact := .str (by decide +kernel)
  have noted := exact_postRequest (exact_noteBody text)
  have hashes : ((postRequest (noteBody (.str "1"))).idempotencyKey? {}).isSome = true := by
    decide +kernel
  obtain ⟨key, isKey⟩ := Option.isSome_iff_exists.mp hashes
  constructor
  · have computed : (postRequest (noteBody (.str "1"))).idempotencyKey? {} =
        (postRequest (reorderedBody (.str "1"))).idempotencyKey? {} := by
      decide +kernel
    have canonical := (idempotency_key_canonical {} _ _ noted
      (exact_postRequest (exact_reorderedBody text))).1 key key isKey (computed.symm.trans isKey)
    exact (canonical.mp rfl).2.2.2
  · intro same
    have canonical := (idempotency_key_canonical {} _ _ noted
      (exact_postRequest (exact_noteBody (.int 1)))).1 key key isKey (same.symm.trans isKey)
    obtain ⟨_, _, _, bodies⟩ := canonical.mp rfl
    cases bodies with | dict keys values =>
    have notes := values (.str "note") (.str "1") (.int 1) (by simp) (by simp)
    cases notes

end HardenedClient
