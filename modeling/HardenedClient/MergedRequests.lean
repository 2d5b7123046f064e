import HardenedClient.CallerCancellation
import HardenedClient.CanonicalKey
import Mathlib.Data.List.Sort

/-!
# Requests that share a future

Requests with one idempotency key are executed once. The key is computed from
the canonical dump, which writes bytes and other objects as the text they print
as, tuples as lists, and a pair of surrogates like the code point it stands for;
`_execute` chooses by the type of the body how to send it, and hands over strings
as they are. So requests with one key are sent alike exactly when they agree in
what the dump does not show.
-/

namespace HardenedClient

open Foundation

/-! ## What is sent -/

/-- A document, and one with the fields of its objects in another order. -/
inductive Rearranges : Json → Json → Prop
  | refl (document : Json) : Rearranges document document
  | arr {items others : List Json}
      (parts : List.Forall₂ Rearranges items others) :
      Rearranges (.arr items) (.arr others)
  | obj {fields others arranged : List (JsonText × Json)}
      (names : fields.map Prod.fst = others.map Prod.fst)
      (values : List.Forall₂ Rearranges (fields.map Prod.snd) (others.map Prod.snd))
      (perm : arranged.Perm others) :
      Rearranges (.obj fields) (.obj arranged)

/-- Two documents have one text when their fields are put in some order, or
there are none to send. -/
def SameDocument : Option Json → Option Json → Prop
  | some first, some second =>
      ∃ one other, Rearranges first one ∧ Rearranges second other ∧ render one = render other
  | none, none => True
  | _, _ => False

/-- One value of a parameter: a string as it is, or a number as it is spelled. -/
inductive QueryItem
  | text (text : PyStr)
  | number (spelling : List Char)
  deriving DecidableEq

/-- A single value as a parameter. -/
def queryItem? : PyValue → Option QueryItem
  | .str text => some (.text text)
  | .int value => some (.number (render (.int value)))
  | .float literal => some (.number (render (.float literal)))
  | _ => none

/-- The values of a parameter; a list or tuple gives several. -/
def queryItems? : PyValue → Option (List QueryItem)
  | .list items => items.mapM queryItem?
  | .tuple items => items.mapM queryItem?
  | value => (queryItem? value).map ([·])

/-- A named parameter with its values. -/
def queryField? (field : PyStr × PyValue) : Option (PyStr × List QueryItem) :=
  (queryItems? field.2).map (field.1, ·)

/-- Parameters in the order of their names, when these are distinct strings. -/
def sortedParams? (params : PyDict) : Option (List (PyStr × PyValue)) :=
  let named := params.map nameField
  if (params.all fun entry => decide (entry.1.kind = .text)) ∧ (named.map Prod.fst).Nodup then
    some (named.insertionSort fun first second => first.1 ≤ second.1)
  else none

/-- The parameters as a query, in the order of their names. The names have to be
strings, and the values strings and numbers or lists of these. -/
def Request.query? (request : Request) : Option (List (PyStr × List QueryItem)) :=
  (sortedParams? request.params).bind (·.mapM queryField?)

/-- Two bodies are sent as the same content in the same way. -/
def WireBody.Same : WireBody → WireBody → Prop
  | .absent, .absent => True
  | .json first, .json second => SameDocument first second
  | .data first, .data second => first = second
  | _, _ => False

/-- `_execute` sends two requests alike, up to the order of parameters and
fields. The session sends a method in upper case. -/
structure SentAlike (first second : Request) : Prop where
  method : first.method.upper = second.method.upper
  url : first.url = second.url
  params : first.query? = second.query?
  body : (wireBody first.body).Same (wireBody second.body)

/-! ## What the key does not show -/

/-- Which code points of a string json writes as two units. -/
def wide (text : PyStr) : List Bool := text.map fun point => decide (0x10000 ≤ point.val)

/-- Which code points of a parameter's value are written as two units. -/
def QueryItem.wide : QueryItem → List Bool
  | .text value => HardenedClient.wide value
  | .number _ => []

/-- Which code points of a parameter are written as two units. -/
def wideField (field : PyStr × List QueryItem) : List Bool × List (List Bool) :=
  (wide field.1, field.2.map QueryItem.wide)

/-- The branch of `_execute` for a body, with whether `json.dumps` accepts a body
that is sent as JSON, and with the wide code points of one that is sent as it
is. -/
inductive Passage
  | json (encodable : Bool)
  | text (wide : List Bool)
  | bytes (wide : List Bool)
  | absent
  deriving DecidableEq

/-- The `isinstance` tests on a body. -/
def passage : PyValue → Passage
  | .dict entries => .json (encode? none (.dict entries)).isSome
  | .list items => .json (encode? none (.list items)).isSome
  | .str text => .text (wide text)
  | .bytes text => .bytes (wide text)
  | _ => .absent

/-- The bodies take the same branch, both parameters make a query or neither
does, and the strings that are sent as they are have their wide code points at
the same places. -/
structure PassedAlike (first second : Request) : Prop where
  method : wide first.method.upper = wide second.method.upper
  url : wide first.url = wide second.url
  params : first.query?.map (List.map wideField) = second.query?.map (List.map wideField)
  body : passage first.body = passage second.body

theorem SameDocument.isSome_eq
    {first second : Option Json}
    (same : SameDocument first second) :
    first.isSome = second.isSome := by
  cases first <;> cases second <;> first | rfl | cases same

/-- Bodies sent in the same way take the same branch. -/
theorem passage_eq_of_same
    {first second : PyValue}
    (same : (wireBody first).Same (wireBody second)) :
    passage first = passage second := by
  cases first <;> cases second <;> simp only [wireBody, WireBody.Same, reduceCtorEq] at same <;>
    first | rfl | exact congrArg Passage.json same.isSome_eq | exact congrArg passage same

/-! ## Strings of one spelling -/

/-- A code point and what follows it, by their units. -/
theorem unitsOf_append_inj
    {first second : CodePoint}
    {rest others : List CodeUnit}
    (same : unitsOf first ++ rest = unitsOf second ++ others)
    (wide : 0x10000 ≤ first.val ↔ 0x10000 ≤ second.val) :
    first = second ∧ rest = others := by
  have below := first.isLt
  have otherBelow := second.isLt
  unfold unitsOf at same
  split_ifs at same with basic otherBasic otherBasic
  · simp only [List.singleton_append, List.cons.injEq, Fin.ext_iff] at same ⊢
    exact same
  · omega
  · omega
  · simp only [List.cons_append, List.nil_append, List.cons.injEq, Fin.ext_iff] at same ⊢
    exact ⟨by omega, same.2.2⟩

/-- Strings with the same units are equal when their wide code points stand at
the same places. -/
theorem eq_of_toUnits_eq
    {first second : PyStr}
    (units : toUnits first = toUnits second)
    (places : wide first = wide second) :
    first = second := by
  induction first generalizing second with
  | nil => exact (List.map_eq_nil_iff.mp places.symm).symm
  | cons point rest inductionHypothesis =>
      obtain ⟨other, others, rfl, head, tail⟩ := List.map_eq_cons_iff.mp places.symm
      rw [toUnits_cons, toUnits_cons] at units
      obtain ⟨rfl, restUnits⟩ := unitsOf_append_inj units (decide_eq_decide.mp head.symm)
      rw [inductionHypothesis restUnits tail.symm]

/-- A spelled string determines its units. -/
theorem toUnits_eq_of_renderString_eq
    {first second : JsonText}
    (same : renderString first = renderString second) :
    first = second :=
  (renderString_prefixFree (congrArg (· ++ []) same)).1

/-! ## Parameters and their dump -/

/-- What the dump of a single value is. -/
inductive ItemDump : QueryItem → Json → Prop
  | text (text : PyStr) : ItemDump (.text text) (.str (toUnits text))
  | int (value : ℤ) : ItemDump (.number (render (.int value))) (.int value)
  | float (literal : FloatLiteral) :
      ItemDump (.number (render (.float literal))) (.float literal)

/-- What the dump of a parameter's value is. -/
inductive ItemsDump : List QueryItem → Json → Prop
  | one {item : QueryItem} {document : Json} (dumped : ItemDump item document) :
      ItemsDump [item] document
  | several {items : List QueryItem} {documents : List Json}
      (dumped : List.Forall₂ ItemDump items documents) : ItemsDump items (.arr documents)

theorem queryItem?_dump
    {value : PyValue}
    {item : QueryItem}
    (isItem : queryItem? value = some item)
    (sorting : Option KeyOrder) :
    ∃ document, encode? sorting value = some document ∧ ItemDump item document := by
  cases value <;> simp only [queryItem?, reduceCtorEq, Option.some.injEq] at isItem <;>
    subst isItem
  case int value => exact ⟨_, by rw [encode?], .int value⟩
  case float literal => exact ⟨_, by rw [encode?], .float literal⟩
  case str text => exact ⟨_, by rw [encode?], .text text⟩

theorem mapM_queryItem?_dump
    {values : List PyValue}
    {items : List QueryItem}
    (areItems : values.mapM queryItem? = some items)
    (sorting : Option KeyOrder) :
    ∃ documents, encodeItems? sorting values = some documents ∧
      List.Forall₂ ItemDump items documents := by
  induction values generalizing items with
  | nil =>
      obtain rfl := Option.some.inj areItems
      exact ⟨[], by rw [encodeItems?], .nil⟩
  | cons value values inductionHypothesis =>
      simp only [List.mapM_cons, Option.bind_eq_bind, Option.bind_eq_some_iff] at areItems
      obtain ⟨item, isItem, others, areOthers, equal⟩ := areItems
      obtain rfl := Option.some.inj equal
      obtain ⟨document, encodes, dumped⟩ := queryItem?_dump isItem sorting
      obtain ⟨documents, encoded, rest⟩ := inductionHypothesis areOthers
      exact ⟨document :: documents, by simp [encodeItems?, encodes, encoded], .cons dumped rest⟩

/-- The value of a parameter can be dumped, with its strings in the dump. -/
theorem queryItems?_dump
    {value : PyValue}
    {items : List QueryItem}
    (areItems : queryItems? value = some items)
    (sorting : Option KeyOrder) :
    ∃ document, encode? sorting value = some document ∧ ItemsDump items document := by
  unfold queryItems? at areItems
  split at areItems
  · obtain ⟨documents, encoded, dumped⟩ := mapM_queryItem?_dump areItems sorting
    exact ⟨_, by rw [encode?, encoded]; rfl, .several dumped⟩
  · obtain ⟨documents, encoded, dumped⟩ := mapM_queryItem?_dump areItems sorting
    exact ⟨_, by rw [encode?, encoded]; rfl, .several dumped⟩
  · obtain ⟨item, isItem, rfl⟩ := Option.map_eq_some_iff.mp areItems
    obtain ⟨document, encodes, dumped⟩ := queryItem?_dump isItem sorting
    exact ⟨document, encodes, .one dumped⟩

/-- A spelled number is no string and no array. -/
theorem ItemDump.number_ne
    {spelling : List Char}
    {document : Json}
    (dumped : ItemDump (.number spelling) document)
    {head : Char}
    (notBare : isBareChar head = false)
    (tail : List Char) :
    render document = spelling ∧ spelling ≠ head :: tail := by
  have bare : BareWord (render document) := by
    cases dumped <;> exact (bareWord_or _).resolve_right (by simp)
  have different := bare.append_ne_cons notBare [] tail
  rw [List.append_nil] at different
  cases dumped <;> exact ⟨rfl, different⟩

/-- Values with dumps of one text are one when their strings are wide at the same
places. -/
theorem ItemDump.eq
    {item other : QueryItem}
    {document otherDocument : Json}
    (dumped : ItemDump item document)
    (otherDumped : ItemDump other otherDocument)
    (same : render document = render otherDocument)
    (places : item.wide = other.wide) :
    item = other := by
  have quote : isBareChar '"' = false := by decide
  cases item with
  | text text =>
      cases other with
      | text other =>
          cases dumped
          cases otherDumped
          rw [render, render] at same
          rw [eq_of_toUnits_eq (toUnits_eq_of_renderString_eq same) places]
      | number spelling =>
          cases dumped
          rw [render, renderString, List.cons_append] at same
          obtain ⟨isSpelling, different⟩ := otherDumped.number_ne quote _
          exact absurd (isSpelling.symm.trans same.symm) different
  | number spelling =>
      obtain ⟨isSpelling, _⟩ := dumped.number_ne quote []
      cases other with
      | text other =>
          cases otherDumped
          rw [render, renderString, List.cons_append] at same
          obtain ⟨_, different⟩ := dumped.number_ne quote _
          exact absurd (isSpelling.symm.trans same) different
      | number other =>
          obtain ⟨isOther, _⟩ := otherDumped.number_ne quote []
          rw [← isSpelling, ← isOther, same]

/-- A single value is not spelled like an array. -/
theorem ItemDump.render_ne_arr
    {item : QueryItem}
    {document : Json}
    (dumped : ItemDump item document)
    (documents : List Json) :
    render document ≠ render (.arr documents) := by
  intro same
  cases item with
  | text text =>
      cases dumped
      simp [render, renderString] at same
  | number spelling =>
      have bracket : isBareChar '[' = false := by decide
      rw [render] at same
      obtain ⟨isSpelling, different⟩ := dumped.number_ne bracket _
      exact different (isSpelling.symm.trans same)

/-- Parameters with dumps of one text are one when their strings are wide at the
same places. -/
theorem ItemsDump.eq
    {items others : List QueryItem}
    {document otherDocument : Json}
    (dumped : ItemsDump items document)
    (otherDumped : ItemsDump others otherDocument)
    (same : render document = render otherDocument)
    (places : items.map QueryItem.wide = others.map QueryItem.wide) :
    items = others := by
  cases dumped with
  | one dumped =>
      cases otherDumped with
      | one otherDumped =>
          rw [dumped.eq otherDumped same (List.cons.inj places).1]
      | several => exact absurd same (dumped.render_ne_arr _)
  | several dumped =>
      cases otherDumped with
      | one otherDumped => exact absurd same.symm (otherDumped.render_ne_arr _)
      | @several _ otherDocuments otherDumped =>
          have each := map_render_of_render_arr_eq same
          clear same
          induction dumped generalizing others otherDocuments with
          | nil => exact (List.map_eq_nil_iff.mp places.symm).symm
          | cons dumped _ inductionHypothesis =>
              cases otherDumped with
              | nil => simp at places
              | cons otherDumped rest =>
                  obtain ⟨head, tail⟩ := List.cons.inj each
                  obtain ⟨headPlaces, tailPlaces⟩ := List.cons.inj places
                  rw [dumped.eq otherDumped head headPlaces,
                    inductionHypothesis tailPlaces rest tail]

/-- Sorted parameters are the ones of the dictionary. -/
theorem sortedParams?_spec
    {params : PyDict}
    {named : List (PyStr × PyValue)}
    (sorted : sortedParams? params = some named) :
    params = (params.map nameField).map strField ∧ named.Perm (params.map nameField) ∧
      ((params.map nameField).map Prod.fst).Nodup ∧ (named.map Prod.fst).Pairwise (· < ·) := by
  simp only [sortedParams?, List.all_eq_true, decide_eq_true_eq] at sorted
  split_ifs at sorted with texts
  obtain rfl := Option.some.inj sorted
  have perm := List.perm_insertionSort
    (fun first second : PyStr × PyValue => first.1 ≤ second.1) (params.map nameField)
  refine ⟨?_, perm, texts.2, ?_⟩
  · have same : ∀ entry ∈ params, (strField ∘ nameField) entry = entry := by
      rintro ⟨key, value⟩ member
      obtain ⟨name, rfl⟩ := PyKey.exists_str_of_kind (texts.1 _ member)
      rfl
    rw [List.map_map, List.map_congr_left same, List.map_id']
  · have ascends := List.pairwise_insertionSort
      (fun first second : PyStr × PyValue => first.1 ≤ second.1) (params.map nameField)
    have distinct := (perm.map Prod.fst).nodup_iff.mpr texts.2
    rw [List.pairwise_map]
    rw [List.Nodup, List.pairwise_map] at distinct
    exact (ascends.and distinct).imp fun both => lt_of_le_of_ne both.1 both.2

theorem exists_of_mapM
    {items : List α}
    {function : α → Option β}
    {results : List β}
    (maps : items.mapM function = some results) :
    List.Forall₂ (fun item result => function item = some result) items results := by
  induction items generalizing results with
  | nil =>
      obtain rfl := Option.some.inj maps
      exact .nil
  | cons item items inductionHypothesis =>
      simp only [List.mapM_cons, Option.bind_eq_bind, Option.bind_eq_some_iff] at maps
      obtain ⟨result, isResult, others, areOthers, equal⟩ := maps
      obtain rfl := Option.some.inj equal
      exact .cons isResult (inductionHypothesis areOthers)

/-- Sorted parameters are dumped in their order. -/
theorem encode?_sortedParams
    (order : KeyOrder)
    {params : PyDict}
    {named : List (PyStr × PyValue)}
    (sorted : sortedParams? params = some named)
    (encodes : ∀ field ∈ named, encode? (some order) field.2 = some (field.2.dump order)) :
    encode? (some order) (.dict params) =
      some (.obj ((named.map (dumpField order)).map unitField)) := by
  obtain ⟨isParams, perm, distinct, ascends⟩ := sortedParams?_spec sorted
  obtain ⟨fields, encoded, dumpPerm, dumpAscends⟩ := encode?_dict_dump distinct
    fun field member => encodes field (perm.mem_iff.mpr member)
  rw [isParams, encoded, eq_of_names_ascend (dumpPerm.trans (perm.map _).symm) dumpAscends]
  rwa [map_fst_dumpField]

theorem queryField?_eq_some_iff
    {field : PyStr × PyValue}
    {name : PyStr}
    {items : List QueryItem} :
    queryField? field = some (name, items) ↔ field.1 = name ∧ queryItems? field.2 = some items := by
  simp only [queryField?, Option.map_eq_some_iff, Prod.mk.injEq]
  constructor
  · rintro ⟨others, areItems, rfl, rfl⟩
    exact ⟨rfl, areItems⟩
  · rintro ⟨rfl, areItems⟩
    exact ⟨items, areItems, rfl, rfl⟩

/-- Two queries are one when their dumps have one text and their strings are wide
at the same places. -/
theorem query_eq_of_dumps
    {order otherOrder : KeyOrder}
    {named otherNamed : List (PyStr × PyValue)}
    {query other : List (PyStr × List QueryItem)}
    (makes : List.Forall₂ (fun field row => queryField? field = some row) named query)
    (otherMakes : List.Forall₂ (fun field row => queryField? field = some row) otherNamed other)
    (same : ((named.map (dumpField order)).map unitField).map renderField =
      ((otherNamed.map (dumpField otherOrder)).map unitField).map renderField)
    (places : query.map wideField = other.map wideField) :
    query = other := by
  induction makes generalizing otherNamed other with
  | nil => exact (List.map_eq_nil_iff.mp places.symm).symm
  | @cons field row _ _ makesRow _ inductionHypothesis =>
      cases otherMakes with
      | nil => simp at places
      | @cons otherField otherRow _ _ otherMakesRow otherMakes =>
          simp only [List.map_cons, List.cons.injEq] at same places
          rw [inductionHypothesis otherMakes same.2 places.2]
          obtain ⟨name, items⟩ := row
          obtain ⟨otherName, otherItems⟩ := otherRow
          obtain ⟨rfl, areItems⟩ := queryField?_eq_some_iff.mp makesRow
          obtain ⟨rfl, areOthers⟩ := queryField?_eq_some_iff.mp otherMakesRow
          obtain ⟨units, values⟩ := renderField_inj same.1
          obtain ⟨namePlaces, itemPlaces⟩ := Prod.mk.inj places.1
          obtain ⟨document, encodes, dumped⟩ := queryItems?_dump areItems (some order)
          obtain ⟨otherDocument, otherEncodes, otherDumped⟩ :=
            queryItems?_dump areOthers (some otherOrder)
          simp only [unitField, dumpField, PyValue.dump, encodes, otherEncodes, Option.getD_some]
            at units values
          rw [eq_of_toUnits_eq units namePlaces, dumped.eq otherDumped values itemPlaces]

/-- The parameters make one query when those of both or of neither make one, and
their strings are wide at the same places. -/
theorem Request.query?_eq
    {order otherOrder : KeyOrder}
    {first second : Request}
    {params otherParams : Json}
    (dumps : encode? (some order) (.dict first.params) = some params)
    (otherDumps : encode? (some otherOrder) (.dict second.params) = some otherParams)
    (same : render params = render otherParams)
    (places : first.query?.map (List.map wideField) = second.query?.map (List.map wideField)) :
    first.query? = second.query? := by
  have dumped : ∀ {order : KeyOrder} {request : Request} {params : Json}
      {query : List (PyStr × List QueryItem)},
      encode? (some order) (.dict request.params) = some params → request.query? = some query →
        ∃ named, params = .obj ((named.map (dumpField order)).map unitField) ∧
          List.Forall₂ (fun field row => queryField? field = some row) named query := by
    intro order request params query dumps isQuery
    obtain ⟨named, sorted, maps⟩ := Option.bind_eq_some_iff.mp isQuery
    have makes := exists_of_mapM maps
    refine ⟨named, ?_, makes⟩
    apply Option.some.inj
    rw [← dumps]
    apply encode?_sortedParams order sorted
    intro field member
    obtain ⟨index, below, rfl⟩ := List.getElem_of_mem member
    have made := makes.get below (makes.length_eq ▸ below)
    obtain ⟨_, areItems⟩ := queryField?_eq_some_iff.mp made
    obtain ⟨document, encodes, _⟩ := queryItems?_dump areItems (some order)
    rw [List.get_eq_getElem] at encodes
    rw [PyValue.dump, encodes]
    rfl
  cases isQuery : first.query? with
  | none =>
      rw [isQuery, Option.map_none, eq_comm, Option.map_eq_none_iff] at places
      exact places.symm
  | some query =>
      rw [isQuery, Option.map_some, eq_comm, Option.map_eq_some_iff] at places
      obtain ⟨other, isOther, samePlaces⟩ := places
      obtain ⟨named, rfl, makes⟩ := dumped dumps isQuery
      obtain ⟨otherNamed, rfl, otherMakes⟩ := dumped otherDumps isOther
      rw [isOther, query_eq_of_dumps makes otherMakes (map_renderField_of_render_obj_eq same)
        samePlaces.symm]

/-! ## Documents and dumps -/

variable {order : KeyOrder}

theorem forall₂_map_map
    {relation : β → γ → Prop}
    {first : α → β}
    {second : α → γ}
    {rows : List α}
    (related : ∀ row ∈ rows, relation (first row) (second row)) :
    List.Forall₂ relation (rows.map first) (rows.map second) := by
  rw [List.forall₂_map_left_iff, List.forall₂_map_right_iff, List.forall₂_same]
  exact related

/-- The document of a value is its dump up to the order of fields. -/
def Spelled (order : KeyOrder) (value : PyValue) : Prop :=
  ∀ row : StoredValue order, row.value = value → Rearranges row.document row.dump

theorem spelled_of_leaf
    {value : PyValue}
    (same : ∀ document, encode? none value = some document →
      encode? (some order) value = some document) :
    Spelled order value := by
  rintro row rfl
  have equal := (same row.document row.encodes).symm.trans row.dumps
  rw [Option.some.inj equal]
  exact .refl _

theorem spelled_items
    {items : List PyValue}
    (parts : ∀ item ∈ items, Spelled order item)
    {value : PyValue}
    (encoding : ∀ sorting, encode? sorting value = (encodeItems? sorting items).map .arr) :
    Spelled order value := by
  rintro row rfl
  obtain ⟨documents, encoded, isDocument⟩ :=
    Option.map_eq_some_iff.mp ((encoding none).symm.trans row.encodes)
  obtain ⟨dumps, dumped, isDump⟩ :=
    Option.map_eq_some_iff.mp ((encoding (some order)).symm.trans row.dumps)
  obtain ⟨rows, rfl, rfl, rfl⟩ := StoredValue.exists_items encoded dumped
  rw [← isDocument, ← isDump]
  apply Rearranges.arr
  apply forall₂_map_map
  intro part member
  exact parts part.value (List.mem_map_of_mem member) part rfl

theorem spelled_dict
    {entries : PyDict}
    (parts : ∀ entry ∈ entries, Spelled order entry.2) :
    Spelled order (.dict entries) := by
  rintro row isDict
  have encodes := row.encodes
  have dumps := row.dumps
  rw [isDict, encode?] at encodes dumps
  simp only [Option.bind_eq_bind, Option.bind_eq_some_iff] at encodes dumps
  obtain ⟨fields, encoded, ordered, unsorted, named, spelled, isDocument⟩ := encodes
  obtain rfl : fields = ordered := Option.some.inj unsorted
  obtain ⟨dumpFields, dumped, sorted, isSorted, dumpNamed, dumpSpelled, isDump⟩ := dumps
  obtain ⟨rows, rfl, rfl, rfl, rfl⟩ := StoredEntry.exists_entries encoded spelled dumped
  obtain ⟨perm, _⟩ := dump_dict isSorted dumpSpelled
  rw [← Option.some.inj isDocument, ← Option.some.inj isDump]
  apply Rearranges.obj _ _ perm
  · simp only [List.map_map]
    rfl
  · simp only [List.map_map]
    apply forall₂_map_map
    intro part member
    have inEntries := List.mem_map_of_mem
      (f := fun row : StoredEntry order => (row.key, row.value)) member
    exact parts _ inEntries part.toStoredValue rfl

mutual

theorem spelled : ∀ value : PyValue, Spelled order value
  | .none | .bool _ | .int _ | .float _ | .str _ => spelled_of_leaf (by simp [encode?])
  | .bytes _ | .other _ => spelled_of_leaf (by simp [encode?])
  | .list items => spelled_items (spelledItems items) fun sorting => by rw [encode?]
  | .tuple items => spelled_items (spelledItems items) fun sorting => by rw [encode?]
  | .dict entries => spelled_dict (spelledEntries entries)

theorem spelledItems : ∀ items : List PyValue, ∀ item ∈ items, Spelled order item
  | [], item, absent => by simp at absent
  | head :: items, item, member => by
      rcases List.mem_cons.mp member with same | member
      · rw [same]
        exact spelled head
      · exact spelledItems items item member

theorem spelledEntries : ∀ entries : PyDict, ∀ entry ∈ entries, Spelled order entry.2
  | [], entry, absent => by simp at absent
  | (key, value) :: entries, entry, member => by
      rcases List.mem_cons.mp member with same | member
      · rw [same]
        exact spelled value
      · exact spelledEntries entries entry member

end

/-- Two values with dumps of one text have documents of one text, if `json.dumps`
accepts both. -/
theorem sameDocument_of_dumps
    {order otherOrder : KeyOrder}
    {first second : PyValue}
    {dump otherDump : Json}
    (dumps : encode? (some order) first = some dump)
    (otherDumps : encode? (some otherOrder) second = some otherDump)
    (same : render dump = render otherDump)
    (both : (encode? none first).isSome = (encode? none second).isSome) :
    SameDocument (encode? none first) (encode? none second) := by
  have arranged : ∀ {order : KeyOrder} {value : PyValue} {document dump : Json},
      encode? none value = some document → encode? (some order) value = some dump →
        Rearranges document dump := by
    intro order value document dump encodes dumps
    obtain ⟨redump, redumps⟩ :=
      Option.isSome_iff_exists.mp (encode?_loads_isSome (some order) document)
    exact spelled value ⟨value, document, dump, redump, encodes, dumps, redumps⟩ rfl
  cases encodes : encode? none first with
  | none =>
      rw [encodes, eq_comm, Option.isSome_none, Option.isSome_eq_false_iff,
        Option.isNone_iff_eq_none] at both
      rw [both]
      trivial
  | some document =>
      rw [encodes, eq_comm, Option.isSome_some, Option.isSome_iff_exists] at both
      obtain ⟨otherDocument, otherEncodes⟩ := both
      rw [otherEncodes]
      exact ⟨dump, otherDump, arranged encodes dumps, arranged otherEncodes otherDumps, same⟩

/-- Strings with dumps of one text are one when they are wide at the same
places. -/
theorem eq_of_text_dumps
    {first second : PyStr}
    (same : render (.str (toUnits first)) = render (.str (toUnits second)))
    (places : wide first = wide second) :
    first = second := by
  rw [render, render] at same
  exact eq_of_toUnits_eq (toUnits_eq_of_renderString_eq same) places

/-- Two bodies with dumps of one text that take the same branch are sent in the
same way. -/
theorem same_of_passage_eq
    {order otherOrder : KeyOrder}
    {first second : PyValue}
    {dump otherDump : Json}
    (dumps : encode? (some order) first = some dump)
    (otherDumps : encode? (some otherOrder) second = some otherDump)
    (same : render dump = render otherDump)
    (branch : passage first = passage second) :
    (wireBody first).Same (wireBody second) := by
  cases first <;> cases second <;> simp only [passage, reduceCtorEq] at branch
  case str.str text other =>
    rw [encode?] at dumps otherDumps
    rw [← Option.some.inj dumps, ← Option.some.inj otherDumps] at same
    rw [eq_of_text_dumps same (Passage.text.inj branch)]
    rfl
  case bytes.bytes text other =>
    rw [encode?, Option.isSome_some, if_pos rfl] at dumps otherDumps
    rw [← Option.some.inj dumps, ← Option.some.inj otherDumps] at same
    rw [eq_of_text_dumps same (Passage.bytes.inj branch)]
    rfl
  case dict.dict | dict.list | list.dict | list.list =>
    exact sameDocument_of_dumps dumps otherDumps same (Passage.json.inj branch)
  all_goals trivial

/-! ## The key -/

/-- The four fields that are hashed, in the order of their names. -/
theorem arrange_identity (order : KeyOrder) (method url params body : Json) :
    (orderFields? (some order) [(.str "method", method), (.str "url", url),
        (.str "params", params), (.str "body", body)]).bind coerceFields? =
      some [(PyStr.ofString "body", body), ("method", method), ("params", params),
        ("url", url)] := by
  have distinct : (["method", "url", "params", "body"] : List PyStr).Nodup := by decide +kernel
  have ascends : (["body", "method", "params", "url"] : List PyStr).Pairwise (· < ·) := by
    decide +kernel
  obtain ⟨sorted, arranged, perm, increases⟩ := @orderFields?_strField _ order
    [(PyStr.ofString "method", method), ("url", url), ("params", params), ("body", body)] distinct
  have bodyFirst := @List.perm_append_comm _ [(PyStr.ofString "method", method),
    (PyStr.ofString "url", url), (PyStr.ofString "params", params)]
    [(PyStr.ofString "body", body)]
  have urlLast := ((List.Perm.swap (PyStr.ofString "params", params) (PyStr.ofString "url", url)
    []).cons (PyStr.ofString "method", method)).cons (PyStr.ofString "body", body)
  rw [← eq_of_names_ascend (perm.trans (bodyFirst.trans urlLast)) increases ascends]
  exact arranged

/-- What is hashed, by the dumps of its parts. -/
theorem Request.dump_identity
    {order : KeyOrder}
    {request : Request}
    {dump : Json}
    (dumps : encode? (some order) request.identity = some dump) :
    ∃ params body, encode? (some order) (.dict request.params) = some params ∧
      encode? (some order) request.body = some body ∧
      dump = .obj ([(("body" : PyStr), body), ("method", .str (toUnits request.method.upper)),
        ("params", params), ("url", .str (toUnits request.url))].map unitField) := by
  unfold Request.identity at dumps
  generalize PyValue.dict request.params = params at dumps ⊢
  simp only [encode?, encodeEntries?, Option.bind_eq_bind, Option.bind_some,
    Option.bind_eq_some_iff] at dumps
  obtain ⟨fields, ⟨_, ⟨_, ⟨paramsDump, paramsIs, _, ⟨bodyDump, bodyIs, last⟩, third⟩, second⟩,
    first⟩, ordered, sorted, named, spelled, isDump⟩ := dumps
  obtain rfl := Option.some.inj last
  obtain rfl := Option.some.inj third
  obtain rfl := Option.some.inj second
  obtain rfl := Option.some.inj first
  have arranged := arrange_identity order (.str (toUnits request.method.upper))
    (.str (toUnits request.url)) paramsDump bodyDump
  rw [sorted, Option.bind_some, spelled] at arranged
  obtain rfl := Option.some.inj arranged
  exact ⟨paramsDump, bodyDump, paramsIs, bodyIs, (Option.some.inj isDump).symm⟩

/-- Requests with one key have one spelling of the method and the URL, and dumps of
their parameters and bodies with one text. -/
theorem Request.parts_of_key
    {order otherOrder : KeyOrder}
    {first second : Request}
    {key : Key}
    (hashes : first.hashText? order = some key)
    (otherHashes : second.hashText? otherOrder = some key) :
    render (.str (toUnits first.method.upper)) = render (.str (toUnits second.method.upper)) ∧
      render (.str (toUnits first.url)) = render (.str (toUnits second.url)) ∧
      ∃ params otherParams body otherBody,
        encode? (some order) (.dict first.params) = some params ∧
        encode? (some otherOrder) (.dict second.params) = some otherParams ∧
        encode? (some order) first.body = some body ∧
        encode? (some otherOrder) second.body = some otherBody ∧
        render params = render otherParams ∧ render body = render otherBody := by
  obtain ⟨dump, dumps, isKey⟩ := Option.map_eq_some_iff.mp hashes
  obtain ⟨otherDump, otherDumps, isOtherKey⟩ := Option.map_eq_some_iff.mp otherHashes
  obtain ⟨params, body, paramsIs, bodyIs, rfl⟩ := Request.dump_identity dumps
  obtain ⟨otherParams, otherBody, otherParamsIs, otherBodyIs, rfl⟩ :=
    Request.dump_identity otherDumps
  have fields := map_renderField_of_render_obj_eq (isKey.trans isOtherKey.symm)
  simp only [List.map_cons, List.map_nil, List.cons.injEq, and_true] at fields
  obtain ⟨sameBody, sameMethod, sameParams, sameUrl⟩ := fields
  exact ⟨(renderField_inj sameMethod).2, (renderField_inj sameUrl).2, params, otherParams, body,
    otherBody, paramsIs, otherParamsIs, bodyIs, otherBodyIs, (renderField_inj sameParams).2,
    (renderField_inj sameBody).2⟩

/-- Requests with one key are sent alike exactly when they are passed alike. -/
theorem sentAlike_iff_passedAlike
    {order otherOrder : KeyOrder}
    {first second : Request}
    {key : Key}
    (hashes : first.hashText? order = some key)
    (otherHashes : second.hashText? otherOrder = some key) :
    SentAlike first second ↔ PassedAlike first second := by
  obtain ⟨method, url, params, otherParams, body, otherBody, paramsIs, otherParamsIs, bodyIs,
    otherBodyIs, sameParams, sameBody⟩ := Request.parts_of_key hashes otherHashes
  constructor
  · intro alike
    exact ⟨congrArg wide alike.method, congrArg wide alike.url,
      congrArg (Option.map (List.map wideField)) alike.params, passage_eq_of_same alike.body⟩
  · intro alike
    refine ⟨eq_of_text_dumps method alike.method, eq_of_text_dumps url alike.url, ?_, ?_⟩
    · exact Request.query?_eq paramsIs otherParamsIs sameParams alike.params
    · exact same_of_passage_eq bodyIs otherBodyIs sameBody alike.body

/-! ## Who is answered -/

/-- A caller of a run submitted the request, attached to the future of another
one, and has awaited it since. -/
def AwaitsFor (env : Env) (request : Request) (key : Key) (future : ℕ) (state : State) : Prop :=
  ∃ tables now before label after id replayed other,
    Reachable (step env) (State.boot tables now) before ∧
    before.submitted? label = some request ∧ step env label before = some after ∧
    before.tasks id ≠ after.tasks id ∧
    after.tasks id = some (.caller replayed (.awaiting key future)) ∧
    Run (step env) (fun _ label => label ≠ .crash) after state ∧
    state.tasks id = some (.caller other (.awaiting key future))

/-- Whoever a submission lets await a future has the key of the request. -/
theorem State.submit_awaiting
    {env : Env}
    {base : State}
    {id other : ℕ}
    {replayed otherReplayed : Option ℕ}
    {request : Request}
    {key : Key}
    {future : ℕ}
    (awaits : (base.submit env id replayed request).tasks other =
      some (.caller otherReplayed (.awaiting key future)))
    (moved : base.tasks other ≠ (base.submit env id replayed request).tasks other) :
    request.idempotencyKey? env.python = some key := by
  unfold State.submit at awaits moved
  by_cases isOther : other = id
  · subst isOther
    split at awaits
    · simp at awaits
    · next own hashes =>
        split at awaits
        · next attaches =>
          simp only [State.setTask_tasks_self, Option.some.injEq, Task.caller.injEq,
            CallerPoint.awaiting.injEq] at awaits
          rw [hashes, awaits.2.1]
        · split at awaits <;> simp at awaits
  · refine absurd ?_ moved
    split
    · rw [State.setTask_tasks_of_ne _ _ isOther]
    · split
      · rw [State.setTask_tasks_of_ne _ _ isOther]
      · split <;> rw [State.setTask_tasks_of_ne _ _ isOther]

theorem AwaitsFor.key
    {env : Env}
    {request : Request}
    {key : Key}
    {future : ℕ}
    {state : State}
    (awaitsFor : AwaitsFor env request key future state) :
    request.idempotencyKey? env.python = some key := by
  obtain ⟨_, _, before, label, after, id, replayed, _, _, submits, moved, changed, awaits, _⟩ :=
    awaitsFor
  unfold State.submitted? at submits
  split at submits
  · split_ifs at submits with serving
    obtain rfl := Option.some.inj submits
    obtain rfl := Option.some.inj moved
    rw [State.callRequest, if_pos serving] at changed awaits
    exact State.submit_awaiting awaits changed
  · split at submits
    · next current =>
      split_ifs at submits with serving
      obtain rfl := Option.some.inj submits
      simp only [step, State.stepTask, current, State.stepCaller, Option.some.injEq] at moved
      subst moved
      rw [State.callRequest, if_pos serving] at changed awaits
      exact State.submit_awaiting awaits changed
    · cases submits
  · cases submits

/-- A future gets a response from a worker that resolves the key it is
registered for. -/
theorem Stepped.answered
    {env : Env}
    {label : Label}
    {state next : State}
    {future : ℕ}
    {response : Response}
    (stepped : Stepped env state label next)
    (exists_ : future < state.dedup.created)
    (pending : state.dedup.futures future = .pending)
    (answered : next.dedup.futures future = .result response) :
    ∃ worker item choice, label = .step worker choice ∧
      state.tasks worker = some (.worker (.handling item (.resolving response))) ∧
      state.dedup.inflight item.key = some future := by
  have unanswered : state.dedup.futures future ≠ .result response := by simp [pending]
  have settles : ∀ key outcome id,
      ((state.settleKey key outcome).endHandle id).dedup.futures future = .result response →
        outcome = .result response ∧ state.dedup.inflight key = some future := by
    intro key outcome id settled
    rw [State.settleKey_endHandle_dedup, InFlightRegistry.settle_futures] at settled
    split_ifs at settled with registered
    · exact ⟨settled, ((state.dedup.pendingFuture?_eq_some_iff key future).mp registered).1⟩
    · exact absurd settled unanswered
  cases stepped with
  | crash => simp [State.boot] at answered
  | request registers | caller _ registers | starter _ registers =>
      exact absurd ((registers.futures exists_).symm.trans answered) unanswered
  | cancelCaller _ cancels =>
      rcases cancels with rfl | ⟨cancelled, rfl⟩
      · exact absurd answered unanswered
      · simp only [State.setTask, InFlightRegistry.cancel_futures] at answered
        split_ifs at answered
        exact absurd answered unanswered
  | handled current _ handled =>
      cases handled with
      | resolved =>
          obtain ⟨same, registered⟩ := settles _ _ _ answered
          cases same
          exact ⟨_, _, _, rfl, current, registered⟩
      | rejected => cases (settles _ _ _ answered).1
      | _ => exact absurd answered unanswered
  | escaped _ _ escaped =>
      obtain ⟨_⟩ := escaped
      exact absurd answered unanswered
  | _ => exact absurd answered unanswered

/-- A future that a caller awaits gets its response from a worker with an item of
the caller's key. -/
theorem AwaitsFor.answered
    {env : Env}
    {request : Request}
    {key : Key}
    {future : ℕ}
    {state next : State}
    {label : Label}
    {response : Response}
    (awaitsFor : AwaitsFor env request key future state)
    (moved : step env label state = some next)
    (pending : state.dedup.futures future = .pending)
    (answered : next.dedup.futures future = .result response) :
    ∃ worker item choice, label = .step worker choice ∧
      state.tasks worker = some (.worker (.handling item (.resolving response))) ∧
      ∃ order, item.request.request.hashText? order = some key := by
  obtain ⟨tables, now, before, submission, after, id, replayed, _, reached, _, submitted, _, _,
    run, current⟩ := awaitsFor
  have orderly : state.Orderly := by
    apply Run.invariant State.Orderly (.boot tables now [])
      (fun _ _ _ orderly _ moved => orderly.step moved)
      ((reached.tail trivial submitted).trans run.reachable)
  have held : state.flights.held id = some ⟨key, future⟩ := by
    simp [State.flights, current, Task.claim?]
  have registered := orderly.sound.held_registered id _ held
    ((Future.promise_eq_pending_iff _).mpr pending)
  obtain ⟨worker, item, choice, isStep, resolving, own⟩ := (step_stepped moved).answered
    (orderly.sound.held_lt id _ held) pending answered
  refine ⟨worker, item, choice, isStep, resolving, ?_⟩
  rw [← orderly.sound.registered_inj item.key key future own registered]
  exact item.request.hashes

/-- Requests that `request()` accepts under one key are sent alike exactly when
they are passed alike; and a caller that attached to a future gets the response
to a request that is sent as its own exactly when that one is passed as its
own. -/
theorem merged_requests_sent_alike_iff
    (env : Env)
    (first second : Request)
    (key : Key) :
    (first.accepted.idempotencyKey? env.python = some key →
      second.accepted.idempotencyKey? env.python = some key →
        (SentAlike first.accepted second.accepted ↔
          PassedAlike first.accepted second.accepted)) ∧
    ∀ future state label next response,
      AwaitsFor env second.accepted key future state → step env label state = some next →
      state.dedup.futures future = .pending → next.dedup.futures future = .result response →
        ∃ worker item choice, label = .step worker choice ∧
          state.tasks worker = some (.worker (.handling item (.resolving response))) ∧
          (SentAlike item.request.request second.accepted ↔
            PassedAlike item.request.request second.accepted) := by
  constructor
  · intro hashes otherHashes
    exact sentAlike_iff_passedAlike (Request.hashText?_of_idempotencyKey? hashes)
      (Request.hashText?_of_idempotencyKey? otherHashes)
  · intro future state label next response awaitsFor moved pending answered
    obtain ⟨worker, item, choice, isStep, resolving, order, hashes⟩ :=
      awaitsFor.answered moved pending answered
    exact ⟨worker, item, choice, isStep, resolving,
      sentAlike_iff_passedAlike hashes (Request.hashText?_of_idempotencyKey? awaitsFor.key)⟩

/-! ## Replayed runs -/

/-- A check that a step is no crash. -/
def survives : State → Label → Bool
  | _, .crash => false
  | _, _ => true

/-- The key and the future a caller awaits. -/
def State.claimed? (state : State) (id : ℕ) : Option (Key × ℕ) :=
  match state.tasks id with
  | some (.caller _ (.awaiting key future)) => some (key, future)
  | _ => none

/-- The pending future a caller awaits gets a response from a step. -/
def State.answers (env : Env) (label : Label) (state : State) (id : ℕ) : Bool :=
  match state.claimed? id with
  | some (_, future) =>
      !(state.dedup.futures future).done &&
        (step env label state).any fun next =>
          match next.dedup.futures future with
          | .result _ => true
          | _ => false
  | none => false

/-- The request whose response a worker is about to resolve. -/
def State.resolves? (state : State) (id : ℕ) : Option Request :=
  match state.tasks id with
  | some (.worker (.handling item (.resolving _))) => some item.request.request
  | _ => none

theorem State.tasks_of_claimed?
    {state : State}
    {id : ℕ}
    {key : Key}
    {future : ℕ}
    (claimed : state.claimed? id = some (key, future)) :
    ∃ replayed, state.tasks id = some (.caller replayed (.awaiting key future)) := by
  unfold State.claimed? at claimed
  split at claimed
  · next replayed _ _ current =>
    cases claimed
    exact ⟨replayed, current⟩
  · cases claimed

/-- A request is in flight, and a second one attaches to its future. -/
def sharedLabels (first : Request) : List Label :=
  startLabels ++ .request first :: proceedLabels 2 3

/-- The only worker executes what is in flight and is about to resolve it. -/
def resolvingLabels : List Label :=
  sendLabels 1 ++ answerLabels 1 200 2

/-- A replay in which the second request is answered by what the worker executed
for the first. -/
def answersShared (first second : Request) (test : Request → Bool) : Bool :=
  (executeChecked (step oneWorker) (fun _ _ => true) (sharedLabels first) (State.boot {})).any
    fun before => before.session && (before.tasks before.spawned).isNone &&
      (step oneWorker (.request second) before).any fun after =>
        (executeChecked (step oneWorker) survives resolvingLabels after).any fun state =>
          (after.claimed? before.spawned).isSome &&
            decide (state.claimed? before.spawned = after.claimed? before.spawned) &&
            state.answers oneWorker (.step 1 .proceed) before.spawned &&
            (state.resolves? 1).any test

theorem survives_sound
    (state : State)
    (label : Label)
    (passes : survives state label = true) :
    label ≠ .crash := by
  rintro rfl
  cases passes

theorem State.pending_of_answers
    {env : Env}
    {label : Label}
    {state : State}
    {id : ℕ}
    {key : Key}
    {future : ℕ}
    (claimed : state.claimed? id = some (key, future))
    (answers : state.answers env label id = true) :
    state.dedup.futures future = .pending ∧ ∃ next response,
      step env label state = some next ∧ next.dedup.futures future = .result response := by
  unfold State.answers at answers
  rw [claimed] at answers
  obtain ⟨notDone, stepped⟩ := Bool.and_eq_true_iff.mp answers
  refine ⟨Future.eq_pending_of_not_done (by simpa using notDone), ?_⟩
  obtain ⟨next, moved, isResult⟩ := (Option.any_eq_true _ _).mp stepped
  cases settled : next.dedup.futures future with
  | result response => exact ⟨next, response, moved, settled⟩
  | _ => simp [settled] at isResult

theorem exists_answered_of_replay
    {first second : Request}
    {test : Request → Bool}
    (passes : answersShared first second test = true) :
    ∃ key future state next response, AwaitsFor oneWorker second.accepted key future state ∧
      step oneWorker (.step 1 .proceed) state = some next ∧
      state.dedup.futures future = .pending ∧ next.dedup.futures future = .result response ∧
      (state.resolves? 1).any test = true := by
  obtain ⟨before, reached, passes⟩ := exists_run_of_executeChecked (fun _ _ _ => trivial) passes
  obtain ⟨passes, attached⟩ := Bool.and_eq_true_iff.mp passes
  obtain ⟨serving, unborn⟩ := Bool.and_eq_true_iff.mp passes
  obtain ⟨after, moved, passes⟩ := (Option.any_eq_true _ _).mp attached
  obtain ⟨state, run, passes⟩ := exists_run_of_executeChecked survives_sound passes
  obtain ⟨passes, resolves⟩ := Bool.and_eq_true_iff.mp passes
  obtain ⟨passes, answers⟩ := Bool.and_eq_true_iff.mp passes
  obtain ⟨claims, same⟩ := Bool.and_eq_true_iff.mp passes
  obtain ⟨⟨key, future⟩, claimed⟩ := Option.isSome_iff_exists.mp claims
  have claimedLater : state.claimed? before.spawned = some (key, future) :=
    (of_decide_eq_true same).trans claimed
  obtain ⟨replayed, awaits⟩ := State.tasks_of_claimed? claimed
  obtain ⟨otherReplayed, awaitsLater⟩ := State.tasks_of_claimed? claimedLater
  obtain ⟨pending, next, response, stepped, settled⟩ :=
    State.pending_of_answers claimedLater answers
  refine ⟨key, future, state, next, response, ?_, stepped, pending, settled, resolves⟩
  refine ⟨{}, 0, before, .request second, after, before.spawned, replayed, otherReplayed,
    reached, ?_, moved, ?_, awaits, run, awaitsLater⟩
  · simp [State.submitted?, serving, Request.accepted]
  · rw [awaits, Option.isNone_iff_eq_none.mp unborn]
    simp

/-- A caller whose request has a bytes body gets the response to one with the
text of these bytes; and a body that is a pair of surrogates, which has no
encoding, shares its key with the code point above them. -/
theorem merged_requests_not_sent_alike :
    (∃ request key future state next response item order,
      AwaitsFor oneWorker request key future state ∧
      step oneWorker (.step 1 .proceed) state = some next ∧
      state.dedup.futures future = .pending ∧ next.dedup.futures future = .result response ∧
      state.tasks 1 = some (.worker (.handling item (.resolving response))) ∧
      item.request.request.hashText? order = some key ∧
      request.idempotencyKey? oneWorker.python = some key ∧
      ¬ SentAlike item.request.request request) ∧
    ∃ key, (postRequest (.str pairedText)).accepted.idempotencyKey? {} = some key ∧
      (postRequest (.str joinedText)).accepted.idempotencyKey? {} = some key ∧
      ¬ SentAlike (postRequest (.str pairedText)).accepted
        (postRequest (.str joinedText)).accepted := by
  constructor
  · have passes : answersShared (postRequest (.str "b'x'")) (postRequest (.bytes "b'x'"))
        (fun request => decide (passage request.body = .text [false, false, false, false])) =
          true := by
      decide +kernel
    obtain ⟨key, future, state, next, response, awaitsFor, moved, pending, settled, isText⟩ :=
      exists_answered_of_replay passes
    obtain ⟨worker, item, choice, isStep, resolving, order, hashes⟩ :=
      awaitsFor.answered moved pending settled
    obtain ⟨rfl, _⟩ := Label.step.inj isStep
    refine ⟨_, key, future, state, next, response, item, order, awaitsFor, moved, pending, settled,
      resolving, hashes, awaitsFor.key, fun alike => ?_⟩
    have isText : passage item.request.request.body = .text [false, false, false, false] := by
      simpa [State.resolves?, resolving] using isText
    have branch := passage_eq_of_same alike.body
    rw [isText] at branch
    cases branch
  · have hashes : ((postRequest (.str pairedText)).accepted.idempotencyKey? {}).isSome = true := by
      decide +kernel
    have same : (postRequest (.str joinedText)).accepted.idempotencyKey? {} =
        (postRequest (.str pairedText)).accepted.idempotencyKey? {} := by
      decide +kernel
    obtain ⟨key, isKey⟩ := Option.isSome_iff_exists.mp hashes
    refine ⟨key, isKey, same.trans isKey, fun alike => ?_⟩
    have branch := passage_eq_of_same alike.body
    revert branch
    decide +kernel

/-- Requests whose bodies differ in a tuple inside a list are sent alike, and the
one gets the response to the other. -/
theorem merged_requests_sent_alike_nested :
    (∃ key, (postRequest (.list [.tuple [.int 1]])).accepted.idempotencyKey? {} = some key ∧
      SentAlike (postRequest (.list [.tuple [.int 1]])).accepted
        (postRequest (.list [.list [.int 1]])).accepted) ∧
    ∃ request state next item, step oneWorker (.step 1 .proceed) state = some next ∧
      state.itemAt (.agent 1) = some item ∧
      (SentAlike item.request.request request ↔ PassedAlike item.request.request request) := by
  constructor
  · have same : (postRequest (.list [.list [.int 1]])).accepted.idempotencyKey? {} =
        (postRequest (.list [.tuple [.int 1]])).accepted.idempotencyKey? {} := by
      decide +kernel
    have hashable : ((postRequest (.list [.tuple [.int 1]])).accepted.idempotencyKey? {}).isSome =
        true := by
      decide +kernel
    obtain ⟨key, hashes⟩ := Option.isSome_iff_exists.mp hashable
    refine ⟨key, hashes, ?_⟩
    apply ((merged_requests_sent_alike_iff oneWorker _ _ key).1 hashes (same.trans hashes)).mpr
    exact ⟨rfl, rfl, rfl, by decide +kernel⟩
  · have passes : answersShared (postRequest (.list [.tuple [.int 1]]))
        (postRequest (.list [.list [.int 1]])) (fun _ => true) = true := by
      decide +kernel
    obtain ⟨key, future, state, next, response, awaitsFor, moved, pending, settled, _⟩ :=
      exists_answered_of_replay passes
    obtain ⟨worker, item, choice, isStep, resolving, alike⟩ :=
      (merged_requests_sent_alike_iff oneWorker (postRequest (.list [.tuple [.int 1]])) _ key).2
        future state _ next response awaitsFor moved pending settled
    obtain ⟨rfl, _⟩ := Label.step.inj isStep
    refine ⟨_, state, next, item, moved, ?_, alike⟩
    simp [State.itemAt, resolving, Task.item?]

end HardenedClient
