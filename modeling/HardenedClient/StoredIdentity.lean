import HardenedClient.Rendering
import HardenedClient.RoundTrip
import Mathlib.Data.List.Nodup

/-!
# Identity and wire form of a stored request

A request that was persisted is rebuilt from the document json wrote for it.
The canonical dump sorts by the Python keys before it spells them, while the
rebuilt request has string keys only, a tuple comes back as a list, and a pair of
surrogates as the one code point it stands for. So a rebuilt request has its own
key, and is sent as the original one, exactly when its keys are spelled in their
own order, its body is no tuple and no text that is sent as it is has a pair of
surrogates.
-/

namespace HardenedClient

open Foundation

/-! ## What is sent -/

/-- The body as `_execute` hands it to the session: as `json`, as `data`, or
not at all. -/
inductive WireBody
  | absent
  | json (document : Option Json)
  | data (content : PyValue)

/-- The `isinstance` dispatch on the body. -/
def wireBody : PyValue → WireBody
  | .dict entries => .json (encode? none (.dict entries))
  | .list items => .json (encode? none (.list items))
  | .str text => .data (.str text)
  | .bytes text => .data (.bytes text)
  | _ => .absent

mutual

/-- The strings in a value, with the names its keys are spelled as. -/
def PyValue.texts : PyValue → List PyStr
  | .str text => [text]
  | .list items => textsOfItems items
  | .tuple items => textsOfItems items
  | .dict entries => textsOfEntries entries
  | _ => []

def textsOfItems : List PyValue → List PyStr
  | [] => []
  | item :: items => item.texts ++ textsOfItems items

def textsOfEntries : List (PyKey × PyValue) → List PyStr
  | [] => []
  | (key, value) :: entries => key.coerce?.toList ++ value.texts ++ textsOfEntries entries

end

/-- A dictionary as it is passed on. Its values are taken as the documents they
are, since a tuple is sent like a list, and with the strings in them. -/
structure Passed where
  fields : Option (List (PyKey × Json))
  texts : List PyStr

/-- What is passed on of a dictionary. -/
def passed (entries : PyDict) : Passed where
  fields := encodeEntries? none entries
  texts := textsOfEntries entries

/-- The arguments of `session.request`. -/
structure WireForm where
  method : PyStr
  url : PyStr
  params : Passed
  headers : Passed
  body : WireBody

/-- What `_execute` sends for a request. -/
def Request.wireForm (request : Request) : WireForm where
  method := request.method
  url := request.url
  params := passed request.params
  headers := passed request.headers
  body := wireBody request.body

/-- The request rebuilt from its payload has the key it was stored under, and
is sent as the original one. -/
def Request.SurvivesStorage
    (python : Interpreter)
    (key : Key)
    (payload : Payload)
    (request : Request) : Prop :=
  (Request.fromStorage payload).idempotencyKey? python = some key ∧
    (Request.fromStorage payload).wireForm = request.wireForm

/-! ## Keys in their own order -/

/-- The names json writes for sorted keys ascend when they are read again. -/
def spelledInOrder (order : KeyOrder) (keys : List PyKey) : Bool :=
  match spelledKeys? order keys with
  | some names => decide ((names.map PyStr.reread).Pairwise (· < ·))
  | none => false

mutual

/-- At every depth, the keys of a dictionary are spelled in their own order. -/
def PyValue.ordered (order : KeyOrder) : PyValue → Bool
  | .list items => orderedItems order items
  | .tuple items => orderedItems order items
  | .dict entries =>
      spelledInOrder order (entries.map Prod.fst) && orderedEntries order entries
  | _ => true

def orderedItems (order : KeyOrder) : List PyValue → Bool
  | [] => true
  | item :: items => item.ordered order && orderedItems order items

def orderedEntries (order : KeyOrder) : List (PyKey × PyValue) → Bool
  | [] => true
  | (_, value) :: entries => value.ordered order && orderedEntries order entries

end

/-- Headers as they are typed: from distinct strings to strings. -/
def Request.TextHeaders (request : Request) : Prop :=
  (request.headers.map Prod.fst).Nodup ∧
    ∀ entry ∈ request.headers, ∃ name text, entry = (.str name, .str text)

/-- The body, when it is sent as the string it is. -/
def PyValue.sentText : PyValue → List PyStr
  | .str text => [text]
  | _ => []

/-- The strings of a request that are sent as they are, not inside a document. -/
def Request.sentTexts (request : Request) : List PyStr :=
  request.method :: request.url :: textsOfEntries request.headers ++
    textsOfEntries request.params ++ request.body.sentText

/-- The keys of parameters and body are spelled in their own order, parameters
are named by strings, the body is no tuple, and what is sent as it is has no
surrogate pairs. -/
structure Request.PlainlyKeyed (order : KeyOrder) (request : Request) : Prop where
  params : (PyValue.dict request.params).ordered order = true
  body : request.body.ordered order = true
  names : ∀ entry ∈ request.params, ∃ name, entry.1 = .str name
  notTuple : ∀ items, request.body ≠ .tuple items
  texts : ∀ text ∈ request.sentTexts, Unpaired text

theorem orderedItems_iff (order : KeyOrder) (items : List PyValue) :
    orderedItems order items = true ↔ ∀ item ∈ items, item.ordered order = true := by
  induction items with
  | nil => simp [orderedItems]
  | cons item items inductionHypothesis => simp [orderedItems, inductionHypothesis]

theorem orderedEntries_iff (order : KeyOrder) (entries : PyDict) :
    orderedEntries order entries = true ↔ ∀ entry ∈ entries, entry.2.ordered order = true := by
  induction entries with
  | nil => simp [orderedEntries]
  | cons entry entries inductionHypothesis =>
      obtain ⟨key, value⟩ := entry
      simp [orderedEntries, inductionHypothesis]

/-! ## Decoding fields -/

/-- A field of a document, as it is decoded. -/
def readField (field : JsonText × Json) : PyStr × PyValue := (ofUnits field.1, loads field.2)

/-- The names of a document in the strict order they have as strings. -/
def NamesIncrease (fields : List (JsonText × α)) : Prop :=
  fields.Pairwise fun first second => ofUnits first.1 < ofUnits second.1

/-- Two orders of the same names, both strict, are one. -/
theorem eq_of_names_increase
    {fields others : List (JsonText × α)}
    (perm : fields.Perm others)
    (increase : NamesIncrease fields)
    (otherIncrease : NamesIncrease others) :
    fields = others := by
  apply List.Perm.eq_of_pairwise _ increase otherIncrease perm
  intro first second _ _ below above
  exact absurd below (lt_asymm above)

theorem NamesIncrease.nodup
    {fields : List (JsonText × α)}
    (increase : NamesIncrease fields) :
    (fields.map Prod.fst).Nodup := by
  rw [List.Nodup, List.pairwise_map]
  apply increase.imp
  intro first second below same
  rw [same] at below
  exact lt_irrefl _ below

/-- A decoded object has distinct string keys without surrogate pairs. -/
theorem loadsFields_distinct (named : List (JsonText × Json)) :
    ∃ fields : List (PyStr × PyValue), loadsFields [] named = fields.map strField ∧
      (fields.map Prod.fst).Nodup ∧ ∀ name ∈ fields.map Prod.fst, Unpaired name := by
  obtain ⟨fields, same, distinct, names⟩ :=
    exists_fields_of_isJsonEntries (isJsonEntries_loadsFields named [] rfl)
  exact ⟨fields, same, distinct, fun name member => (names name member).2⟩

/-- An object with distinct names is decoded field by field. -/
theorem loadsFields_of_nodup
    {named : List (JsonText × Json)}
    (distinct : (named.map Prod.fst).Nodup) :
    loadsFields [] named = (named.map readField).map strField := by
  have folded : ∀ before : PyDict,
      (∀ entry ∈ before, ∀ name ∈ named.map Prod.fst, entry.1 ≠ .str (ofUnits name)) →
        loadsFields before named = before ++ (named.map readField).map strField := by
    induction named with
    | nil => exact fun before _ => by simp [loadsFields]
    | cons field named inductionHypothesis =>
        obtain ⟨name, document⟩ := field
        obtain ⟨fresh, distinct⟩ := List.nodup_cons.mp distinct
        intro before apart
        rw [loadsFields, insertEntry_of_new fun entry member => apart entry member name (by simp),
          inductionHypothesis distinct]
        · simp [strField, readField]
        · intro entry member other present
          rcases List.mem_append.mp member with old | new
          · exact apart entry old other (List.mem_cons_of_mem _ present)
          · obtain rfl := List.mem_singleton.mp new
            intro equal
            obtain rfl := ofUnits_injective (PyKey.str.inj equal)
            exact fresh present
  simpa using folded [] (by simp)

/-! ## One value and what becomes of it -/

/-- A value with its document, its canonical dump, and the canonical dump of
what the document is decoded to. -/
structure StoredValue (order : KeyOrder) where
  value : PyValue
  document : Json
  dump : Json
  redump : Json
  encodes : encode? none value = some document
  dumps : encode? (some order) value = some dump
  redumps : encode? (some order) (loads document) = some redump

/-- A dictionary entry with the name its key is spelled as. -/
structure StoredEntry (order : KeyOrder) extends StoredValue order where
  key : PyKey
  name : PyStr
  spells : key.coerce? = some name

variable {order : KeyOrder}

namespace StoredValue

/-- Items that can be encoded both ways. -/
theorem exists_items
    {items : List PyValue}
    {documents dumps : List Json}
    (encoded : encodeItems? none items = some documents)
    (dumped : encodeItems? (some order) items = some dumps) :
    ∃ rows : List (StoredValue order), items = rows.map value ∧
      documents = rows.map document ∧ dumps = rows.map dump := by
  induction items generalizing documents dumps with
  | nil =>
      simp only [encodeItems?, Option.some.injEq] at encoded dumped
      exact ⟨[], rfl, encoded.symm, dumped.symm⟩
  | cons item items inductionHypothesis =>
      simp only [encodeItems?, Option.bind_eq_bind, Option.bind_eq_some_iff] at encoded dumped
      obtain ⟨document, encodes, documents, others, equal⟩ := encoded
      obtain rfl := Option.some.inj equal
      obtain ⟨dump, dumps, rest, otherDumps, equal⟩ := dumped
      obtain rfl := Option.some.inj equal
      obtain ⟨redump, redumps⟩ :=
        Option.isSome_iff_exists.mp (encode?_loads_isSome (some order) document)
      obtain ⟨rows, rfl, rfl, rfl⟩ := inductionHypothesis others otherDumps
      exact ⟨⟨item, document, dump, redump, encodes, dumps, redumps⟩ :: rows, rfl, rfl, rfl⟩

/-- Decoded items are dumped one by one. -/
theorem redumps_items (rows : List (StoredValue order)) :
    encodeItems? (some order) (loadsItems (rows.map document)) = some (rows.map redump) := by
  induction rows with
  | nil => rfl
  | cons row rows inductionHypothesis =>
      simp [loadsItems, encodeItems?, row.redumps, inductionHypothesis]

end StoredValue

namespace StoredEntry

/-- Entries that can be encoded both ways. -/
theorem exists_entries
    {entries : PyDict}
    {fields dumps : List (PyKey × Json)}
    {named : List (PyStr × Json)}
    (encoded : encodeEntries? none entries = some fields)
    (spelled : coerceFields? fields = some named)
    (dumped : encodeEntries? (some order) entries = some dumps) :
    ∃ rows : List (StoredEntry order),
      entries = rows.map (fun row => (row.key, row.value)) ∧
      fields = rows.map (fun row => (row.key, row.document)) ∧
      named = rows.map (fun row => (row.name, row.document)) ∧
      dumps = rows.map (fun row => (row.key, row.dump)) := by
  induction entries generalizing fields named dumps with
  | nil =>
      simp only [encodeEntries?, Option.some.injEq] at encoded dumped
      subst encoded dumped
      simp only [coerceFields?, Option.some.injEq] at spelled
      exact ⟨[], rfl, rfl, spelled.symm, rfl⟩
  | cons entry entries inductionHypothesis =>
      obtain ⟨key, value⟩ := entry
      simp only [encodeEntries?, Option.bind_eq_bind, Option.bind_eq_some_iff]
        at encoded dumped
      obtain ⟨document, encodes, fields, others, equal⟩ := encoded
      obtain rfl := Option.some.inj equal
      obtain ⟨dump, dumps, rest, otherDumps, equal⟩ := dumped
      obtain rfl := Option.some.inj equal
      simp only [coerceFields?, Option.bind_eq_bind, Option.bind_eq_some_iff] at spelled
      obtain ⟨name, spells, named, otherNames, equal⟩ := spelled
      obtain rfl := Option.some.inj equal
      obtain ⟨redump, redumps⟩ :=
        Option.isSome_iff_exists.mp (encode?_loads_isSome (some order) document)
      obtain ⟨rows, rfl, rfl, rfl, rfl⟩ := inductionHypothesis others otherNames otherDumps
      exact ⟨⟨⟨value, document, dump, redump, encodes, dumps, redumps⟩, key, name, spells⟩ ::
        rows, rfl, rfl, rfl, rfl⟩

/-- The dumped entries are spelled with the names of their keys. -/
theorem coerceFields?_dumps (rows : List (StoredEntry order)) :
    coerceFields? (rows.map fun row => (row.key, row.dump)) =
      some (rows.map fun row => (row.name, row.dump)) := by
  rw [coerceFields?_eq_some_iff, List.map_map, List.map_map]
  apply List.map_congr_left
  intro row _
  simp [coerceField?, row.spells]

/-- The decoded entries. -/
def decoded (rows : List (StoredEntry order)) : List (PyStr × PyValue) :=
  rows.map fun row => (row.name.reread, loads row.document)

/-- Decoded entries are dumped one by one. -/
theorem redumps_entries (rows : List (StoredEntry order)) :
    encodeEntries? (some order) ((decoded rows).map strField) =
      some ((rows.map fun row => (row.name.reread, row.redump)).map strField) := by
  induction rows with
  | nil => rfl
  | cons row rows inductionHypothesis =>
      simp only [decoded, List.map_cons, strField, encodeEntries?, row.redumps]
        at inductionHypothesis ⊢
      rw [inductionHypothesis]
      rfl

/-- The document of the entries. -/
def documents (rows : List (StoredEntry order)) : List (JsonText × Json) :=
  rows.map fun row => (toUnits row.name, row.document)

theorem map_readField_documents (rows : List (StoredEntry order)) :
    (documents rows).map readField = decoded rows := by
  rw [documents, decoded, List.map_map]
  rfl

theorem map_unitField_named (rows : List (StoredEntry order)) :
    (rows.map fun row => (row.name, row.document)).map unitField = documents rows := by
  rw [documents, List.map_map]
  rfl

theorem map_fst_documents (rows : List (StoredEntry order)) :
    (documents rows).map Prod.fst = rows.map fun (row : StoredEntry order) => toUnits row.name := by
  rw [documents, List.map_map]
  rfl

end StoredEntry

/-- Decoded items are encoded to the documents they came from. -/
theorem encodeItems?_loadsItems
    {documents : List Json}
    (kept : ∀ document ∈ documents, encode? none (loads document) = some document) :
    encodeItems? none (loadsItems documents) = some documents := by
  induction documents with
  | nil => rfl
  | cons document documents inductionHypothesis =>
      have rest := inductionHypothesis fun other member =>
        kept other (List.mem_cons_of_mem _ member)
      simp [loadsItems, encodeItems?, kept document List.mem_cons_self, rest]

/-- Decoded fields are encoded to the documents they came from. -/
theorem encodeEntries?_loads
    {named : List (JsonText × Json)}
    (kept : ∀ field ∈ named, encode? none (loads field.2) = some field.2) :
    encodeEntries? none ((named.map readField).map strField) =
      some ((named.map (Prod.map ofUnits id)).map strField) := by
  induction named with
  | nil => rfl
  | cons field named inductionHypothesis =>
      have rest := inductionHypothesis fun other member =>
        kept other (List.mem_cons_of_mem _ member)
      simp only [List.map_cons, strField, readField, Prod.map, id_eq, encodeEntries?,
        kept field List.mem_cons_self] at rest ⊢
      rw [rest]
      rfl

/-! ## When the canonical dump survives -/

/-- A stored value is restored with its canonical dump and its document, and with
its strings as they are read again. -/
structure StoredValue.Restored (row : StoredValue order) : Prop where
  dump : row.redump = row.dump
  document : encode? none (loads row.document) = some row.document
  texts : (loads row.document).texts = row.value.texts.map PyStr.reread

/-- Storing a value keeps its canonical text exactly when its keys are spelled
in their own order. -/
def Faithful (order : KeyOrder) (value : PyValue) : Prop :=
  ∀ row : StoredValue order, row.value = value →
    (value.ordered order = true → row.Restored) ∧
    (render row.dump = render row.redump → value.ordered order = true)

/-- A value without parts is restored from its document. -/
theorem faithful_of_leaf
    {value : PyValue}
    (leaf : value.ordered order = true)
    (same : ∀ document, encode? none value = some document →
      encode? (some order) value = some document ∧
        encode? none (loads document) = some document ∧
        encode? (some order) (loads document) = some document ∧
        (loads document).texts = value.texts.map PyStr.reread) :
    Faithful order value := by
  rintro row rfl
  obtain ⟨dumps, kept, redumps, texts⟩ := same row.document row.encodes
  refine ⟨fun _ => ⟨?_, kept, texts⟩, fun _ => leaf⟩
  rw [row.dumps] at dumps
  rw [row.redumps] at redumps
  exact Option.some.inj (redumps.trans dumps.symm)

/-- The strings of restored items are theirs, read again. -/
theorem textsOfItems_restored
    {rows : List (StoredValue order)}
    (restored : ∀ row ∈ rows, row.Restored) :
    textsOfItems (loadsItems (rows.map StoredValue.document)) =
      (textsOfItems (rows.map StoredValue.value)).map PyStr.reread := by
  induction rows with
  | nil => rfl
  | cons row rows inductionHypothesis =>
      obtain ⟨head, tail⟩ := List.forall_mem_cons.mp restored
      simp only [List.map_cons, loadsItems, textsOfItems, List.map_append, head.texts,
        inductionHypothesis tail]

theorem faithful_items
    {items : List PyValue}
    (parts : ∀ item ∈ items, Faithful order item)
    {value : PyValue}
    (isItems : value = .list items ∨ value = .tuple items) :
    Faithful order value := by
  have ordered : value.ordered order = orderedItems order items := by
    rcases isItems with rfl | rfl <;> rw [PyValue.ordered]
  have texts : value.texts = textsOfItems items := by
    rcases isItems with rfl | rfl <;> rw [PyValue.texts]
  have encoding : ∀ sorting, encode? sorting value = (encodeItems? sorting items).map .arr := by
    intro sorting
    rcases isItems with rfl | rfl <;> rw [encode?]
  rintro row rfl
  obtain ⟨documents, encoded, isDocument⟩ :=
    Option.map_eq_some_iff.mp ((encoding none).symm.trans row.encodes)
  obtain ⟨dumps, dumped, isDump⟩ :=
    Option.map_eq_some_iff.mp ((encoding (some order)).symm.trans row.dumps)
  obtain ⟨rows, rfl, rfl, rfl⟩ := StoredValue.exists_items encoded dumped
  have redump : row.redump = .arr (rows.map StoredValue.redump) := by
    have redumps := row.redumps
    rw [← isDocument, loads, encode?, StoredValue.redumps_items] at redumps
    exact (Option.some.inj redumps).symm
  rw [ordered, orderedItems_iff]
  constructor
  · intro inOrder
    have restored : ∀ part ∈ rows, part.Restored := fun part member =>
      have inItems := List.mem_map_of_mem (f := StoredValue.value) member
      (parts part.value inItems part rfl).1 (inOrder part.value inItems)
    refine ⟨?_, ?_, ?_⟩
    · rw [redump, ← isDump, List.map_congr_left fun part member => (restored part member).dump]
    · rw [← isDocument, loads, encode?, encodeItems?_loadsItems, Option.map_some]
      intro document member
      obtain ⟨part, inRows, rfl⟩ := List.mem_map.mp member
      exact (restored part inRows).document
    · rw [← isDocument, loads, PyValue.texts, texts, textsOfItems_restored restored]
  · intro equal
    rw [redump, ← isDump] at equal
    have each := map_render_of_render_arr_eq equal
    rw [List.map_map, List.map_map, List.map_inj_left] at each
    intro item member
    obtain ⟨part, inRows, rfl⟩ := List.mem_map.mp member
    exact (parts part.value member part rfl).2 (each part inRows)

/-- The dump of a dictionary, by its entries. -/
theorem dump_dict
    {rows : List (StoredEntry order)}
    {ordered : List (PyKey × Json)}
    {named : List (PyStr × Json)}
    (sorted : orderFields? (some order) (rows.map fun row => (row.key, row.dump)) = some ordered)
    (spelled : coerceFields? ordered = some named) :
    (named.map unitField).Perm (rows.map fun row => (toUnits row.name, row.dump)) ∧
      (spelledInOrder order (rows.map StoredEntry.key) = true ↔
        NamesIncrease (named.map unitField)) := by
  constructor
  · have isSorted := sorted
    rw [orderFields?_some] at isSorted
    split_ifs at isSorted
    obtain rfl := Option.some.inj isSorted
    have perm := coerceFields?_perm (order.arrange_perm _) spelled
      (StoredEntry.coerceFields?_dumps rows)
    have renamed := perm.map unitField
    rwa [List.map_map] at renamed
  · have names := spelledKeys?_of_named sorted spelled
    rw [List.map_map] at names
    have spells : spelledKeys? order (rows.map StoredEntry.key) = some (named.map Prod.fst) := names
    simp only [spelledInOrder, spells, decide_eq_true_eq, NamesIncrease, List.pairwise_map]
    rfl

/-- The dump of a decoded object: its names increase, and if they were distinct
they come with the values they stood for. -/
theorem redump_dict
    {rows : List (StoredEntry order)}
    {redump : Json}
    (redumps : encode? (some order) (loads (.obj (StoredEntry.documents rows))) = some redump) :
    ∃ fields, redump = .obj fields ∧ NamesIncrease fields ∧
      ((rows.map fun (row : StoredEntry order) => toUnits row.name).Nodup →
        fields.Perm (rows.map fun row => (toUnits row.name, row.redump))) := by
  rw [loads, encode?] at redumps
  simp only [Option.bind_eq_bind, Option.bind_eq_some_iff] at redumps
  obtain ⟨encoded, dumped, ordered, sorted, named, spelled, equal⟩ := redumps
  obtain rfl := Option.some.inj equal
  have encodesTo : ∀ {documents : List (PyStr × Json)}, encoded = documents.map strField →
      (documents.map Prod.fst).Nodup →
      named.Perm documents ∧ (named.map Prod.fst).Pairwise (· < ·) := by
    rintro documents rfl distinct
    obtain ⟨others, isSorted, perm, ascends⟩ := orderFields?_strField order distinct
    rw [sorted, Option.bind_some, spelled, Option.some.injEq] at isSorted
    exact isSorted ▸ ⟨perm, ascends⟩
  refine ⟨_, rfl, ?_, fun distinct => ?_⟩
  · obtain ⟨decoded, same, distinct, unpaired⟩ :=
      loadsFields_distinct (StoredEntry.documents rows)
    rw [same] at dumped
    obtain ⟨documents, isEncoded, names⟩ := encodeEntries?_strField dumped
    obtain ⟨perm, ascends⟩ := encodesTo isEncoded (names ▸ distinct)
    have kept : ∀ field ∈ named, ofUnits (toUnits field.1) = field.1 := by
      intro field member
      apply ofUnits_toUnits
      apply unpaired
      rw [← names]
      exact List.mem_map_of_mem (perm.mem_iff.mp member)
    rw [NamesIncrease, List.pairwise_map]
    apply (List.pairwise_map.mp ascends).imp_of_mem
    intro first second inFirst inSecond below
    simpa only [unitField, kept first inFirst, kept second inSecond] using below
  · have rereads : (rows.map fun row => (row.name.reread, row.redump)).map Prod.fst =
        (rows.map fun (row : StoredEntry order) => toUnits row.name).map ofUnits := by
      rw [List.map_map, List.map_map]
      rfl
    rw [loadsFields_of_nodup (StoredEntry.map_fst_documents rows ▸ distinct),
      StoredEntry.map_readField_documents] at dumped
    have isEncoded := (StoredEntry.redumps_entries rows).symm.trans dumped
    have perm := (encodesTo (Option.some.inj isEncoded).symm
      (rereads ▸ (List.nodup_map_iff ofUnits_injective).mpr distinct)).1.map unitField
    rw [List.map_map] at perm
    simpa only [Function.comp_def, unitField, PyStr.toUnits_reread] using perm

/-- An object with distinct names is encoded to itself. -/
theorem encode?_loads_obj
    {named : List (JsonText × Json)}
    (distinct : (named.map Prod.fst).Nodup)
    (kept : ∀ field ∈ named, encode? none (loads field.2) = some field.2) :
    encode? none (loads (.obj named)) = some (.obj named) := by
  have back : (named.map (Prod.map ofUnits id)).map unitField = named := by
    have each : ∀ field ∈ named, (unitField ∘ Prod.map ofUnits id) field = id field :=
      fun field _ => Prod.ext (toUnits_ofUnits field.1) rfl
    rw [List.map_map, List.map_congr_left each, List.map_id]
  rw [loads, encode?, loadsFields_of_nodup distinct, encodeEntries?_loads kept]
  simp only [Option.bind_eq_bind, Option.bind_some, orderFields?, coerceFields?_strField, back]
  rfl

/-- The strings of restored entries are theirs, read again. -/
theorem textsOfEntries_restored
    {rows : List (StoredEntry order)}
    (restored : ∀ row ∈ rows, row.toStoredValue.Restored) :
    textsOfEntries ((StoredEntry.decoded rows).map strField) =
      (textsOfEntries (rows.map fun row => (row.key, row.value))).map PyStr.reread := by
  induction rows with
  | nil => rfl
  | cons row rows inductionHypothesis =>
      obtain ⟨head, tail⟩ := List.forall_mem_cons.mp restored
      have rest := inductionHypothesis tail
      have spelled : (PyKey.str row.name.reread).coerce? = some row.name.reread := rfl
      simp only [StoredEntry.decoded, List.map_cons, strField, textsOfEntries, spelled,
        row.spells, Option.toList_some, List.map_append, List.map_nil, head.texts] at rest ⊢
      rw [rest]

theorem map_fst_of_map_renderField_eq
    {fields others : List (JsonText × Json)}
    (equal : fields.map renderField = others.map renderField) :
    fields.map Prod.fst = others.map Prod.fst := by
  induction fields generalizing others with
  | nil =>
      rw [List.map_nil, eq_comm, List.map_eq_nil_iff] at equal
      rw [equal]
  | cons field fields inductionHypothesis =>
      cases others with
      | nil => simp at equal
      | cons other others =>
          obtain ⟨same, rest⟩ := List.cons.inj equal
          rw [List.map_cons, List.map_cons, (renderField_inj same).1,
            inductionHypothesis rest]

theorem NamesIncrease.of_map_fst_eq
    {fields : List (JsonText × α)}
    {others : List (JsonText × β)}
    (increase : NamesIncrease fields)
    (names : others.map Prod.fst = fields.map Prod.fst) :
    NamesIncrease others := by
  have pairwise : (fields.map Prod.fst).Pairwise fun first second =>
      ofUnits first < ofUnits second := by
    rw [List.pairwise_map]
    exact increase
  rw [← names, List.pairwise_map] at pairwise
  exact pairwise

theorem faithful_dict
    {entries : PyDict}
    (parts : ∀ entry ∈ entries, Faithful order entry.2) :
    Faithful order (.dict entries) := by
  rintro row isDict
  have encodes := row.encodes
  have dumps := row.dumps
  have redumps := row.redumps
  rw [isDict, encode?] at encodes dumps
  simp only [Option.bind_eq_bind, Option.bind_eq_some_iff] at encodes dumps
  obtain ⟨fields, encoded, ordered, unsorted, named, spelled, isDocument⟩ := encodes
  obtain rfl : fields = ordered := Option.some.inj unsorted
  obtain ⟨dumpFields, dumped, sorted, isSorted, dumpNamed, dumpSpelled, isDump⟩ := dumps
  obtain ⟨rows, rfl, rfl, rfl, rfl⟩ := StoredEntry.exists_entries encoded spelled dumped
  have keys : (rows.map fun row => (row.key, row.value)).map Prod.fst =
      rows.map StoredEntry.key := by
    rw [List.map_map]
    rfl
  have isObject : StoredEntry.documents rows = _ := (StoredEntry.map_unitField_named rows).symm
  obtain ⟨perm, spelledIff⟩ := dump_dict isSorted dumpSpelled
  have documentIs := (Option.some.inj isDocument).symm
  have dumpIs := (Option.some.inj isDump).symm
  rw [← isObject] at documentIs
  rw [documentIs] at redumps
  obtain ⟨refields, redumpIs, increase, restores⟩ := redump_dict redumps
  generalize dumpNamed.map unitField = names at perm spelledIff dumpIs
  have distinctOf : NamesIncrease names → (rows.map fun (row : StoredEntry order) => toUnits row.name).Nodup := by
    intro inOrder
    have permNames := perm.map Prod.fst
    rw [List.map_map] at permNames
    exact permNames.nodup_iff.mp inOrder.nodup
  rw [PyValue.ordered, keys, Bool.and_eq_true, orderedEntries_iff, spelledIff]
  constructor
  · rintro ⟨inOrder, allOrdered⟩
    have restored : ∀ part ∈ rows, part.toStoredValue.Restored := fun part member =>
      have inEntries := List.mem_map_of_mem
        (f := fun row : StoredEntry order => (row.key, row.value)) member
      (parts _ inEntries part.toStoredValue rfl).1 (allOrdered _ inEntries)
    have distinct := StoredEntry.map_fst_documents rows ▸ distinctOf inOrder
    have sameRows : (rows.map fun (row : StoredEntry order) => (toUnits row.name, row.redump)) =
        rows.map fun (row : StoredEntry order) => (toUnits row.name, row.dump) := by
      apply List.map_congr_left
      intro part member
      rw [(restored part member).dump]
    have permBoth : refields.Perm names :=
      ((restores (distinctOf inOrder)).trans (sameRows ▸ List.Perm.refl _)).trans perm.symm
    refine ⟨?_, ?_, ?_⟩
    · rw [redumpIs, dumpIs, eq_of_names_increase permBoth increase inOrder]
    · rw [documentIs]
      apply encode?_loads_obj distinct
      intro field member
      obtain ⟨part, inRows, rfl⟩ := List.mem_map.mp member
      exact (restored part inRows).document
    · rw [documentIs, isDict, loads, loadsFields_of_nodup distinct,
        StoredEntry.map_readField_documents, PyValue.texts, PyValue.texts,
        textsOfEntries_restored restored]
  · intro equal
    rw [redumpIs, dumpIs] at equal
    have each := map_renderField_of_render_obj_eq equal
    have inOrder : NamesIncrease names :=
      increase.of_map_fst_eq (map_fst_of_map_renderField_eq each)
    refine ⟨inOrder, fun entry member => ?_⟩
    obtain ⟨part, inRows, rfl⟩ := List.mem_map.mp member
    -- The restored field of the same name comes from the same entry.
    have inNames : (toUnits part.name, part.dump) ∈ names :=
      perm.mem_iff.mpr (List.mem_map.mpr ⟨part, inRows, rfl⟩)
    have inRefields : renderField (toUnits part.name, part.dump) ∈ refields.map renderField :=
      each ▸ List.mem_map_of_mem inNames
    obtain ⟨field, fromRows, sameText⟩ := List.mem_map.mp inRefields
    obtain ⟨other, otherInRows, rfl⟩ :=
      List.mem_map.mp ((restores (distinctOf inOrder)).mem_iff.mp fromRows)
    obtain ⟨sameName, sameValue⟩ := renderField_inj sameText
    obtain rfl : other = part :=
      List.inj_on_of_nodup_map (distinctOf inOrder) otherInRows inRows sameName
    exact (parts _ member other.toStoredValue rfl).2 sameValue.symm

mutual

/-- Storing keeps the canonical text of exactly the values whose keys are
spelled in their own order. -/
theorem faithful (order : KeyOrder) : ∀ value : PyValue, Faithful order value
  | .none | .bool _ | .int _ | .float _ =>
      faithful_of_leaf rfl (by simp [encode?, loads, PyValue.texts])
  | .str _ =>
      faithful_of_leaf rfl
        (by simp [encode?, loads, PyValue.texts, toUnits_ofUnits, PyStr.reread])
  | .bytes _ | .other _ => faithful_of_leaf rfl (by simp [encode?])
  | .list items => faithful_items (faithfulItems order items) (Or.inl rfl)
  | .tuple items => faithful_items (faithfulItems order items) (Or.inr rfl)
  | .dict entries => faithful_dict (faithfulEntries order entries)

theorem faithfulItems (order : KeyOrder) :
    ∀ items : List PyValue, ∀ item ∈ items, Faithful order item
  | [], item, absent => by simp at absent
  | head :: items, item, member => by
      rcases List.mem_cons.mp member with same | member
      · rw [same]
        exact faithful order head
      · exact faithfulItems order items item member

theorem faithfulEntries (order : KeyOrder) :
    ∀ entries : PyDict, ∀ entry ∈ entries, Faithful order entry.2
  | [], entry, absent => by simp at absent
  | (key, value) :: entries, entry, member => by
      rcases List.mem_cons.mp member with same | member
      · rw [same]
        exact faithful order value
      · exact faithfulEntries order entries entry member

end

/-! ## What the interpreter can dump again -/

variable {python : Interpreter}

theorem fitsItems_iff (levels : ℕ) (items : List PyValue) :
    fitsItems python levels items = true ↔ ∀ item ∈ items, item.fits python levels = true := by
  induction items with
  | nil => simp [fitsItems]
  | cons item items inductionHypothesis => simp [fitsItems, inductionHypothesis]

theorem fitsEntries_iff (levels : ℕ) (entries : PyDict) :
    fitsEntries python levels entries = true ↔
      ∀ entry ∈ entries, entry.1.fits python = true ∧ entry.2.fits python levels = true := by
  induction entries with
  | nil => simp [fitsEntries]
  | cons entry entries inductionHypothesis =>
      obtain ⟨key, value⟩ := entry
      simp [fitsEntries, inductionHypothesis]

/-- Decoded fields are entries under string keys. -/
theorem mem_loadsFields
    {named : List (JsonText × Json)}
    {before : PyDict}
    {entry : PyKey × PyValue}
    (member : entry ∈ loadsFields before named) :
    entry ∈ before ∨ ∃ field ∈ named, entry = (.str (ofUnits field.1), loads field.2) := by
  have inserted : ∀ (name : PyStr) (value : PyValue) (entries : PyDict),
      ∀ entry ∈ insertEntry name value entries, entry ∈ entries ∨ entry = (.str name, value) := by
    intro name value entries
    induction entries with
    | nil => simp [insertEntry]
    | cons head rest inductionHypothesis =>
        intro entry member
        rw [insertEntry] at member
        split_ifs at member with same
        · rcases List.mem_cons.mp member with rfl | member
          · exact Or.inr (by rw [same])
          · exact Or.inl (List.mem_cons_of_mem _ member)
        · rcases List.mem_cons.mp member with rfl | member
          · exact Or.inl List.mem_cons_self
          · exact (inductionHypothesis entry member).imp_left (List.mem_cons_of_mem _)
  induction named generalizing before with
  | nil => exact Or.inl (by rwa [loadsFields] at member)
  | cons field named inductionHypothesis =>
      rw [loadsFields] at member
      rcases inductionHypothesis member with old | ⟨other, inNamed, isOther⟩
      · rcases inserted _ _ _ entry old with old | new
        · exact Or.inl old
        · exact Or.inr ⟨field, List.mem_cons_self, new⟩
      · exact Or.inr ⟨other, List.mem_cons_of_mem _ inNamed, isOther⟩

/-- The documents of items, one by one. -/
theorem mem_of_encodeItems?
    {items : List PyValue}
    {documents : List Json}
    (encodes : encodeItems? none items = some documents)
    {decoded : PyValue}
    (member : decoded ∈ loadsItems documents) :
    ∃ item ∈ items, ∃ document, encode? none item = some document ∧ decoded = loads document := by
  induction items generalizing documents with
  | nil =>
      simp only [encodeItems?, Option.some.injEq] at encodes
      subst encodes
      simp [loadsItems] at member
  | cons item items inductionHypothesis =>
      simp only [encodeItems?, Option.bind_eq_bind, Option.bind_eq_some_iff] at encodes
      obtain ⟨document, encoded, others, rest, equal⟩ := encodes
      obtain rfl := Option.some.inj equal
      rw [loadsItems] at member
      rcases List.mem_cons.mp member with rfl | member
      · exact ⟨item, List.mem_cons_self, document, encoded, rfl⟩
      · obtain ⟨other, inItems, found⟩ := inductionHypothesis rest member
        exact ⟨other, List.mem_cons_of_mem _ inItems, found⟩

/-- The documents of entries, one by one. -/
theorem mem_of_encodeEntries?
    {entries : PyDict}
    {fields : List (PyKey × Json)}
    (encodes : encodeEntries? none entries = some fields)
    {field : PyKey × Json}
    (member : field ∈ fields) :
    ∃ entry ∈ entries, entry.1 = field.1 ∧ encode? none entry.2 = some field.2 := by
  induction entries generalizing fields with
  | nil =>
      simp only [encodeEntries?, Option.some.injEq] at encodes
      subst encodes
      simp at member
  | cons entry entries inductionHypothesis =>
      obtain ⟨key, value⟩ := entry
      simp only [encodeEntries?, Option.bind_eq_bind, Option.bind_eq_some_iff] at encodes
      obtain ⟨document, encoded, others, rest, equal⟩ := encodes
      obtain rfl := Option.some.inj equal
      rcases List.mem_cons.mp member with rfl | member
      · exact ⟨_, List.mem_cons_self, rfl, encoded⟩
      · obtain ⟨other, inEntries, found⟩ := inductionHypothesis rest member
        exact ⟨other, List.mem_cons_of_mem _ inEntries, found⟩

/-- Spelling the keys keeps the values. -/
theorem mem_of_coerceFields?
    {fields : List (PyKey × α)}
    {named : List (PyStr × α)}
    (spelled : coerceFields? fields = some named)
    {name : PyStr}
    {value : α}
    (member : (name, value) ∈ named) :
    ∃ key, (key, value) ∈ fields ∧ key.coerce? = some name := by
  have found : some (name, value) ∈ fields.map coerceField? := by
    rw [coerceFields?_eq_some_iff.mp spelled]
    exact List.mem_map_of_mem member
  obtain ⟨⟨key, other⟩, inFields, isField⟩ := List.mem_map.mp found
  obtain ⟨spelling, spells, same⟩ := Option.map_eq_some_iff.mp isField
  obtain ⟨rfl, rfl⟩ := Prod.mk.inj same
  exact ⟨key, inFields, spells⟩

/-- What comes back from a document is dumped under the limits its value was. -/
theorem fits_loads
    {value : PyValue}
    {levels : ℕ}
    {document : Json}
    (encodes : encode? none value = some document)
    (fits : value.fits python levels = true) :
    (loads document).fits python levels = true := by
  induction value using PyValue.partsInduction generalizing levels document with
  | none | bool | float | str =>
      simp only [encode?, Option.some.injEq] at encodes
      subst encodes
      simp [loads, PyValue.fits]
  | int =>
      simp only [encode?, Option.some.injEq] at encodes
      subst encodes
      rwa [loads]
  | bytes | other => simp [encode?] at encodes
  | list items each | tuple items each =>
      simp only [encode?, Option.map_eq_some_iff] at encodes
      obtain ⟨documents, encoded, rfl⟩ := encodes
      simp only [PyValue.fits, loads, Bool.and_eq_true, fitsItems_iff] at fits ⊢
      refine ⟨fits.1, fun decoded member => ?_⟩
      obtain ⟨item, inItems, document, isDocument, rfl⟩ := mem_of_encodeItems? encoded member
      exact each item inItems isDocument (fits.2 item inItems)
  | dict entries each =>
      rw [encode?] at encodes
      simp only [Option.bind_eq_bind, Option.bind_eq_some_iff] at encodes
      obtain ⟨fields, encoded, ordered, unsorted, named, spelled, equal⟩ := encodes
      obtain rfl : fields = ordered := Option.some.inj unsorted
      obtain rfl := Option.some.inj equal
      simp only [PyValue.fits, loads, Bool.and_eq_true, fitsEntries_iff] at fits ⊢
      refine ⟨fits.1, fun entry member => ?_⟩
      obtain absent | ⟨field, inNamed, rfl⟩ := mem_loadsFields member
      · cases absent
      obtain ⟨⟨name, document⟩, inFields, rfl⟩ := List.mem_map.mp inNamed
      obtain ⟨key, inFields, _⟩ := mem_of_coerceFields? spelled inFields
      obtain ⟨entry, inEntries, _, isDocument⟩ := mem_of_encodeEntries? encoded inFields
      exact ⟨rfl, each entry inEntries isDocument (fits.2 entry inEntries).2⟩

/-! ## A stored request -/

variable {request : Request} {key : Key} {payload : Payload}

/-- The payload holds the request's method and URL, and the documents of its
headers, parameters and body. -/
theorem payload_fields (stores : request.payload? = some payload) :
    payload.method = toUnits request.method ∧ payload.url = toUnits request.url ∧
      encode? none (.dict request.headers) = some payload.headers ∧
      encode? none (.dict request.params) = some payload.params ∧
      encode? none request.body = some payload.body := by
  simp only [Request.payload?, Option.bind_eq_bind, Option.bind_eq_some_iff] at stores
  obtain ⟨headers, headersIs, params, paramsIs, body, bodyIs, equal⟩ := stores
  rw [← Option.some.inj equal]
  exact ⟨rfl, rfl, headersIs, paramsIs, bodyIs⟩

/-- A stored dictionary comes back as a dictionary. -/
theorem loads_eq_dict_entriesOr
    {entries : PyDict}
    {document : Json}
    (encodes : encode? none (.dict entries) = some document) :
    loads document = .dict (loads document).entriesOr := by
  rw [encode?] at encodes
  simp only [Option.bind_eq_bind, Option.bind_eq_some_iff] at encodes
  obtain ⟨_, _, _, _, named, _, equal⟩ := encodes
  rw [← Option.some.inj equal, loads, PyValue.entriesOr]

/-- What is hashed of a rebuilt request can be dumped again. -/
theorem fits_identity_fromStorage
    (stores : request.payload? = some payload)
    {levels : ℕ}
    (fits : request.identity.fits python levels = true) :
    (Request.fromStorage payload).identity.fits python levels = true := by
  obtain ⟨_, _, _, paramsIs, bodyIs⟩ := payload_fields stores
  have restored : PyValue.dict (Request.fromStorage payload).params = loads payload.params :=
    (loads_eq_dict_entriesOr paramsIs).symm
  unfold Request.identity at fits ⊢
  rw [restored]
  generalize PyValue.dict request.params = params at fits paramsIs
  simp only [PyValue.fits, fitsEntries, PyKey.fits, Bool.and_eq_true, Bool.true_and, and_true]
    at fits ⊢
  exact ⟨fits.1, fits_loads paramsIs fits.2.1, fits_loads bodyIs fits.2.2⟩

/-- Distinct names without surrogate pairs are spelled in their own order. -/
theorem spelledInOrder_of_names
    (order : KeyOrder)
    {names : List PyStr}
    (distinct : names.Nodup)
    (unpaired : ∀ name ∈ names, Unpaired name) :
    spelledInOrder order (names.map .str) = true := by
  have units : (names.map PyKey.str).map (fun key => (key, ())) =
      (names.map fun name => (name, ())).map strField := by
    rw [List.map_map, List.map_map]
    rfl
  have sameNames : (names.map fun name => (name, ())).map Prod.fst = names := by
    rw [List.map_map]
    exact List.map_id _
  obtain ⟨sorted, isSorted, perm, ascends⟩ :=
    @orderFields?_strField _ order (names.map fun name => (name, ())) (by rwa [sameNames])
  have kept : ∀ name ∈ sorted.map Prod.fst, name.reread = name := by
    intro name member
    rw [(perm.map Prod.fst).mem_iff, sameNames] at member
    exact PyStr.reread_eq_iff.mpr (unpaired name member)
  simp only [spelledInOrder, spelledKeys?, units, isSorted, Option.map_some, decide_eq_true_eq]
  rwa [List.map_congr_left kept, List.map_id']

theorem ordered_identity (order : KeyOrder) (request : Request) :
    request.identity.ordered order =
      ((PyValue.dict request.params).ordered order && request.body.ordered order) := by
  have names : spelledInOrder order [.str "method", .str "url", .str "params", .str "body"] =
      true := by
    exact @spelledInOrder_of_names order ["method", "url", "params", "body"]
      (by decide +kernel) (by decide +kernel)
  simp [Request.identity, PyValue.ordered, orderedEntries, names]

/-- What is hashed of a stored request, with the dump of what is hashed of the
rebuilt one. -/
theorem exists_identity_row
    (hashes : request.hashText? order = some key)
    (stores : request.payload? = some payload)
    (method : Unpaired request.method) :
    ∃ row : StoredValue order, row.value = request.identity ∧
      encode? (some order) (Request.fromStorage payload).identity = some row.redump := by
  obtain ⟨methodIs, urlIs, _, paramsIs, bodyIs⟩ := payload_fields stores
  obtain ⟨dump, dumps, _⟩ := Option.map_eq_some_iff.mp hashes
  have restored : PyValue.dict (Request.fromStorage payload).params = loads payload.params :=
    (loads_eq_dict_entriesOr paramsIs).symm
  have encodes : encode? none request.identity = some (.obj [
      (toUnits (PyStr.ofString "method"), .str (toUnits request.method.upper)),
      (toUnits (PyStr.ofString "url"), .str (toUnits request.url)),
      (toUnits (PyStr.ofString "params"), payload.params),
      (toUnits (PyStr.ofString "body"), payload.body)]) := by
    unfold Request.identity
    generalize PyValue.dict request.params = params at paramsIs
    simp [encode?, encodeEntries?, paramsIs, bodyIs, orderFields?, coerceFields?, PyKey.coerce?,
      unitField]
  obtain ⟨redump, redumps⟩ := Option.isSome_iff_exists.mp (encode?_loads_isSome (some order) _)
  refine ⟨⟨_, _, dump, redump, encodes, dumps, redumps⟩, rfl, ?_⟩
  rw [← redumps, loads, loadsFields_of_nodup]
  · have names : ∀ name ∈ (["method", "url", "params", "body"] : List PyStr),
        ofUnits (toUnits name) = name := by decide +kernel
    simp only [List.forall_mem_cons] at names
    rw [Request.identity, restored]
    simp only [List.map_cons, List.map_nil, strField, readField, names, encode?, encodeEntries?,
      loads, Request.fromStorage, methodIs, urlIs, toUnits_ofUnits, ofUnits_toUnits method]
  · have distinct : ((["method", "url", "params", "body"] : List PyStr).map toUnits).Nodup := by
      decide +kernel
    exact distinct

/-- A stored request is rebuilt under its own key exactly when the keys of its
parameters and body are spelled in their own order. -/
theorem key_restored_iff
    (hashes : request.idempotencyKey? python = some key)
    (stores : request.payload? = some payload)
    (method : Unpaired request.method) :
    (Request.fromStorage payload).idempotencyKey? python = some key ↔
      (PyValue.dict request.params).ordered python.order = true ∧
        request.body.ordered python.order = true := by
  have fits : request.identity.fits python python.recursionLimit = true := by
    unfold Request.idempotencyKey? stableDump? at hashes
    by_contra exceeds
    rw [if_neg exceeds] at hashes
    cases hashes
  have hashed := Request.hashText?_of_idempotencyKey? hashes
  obtain ⟨row, isIdentity, redumps⟩ := exists_identity_row hashed stores method
  have isKey : key = render row.dump := by
    rw [Request.hashText?, canonicalText?, ← isIdentity, row.dumps] at hashed
    exact (Option.some.inj hashed).symm
  rw [Request.idempotencyKey?, stableDump?, if_pos (fits_identity_fromStorage stores fits),
    canonicalText?, redumps, Option.map_some, Option.some.injEq, isKey, ← Bool.and_eq_true,
    ← ordered_identity, ← isIdentity]
  obtain ⟨restores, detects⟩ := faithful python.order row.value row rfl
  constructor
  · exact fun equal => detects equal.symm
  · intro ordered
    rw [(restores ordered).dump]

/-- Ordered keys bring a value back with its document, and its strings as they
are read again. -/
theorem restored_of_ordered
    {value : PyValue}
    {document : Json}
    (ordered : value.ordered order = true)
    (encodes : encode? none value = some document)
    (dumps : (encode? (some order) value).isSome) :
    encode? none (loads document) = some document ∧
      (loads document).texts = value.texts.map PyStr.reread := by
  obtain ⟨dump, dumps⟩ := Option.isSome_iff_exists.mp dumps
  obtain ⟨redump, redumps⟩ :=
    Option.isSome_iff_exists.mp (encode?_loads_isSome (some order) document)
  have restored := (faithful order value
    ⟨value, document, dump, redump, encodes, dumps, redumps⟩ rfl).1 ordered
  exact ⟨restored.document, restored.texts⟩

/-- What can be hashed can be dumped in its parts. -/
theorem parts_dump (hashes : request.hashText? order = some key) :
    (encode? (some order) (.dict request.params)).isSome ∧
      (encode? (some order) request.body).isSome := by
  obtain ⟨dump, dumps, _⟩ := Option.map_eq_some_iff.mp hashes
  unfold Request.identity at dumps
  generalize PyValue.dict request.params = params at dumps ⊢
  simp only [encode?, encodeEntries?, Option.bind_eq_bind, Option.bind_some,
    Option.bind_eq_some_iff] at dumps
  obtain ⟨_, ⟨_, ⟨_, ⟨paramsDump, paramsIs, _, ⟨bodyDump, bodyIs, _⟩, _⟩, _⟩, _⟩, _⟩ := dumps
  simp [paramsIs, bodyIs]

/-! ## Strings that come back -/

mutual

/-- The strings of a value that comes out of json have no surrogate pairs. -/
theorem unpaired_texts : ∀ value : PyValue, value.isJson = true →
    ∀ text ∈ value.texts, Unpaired text
  | .none, _ | .bool _, _ | .int _, _ | .float _, _ => by simp [PyValue.texts]
  | .str text, json => by simpa [PyValue.isJson, PyValue.texts] using json
  | .list items, json => by
      rw [PyValue.texts]
      exact unpaired_textsOfItems items (by rwa [PyValue.isJson] at json)
  | .dict entries, json => by
      rw [PyValue.texts]
      exact unpaired_textsOfEntries entries [] (by rwa [PyValue.isJson] at json)
  | .tuple _, json | .bytes _, json | .other _, json => by simp [PyValue.isJson] at json

theorem unpaired_textsOfItems : ∀ items : List PyValue, isJsonItems items = true →
    ∀ text ∈ textsOfItems items, Unpaired text
  | [], _ => by simp [textsOfItems]
  | item :: items, json => by
      rw [isJsonItems, Bool.and_eq_true] at json
      intro text member
      rw [textsOfItems] at member
      rcases List.mem_append.mp member with member | member
      · exact unpaired_texts item json.1 text member
      · exact unpaired_textsOfItems items json.2 text member

theorem unpaired_textsOfEntries :
    ∀ (entries : PyDict) (seen : List PyStr), isJsonEntries seen entries = true →
      ∀ text ∈ textsOfEntries entries, Unpaired text
  | [], _, _ => by simp [textsOfEntries]
  | (.str name, value) :: entries, seen, json => by
      simp only [isJsonEntries, Bool.and_eq_true, decide_eq_true_eq] at json
      obtain ⟨⟨⟨_, unpaired⟩, valueJson⟩, restJson⟩ := json
      intro text member
      rw [textsOfEntries] at member
      rcases List.mem_append.mp member with member | member
      · rcases List.mem_append.mp member with member | member
        · obtain rfl : text = name := by simpa [PyKey.coerce?] using member
          exact unpaired
        · exact unpaired_texts value valueJson text member
      · exact unpaired_textsOfEntries entries _ restJson text member
  | (.int _, _) :: _, _, json | (.float _, _) :: _, _, json | (.bool _, _) :: _, _, json
  | (.none, _) :: _, _, json | (.other _, _) :: _, _, json => by
      simp [isJsonEntries] at json

end

/-- Strings that are read again as they were have no surrogate pairs. -/
theorem map_reread_eq_iff {texts : List PyStr} :
    texts.map PyStr.reread = texts ↔ ∀ text ∈ texts, Unpaired text := by
  constructor
  · intro same text member
    obtain ⟨source, _, rfl⟩ := List.mem_map.mp (same ▸ member)
    exact unpaired_ofUnits _
  · intro unpaired
    rw [List.map_congr_left fun text member => PyStr.reread_eq_iff.mpr (unpaired text member),
      List.map_id']

theorem isJsonEntries_of_text
    {entries : PyDict}
    {seen : List PyStr}
    (distinct : (entries.map Prod.fst).Nodup)
    (apart : ∀ entry ∈ entries, ∀ name ∈ seen, entry.1 ≠ .str name)
    (text : ∀ entry ∈ entries, ∃ name text, entry = (.str name, .str text))
    (unpaired : ∀ text ∈ textsOfEntries entries, Unpaired text) :
    isJsonEntries seen entries = true := by
  induction entries generalizing seen with
  | nil => rfl
  | cons entry entries inductionHypothesis =>
      obtain ⟨name, value, rfl⟩ := text _ List.mem_cons_self
      obtain ⟨fresh, distinct⟩ := List.nodup_cons.mp distinct
      simp only [textsOfEntries, PyKey.coerce?, Option.toList_some, PyValue.texts,
        List.cons_append, List.nil_append, List.forall_mem_cons] at unpaired
      have unseen : name ∉ seen := fun member =>
        apart _ List.mem_cons_self name member rfl
      have rest : isJsonEntries (name :: seen) entries = true := by
        apply inductionHypothesis distinct
        · intro entry member other otherSeen equal
          rcases List.mem_cons.mp otherSeen with rfl | old
          · exact fresh (List.mem_map.mpr ⟨entry, member, equal⟩)
          · exact apart entry (List.mem_cons_of_mem _ member) other old equal
        · exact fun entry member => text entry (List.mem_cons_of_mem _ member)
        · exact unpaired.2.2
      simp [isJsonEntries, unseen, PyValue.isJson, unpaired.1, unpaired.2.1, rest]

/-- Headers from strings to strings are passed on as they are exactly when none of
their strings has a surrogate pair. -/
theorem headers_restored_iff
    (text : request.TextHeaders)
    (stores : request.payload? = some payload) :
    passed (Request.fromStorage payload).headers = passed request.headers ↔
      ∀ text ∈ textsOfEntries request.headers, Unpaired text := by
  obtain ⟨_, _, headersIs, _, _⟩ := payload_fields stores
  have restored : loads payload.headers = .dict (Request.fromStorage payload).headers :=
    loads_eq_dict_entriesOr headersIs
  constructor
  · intro same
    have texts : textsOfEntries (Request.fromStorage payload).headers =
        textsOfEntries request.headers := congrArg Passed.texts same
    rw [← texts]
    have strings := unpaired_texts _ (isJson_loads payload.headers)
    rwa [restored, PyValue.texts] at strings
  · intro unpaired
    have json : (PyValue.dict request.headers).isJson = true := by
      rw [PyValue.isJson]
      exact isJsonEntries_of_text text.1 (by simp) text.2 unpaired
    obtain ⟨document, encodes, decoded⟩ := loads_encode? _ json
    obtain rfl := Option.some.inj (headersIs.symm.trans encodes)
    rw [restored] at decoded
    rw [PyValue.dict.inj decoded]

/-- The body is sent in the same way exactly when it is no tuple, and no string
with a surrogate pair. -/
theorem wireBody_restored_iff
    {body : PyValue}
    {document : Json}
    (encodes : encode? none body = some document)
    (kept : encode? none (loads document) = some document) :
    wireBody (loads document) = wireBody body ↔
      (∀ items, body ≠ .tuple items) ∧ ∀ text ∈ body.sentText, Unpaired text := by
  cases body with
  | none | bool | int | float =>
      simp only [encode?, Option.some.injEq] at encodes
      subst encodes
      simp [loads, wireBody, PyValue.sentText]
  | str text =>
      simp only [encode?, Option.some.injEq] at encodes
      subst encodes
      simp [loads, wireBody, PyValue.sentText, ofUnits_toUnits_eq_iff]
  | bytes | other => simp [encode?] at encodes
  | list items =>
      have whole := encodes
      simp only [encode?, Option.map_eq_some_iff] at encodes
      obtain ⟨documents, _, rfl⟩ := encodes
      simp only [loads, wireBody] at kept ⊢
      simp [kept, whole, PyValue.sentText]
  | tuple items =>
      simp only [encode?, Option.map_eq_some_iff] at encodes
      obtain ⟨documents, _, rfl⟩ := encodes
      simp [loads, wireBody]
  | dict entries =>
      have whole := encodes
      simp only [encode?, Option.bind_eq_bind, Option.bind_eq_some_iff] at encodes
      obtain ⟨_, _, _, _, named, _, equal⟩ := encodes
      obtain rfl := Option.some.inj equal
      simp only [loads, wireBody] at kept ⊢
      simp [kept, whole, PyValue.sentText]

/-- Encoding the values keeps the keys. -/
theorem encodeEntries?_keys
    {sorting : Option KeyOrder}
    {entries : PyDict}
    {fields : List (PyKey × Json)}
    (encodes : encodeEntries? sorting entries = some fields) :
    fields.map Prod.fst = entries.map Prod.fst := by
  induction entries generalizing fields with
  | nil =>
      simp only [encodeEntries?, Option.some.injEq] at encodes
      rw [← encodes]
      rfl
  | cons entry entries inductionHypothesis =>
      obtain ⟨key, value⟩ := entry
      simp only [encodeEntries?, Option.bind_eq_bind, Option.bind_eq_some_iff] at encodes
      obtain ⟨document, _, others, rest, equal⟩ := encodes
      rw [← Option.some.inj equal, List.map_cons, List.map_cons, inductionHypothesis rest]

/-- Fields with string keys are their names with the values. -/
theorem eq_map_strField
    {fields : List (PyKey × α)}
    {named : List (PyStr × α)}
    (spelled : coerceFields? fields = some named)
    (names : ∀ field ∈ fields, ∃ name, field.1 = .str name) :
    fields = named.map strField := by
  induction fields generalizing named with
  | nil =>
      simp only [coerceFields?, Option.some.injEq] at spelled
      rw [← spelled]
      rfl
  | cons field fields inductionHypothesis =>
      obtain ⟨key, value⟩ := field
      obtain ⟨name, isName⟩ := names _ List.mem_cons_self
      obtain rfl : key = .str name := isName
      simp only [coerceFields?, Option.bind_eq_bind, PyKey.coerce?, Option.bind_some,
        Option.bind_eq_some_iff] at spelled
      obtain ⟨others, rest, equal⟩ := spelled
      rw [← Option.some.inj equal, List.map_cons,
        inductionHypothesis rest fun other member => names other (List.mem_cons_of_mem _ member)]
      rfl

/-- The names of keys are among the strings of a dictionary. -/
theorem mem_textsOfEntries_of_key
    {entries : PyDict}
    {name : PyStr}
    (member : PyKey.str name ∈ entries.map Prod.fst) :
    name ∈ textsOfEntries entries := by
  induction entries with
  | nil => cases member
  | cons entry entries inductionHypothesis =>
      obtain ⟨key, value⟩ := entry
      rw [textsOfEntries, List.append_assoc]
      rcases List.mem_cons.mp member with same | member
      · have isKey : key = .str name := same.symm
        simp [isKey, PyKey.coerce?]
      · exact List.mem_append_right _ (List.mem_append_right _ (inductionHypothesis member))

/-- Fields with names that have no surrogate pairs are told apart in UTF-16. -/
theorem eq_of_map_unitField_eq
    {fields others : List (PyStr × α)}
    (unpaired : ∀ name ∈ fields.map Prod.fst, Unpaired name)
    (otherUnpaired : ∀ name ∈ others.map Prod.fst, Unpaired name)
    (same : fields.map unitField = others.map unitField) :
    fields = others := by
  induction fields generalizing others with
  | nil => exact (List.map_eq_nil_iff.mp same.symm).symm
  | cons field fields inductionHypothesis =>
      obtain ⟨other, rest, rfl, isField, isRest⟩ := List.map_eq_cons_iff.mp same.symm
      obtain ⟨head, tail⟩ := List.forall_mem_cons.mp unpaired
      obtain ⟨otherHead, otherTail⟩ := List.forall_mem_cons.mp otherUnpaired
      obtain ⟨sameName, sameValue⟩ := Prod.mk.inj isField
      rw [Prod.ext ((toUnits_inj head otherHead).mp sameName.symm) sameValue.symm,
        inductionHypothesis tail otherTail isRest.symm]

/-- Parameters are passed on as they are exactly when strings without surrogate
pairs name them and are in them. -/
theorem params_restored_iff
    {entries restored : PyDict}
    {document : Json}
    (encodes : encode? none (.dict entries) = some document)
    (kept : encode? none (loads document) = some document)
    (reread : (loads document).texts = (PyValue.dict entries).texts.map PyStr.reread)
    (isRestored : loads document = .dict restored) :
    passed restored = passed entries ↔
      (∀ entry ∈ entries, ∃ name, entry.1 = .str name) ∧
        ∀ text ∈ textsOfEntries entries, Unpaired text := by
  rw [isRestored] at kept reread
  rw [PyValue.texts, PyValue.texts] at reread
  rw [encode?] at encodes kept
  simp only [Option.bind_eq_bind, Option.bind_eq_some_iff] at encodes kept
  obtain ⟨fields, encoded, ordered, unsorted, named, spelled, equal⟩ := encodes
  obtain rfl : fields = ordered := Option.some.inj unsorted
  obtain rfl := Option.some.inj equal
  obtain ⟨others, otherEncoded, ordered, unsorted, renamed, otherSpelled, equal⟩ := kept
  obtain rfl : others = ordered := Option.some.inj unsorted
  have sameUnits : renamed.map unitField = named.map unitField := by
    simpa using Option.some.inj equal
  obtain ⟨decoded, isDecoded, _, unpaired⟩ := loadsFields_distinct (named.map unitField)
  have restoredIs : restored = decoded.map strField := by
    rw [loads, isDecoded] at isRestored
    exact (PyValue.dict.inj isRestored).symm
  rw [restoredIs] at otherEncoded
  obtain ⟨documents, rfl, documentNames⟩ := encodeEntries?_strField otherEncoded
  obtain rfl : documents = renamed := by
    rw [coerceFields?_strField] at otherSpelled
    exact Option.some.inj otherSpelled
  have keys := encodeEntries?_keys encoded
  rw [passed, passed, Passed.mk.injEq, reread, map_reread_eq_iff, restoredIs, otherEncoded,
    encoded, Option.some.injEq]
  constructor
  · rintro ⟨same, texts⟩
    refine ⟨fun entry member => ?_, texts⟩
    have inFields : entry.1 ∈ fields.map Prod.fst := keys ▸ List.mem_map_of_mem member
    rw [← same, List.map_map] at inFields
    obtain ⟨field, _, isKey⟩ := List.mem_map.mp inFields
    exact ⟨field.1, isKey.symm⟩
  · rintro ⟨names, texts⟩
    refine ⟨?_, texts⟩
    have strings : fields = named.map strField := by
      apply eq_map_strField spelled
      intro field member
      have inEntries : field.1 ∈ entries.map Prod.fst := keys ▸ List.mem_map_of_mem member
      obtain ⟨entry, member, isKey⟩ := List.mem_map.mp inEntries
      exact isKey ▸ names entry member
    rw [strings]
    congr 1
    apply eq_of_map_unitField_eq _ _ sameUnits
    · rwa [documentNames]
    · intro name member
      apply texts
      apply mem_textsOfEntries_of_key
      rw [← keys, strings, map_fst_strField]
      exact List.mem_map_of_mem member

/-- What is sent of a request, string by string. -/
theorem unpaired_sentTexts_iff :
    (∀ text ∈ request.sentTexts, Unpaired text) ↔
      Unpaired request.method ∧ Unpaired request.url ∧
        (∀ text ∈ textsOfEntries request.headers, Unpaired text) ∧
        (∀ text ∈ textsOfEntries request.params, Unpaired text) ∧
        ∀ text ∈ request.body.sentText, Unpaired text := by
  simp only [Request.sentTexts, List.cons_append, List.forall_mem_cons, List.forall_mem_append,
    and_assoc]

/-- With keys in their own order, a rebuilt request is sent as the original one
exactly when its parameters are named by strings, its body is no tuple, and what
is sent as it is has no surrogate pairs. -/
theorem wireForm_restored_iff
    (stores : request.payload? = some payload)
    (dumps : (encode? (some order) (.dict request.params)).isSome ∧
      (encode? (some order) request.body).isSome)
    (text : request.TextHeaders)
    (paramsOrdered : (PyValue.dict request.params).ordered order = true)
    (bodyOrdered : request.body.ordered order = true) :
    (Request.fromStorage payload).wireForm = request.wireForm ↔
      (∀ entry ∈ request.params, ∃ name, entry.1 = .str name) ∧
        (∀ items, request.body ≠ .tuple items) ∧ ∀ text ∈ request.sentTexts, Unpaired text := by
  obtain ⟨methodIs, urlIs, _, paramsIs, bodyIs⟩ := payload_fields stores
  obtain ⟨paramsKept, paramsReread⟩ := restored_of_ordered paramsOrdered paramsIs dumps.1
  obtain ⟨bodyKept, _⟩ := restored_of_ordered bodyOrdered bodyIs dumps.2
  have params : passed (Request.fromStorage payload).params = passed request.params ↔ _ :=
    params_restored_iff paramsIs paramsKept paramsReread (loads_eq_dict_entriesOr paramsIs)
  have body : wireBody (Request.fromStorage payload).body = wireBody request.body ↔ _ :=
    wireBody_restored_iff bodyIs bodyKept
  have headers := headers_restored_iff text stores
  have method : (Request.fromStorage payload).method = request.method ↔
      Unpaired request.method := by
    rw [Request.fromStorage, methodIs]
    exact ofUnits_toUnits_eq_iff
  have url : (Request.fromStorage payload).url = request.url ↔ Unpaired request.url := by
    rw [Request.fromStorage, urlIs]
    exact ofUnits_toUnits_eq_iff
  rw [Request.wireForm, Request.wireForm, WireForm.mk.injEq, unpaired_sentTexts_iff, method, url,
    params, headers, body]
  constructor
  · rintro ⟨method, url, ⟨names, paramTexts⟩, headerTexts, notTuple, bodyTexts⟩
    exact ⟨names, notTuple, method, url, headerTexts, paramTexts, bodyTexts⟩
  · rintro ⟨names, notTuple, method, url, headerTexts, paramTexts, bodyTexts⟩
    exact ⟨method, url, ⟨names, paramTexts⟩, headerTexts, notTuple, bodyTexts⟩

/-- A stored request is rebuilt under its own key and sent as the original one
if and only if the keys of its parameters and body are spelled in their own
order, its parameters are named by strings, its body is no tuple, and none of the
strings that are sent as they are has a surrogate pair. -/
theorem survives_storage_iff
    (python : Interpreter)
    (request : Request)
    (key : Key)
    (payload : Payload)
    (hashes : request.idempotencyKey? python = some key)
    (stores : request.toStorage? python = some payload)
    (text : request.TextHeaders) :
    request.SurvivesStorage python key payload ↔ request.PlainlyKeyed python.order := by
  have stored := Request.payload?_of_toStorage? stores
  have dumps := parts_dump (Request.hashText?_of_idempotencyKey? hashes)
  obtain ⟨methodIs, _⟩ := payload_fields stored
  constructor
  · rintro ⟨sameKey, sameWire⟩
    have method : Unpaired request.method := by
      rw [← ofUnits_toUnits_eq_iff, ← methodIs]
      exact congrArg WireForm.method sameWire
    obtain ⟨paramsOrdered, bodyOrdered⟩ := (key_restored_iff hashes stored method).mp sameKey
    obtain ⟨names, notTuple, texts⟩ :=
      (wireForm_restored_iff stored dumps text paramsOrdered bodyOrdered).mp sameWire
    exact ⟨paramsOrdered, bodyOrdered, names, notTuple, texts⟩
  · rintro ⟨paramsOrdered, bodyOrdered, names, notTuple, texts⟩
    have method : Unpaired request.method := texts _ List.mem_cons_self
    exact ⟨(key_restored_iff hashes stored method).mpr ⟨paramsOrdered, bodyOrdered⟩,
      (wireForm_restored_iff stored dumps text paramsOrdered bodyOrdered).mpr
        ⟨names, notTuple, texts⟩⟩

/-- A POST request with a given body. -/
def postRequest (body : PyValue) : Request where
  method := "POST"
  url := "http://example.org/"
  body := body

/-- A dictionary with the integer keys nine and ten. -/
def numberedBody : PyValue := .dict [(.int 9, .str "nine"), (.int 10, .str "ten")]

/-- The two surrogates that json writes for U+1F600, as two code points. -/
def pairedText : PyStr := [⟨0xD83D, by omega⟩, ⟨0xDE00, by omega⟩]

/-- U+1F600. -/
def joinedText : PyStr := [⟨0x1F600, by omega⟩]

/-- The request has a key and a payload, and does not survive storage. -/
def Request.LostInStorage (python : Interpreter) (request : Request) : Prop :=
  ∃ key payload, request.idempotencyKey? python = some key ∧
    request.toStorage? python = some payload ∧ request.TextHeaders ∧
    ¬ request.SurvivesStorage python key payload

theorem textHeaders_postRequest (body : PyValue) : (postRequest body).TextHeaders :=
  ⟨List.nodup_nil, fun _ absent => absurd absent List.not_mem_nil⟩

/-- A request that is hashed and persisted is lost when no key and payload of it
can be restored. -/
theorem Request.LostInStorage.of_restored
    {body : PyValue}
    (hashes : ((postRequest body).idempotencyKey? {}).isSome = true)
    (stores : ((postRequest body).toStorage? {}).isSome = true)
    (lost : ∀ key payload, (postRequest body).idempotencyKey? {} = some key →
      (postRequest body).payload? = some payload →
        ¬ (postRequest body).SurvivesStorage {} key payload) :
    (postRequest body).LostInStorage {} := by
  obtain ⟨key, hashes⟩ := Option.isSome_iff_exists.mp hashes
  obtain ⟨payload, stores⟩ := Option.isSome_iff_exists.mp stores
  exact ⟨key, payload, hashes, stores, textHeaders_postRequest body,
    lost key payload hashes (Request.payload?_of_toStorage? stores)⟩

/-- Nine comes before ten and `"10"` before `"9"`, so a stored request with
these keys is rebuilt under another key; a tuple, which is not sent at all, is
sent as a JSON body after it was rebuilt; and two surrogates are sent as one code
point. -/
theorem not_survives_storage :
    (postRequest numberedBody).LostInStorage {} ∧
      (postRequest (.tuple [.int 1])).LostInStorage {} ∧
      (postRequest (.str pairedText)).LostInStorage {} := by
  refine ⟨?_, ?_, ?_⟩
  · apply Request.LostInStorage.of_restored (by decide +kernel) (by decide +kernel)
    rintro key payload hashes stores ⟨sameKey, _⟩
    have method : Unpaired (postRequest numberedBody).method := by decide +kernel
    have ordered := ((key_restored_iff hashes stores method).mp sameKey).2
    revert ordered
    decide +kernel
  · apply Request.LostInStorage.of_restored (by decide +kernel) (by decide +kernel)
    rintro key payload _ stores ⟨_, sameWire⟩
    have bodies : wireBody (loads payload.body) = wireBody (.tuple [.int 1]) :=
      congrArg WireForm.body sameWire
    obtain ⟨_, _, _, _, bodyIs⟩ := payload_fields stores
    have isArray : payload.body = .arr [.int 1] := (Option.some.inj bodyIs).symm
    simp [isArray, loads, wireBody] at bodies
  · apply Request.LostInStorage.of_restored (by decide +kernel) (by decide +kernel)
    rintro key payload _ stores ⟨_, sameWire⟩
    have bodies : wireBody (loads payload.body) = wireBody (.str pairedText) :=
      congrArg WireForm.body sameWire
    obtain ⟨_, _, _, _, bodyIs⟩ := payload_fields stores
    have isText : payload.body = .str (toUnits pairedText) := (Option.some.inj bodyIs).symm
    have paired : ¬ Unpaired pairedText := by decide +kernel
    simp [isText, loads, wireBody, ofUnits_toUnits_eq_iff, paired] at bodies

/-- A nested body with string keys in any order, and integer keys in the order
of their names. -/
def nestedBody : PyValue :=
  .dict [(.str "b", .list [.tuple [.int 1], .none]), (.str "a", .dict [(.int 7, .str "x")])]

theorem survives_storage_nested :
    ∃ key payload, (postRequest nestedBody).SurvivesStorage {} key payload := by
  have hashes : ((postRequest nestedBody).idempotencyKey? {}).isSome = true := by decide +kernel
  have stores : ((postRequest nestedBody).toStorage? {}).isSome = true := by decide +kernel
  obtain ⟨key, hashes⟩ := Option.isSome_iff_exists.mp hashes
  obtain ⟨payload, stores⟩ := Option.isSome_iff_exists.mp stores
  have keyed : (postRequest nestedBody).PlainlyKeyed .insertion := by
    refine ⟨by decide +kernel, by decide +kernel, ?_, ?_, by decide +kernel⟩
    · exact fun _ absent => absurd absent List.not_mem_nil
    · intro items same
      cases same
  exact ⟨key, payload, (survives_storage_iff {} _ key payload hashes stores
    (textHeaders_postRequest nestedBody)).mpr keyed⟩

end HardenedClient
