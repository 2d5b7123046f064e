import HardenedClient.FieldOrder
import HardenedClient.Models
import Mathlib.Data.List.Basic

/-!
# Persisting a request

A string-keyed JSON value survives `json.dumps` followed by `json.loads`, so a
request with such parameters and body is rebuilt from storage under the same
idempotency key. A value that comes out of `json.loads` has string keys only,
so the canonical dump of a rebuilt request never fails.
-/

namespace HardenedClient

open Foundation

/-! ## Values decoded from a document -/

/-- Entries with string keys whose values json can encode. -/
def Dumpable (sorting : Option KeyOrder) (entries : PyDict) : Prop :=
  ∀ entry ∈ entries, (∃ name, entry.1 = .str name) ∧ (encode? sorting entry.2).isSome

theorem Dumpable.insertEntry
    {entries : PyDict}
    (dumpable : Dumpable sorting entries)
    (name : PyStr)
    {value : PyValue}
    (encodes : (encode? sorting value).isSome) :
    Dumpable sorting (insertEntry name value entries) := by
  induction entries with
  | nil =>
      intro entry present
      obtain rfl : entry = (.str name, value) := by
        simpa [HardenedClient.insertEntry] using present
      exact ⟨⟨name, rfl⟩, encodes⟩
  | cons head rest inductionHypothesis =>
      obtain ⟨key, current⟩ := head
      have restDumpable : Dumpable sorting rest := fun entry present =>
        dumpable entry (List.mem_cons_of_mem _ present)
      have headDumpable := dumpable (key, current) List.mem_cons_self
      intro entry present
      simp only [HardenedClient.insertEntry] at present
      split at present
      · rcases List.mem_cons.mp present with equal | inRest
        · subst equal
          exact ⟨headDumpable.1, encodes⟩
        · exact restDumpable entry inRest
      · rcases List.mem_cons.mp present with equal | inRest
        · subst equal
          exact headDumpable
        · exact inductionHypothesis restDumpable entry inRest

theorem coerceFields?_isSome
    {fields : List (PyKey × α)}
    (fieldsStr : ∀ field ∈ fields, ∃ name, field.1 = .str name) :
    (coerceFields? fields).isSome := by
  induction fields with
  | nil => rfl
  | cons head rest inductionHypothesis =>
      obtain ⟨key, value⟩ := head
      obtain ⟨name, rfl⟩ : ∃ name, key = .str name :=
        fieldsStr (key, value) List.mem_cons_self
      obtain ⟨others, coerced⟩ := Option.isSome_iff_exists.mp
        (inductionHypothesis fun field present =>
          fieldsStr field (List.mem_cons_of_mem _ present))
      simp [coerceFields?, PyKey.coerce?, coerced]

theorem encodeEntries?_of_dumpable
    {entries : PyDict}
    (dumpable : Dumpable sorting entries) :
    ∃ fields, encodeEntries? sorting entries = some fields ∧
      ∀ field ∈ fields, ∃ name, field.1 = .str name := by
  induction entries with
  | nil => exact ⟨[], by simp [encodeEntries?], by simp⟩
  | cons head rest inductionHypothesis =>
      obtain ⟨key, value⟩ := head
      obtain ⟨keyStr, encodes⟩ := dumpable (key, value) List.mem_cons_self
      obtain ⟨document, encoded⟩ := Option.isSome_iff_exists.mp encodes
      obtain ⟨fields, fieldsEncoded, fieldsStr⟩ := inductionHypothesis
        fun entry present => dumpable entry (List.mem_cons_of_mem _ present)
      refine ⟨(key, document) :: fields,
        by simp [encodeEntries?, encoded, fieldsEncoded], ?_⟩
      intro field present
      rcases List.mem_cons.mp present with equal | inRest
      · exact equal ▸ keyStr
      · exact fieldsStr field inRest

/-- Json can encode a dictionary with dumpable entries. -/
theorem encode?_dict_isSome
    {entries : PyDict}
    (dumpable : Dumpable sorting entries) :
    (encode? sorting (.dict entries)).isSome := by
  obtain ⟨fields, encoded, fieldsStr⟩ := encodeEntries?_of_dumpable dumpable
  have keysStr : ∀ key ∈ fields.map Prod.fst, ∃ name, key = PyKey.str name := by
    intro key present
    obtain ⟨field, inFields, rfl⟩ := List.mem_map.mp present
    exact fieldsStr field inFields
  cases sorting with
  | some order =>
      have arrangedStr : ∀ field ∈ order.arrange fields, ∃ name, field.1 = .str name :=
        fun field member => fieldsStr field ((order.arrange_perm fields).mem_iff.mp member)
      obtain ⟨named, coerced⟩ := Option.isSome_iff_exists.mp (coerceFields?_isSome arrangedStr)
      simp [encode?, encoded, orderFields?, sortable_of_keys_str keysStr, coerced]
  | none =>
      obtain ⟨named, coerced⟩ := Option.isSome_iff_exists.mp
        (coerceFields?_isSome fieldsStr)
      simp [encode?, encoded, orderFields?, coerced]

mutual

/-- Json can encode a decoded document, in either form. -/
theorem encode?_loads_isSome (sorting : Option KeyOrder) :
    ∀ document : Json, (encode? sorting (loads document)).isSome
  | .null | .bool _ | .int _ | .float _ | .str _ => by simp [loads, encode?]
  | .arr items => by
      obtain ⟨documents, encoded⟩ := Option.isSome_iff_exists.mp
        (encodeItems?_loadsItems_isSome sorting items)
      simp [loads, encode?, encoded]
  | .obj fields => by
      rw [loads]
      exact encode?_dict_isSome
        (dumpable_loadsFields sorting fields [] (by simp [Dumpable]))

theorem encodeItems?_loadsItems_isSome (sorting : Option KeyOrder) :
    ∀ items : List Json, (encodeItems? sorting (loadsItems items)).isSome
  | [] => by simp [loadsItems, encodeItems?]
  | item :: items => by
      obtain ⟨document, encoded⟩ := Option.isSome_iff_exists.mp
        (encode?_loads_isSome sorting item)
      obtain ⟨documents, others⟩ := Option.isSome_iff_exists.mp
        (encodeItems?_loadsItems_isSome sorting items)
      simp [loadsItems, encodeItems?, encoded, others]

theorem dumpable_loadsFields (sorting : Option KeyOrder) :
    ∀ (fields : List (JsonText × Json)) (entries : PyDict),
      Dumpable sorting entries → Dumpable sorting (loadsFields entries fields)
  | [], entries, dumpable => by simpa [loadsFields] using dumpable
  | (name, value) :: fields, entries, dumpable => by
      rw [loadsFields]
      exact dumpable_loadsFields sorting fields _
        (dumpable.insertEntry _ (encode?_loads_isSome sorting value))

end

/-- The entries of a decoded document are dumpable. -/
theorem dumpable_entriesOr (sorting : Option KeyOrder) (document : Json) :
    Dumpable sorting (loads document).entriesOr := by
  cases document with
  | obj fields =>
      simpa [loads, PyValue.entriesOr] using
        dumpable_loadsFields sorting fields [] (by simp [Dumpable])
  | _ => simp [loads, PyValue.entriesOr, Dumpable]

/-- A request rebuilt from storage can be hashed. -/
theorem hashText?_fromStorage_isSome (order : KeyOrder) (payload : Payload) :
    ((Request.fromStorage payload).hashText? order).isSome := by
  unfold Request.hashText? canonicalText?
  rw [Option.isSome_map]
  apply encode?_dict_isSome
  intro entry present
  simp only [List.mem_cons, List.not_mem_nil, or_false] at present
  rcases present with rfl | rfl | rfl | rfl
  · exact ⟨⟨_, rfl⟩, by simp [encode?]⟩
  · exact ⟨⟨_, rfl⟩, by simp [encode?]⟩
  · exact ⟨⟨_, rfl⟩, encode?_dict_isSome (dumpable_entriesOr _ payload.params)⟩
  · exact ⟨⟨_, rfl⟩, encode?_loads_isSome _ payload.body⟩

/-- A request rebuilt from storage can be persisted again. -/
theorem payload?_fromStorage_isSome (payload : Payload) :
    (Request.fromStorage payload).payload?.isSome := by
  obtain ⟨headers, headersEncoded⟩ := Option.isSome_iff_exists.mp
    (encode?_dict_isSome (dumpable_entriesOr none payload.headers))
  obtain ⟨params, paramsEncoded⟩ := Option.isSome_iff_exists.mp
    (encode?_dict_isSome (dumpable_entriesOr none payload.params))
  obtain ⟨body, bodyEncoded⟩ := Option.isSome_iff_exists.mp
    (encode?_loads_isSome none payload.body)
  simp [Request.payload?, Request.fromStorage, headersEncoded, paramsEncoded, bodyEncoded]

/-- The request a payload decodes to. Its keys are strings, which every order
leaves alike. -/
def Payload.request (payload : Payload) : DurableRequest where
  request := Request.fromStorage payload
  key := ((Request.fromStorage payload).hashText? .insertion).get
    (hashText?_fromStorage_isSome _ payload)
  payload := (Request.fromStorage payload).payload?.get (payload?_fromStorage_isSome payload)
  hashes := ⟨.insertion, (Option.some_get _).symm⟩
  stores := (Option.some_get _).symm

/-! ## String-keyed JSON values -/

/-- A new name is inserted at the end. -/
theorem insertEntry_of_new
    {name : PyStr}
    {value : PyValue}
    {entries : PyDict}
    (new : ∀ entry ∈ entries, entry.1 ≠ .str name) :
    insertEntry name value entries = entries ++ [(.str name, value)] := by
  induction entries with
  | nil => rfl
  | cons head tail inductionHypothesis =>
      have different : head.1 ≠ .str name := new head List.mem_cons_self
      simp only [insertEntry, if_neg different, List.cons_append]
      rw [inductionHypothesis fun entry member => new entry (List.mem_cons_of_mem _ member)]

mutual

/-- A string-keyed JSON value is encoded, and decodes to itself. -/
theorem loads_encode? :
    ∀ value : PyValue, value.isJson = true →
      ∃ document, encode? none value = some document ∧ loads document = value
  | .none, _ | .bool _, _ | .int _, _ | .float _, _ => by
      simp [encode?, loads]
  | .str text, json => by
      have unpaired : Unpaired text := by simpa [PyValue.isJson] using json
      simp [encode?, loads, ofUnits_toUnits unpaired]
  | .list items, json => by
      obtain ⟨documents, encoded, decoded⟩ := loadsItems_encodeItems? items
        (by simpa [PyValue.isJson] using json)
      exact ⟨.arr documents, by simp [encode?, encoded], by simp [loads, decoded]⟩
  | .dict entries, json => by
      obtain ⟨fields, named, encoded, coerced, decoded⟩ :=
        loadsFields_encodeEntries? entries []
          (by simpa [PyValue.isJson] using json)
      refine ⟨.obj (named.map unitField), ?_, ?_⟩
      · simp [encode?, encoded, orderFields?, coerced]
      · simpa [loads] using decoded [] (by simp)
  | .tuple _, json | .bytes _, json | .other _, json => by
      simp [PyValue.isJson] at json

theorem loadsItems_encodeItems? :
    ∀ items : List PyValue, isJsonItems items = true →
      ∃ documents, encodeItems? none items = some documents ∧
        loadsItems documents = items
  | [], _ => ⟨[], by simp [encodeItems?], by simp [loadsItems]⟩
  | item :: items, json => by
      simp only [isJsonItems, Bool.and_eq_true] at json
      obtain ⟨document, encoded, decoded⟩ := loads_encode? item json.1
      obtain ⟨documents, others, rest⟩ := loadsItems_encodeItems? items json.2
      exact ⟨document :: documents, by simp [encodeItems?, encoded, others],
        by simp [loadsItems, decoded, rest]⟩

/-- Entries with distinct string keys outside `seen` are encoded, and decoding
appends them to any dictionary over the keys in `seen`. -/
theorem loadsFields_encodeEntries? :
    ∀ (entries : PyDict) (seen : List PyStr), isJsonEntries seen entries = true →
      ∃ fields named, encodeEntries? none entries = some fields ∧
        coerceFields? fields = some named ∧
        ∀ before : PyDict,
          (∀ entry ∈ before, ∃ name ∈ seen, entry.1 = .str name) →
          loadsFields before (named.map unitField) = before ++ entries
  | [], seen, _ =>
      ⟨[], [], by simp [encodeEntries?], by simp [coerceFields?], by simp [loadsFields]⟩
  | (.str name, value) :: entries, seen, json => by
      simp only [isJsonEntries, Bool.and_eq_true, decide_eq_true_eq] at json
      obtain ⟨⟨⟨unseen, unpaired⟩, valueJson⟩, restJson⟩ := json
      obtain ⟨document, encoded, decoded⟩ := loads_encode? value valueJson
      obtain ⟨fields, named, others, coerced, rest⟩ :=
        loadsFields_encodeEntries? entries (name :: seen) restJson
      refine ⟨(.str name, document) :: fields, (name, document) :: named,
        by simp [encodeEntries?, encoded, others],
        by simp [coerceFields?, PyKey.coerce?, coerced], ?_⟩
      intro before beforeSeen
      have appended : insertEntry name value before = before ++ [(.str name, value)] := by
        apply insertEntry_of_new
        intro entry member equal
        obtain ⟨other, otherSeen, keyEq⟩ := beforeSeen entry member
        obtain rfl : other = name := PyKey.str.inj (keyEq.symm.trans equal)
        exact unseen otherSeen
      rw [List.map_cons, unitField, loadsFields, ofUnits_toUnits unpaired, decoded, appended,
        rest]
      · simp
      · intro entry present
        rcases List.mem_append.mp present with inBefore | isNew
        · obtain ⟨other, otherSeen, keyEq⟩ := beforeSeen entry inBefore
          exact ⟨other, List.mem_cons_of_mem _ otherSeen, keyEq⟩
        · obtain rfl : entry = (.str name, value) := by simpa using isNew
          exact ⟨name, List.mem_cons_self, rfl⟩
  | (.int _, _) :: _, _, json | (.float _, _) :: _, _, json | (.bool _, _) :: _, _, json
  | (.none, _) :: _, _, json | (.other _, _) :: _, _, json => by
      simp [isJsonEntries] at json

end

/-- Persisting a request with string-keyed JSON parameters and body keeps the text that
is hashed: method, parameters and body come back, and the URL is spelled as before. -/
theorem hashText?_of_stored
    {request : Request}
    {payload : Payload}
    (json : request.isJson = true)
    (stored : request.payload? = some payload)
    (order : KeyOrder) :
    (Request.fromStorage payload).hashText? order = request.hashText? order := by
  simp only [Request.isJson, Bool.and_eq_true, decide_eq_true_eq] at json
  obtain ⟨⟨method, params⟩, body⟩ := json
  obtain ⟨paramsDocument, paramsEncoded, paramsDecoded⟩ := loads_encode? _ params
  obtain ⟨bodyDocument, bodyEncoded, bodyDecoded⟩ := loads_encode? _ body
  simp only [Request.payload?, paramsEncoded, bodyEncoded, Option.bind_eq_bind,
    Option.bind_some, Option.bind_eq_some_iff] at stored
  obtain ⟨headers, _, equal⟩ := stored
  obtain rfl := Option.some.inj equal
  simp only [Request.hashText?, canonicalText?, Request.identity, Request.fromStorage,
    paramsDecoded, bodyDecoded, PyValue.entriesOr, ofUnits_toUnits method, encode?,
    encodeEntries?, toUnits_ofUnits]

/-! ## Decoded values -/

/-- Assigning a string-keyed JSON value to a new or an old name keeps entries of
that kind. -/
theorem isJsonEntries_insertEntry
    {name : PyStr}
    {value : PyValue}
    (unpaired : Unpaired name)
    (json : value.isJson = true) :
    ∀ (entries : PyDict) (seen : List PyStr), name ∉ seen →
      isJsonEntries seen entries = true →
        isJsonEntries seen (insertEntry name value entries) = true
  | [], seen, unseen, _ => by simp [insertEntry, isJsonEntries, unseen, unpaired, json]
  | (.str other, current) :: entries, seen, unseen, entriesJson => by
      simp only [isJsonEntries, Bool.and_eq_true, decide_eq_true_eq] at entriesJson
      obtain ⟨⟨⟨otherUnseen, otherUnpaired⟩, currentJson⟩, restJson⟩ := entriesJson
      unfold insertEntry
      split
      · simp [isJsonEntries, otherUnseen, otherUnpaired, json, restJson]
      · next different =>
          have stillUnseen : name ∉ other :: seen := by
            rintro (_ | ⟨_, inSeen⟩)
            · exact different rfl
            · exact unseen inSeen
          have inserted :=
            isJsonEntries_insertEntry unpaired json entries _ stillUnseen restJson
          simp [isJsonEntries, otherUnseen, otherUnpaired, currentJson, inserted]
  | (.int _, _) :: _, _, _, entriesJson | (.float _, _) :: _, _, _, entriesJson
  | (.bool _, _) :: _, _, _, entriesJson | (.none, _) :: _, _, _, entriesJson
  | (.other _, _) :: _, _, _, entriesJson => by
      simp [isJsonEntries] at entriesJson

mutual

/-- A decoded document is a string-keyed JSON value. -/
theorem isJson_loads : ∀ document : Json, (loads document).isJson = true
  | .null | .bool _ | .int _ | .float _ => by simp [loads, PyValue.isJson]
  | .str text => by simpa [loads, PyValue.isJson] using unpaired_ofUnits text
  | .arr items => by simp [loads, PyValue.isJson, isJsonItems_loadsItems items]
  | .obj fields => by
      simp only [loads, PyValue.isJson]
      exact isJsonEntries_loadsFields fields [] (by simp [isJsonEntries])

theorem isJsonItems_loadsItems :
    ∀ items : List Json, isJsonItems (loadsItems items) = true
  | [] => by simp [loadsItems, isJsonItems]
  | item :: items => by
      simp [loadsItems, isJsonItems, isJson_loads item, isJsonItems_loadsItems items]

theorem isJsonEntries_loadsFields :
    ∀ (fields : List (JsonText × Json)) (entries : PyDict),
      isJsonEntries [] entries = true → isJsonEntries [] (loadsFields entries fields) = true
  | [], entries, json => by simpa [loadsFields] using json
  | (name, value) :: fields, entries, json => by
      rw [loadsFields]
      exact isJsonEntries_loadsFields fields _
        (isJsonEntries_insertEntry (unpaired_ofUnits name) (isJson_loads value) entries []
          List.not_mem_nil json)

end

theorem isJson_entriesOr_loads (document : Json) :
    (PyValue.dict (loads document).entriesOr).isJson = true := by
  cases document with
  | obj fields => simpa [loads, PyValue.entriesOr] using isJson_loads (.obj fields)
  | _ => simp [loads, PyValue.entriesOr, PyValue.isJson, isJsonEntries]

/-- A request rebuilt from storage has string-keyed JSON parameters and body. -/
theorem isJson_fromStorage (payload : Payload) :
    (Request.fromStorage payload).isJson = true := by
  simp only [Request.isJson, Bool.and_eq_true, decide_eq_true_eq]
  exact ⟨⟨unpaired_ofUnits _, isJson_entriesOr_loads payload.params⟩, isJson_loads payload.body⟩

/-- Persisting a request rebuilt from storage again changes nothing in it. -/
theorem fromStorage_payload_request (payload : Payload) :
    Request.fromStorage payload.request.payload = Request.fromStorage payload := by
  obtain ⟨headers, headersEncoded, headersDecoded⟩ :=
    loads_encode? _ (isJson_entriesOr_loads payload.headers)
  obtain ⟨params, paramsEncoded, paramsDecoded⟩ :=
    loads_encode? _ (isJson_entriesOr_loads payload.params)
  obtain ⟨body, bodyEncoded, bodyDecoded⟩ := loads_encode? _ (isJson_loads payload.body)
  have stored : (Request.fromStorage payload).payload? = some payload.request.payload :=
    payload.request.stores
  generalize payload.request.payload = again at stored
  simp only [Request.payload?, Request.fromStorage, headersEncoded, paramsEncoded,
    bodyEncoded, Option.bind_eq_bind, Option.bind_some] at stored
  rw [← Option.some.inj stored]
  simp only [Request.fromStorage, headersDecoded, paramsDecoded, bodyDecoded, toUnits_ofUnits]
  rfl

/-! ## Orders of keys -/

/-- Entries with string keys are named fields with distinct names. -/
theorem exists_fields_of_isJsonEntries
    {entries : PyDict}
    {seen : List PyStr}
    (json : isJsonEntries seen entries = true) :
    ∃ fields : List (PyStr × PyValue), entries = fields.map strField ∧
      (fields.map Prod.fst).Nodup ∧
      ∀ name ∈ fields.map Prod.fst, name ∉ seen ∧ Unpaired name := by
  induction entries generalizing seen with
  | nil => exact ⟨[], rfl, List.nodup_nil, List.forall_mem_nil _⟩
  | cons entry entries inductionHypothesis =>
      obtain ⟨key, value⟩ := entry
      cases key with
      | str name =>
          simp only [isJsonEntries, Bool.and_eq_true, decide_eq_true_eq] at json
          obtain ⟨fields, rfl, distinct, apart⟩ := inductionHypothesis json.2
          refine ⟨(name, value) :: fields, rfl, ?_, ?_⟩
          · rw [List.map_cons, List.nodup_cons]
            exact ⟨fun member => (apart name member).1 List.mem_cons_self, distinct⟩
          · rw [List.map_cons, List.forall_mem_cons]
            refine ⟨json.1.1, fun other member => ⟨fun inSeen => ?_, (apart other member).2⟩⟩
            exact (apart other member).1 (List.mem_cons_of_mem _ inSeen)
      | int | float | bool | none | other => simp [isJsonEntries] at json

/-- Encoding the values keeps string keys. -/
theorem encodeEntries?_strField
    {sorting : Option KeyOrder}
    {fields : List (PyStr × PyValue)}
    {encoded : List (PyKey × Json)}
    (encodes : encodeEntries? sorting (fields.map strField) = some encoded) :
    ∃ documents : List (PyStr × Json), encoded = documents.map strField ∧
      documents.map Prod.fst = fields.map Prod.fst := by
  induction fields generalizing encoded with
  | nil =>
      simp only [List.map_nil, encodeEntries?, Option.some.injEq] at encodes
      exact ⟨[], encodes.symm, rfl⟩
  | cons field fields inductionHypothesis =>
      simp only [List.map_cons, strField, encodeEntries?, Option.bind_eq_bind,
        Option.bind_eq_some_iff] at encodes
      obtain ⟨document, _, others, rest, equal⟩ := encodes
      obtain rfl := Option.some.inj equal
      obtain ⟨documents, rfl, names⟩ := inductionHypothesis rest
      exact ⟨(field.1, document) :: documents, rfl, by simp [names]⟩

/-- A dictionary with distinct string keys has one canonical document under two
orders, if its values have. -/
theorem encode?_dict_order
    {order other : KeyOrder}
    {fields : List (PyStr × PyValue)}
    (distinct : (fields.map Prod.fst).Nodup)
    (same : encodeEntries? (some order) (fields.map strField) =
      encodeEntries? (some other) (fields.map strField)) :
    encode? (some order) (.dict (fields.map strField)) =
      encode? (some other) (.dict (fields.map strField)) := by
  rw [encode?, encode?, same]
  cases encoded : encodeEntries? (some other) (fields.map strField) with
  | none => rfl
  | some ordered =>
      obtain ⟨documents, rfl, names⟩ := encodeEntries?_strField encoded
      have sorted := orderFields?_strField_eq order other (names ▸ distinct)
      simp only [Option.bind_eq_bind, Option.bind_some, ← Option.bind_assoc, sorted]

mutual

/-- Every order of keys gives a string-keyed JSON value one canonical document. -/
theorem encode?_order (order other : KeyOrder) :
    ∀ value : PyValue, value.isJson = true →
      encode? (some order) value = encode? (some other) value
  | .none, _ | .bool _, _ | .int _, _ | .float _, _ | .str _, _ => by simp [encode?]
  | .list items, json => by
      rw [encode?, encode?, encodeItems?_order order other items (by rwa [PyValue.isJson] at json)]
  | .dict entries, json => by
      rw [PyValue.isJson] at json
      have same := encodeEntries?_order order other entries [] json
      obtain ⟨fields, rfl, distinct, _⟩ := exists_fields_of_isJsonEntries json
      exact encode?_dict_order distinct same
  | .tuple _, json | .bytes _, json | .other _, json => by simp [PyValue.isJson] at json

theorem encodeItems?_order (order other : KeyOrder) :
    ∀ items : List PyValue, isJsonItems items = true →
      encodeItems? (some order) items = encodeItems? (some other) items
  | [], _ => by rw [encodeItems?, encodeItems?]
  | item :: items, json => by
      rw [isJsonItems, Bool.and_eq_true] at json
      rw [encodeItems?, encodeItems?, encode?_order order other item json.1,
        encodeItems?_order order other items json.2]

theorem encodeEntries?_order (order other : KeyOrder) :
    ∀ (entries : PyDict) (seen : List PyStr), isJsonEntries seen entries = true →
      encodeEntries? (some order) entries = encodeEntries? (some other) entries
  | [], _, _ => by rw [encodeEntries?, encodeEntries?]
  | (.str name, value) :: entries, seen, json => by
      simp only [isJsonEntries, Bool.and_eq_true] at json
      rw [encodeEntries?, encodeEntries?, encode?_order order other value json.1.2,
        encodeEntries?_order order other entries _ json.2]
  | (.int _, _) :: _, _, json | (.float _, _) :: _, _, json | (.bool _, _) :: _, _, json
  | (.none, _) :: _, _, json | (.other _, _) :: _, _, json => by
      simp [isJsonEntries] at json

end

/-- The hashed dictionary by the names of its fields. -/
def Request.identityFields (request : Request) : List (PyStr × PyValue) :=
  [("method", .str request.method.upper), ("url", .str request.url),
    ("params", .dict request.params), ("body", request.body)]

theorem Request.nodup_identityFields (request : Request) :
    (request.identityFields.map Prod.fst).Nodup := by
  change ([("method" : PyStr), "url", "params", "body"] : List PyStr).Nodup
  decide +kernel

/-- A request rebuilt from storage is hashed to one text under every order. -/
theorem hashText?_fromStorage (order : KeyOrder) (payload : Payload) :
    (Request.fromStorage payload).hashText? order = some payload.request.key := by
  obtain ⟨own, hashes⟩ := payload.request.hashes
  have json := isJson_fromStorage payload
  simp only [Request.isJson, Bool.and_eq_true] at json
  have params := encode?_order order own _ json.1.2
  have body := encode?_order order own _ json.2
  have same : encode? (some order) (Request.fromStorage payload).identity =
      encode? (some own) (Request.fromStorage payload).identity := by
    apply @encode?_dict_order _ _ (Request.fromStorage payload).identityFields
    · exact Request.nodup_identityFields _
    · simp only [Request.identityFields, List.map_cons, List.map_nil, strField, encodeEntries?,
        params, body]
      rfl
  rw [Request.hashText?, canonicalText?, same]
  exact hashes

/-- A persisted string-keyed JSON request is rebuilt under its own key. -/
theorem DurableRequest.key_payload_request
    (request : DurableRequest)
    (json : request.request.isJson = true) :
    request.payload.request.key = request.key := by
  obtain ⟨order, hashes⟩ := request.hashes
  have sameKey : (Request.fromStorage request.payload).hashText? order = some request.key :=
    (hashText?_of_stored json request.stores order).trans hashes
  exact Option.some.inj ((hashText?_fromStorage _ _).symm.trans sameKey)

end HardenedClient
