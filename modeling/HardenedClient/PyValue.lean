import HardenedClient.PyKey

/-!
# Python values and their JSON encoding

`PyValue` is the part of Python's value space that request parameters and
bodies range over. `encode?` is `json.dumps` up to the spelling of the document:
it applies the documented key coercions and either raises TypeError on a value
json cannot represent or, with `default=str`, falls back to its text. `Json` is
the document, whose strings are the UTF-16 units that json escapes; `loads` is
`json.loads`, and `render` is the compact spelling with ASCII escapes that
`_stable_dump` hashes.
-/

namespace HardenedClient

open Foundation

/-- A Python value, as far as requests and responses carry it. `other` stands
for any object json cannot encode, bytes included, with its `str()`. -/
inductive PyValue
  | none
  | bool (value : Bool)
  | int (value : ℤ)
  | float (literal : FloatLiteral)
  | str (text : PyStr)
  | list (items : List PyValue)
  | tuple (items : List PyValue)
  | dict (entries : List (PyKey × PyValue))
  | bytes (text : PyStr)
  | other (text : PyStr)

/-- A dictionary, in insertion order. -/
abbrev PyDict := List (PyKey × PyValue)

/-- A string inside a document. -/
abbrev JsonText := List CodeUnit

/-- A JSON document. -/
inductive Json
  | null
  | bool (value : Bool)
  | int (value : ℤ)
  | float (literal : FloatLiteral)
  | str (text : JsonText)
  | arr (items : List Json)
  | obj (fields : List (JsonText × Json))

/-- Induction over a value with its parts: the items of a list or tuple, and the values of
a dictionary. -/
@[elab_as_elim]
theorem PyValue.partsInduction
    {motive : PyValue → Prop}
    (none : motive .none)
    (bool : ∀ value, motive (.bool value))
    (int : ∀ value, motive (.int value))
    (float : ∀ literal, motive (.float literal))
    (str : ∀ text, motive (.str text))
    (list : ∀ items, (∀ item ∈ items, motive item) → motive (.list items))
    (tuple : ∀ items, (∀ item ∈ items, motive item) → motive (.tuple items))
    (dict : ∀ entries, (∀ entry ∈ entries, motive entry.2) → motive (.dict entries))
    (bytes : ∀ text, motive (.bytes text))
    (other : ∀ text, motive (.other text))
    (value : PyValue) :
    motive value :=
  @PyValue.rec motive (fun items => ∀ item ∈ items, motive item)
    (fun entries => ∀ entry ∈ entries, motive entry.2) (fun entry => motive entry.2)
    none bool int float str list tuple dict bytes other
    (List.forall_mem_nil _) (fun _ _ head tail => List.forall_mem_cons.mpr ⟨head, tail⟩)
    (List.forall_mem_nil _) (fun _ _ head tail => List.forall_mem_cons.mpr ⟨head, tail⟩)
    (fun _ _ value => value) value

/-- Induction over a document with its parts. -/
@[elab_as_elim]
theorem Json.partsInduction
    {motive : Json → Prop}
    (null : motive .null)
    (bool : ∀ value, motive (.bool value))
    (int : ∀ value, motive (.int value))
    (float : ∀ literal, motive (.float literal))
    (str : ∀ text, motive (.str text))
    (arr : ∀ items, (∀ item ∈ items, motive item) → motive (.arr items))
    (obj : ∀ fields, (∀ field ∈ fields, motive field.2) → motive (.obj fields))
    (document : Json) :
    motive document :=
  @Json.rec motive (fun items => ∀ item ∈ items, motive item)
    (fun fields => ∀ field ∈ fields, motive field.2) (fun field => motive field.2)
    null bool int float str arr obj
    (List.forall_mem_nil _) (fun _ _ head tail => List.forall_mem_cons.mpr ⟨head, tail⟩)
    (List.forall_mem_nil _) (fun _ _ head tail => List.forall_mem_cons.mpr ⟨head, tail⟩)
    (fun _ _ value => value) document

/-- Order fields as `json.dumps` does: with `sort_keys` by the order of the
interpreter, which raises TypeError on keys Python cannot compare. -/
def orderFields?
    (sorting : Option KeyOrder)
    (fields : List (PyKey × α)) : Option (List (PyKey × α)) :=
  match sorting with
  | some order =>
      if sortable (fields.map Prod.fst) then some (order.arrange fields) else none
  | none => some fields

/-- Spell the keys of encoded fields. -/
def coerceFields? : List (PyKey × α) → Option (List (PyStr × α))
  | [] => some []
  | (key, value) :: rest => do
      let name ← key.coerce?
      let others ← coerceFields? rest
      return (name, value) :: others

/-- A named field with its name in UTF-16. -/
def unitField (field : PyStr × α) : JsonText × α := (toUnits field.1, field.2)

/-! ## Encoding -/

mutual

/-- `json.dumps(value)`, or with an order of keys the form
`json.dumps(value, sort_keys=True, default=str)`. `none` is the TypeError. -/
def encode? (sorting : Option KeyOrder) : PyValue → Option Json
  | .none => some .null
  | .bool value => some (.bool value)
  | .int value => some (.int value)
  | .float literal => some (.float literal)
  | .str text => some (.str (toUnits text))
  | .list items => (encodeItems? sorting items).map .arr
  | .tuple items => (encodeItems? sorting items).map .arr
  | .dict entries => do
      let fields ← encodeEntries? sorting entries
      let ordered ← orderFields? sorting fields
      let named ← coerceFields? ordered
      return .obj (named.map unitField)
  | .bytes text => if sorting.isSome then some (.str (toUnits text)) else Option.none
  | .other text => if sorting.isSome then some (.str (toUnits text)) else Option.none

/-- Encode the items of a list or tuple. -/
def encodeItems? (sorting : Option KeyOrder) : List PyValue → Option (List Json)
  | [] => some []
  | item :: items => do
      let document ← encode? sorting item
      let documents ← encodeItems? sorting items
      return document :: documents

/-- Encode the values of a dictionary. -/
def encodeEntries? (sorting : Option KeyOrder) :
    List (PyKey × PyValue) → Option (List (PyKey × Json))
  | [] => some []
  | (key, value) :: entries => do
      let document ← encode? sorting value
      let documents ← encodeEntries? sorting entries
      return (key, document) :: documents

end

/-! ## Decoding -/

/-- `dict[name] = value` on an insertion-ordered dictionary. -/
def insertEntry (name : PyStr) (value : PyValue) : PyDict → PyDict
  | [] => [(.str name, value)]
  | (key, current) :: entries =>
      if key = .str name then (key, value) :: entries
      else (key, current) :: insertEntry name value entries

mutual

/-- `json.loads` on a document; of two fields of one name the last one wins. -/
def loads : Json → PyValue
  | .null => .none
  | .bool value => .bool value
  | .int value => .int value
  | .float literal => .float literal
  | .str text => .str (ofUnits text)
  | .arr items => .list (loadsItems items)
  | .obj fields => .dict (loadsFields [] fields)

/-- Decode the items of an array. -/
def loadsItems : List Json → List PyValue
  | [] => []
  | item :: items => loads item :: loadsItems items

/-- Decode the fields of an object into a dictionary under construction. -/
def loadsFields (entries : PyDict) : List (JsonText × Json) → PyDict
  | [] => entries
  | (name, value) :: fields =>
      loadsFields (insertEntry (ofUnits name) (loads value) entries) fields

end

/-! ## Rendering -/

/-- Lowercase hexadecimal digit. -/
def hexDigit (value : ℕ) : Char :=
  if value < 10 then Char.ofNat ('0'.toNat + value)
  else Char.ofNat ('a'.toNat + (value - 10))

/-- The four-digit escape of a UTF-16 unit. -/
def unicodeEscape (unit : ℕ) : List Char :=
  ['\\', 'u', hexDigit (unit / 4096 % 16), hexDigit (unit / 256 % 16),
    hexDigit (unit / 16 % 16), hexDigit (unit % 16)]

/-- A unit inside a JSON string with `ensure_ascii`. -/
def escapeUnit (unit : CodeUnit) : List Char :=
  if unit.val = 34 then ['\\', '"']
  else if unit.val = 92 then ['\\', '\\']
  else if unit.val = 10 then ['\\', 'n']
  else if unit.val = 13 then ['\\', 'r']
  else if unit.val = 9 then ['\\', 't']
  else if unit.val = 12 then ['\\', 'f']
  else if unit.val = 8 then ['\\', 'b']
  else if 32 ≤ unit.val ∧ unit.val ≤ 126 then [Char.ofNat unit.val]
  else unicodeEscape unit.val

/-- A quoted JSON string. -/
def renderString (text : JsonText) : List Char :=
  '"' :: text.flatMap escapeUnit ++ ['"']

mutual

/-- The compact spelling of a document, separators `","` and `":"`. -/
def render : Json → List Char
  | .null => "null".toList
  | .bool value => if value then "true".toList else "false".toList
  | .int value => (toString value).toList
  | .float literal => literal.repr.toList
  | .str text => renderString text
  | .arr items => '[' :: renderItems items ++ [']']
  | .obj fields => '{' :: renderFields fields ++ ['}']

/-- Comma-separated items. -/
def renderItems : List Json → List Char
  | [] => []
  | [item] => render item
  | item :: items => render item ++ ',' :: renderItems items

/-- Comma-separated fields. -/
def renderFields : List (JsonText × Json) → List Char
  | [] => []
  | [(name, value)] => renderString name ++ ':' :: render value
  | (name, value) :: fields =>
      renderString name ++ ':' :: (render value ++ ',' :: renderFields fields)

end

/-! ## What the interpreter can dump -/

/-- What depends on the Python that runs the client: the order of keys, the
number of digits of an integer that it spells, where zero stands for no limit,
and how deep a value may be nested. -/
structure Interpreter where
  order : KeyOrder := .insertion
  maxStrDigits : ℕ := 4300
  recursionLimit : ℕ := 1000

/-- `int.__repr__` raises no ValueError. -/
def Interpreter.spells (python : Interpreter) (value : ℤ) : Bool :=
  decide (python.maxStrDigits = 0 ∨
    (Nat.toDigits 10 value.natAbs).length ≤ python.maxStrDigits)

/-- An integer key is spelled. -/
def PyKey.fits (python : Interpreter) : PyKey → Bool
  | .int value => python.spells value
  | _ => true

mutual

/-- `json.dumps` raises neither ValueError on an integer nor RecursionError on
the depth of a value, of which it may enter so many levels. -/
def PyValue.fits (python : Interpreter) (levels : ℕ) : PyValue → Bool
  | .int value => python.spells value
  | .list items => decide (0 < levels) && fitsItems python (levels - 1) items
  | .tuple items => decide (0 < levels) && fitsItems python (levels - 1) items
  | .dict entries => decide (0 < levels) && fitsEntries python (levels - 1) entries
  | .bytes _ | .other _ => decide (0 < levels)
  | _ => true

/-- All items can be dumped. -/
def fitsItems (python : Interpreter) (levels : ℕ) : List PyValue → Bool
  | [] => true
  | item :: items => item.fits python levels && fitsItems python levels items

/-- All keys and values can be dumped. -/
def fitsEntries (python : Interpreter) (levels : ℕ) : List (PyKey × PyValue) → Bool
  | [] => true
  | (key, value) :: entries =>
      key.fits python && value.fits python levels && fitsEntries python levels entries

end

/-- The canonical text of a value under an order of keys, or a TypeError. -/
def canonicalText? (order : KeyOrder) (value : PyValue) : Option (List Char) :=
  (encode? (some order) value).map render

/-- `_stable_dump`: the canonical text of a value, or an error. -/
def stableDump? (python : Interpreter) (value : PyValue) : Option (List Char) :=
  if value.fits python python.recursionLimit then canonicalText? python.order value else none

/-! ## String-keyed JSON values -/

mutual

/-- A value that comes out of `json.loads`: its keys are strings at every depth,
and its strings have no surrogate pairs. -/
def PyValue.isJson : PyValue → Bool
  | .none | .bool _ | .int _ | .float _ => true
  | .str text => decide (Unpaired text)
  | .list items => isJsonItems items
  | .dict entries => isJsonEntries [] entries
  | .tuple _ | .bytes _ | .other _ => false

/-- All items are string-keyed JSON values. -/
def isJsonItems : List PyValue → Bool
  | [] => true
  | item :: items => item.isJson && isJsonItems items

/-- The entries have distinct string keys, none of them in `seen`, and
string-keyed JSON values. -/
def isJsonEntries (seen : List PyStr) : List (PyKey × PyValue) → Bool
  | [] => true
  | (.str name, value) :: entries =>
      decide (name ∉ seen) && decide (Unpaired name) && value.isJson &&
        isJsonEntries (name :: seen) entries
  | _ => false

end

end HardenedClient
