import HardenedClient.Foundation.Readable
import HardenedClient.PyValue
import Mathlib.Tactic.IntervalCases

/-!
# The canonical spelling is uniquely readable

A string ends at its first quote that no escape covers, a number or a literal
name where a comma or a closing bracket follows. So the spelling of an array
determines the spellings of its items, and that of an object its names and the
spellings of its values.
-/

namespace HardenedClient

open Foundation

/-! ## Strings -/

/-- Value of a lowercase hexadecimal digit. -/
def hexValue (char : Char) : ℕ :=
  if char.isDigit then char.toNat - '0'.toNat else char.toNat - 'a'.toNat + 10

/-- Read the four digits of an escaped UTF-16 unit. -/
def readUnit : List Char → Option (ℕ × List Char)
  | first :: second :: third :: fourth :: rest =>
      some (4096 * hexValue first + 256 * hexValue second + 16 * hexValue third +
        hexValue fourth, rest)
  | _ => none

/-- The unit a one-letter escape stands for. -/
def shortEscape (char : Char) : ℕ :=
  if char = 'n' then 10
  else if char = 'r' then 13
  else if char = 't' then 9
  else if char = 'f' then 12
  else if char = 'b' then 8
  else char.toNat

/-- Read one unit of a JSON string. -/
def readEscaped : List Char → Option (ℕ × List Char)
  | [] => none
  | head :: rest =>
      if head = '\\' then
        match rest with
        | [] => none
        | kind :: rest => if kind = 'u' then readUnit rest else some (shortEscape kind, rest)
      else some (head.toNat, rest)

theorem hexValue_hexDigit (value : ℕ) (small : value < 16) :
    hexValue (hexDigit value) = value := by
  interval_cases value <;> rfl

theorem readUnit_unicodeEscape
    {unit : ℕ}
    (small : unit < 65536)
    (rest : List Char) :
    readUnit ((unicodeEscape unit).drop 2 ++ rest) = some (unit, rest) := by
  simp only [unicodeEscape, List.drop_succ_cons, List.drop_zero, List.cons_append,
    List.nil_append, readUnit]
  rw [hexValue_hexDigit _ (Nat.mod_lt _ (by decide)),
    hexValue_hexDigit _ (Nat.mod_lt _ (by decide)),
    hexValue_hexDigit _ (Nat.mod_lt _ (by decide)),
    hexValue_hexDigit _ (Nat.mod_lt _ (by decide))]
  simp only [Option.some.injEq, Prod.mk.injEq, and_true]
  omega

theorem toNat_ofNat {value : ℕ} (plain : value ≤ 126) : (Char.ofNat value).toNat = value := by
  have valid : value.isValidChar := Or.inl (by omega)
  rw [Char.ofNat, dif_pos valid]
  rfl

/-- Reading undoes escaping. -/
theorem readEscaped_escapeUnit (unit : CodeUnit) (rest : List Char) :
    readEscaped (escapeUnit unit ++ rest) = some (unit.val, rest) := by
  unfold escapeUnit
  split_ifs with quote backslash newline carriage tab feed back plain
  · simp [readEscaped, shortEscape, quote]
  · simp [readEscaped, shortEscape, backslash]
  · simp [readEscaped, shortEscape, newline]
  · simp [readEscaped, shortEscape, carriage]
  · simp [readEscaped, shortEscape, tab]
  · simp [readEscaped, shortEscape, feed]
  · simp [readEscaped, shortEscape, back]
  · have read := toNat_ofNat plain.2
    have notEscape : Char.ofNat unit.val ≠ '\\' := by
      intro same
      rw [same] at read
      exact backslash read.symm
    simp only [List.singleton_append, readEscaped, if_neg notEscape, read]
  · have opened : unicodeEscape unit.val ++ rest =
        '\\' :: 'u' :: ((unicodeEscape unit.val).drop 2 ++ rest) := rfl
    rw [opened]
    simp only [readEscaped, if_true]
    exact readUnit_unicodeEscape unit.isLt rest

theorem escapeUnit_prefixFree : PrefixFree escapeUnit := by
  apply @PrefixFree.of_read _ _ escapeUnit fun text =>
    (readEscaped text).bind fun (value, rest) =>
      if small : value < 0x10000 then some (⟨value, small⟩, rest) else none
  intro unit rest
  rw [readEscaped_escapeUnit]
  exact dif_pos unit.isLt

/-- No unit is written with a quote at its front. -/
theorem escapeUnit_begins (unit : CodeUnit) :
    ∃ head tail, escapeUnit unit = head :: tail ∧ head ≠ '"' := by
  unfold escapeUnit
  split_ifs with quote backslash newline carriage tab feed back plain
  all_goals refine ⟨_, _, rfl, ?_⟩
  any_goals decide
  intro same
  apply quote
  rw [← toNat_ofNat plain.2, same]
  rfl

/-- A quoted string determines its text and what follows. -/
theorem renderString_prefixFree : PrefixFree renderString := by
  intro first second left right equal
  simp only [renderString, List.cons_append, List.append_assoc, List.cons.injEq,
    List.nil_append, true_and] at equal
  obtain ⟨same, rest⟩ := escapeUnit_prefixFree.flatMap_unique escapeUnit_begins equal
  exact ⟨same, rest⟩

/-! ## Numbers and literal names -/

/-- What may follow a document inside another one. -/
def endsDocument (char : Char) : Prop := char = ',' ∨ char = ']' ∨ char = '}'

/-- A word of bare characters. -/
def BareWord (word : List Char) : Prop :=
  word ≠ [] ∧ ∀ char ∈ word, isBareChar char = true

theorem not_endsDocument_of_isBareChar
    {char : Char}
    (bare : isBareChar char = true) :
    ¬ endsDocument char := by
  rintro (rfl | rfl | rfl) <;> exact absurd bare (by decide)

theorem isBareChar_of_isDigit {char : Char} (digit : char.isDigit = true) :
    isBareChar char = true := by
  simp [isBareChar, Char.isAlphanum, digit]

theorem bareWord_repr (value : ℕ) : BareWord value.repr.toList := by
  rw [Nat.toList_repr]
  refine ⟨Nat.toDigits_ne_nil, fun char member => ?_⟩
  exact isBareChar_of_isDigit
    (Nat.isDigit_of_mem_toDigits (by decide) (by decide) member)

theorem bareWord_int (value : ℤ) : BareWord (toString value).toList := by
  cases value with
  | ofNat value => exact bareWord_repr value
  | negSucc value =>
      have spelled : (toString (Int.negSucc value)).toList =
          '-' :: (value + 1).repr.toList := by
        change ("-" ++ (value + 1).repr).toList = _
        rw [String.toList_append]
        rfl
      rw [spelled]
      refine ⟨by simp, fun char member => ?_⟩
      rcases List.mem_cons.mp member with rfl | member
      · decide
      · exact (bareWord_repr (value + 1)).2 char member

theorem bareWord_float (literal : FloatLiteral) : BareWord literal.repr.toList := by
  have isFloat := literal.isFloat
  simp only [isFloatText, Bool.and_eq_true, List.all_eq_true, List.any_eq_true] at isFloat
  obtain ⟨⟨bare, char, member, _⟩, _⟩ := isFloat
  exact ⟨List.ne_nil_of_mem member, bare⟩

/-- A document that is neither a string nor a container is a bare word. -/
theorem bareWord_or
    (document : Json) :
    BareWord (render document) ∨ (∃ text, document = .str text) ∨
      (∃ items, document = .arr items) ∨ ∃ fields, document = .obj fields := by
  cases document with
  | null =>
      refine Or.inl ⟨by simp [render], List.all_eq_true.mp ?_⟩
      simp only [render]
      decide
  | bool value =>
      left
      cases value <;> refine ⟨by simp [render], List.all_eq_true.mp ?_⟩ <;> simp only [render] <;>
        decide
  | int value =>
      left
      rw [render]
      exact bareWord_int value
  | float literal =>
      left
      rw [render]
      exact bareWord_float literal
  | str text => exact Or.inr (Or.inl ⟨text, rfl⟩)
  | arr items => exact Or.inr (Or.inr (Or.inl ⟨items, rfl⟩))
  | obj fields => exact Or.inr (Or.inr (Or.inr ⟨fields, rfl⟩))

/-- The first character of a document. -/
theorem render_begins (document : Json) :
    ∃ head tail, render document = head :: tail ∧
      (isBareChar head = true ∨ head = '"' ∨ head = '[' ∨ head = '{') := by
  rcases bareWord_or document with ⟨nonempty, bare⟩ | ⟨text, rfl⟩ | ⟨items, rfl⟩ | ⟨fields, rfl⟩
  · obtain ⟨head, tail, spelled⟩ := List.exists_cons_of_ne_nil nonempty
    exact ⟨head, tail, spelled, Or.inl (bare head (by simp [spelled]))⟩
  · exact ⟨'"', _, by rw [render, renderString]; rfl, by simp⟩
  · exact ⟨'[', _, by rw [render]; rfl, by simp⟩
  · exact ⟨'{', _, by rw [render]; rfl, by simp⟩

/-! ## Containers -/

/-- The spelling of one field. -/
def renderField (field : JsonText × Json) : List Char :=
  renderString field.1 ++ ':' :: render field.2

theorem renderItems_eq_joined (items : List Json) :
    renderItems items = joined ',' (items.map render) := by
  induction items with
  | nil => rfl
  | cons item items inductionHypothesis =>
      cases items with
      | nil => simp [renderItems, joined]
      | cons next items =>
          simp only [renderItems, List.map_cons, joined] at inductionHypothesis ⊢
          rw [inductionHypothesis]

theorem renderFields_eq_joined (fields : List (JsonText × Json)) :
    renderFields fields = joined ',' (fields.map renderField) := by
  induction fields with
  | nil => rfl
  | cons field fields inductionHypothesis =>
      obtain ⟨name, value⟩ := field
      cases fields with
      | nil => simp [renderFields, joined, renderField]
      | cons next fields =>
          simp only [renderFields, List.map_cons, joined] at inductionHypothesis ⊢
          rw [inductionHypothesis]
          simp [renderField]

/-- The spelling of a document ends where a comma or a closing bracket follows,
whatever other document it is compared with. -/
def SelfDelimiting (document : Json) : Prop :=
  ∀ other, ReadAlike endsDocument (render document) (render other)

/-- The spelling of an array determines those of its items. -/
theorem arr_unique
    {items others : List Json}
    (alike : ∀ item ∈ items, SelfDelimiting item)
    {left right : List Char}
    (equal : render (.arr items) ++ left = render (.arr others) ++ right) :
    items.map render = others.map render ∧ left = right := by
  simp only [render, renderItems_eq_joined, List.cons_append, List.append_assoc,
    List.nil_append, List.cons.injEq, true_and] at equal
  refine @joined_unique _ endsDocument _ _ (Or.inl rfl) (Or.inr (Or.inl rfl)) (by decide)
    _ _ ?_ ?_ _ _ equal
  · intro word member other memberOther
    obtain ⟨item, inItems, rfl⟩ := List.mem_map.mp member
    obtain ⟨otherItem, _, rfl⟩ := List.mem_map.mp memberOther
    exact alike item inItems otherItem
  · intro word member
    obtain ⟨item, rfl⟩ : ∃ item, word = render item := by
      rcases member with member | member <;>
        exact (List.mem_map.mp member).imp fun _ found => found.2.symm
    obtain ⟨head, tail, spelled, kind⟩ := render_begins item
    refine ⟨head, tail, spelled, ?_⟩
    rintro rfl
    revert kind
    decide

/-- A field's spelling ends where its value's does. -/
theorem renderField_alike
    {field : JsonText × Json}
    (alike : SelfDelimiting field.2)
    (other : JsonText × Json) :
    ReadAlike endsDocument (renderField field) (renderField other) := by
  intro left right leftStops rightStops equal
  simp only [renderField, List.append_assoc, List.cons_append] at equal
  obtain ⟨sameName, rest⟩ := renderString_prefixFree equal
  obtain ⟨sameValue, sameRest⟩ :=
    alike other.2 leftStops rightStops (List.cons.inj rest).2
  exact ⟨by rw [renderField, renderField, sameName, sameValue], sameRest⟩

/-- The spelling of an object determines its names and those of its values. -/
theorem obj_unique
    {fields others : List (JsonText × Json)}
    (alike : ∀ field ∈ fields, SelfDelimiting field.2)
    {left right : List Char}
    (equal : render (.obj fields) ++ left = render (.obj others) ++ right) :
    fields.map renderField = others.map renderField ∧ left = right := by
  simp only [render, renderFields_eq_joined, List.cons_append, List.append_assoc,
    List.nil_append, List.cons.injEq, true_and] at equal
  refine @joined_unique _ endsDocument _ _ (Or.inl rfl) (Or.inr (Or.inr rfl)) (by decide)
    _ _ ?_ ?_ _ _ equal
  · intro word member other memberOther
    obtain ⟨field, inFields, rfl⟩ := List.mem_map.mp member
    obtain ⟨otherField, _, rfl⟩ := List.mem_map.mp memberOther
    exact renderField_alike (alike field inFields) otherField
  · intro word member
    obtain ⟨field, rfl⟩ : ∃ field, word = renderField field := by
      rcases member with member | member <;>
        exact (List.mem_map.mp member).imp fun _ found => found.2.symm
    exact ⟨'"', _, rfl, by decide⟩

theorem BareWord.append_ne_cons
    {word : List Char}
    (bare : BareWord word)
    {char : Char}
    (notBare : isBareChar char = false)
    (left right : List Char) :
    word ++ left ≠ char :: right := by
  intro equal
  obtain ⟨head, tail, rfl⟩ := List.exists_cons_of_ne_nil bare.1
  obtain rfl : head = char := (List.cons.inj equal).1
  have := bare.2 head List.mem_cons_self
  simp [notBare] at this

/-- A bare word is not read as the beginning of anything else. -/
theorem selfDelimiting_of_bareWord
    {document : Json}
    (bare : BareWord (render document)) :
    SelfDelimiting document := by
  intro other left right leftStops rightStops equal
  rcases bareWord_or other with ⟨_, bareOther⟩ | ⟨text, rfl⟩ | ⟨items, rfl⟩ | ⟨fields, rfl⟩
  · apply readAlike_of_forall _ _ leftStops rightStops equal
    · exact fun char member => not_endsDocument_of_isBareChar (bare.2 char member)
    · exact fun char member => not_endsDocument_of_isBareChar (bareOther char member)
  all_goals
    rw [render] at equal
    exact absurd equal (bare.append_ne_cons (by decide) left _)

/-- Nothing else is read as the beginning of a bare word. -/
theorem not_bareWord_of_begins
    {other : Json}
    {char : Char}
    (notBare : isBareChar char = false)
    {left right : List Char}
    (equal : char :: left = render other ++ right) :
    ¬ BareWord (render other) :=
  fun bare => bare.append_ne_cons notBare right left equal.symm

mutual

/-- Every document is self-delimiting. -/
theorem selfDelimiting : ∀ document : Json, SelfDelimiting document
  | .null | .bool _ | .int _ | .float _ =>
      selfDelimiting_of_bareWord ((bareWord_or _).resolve_right (by simp))
  | .str text => by
      intro other left right leftStops rightStops equal
      rcases bareWord_or other with bare | ⟨text, rfl⟩ | ⟨items, rfl⟩ | ⟨fields, rfl⟩
      · exact absurd bare (not_bareWord_of_begins (by decide) equal)
      · simp only [render] at equal ⊢
        obtain ⟨rfl, rest⟩ := renderString_prefixFree equal
        exact ⟨rfl, rest⟩
      · simp [render, renderString] at equal
      · simp [render, renderString] at equal
  | .arr items => by
      intro other left right leftStops rightStops equal
      rcases bareWord_or other with bare | ⟨text, rfl⟩ | ⟨others, rfl⟩ | ⟨fields, rfl⟩
      · rw [render] at equal
        exact absurd bare (not_bareWord_of_begins (by decide) equal)
      · simp [render, renderString] at equal
      · obtain ⟨same, rest⟩ := arr_unique (selfDelimitingItems items) equal
        refine ⟨?_, rest⟩
        rw [render, render, renderItems_eq_joined, renderItems_eq_joined, same]
      · simp [render] at equal
  | .obj fields => by
      intro other left right leftStops rightStops equal
      rcases bareWord_or other with bare | ⟨text, rfl⟩ | ⟨items, rfl⟩ | ⟨others, rfl⟩
      · rw [render] at equal
        exact absurd bare (not_bareWord_of_begins (by decide) equal)
      · simp [render, renderString] at equal
      · simp [render] at equal
      · obtain ⟨same, rest⟩ := obj_unique (selfDelimitingFields fields) equal
        refine ⟨?_, rest⟩
        rw [render, render, renderFields_eq_joined, renderFields_eq_joined, same]

theorem selfDelimitingItems : ∀ items : List Json, ∀ item ∈ items, SelfDelimiting item
  | [], item, absent => by simp at absent
  | head :: items, item, member => by
      rcases List.mem_cons.mp member with same | member
      · rw [same]
        exact selfDelimiting head
      · exact selfDelimitingItems items item member

theorem selfDelimitingFields :
    ∀ fields : List (JsonText × Json), ∀ field ∈ fields, SelfDelimiting field.2
  | [], field, absent => by simp at absent
  | (name, value) :: fields, field, member => by
      rcases List.mem_cons.mp member with same | member
      · rw [same]
        exact selfDelimiting value
      · exact selfDelimitingFields fields field member

end

/-- Arrays with one spelling have items with one spelling. -/
theorem map_render_of_render_arr_eq
    {items others : List Json}
    (equal : render (.arr items) = render (.arr others)) :
    items.map render = others.map render := by
  apply (arr_unique (selfDelimitingItems items) _).1
  · exact []
  · exact []
  · rw [equal]

/-- Objects with one spelling have the same names, and values with one
spelling. -/
theorem map_renderField_of_render_obj_eq
    {fields others : List (JsonText × Json)}
    (equal : render (.obj fields) = render (.obj others)) :
    fields.map renderField = others.map renderField := by
  apply (obj_unique (selfDelimitingFields fields) _).1
  · exact []
  · exact []
  · rw [equal]

theorem renderField_inj
    {field other : JsonText × Json}
    (equal : renderField field = renderField other) :
    field.1 = other.1 ∧ render field.2 = render other.2 := by
  simp only [renderField] at equal
  obtain ⟨sameName, rest⟩ := renderString_prefixFree equal
  exact ⟨sameName, (List.cons.inj rest).2⟩

end HardenedClient
