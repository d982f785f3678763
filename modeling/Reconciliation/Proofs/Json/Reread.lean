import Reconciliation.Json.Decode
import Reconciliation.Json.Printer
import Reconciliation.Proofs.Text.Utf8

namespace Reconciliation.Json

/-!
# Texts that are read back

* `Document.value?` — the value of which a document is the tree;
* `printed` — the bytes of the text of a value, put in front of others;
* `Rereads` — whether the text of a value is read as the tree of the value, which can be decided;
* `Rereads.ofBytes_eq` — a decoder then reads the text as it reads the tree.
-/

/-! ### The value of a tree -/

mutual

/-- The value of which a document is the tree, if there is one. -/
def Document.value? : Document → Option Json
  | .null => some .null
  | .bool value => some (.bool value)
  | .number (.ok value) => some (.number value)
  | .string (.ok content) => some (.string content)
  | .array items none => (itemValues? items).map .array
  | .object fields none => (fieldValues? fields).map .object
  | .number (.error _) | .string (.error _) | .array _ (some _) | .object _ (some _)
  | .missing _ _ => none

/-- The values of which documents are the trees. -/
def Document.itemValues? : List Document → Option (List Json)
  | [] => some []
  | item :: rest => do
    let value ← item.value?
    return value :: (← itemValues? rest)

/-- The fields of which named documents are the trees. -/
def Document.fieldValues? :
    List (Except Category String × Document) → Option (List (String × Json))
  | [] => some []
  | (.ok name, document) :: rest => do
    let value ← document.value?
    return (name, value) :: (← fieldValues? rest)
  | (.error _, _) :: _ => none

end

mutual

theorem Document.value?_ofJson : ∀ value : Json, (Document.ofJson value).value? = some value
  | .null | .bool _ | .number _ | .string _ => rfl
  | .array items => by rw [ofJson, value?, itemValues?_ofItems items, Option.map_some]
  | .object fields => by rw [ofJson, value?, fieldValues?_ofFields fields, Option.map_some]

theorem Document.itemValues?_ofItems : ∀ items : List Json,
    itemValues? (Document.ofItems items) = some items
  | [] => rfl
  | item :: rest => by
    rw [ofItems, itemValues?, value?_ofJson item, itemValues?_ofItems rest]
    rfl

theorem Document.fieldValues?_ofFields : ∀ fields : List (String × Json),
    fieldValues? (Document.ofFields fields) = some fields
  | [] => rfl
  | (name, value) :: rest => by
    rw [ofFields, fieldValues?, value?_ofJson value, fieldValues?_ofFields rest]
    rfl

end

mutual

theorem Document.eq_ofJson : ∀ {document : Document} {value : Json},
    document.value? = some value → document = .ofJson value
  | .null, _, h | .bool _, _, h | .number (.ok _), _, h | .string (.ok _), _, h => by
    cases h
    rfl
  | .array items none, _, h => by
    obtain ⟨values, hvalues, rfl⟩ := Option.map_eq_some_iff.mp h
    rw [eq_ofItems hvalues, ofJson]
  | .object fields none, _, h => by
    obtain ⟨values, hvalues, rfl⟩ := Option.map_eq_some_iff.mp h
    rw [eq_ofFields hvalues, ofJson]
  | .number (.error _), _, h | .string (.error _), _, h | .array _ (some _), _, h
  | .object _ (some _), _, h | .missing _ _, _, h => by cases h

theorem Document.eq_ofItems : ∀ {items : List Document} {values : List Json},
    itemValues? items = some values → items = ofItems values
  | [], _, h => by
    cases h
    rfl
  | item :: rest, _, h => by
    obtain ⟨value, hvalue, h⟩ := Option.bind_eq_some_iff.mp h
    obtain ⟨others, hothers, h⟩ := Option.bind_eq_some_iff.mp h
    cases h
    rw [ofItems, ← eq_ofJson hvalue, ← eq_ofItems hothers]

theorem Document.eq_ofFields :
    ∀ {fields : List (Except Category String × Document)} {values : List (String × Json)},
    fieldValues? fields = some values → fields = ofFields values
  | [], _, h => by
    cases h
    rfl
  | (.ok name, document) :: rest, _, h => by
    obtain ⟨value, hvalue, h⟩ := Option.bind_eq_some_iff.mp h
    obtain ⟨others, hothers, h⟩ := Option.bind_eq_some_iff.mp h
    cases h
    rw [ofFields, ← eq_ofJson hvalue, ← eq_ofFields hothers]
  | (.error _, _) :: _, _, h => by cases h

end

/-! ### The bytes of a text -/

mutual

/-- The bytes of the text of a value, in front of others. -/
def printed : Json → List UInt8 → List UInt8
  | .array items, tail => 0x5b :: printedItems items (0x5d :: tail)
  | .object fields, tail => 0x7b :: printedFields fields (0x7d :: tail)
  | value@(.null), tail | value@(.bool _), tail | value@(.number _), tail
  | value@(.string _), tail => Text.bytes value.compact ++ tail

/-- The bytes of the texts of items, with commas between them, in front of others. -/
def printedItems : List Json → List UInt8 → List UInt8
  | [], tail => tail
  | [item], tail => printed item tail
  | item :: rest, tail => printed item (0x2c :: printedItems rest tail)

/-- The bytes of the texts of fields, with commas between them, in front of others. -/
def printedFields : List (String × Json) → List UInt8 → List UInt8
  | [], tail => tail
  | [(name, value)], tail => Text.bytes (quote name) ++ 0x3a :: printed value tail
  | (name, value) :: rest, tail =>
    Text.bytes (quote name) ++ 0x3a :: printed value (0x2c :: printedFields rest tail)

end

theorem bytes_field (name : String) (value : Json) (tail : List UInt8) :
    Text.bytes (quote name ++ ":" ++ value.compact) ++ tail =
      Text.bytes (quote name) ++ 0x3a :: (Text.bytes value.compact ++ tail) := by
  have hcolon : Text.bytes ":" = [0x3a] := by rw [Text.bytes_eq]; rfl
  rw [Text.bytes_append, Text.bytes_append, hcolon, List.append_assoc, List.append_assoc]
  rfl

mutual

theorem bytes_compact : ∀ (value : Json) (tail : List UInt8),
    Text.bytes value.compact ++ tail = printed value tail
  | .null, tail | .bool _, tail | .number _, tail | .string _, tail => by rw [printed]
  | .array items, tail => by
    have hopening : Text.bytes "[" = [0x5b] := by rw [Text.bytes_eq]; rfl
    have hclosing : Text.bytes "]" = [0x5d] := by rw [Text.bytes_eq]; rfl
    rw [compact, enclose, Text.bytes_append, Text.bytes_append, hopening, hclosing, printed,
      ← bytes_items items]
    simp
  | .object fields, tail => by
    have hopening : Text.bytes "\x7b" = [0x7b] := by rw [Text.bytes_eq]; rfl
    have hclosing : Text.bytes "\x7d" = [0x7d] := by rw [Text.bytes_eq]; rfl
    rw [compact, enclose, Text.bytes_append, Text.bytes_append, hopening, hclosing, printed,
      ← bytes_fields fields]
    simp

theorem bytes_items : ∀ (items : List Json) (tail : List UInt8),
    Text.bytes (",".intercalate (compactItems items)) ++ tail = printedItems items tail
  | [], tail => by
    rw [compactItems, String.intercalate_nil, Text.bytes_eq, printedItems]
    rfl
  | [item], tail => by
    rw [compactItems, compactItems, String.intercalate_singleton, printedItems, bytes_compact item]
  | item :: next :: rest, tail => by
    have hcomma : Text.bytes "," = [0x2c] := by rw [Text.bytes_eq]; rfl
    have hrest := bytes_items (next :: rest) tail
    rw [compactItems] at hrest
    rw [compactItems, compactItems, String.intercalate_cons_cons, Text.bytes_append,
      Text.bytes_append, hcomma, List.append_assoc, List.append_assoc, hrest, bytes_compact item]
    rfl

theorem bytes_fields : ∀ (fields : List (String × Json)) (tail : List UInt8),
    Text.bytes (",".intercalate (compactFields fields)) ++ tail = printedFields fields tail
  | [], tail => by
    rw [compactFields, String.intercalate_nil, Text.bytes_eq, printedFields]
    rfl
  | [(name, value)], tail => by
    rw [compactFields, compactFields, String.intercalate_singleton, printedFields, bytes_field,
      bytes_compact value]
  | (name, value) :: (label, next) :: rest, tail => by
    have hcomma : Text.bytes "," = [0x2c] := by rw [Text.bytes_eq]; rfl
    have hrest := bytes_fields ((label, next) :: rest) tail
    rw [compactFields] at hrest
    rw [compactFields, compactFields, String.intercalate_cons_cons, Text.bytes_append,
      Text.bytes_append, hcomma, List.append_assoc, List.append_assoc, hrest, bytes_field,
      bytes_compact value]
    rfl

end

/-! ### Texts that are read as their values -/

/-- The text of a value is read as the tree of the value, and nothing follows. -/
def Rereads (value : Json) : Prop :=
  Document.ofBytes (Text.bytes value.compact) = (Document.ofJson value, false)

theorem rereads_iff {value : Json} : value.Rereads ↔
    (Document.ofBytes (value.printed [])).1.value? = some value ∧
      (Document.ofBytes (value.printed [])).2 = false := by
  rw [← bytes_compact, List.append_nil]
  constructor
  · intro h
    rw [h]
    exact ⟨Document.value?_ofJson value, rfl⟩
  · rintro ⟨hvalue, hrest⟩
    exact Prod.ext (Document.eq_ofJson hvalue) hrest

instance (value : Json) : Decidable value.Rereads := decidable_of_iff _ rereads_iff.symm

/-- What is read from the text of a value is read from its tree. -/
theorem Rereads.ofBytes_eq {value : Json} (h : value.Rereads) {α : Type} (decode : Decoder α) :
    ofBytes decode (Text.bytes value.compact) =
      (decode (some depthLimit) (Document.ofJson value)).mapError .met := by
  have hread : Document.ofBytes (Text.bytes value.compact) = (Document.ofJson value, false) := h
  rw [ofBytes, hread]
  dsimp only
  cases decode (some depthLimit) (Document.ofJson value) <;> rfl

end Reconciliation.Json
