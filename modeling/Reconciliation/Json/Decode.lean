import Reconciliation.Json.Document

namespace Reconciliation.Json

/-!
# Decoding documents

How a document is read as a value of some type:

* `Decoder` — a way of reading a document, given how many more arrays and objects may open;
* `any`, `text`, `boolean`, `natural`, `nullable`, `list`, `table` — the basic decoders;
* `record` — decodes a record from an object or from an array of its members in order;
* `tagged` — decodes a name out of a fixed set;
* `ofText`, `ofBytes`, `ofValue` — a decoder applied to a text or to a value.

A decoder walks through the document in order and stops at the first problem.  A scalar of the wrong
kind is read before it is refused, so that its own problem comes first; an array or object of the
wrong kind is refused where it opens.
-/

/-- How many more arrays and objects may be opened; `none` if there is no limit. -/
abbrev Room := Option Nat

/-- A way of reading a document. -/
abbrev Decoder (α : Type) := Room → Document → Except Category α

/-- The arrays and objects that may be open at once in a text. -/
def depthLimit : Nat := 127

/-- The room inside an array or object that is opened. -/
def Room.enter : Room → Except Category Room
  | none => .ok none
  | some 0 => .error .malformed
  | some (n + 1) => .ok (some n)

namespace Document

/-- The problem with a document of the wrong kind. -/
def mismatch : Document → Category
  | number (.error category) | string (.error category) => category
  | missing _ reason => reason.strict
  | null | bool _ | number (.ok _) | string (.ok _) | array _ _ | object _ _ => .mismatched

/-- The problem that stops a reader that skips the document. -/
def skipProblem : Document → Option Category
  | array _ ending | object _ ending => ending.map (·.lax)
  | missing _ reason => some reason.lax
  | null | bool _ | number _ | string _ => none

end Document

/-- The end of an array or object has to be there. -/
def closed (ending : Option Break) : Except Category Unit :=
  match ending with
  | none => .ok ()
  | some reason => .error reason.strict

/-! ### Basic decoders -/

mutual

/-- Any value; the last field of a name counts. -/
def any : Decoder Json
  | _, .null => .ok .null
  | _, .bool value => .ok (.bool value)
  | _, .number value => value.map .number
  | _, .string content => content.map .string
  | room, .array items ending => do
    let room ← room.enter
    let values ← anyItems room items
    closed ending
    return .array values
  | room, .object fields ending => do
    let room ← room.enter
    let values ← anyFields room fields
    closed ending
    return ofFields values
  | _, .missing _ reason => .error reason.strict

/-- Any items. -/
def anyItems (room : Room) : List Document → Except Category (List Json)
  | [] => .ok []
  | item :: rest => do
    let value ← any room item
    return value :: (← anyItems room rest)

/-- Any fields. -/
def anyFields (room : Room) :
    List (Except Category String × Document) → Except Category (List (String × Json))
  | [] => .ok []
  | (name, document) :: rest => do
    let name ← name
    let value ← any room document
    return (name, value) :: (← anyFields room rest)

end

/-- A string. -/
def text : Decoder String
  | _, .string (.ok content) => .ok content
  | _, document => .error document.mismatch

/-- A truth value. -/
def boolean : Decoder Bool
  | _, .bool value => .ok value
  | _, document => .error document.mismatch

/-- A whole number from zero to below `limit`. -/
def natural (limit : Nat) : Decoder Nat
  | _, .number (.ok (.whole (.ofNat n))) => if n < limit then .ok n else .error .mismatched
  | _, document => .error document.mismatch

/-- `null`, or what `decode` reads. -/
def nullable {α : Type} (decode : Decoder α) : Decoder (Option α)
  | _, .null => .ok none
  | room, document => (decode room document).map some

/-- An array of what `decode` reads. -/
def list {α : Type} (decode : Decoder α) : Decoder (List α)
  | room, .array items ending => do
    let room ← room.enter
    let values ← items.mapM (decode room)
    closed ending
    return values
  | _, document => .error document.mismatch

/-- An object whose values `decode` reads, as a table. -/
def table {α : Type} (decode : Decoder α) : Decoder (Table String α)
  | room, .object fields ending => do
    let room ← room.enter
    let entries ← fields.mapM fun (name, document) => do
      let name ← name
      return (name, ← decode room document)
    closed ending
    return .ofList entries
  | _, document => .error document.mismatch

/-! ### Records -/

/-- A member of a record that is collected in an `α`. -/
structure Member (α : Type) where
  name : String
  required : Bool
  read : Decoder (α → α)

/-- A member that has to be there. -/
def Member.needed {α β : Type} (name : String) (decode : Decoder β) (store : β → α → α) :
    Member α :=
  ⟨name, true, fun room document => (decode room document).map store⟩

/-- A member that may be left out. -/
def Member.optional {α β : Type} (name : String) (decode : Decoder β) (store : β → α → α) :
    Member α :=
  ⟨name, false, fun room document => (decode room document).map store⟩

/-- What is done with a field that is no member of the record. -/
abbrev Other (α : Type) := String → Decoder (α → α)

/-- A field that is no member is skipped. -/
def Other.skip {α : Type} : Other α := fun _ _ document =>
  match document.skipProblem with
  | none => .ok id
  | some category => .error category

/-- Reads the fields of a record; `seen` are the names of members read so far.  A member that comes
    twice is refused at its name. -/
def readFields {α : Type} (members : List (Member α)) (other : Other α) (room : Room)
    (seen : List String) (collected : α) :
    List (Except Category String × Document) → Except Category (List String × α)
  | [] => .ok (seen, collected)
  | (name, document) :: rest => do
    let name ← name
    match members.find? (·.name == name) with
    | some member =>
      -- The value is not even looked at.
      if seen.contains name then .error .mismatched
      else
        let store ← member.read room document
        readFields members other room (name :: seen) (store collected) rest
    | none =>
      let store ← other name room document
      readFields members other room seen (store collected) rest

/-- Reads the items of an array as the members of a record in order. -/
def readItems {α : Type} (room : Room) (ending : Option Break) (collected : α) :
    List (Member α) → List Document → Except Category α
  | [], [] => do
    closed ending
    return collected
  -- More items than members are a fault of the text, and not of its shape.
  | [], _ :: _ => .error .malformed
  | member :: members, [] => do
    closed ending
    if member.required then .error .mismatched else readItems room ending collected members []
  | member :: members, item :: rest => do
    let store ← member.read room item
    readItems room ending (store collected) members rest

/-- A record from an object.  A required member that is left out is missed at the end. -/
def recordOfFields {α : Type} (members : List (Member α)) (other : Other α) (initial : α) :
    Decoder α
  | room, .object fields ending => do
    let room ← room.enter
    let (seen, collected) ← readFields members other room [] initial fields
    closed ending
    if members.all fun member => !member.required || seen.contains member.name then
      return collected
    else .error .mismatched
  | _, document => .error document.mismatch

/-- A record from an object or from an array; fields that are no members are skipped. -/
def record {α : Type} (members : List (Member α)) (initial : α) : Decoder α
  | room, .array items ending => do
    let room ← room.enter
    readItems room ending initial members items
  | room, document => recordOfFields members .skip initial room document

/-- A name for which `find?` has a value: a string, or an object with the name as its only field
    and `null` there. -/
def tagged {α : Type} (find? : String → Option α) : Decoder α
  | _, .string content => do
    let name ← content
    (find? name).elim (.error .mismatched) .ok
  | room, .object fields ending => do
    let _ ← room.enter
    match fields with
    | [] => .error (ending.elim .malformed (·.sole))
    | (name, document) :: rest =>
      let name ← name
      let value ← (find? name).elim (.error .mismatched) .ok
      -- Nothing comes with a name, so only `null` can stand in the place of its value.
      match document with
      | .null =>
        if rest.isEmpty then ending.elim (.ok value) (.error ·.sole)
        else .error .malformed
      | other => .error other.mismatch
  | _, .missing begun reason => .error (if begun then .malformed else reason.strict)
  | _, _ => .error .malformed

/-! ### Applying decoders -/

/-- What the decoder reads from the bytes of a text.  Nothing but spaces may follow. -/
def ofBytes {α : Type} (decode : Decoder α) (bytes : List UInt8) : Except Problem α :=
  let (document, goesOn) := Document.ofBytes bytes
  match decode (some depthLimit) document with
  | .error category => .error (.met category)
  | .ok value => if goesOn then .error (.met .malformed) else .ok value

/-- What the decoder reads from a text. -/
def ofText {α : Type} (decode : Decoder α) (text : String) : Except Problem α :=
  ofBytes decode (Text.bytes text)

/-- What the decoder reads from a value.  There is no limit of depth, and whatever is wrong is a
    matter of shape. -/
def ofValue {α : Type} (decode : Decoder α) (value : Json) : Except Problem α :=
  match decode none (Document.ofJson value) with
  | .error _ => .error (.met .mismatched)
  | .ok value => .ok value

end Reconciliation.Json
