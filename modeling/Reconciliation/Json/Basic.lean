import Reconciliation.Table

namespace Reconciliation

/-!
# JSON values

* `Json.Number` — a whole number, or the bits of a binary64 number;
* `Json` — the values; the fields of an object are listed in the order of their names, each name
  once (`Json.ofFields` builds such a list, and the last field of a name counts);
* `Json.Problem` — why a text or a value could not be read as what was asked for;
* `Json.field?`, `Json.text?` and the like — the parts of a value.
-/

namespace Json

/-- A JSON number.  Whole numbers reach from `-2 ^ 63` to `2 ^ 64 - 1`; every other number is held
    as the bits of a binary64 number. -/
inductive Number where
  | whole (value : Int)
  | double (bits : UInt64)
deriving DecidableEq, Repr, Inhabited

/-- What kind of problem stopped the reading. -/
inductive Category where
  /-- The text ended too early. -/
  | ended
  /-- The text is no JSON, or too deep, or holds a number out of range, or goes on too long. -/
  | malformed
  /-- The value has another shape than the one asked for. -/
  | mismatched
deriving DecidableEq, Repr, Inhabited

/-- A problem met while reading, with its description. -/
structure Problem where
  category : Category
  detail : String
deriving DecidableEq, Repr, Inhabited

/-- A problem met by the reader of this library, which describes none any further. -/
def Problem.met (category : Category) : Problem :=
  ⟨category, "<json>"⟩

end Json

/-- A JSON value. -/
inductive Json where
  | null
  | bool (value : Bool)
  | number (value : Json.Number)
  | string (value : String)
  | array (items : List Json)
  | object (fields : List (String × Json))
deriving Repr, Inhabited

namespace Json

/-! ### Equality -/

mutual

/-- Decides whether two values are the same. -/
def decideEq : (a b : Json) → Decidable (a = b)
  | null, null => isTrue rfl
  | bool a, bool b => decidable_of_iff (a = b) (by simp)
  | number a, number b => decidable_of_iff (a = b) (by simp)
  | string a, string b => decidable_of_iff (a = b) (by simp)
  | array a, array b =>
    match decideEqItems a b with
    | isTrue h => isTrue (by rw [h])
    | isFalse h => isFalse (by simpa using h)
  | object a, object b =>
    match decideEqFields a b with
    | isTrue h => isTrue (by rw [h])
    | isFalse h => isFalse (by simpa using h)
  | null, bool _ | null, number _ | null, string _ | null, array _ | null, object _
  | bool _, null | bool _, number _ | bool _, string _ | bool _, array _ | bool _, object _
  | number _, null | number _, bool _ | number _, string _ | number _, array _
  | number _, object _
  | string _, null | string _, bool _ | string _, number _ | string _, array _
  | string _, object _
  | array _, null | array _, bool _ | array _, number _ | array _, string _ | array _, object _
  | object _, null | object _, bool _ | object _, number _ | object _, string _
  | object _, array _ => isFalse (by simp)

/-- Decides whether two lists of items are the same. -/
def decideEqItems : (a b : List Json) → Decidable (a = b)
  | [], [] => isTrue rfl
  | [], _ :: _ | _ :: _, [] => isFalse (by simp)
  | a :: as, b :: bs =>
    match decideEq a b, decideEqItems as bs with
    | isTrue h, isTrue hs => isTrue (by rw [h, hs])
    | isFalse h, _ => isFalse (by simp [h])
    | _, isFalse hs => isFalse (by simp [hs])

/-- Decides whether two lists of fields are the same. -/
def decideEqFields : (a b : List (String × Json)) → Decidable (a = b)
  | [], [] => isTrue rfl
  | [], _ :: _ | _ :: _, [] => isFalse (by simp)
  | (m, a) :: as, (n, b) :: bs =>
    match decEq m n, decideEq a b, decideEqFields as bs with
    | isTrue hn, isTrue h, isTrue hs => isTrue (by rw [hn, h, hs])
    | isFalse hn, _, _ => isFalse (by simp [hn])
    | _, isFalse h, _ => isFalse (by simp [h])
    | _, _, isFalse hs => isFalse (by simp [hs])

end

instance : DecidableEq Json := decideEq

/-! ### Building and looking into values -/

/-- A natural number as a value. -/
def ofNat (n : Nat) : Json := number (.whole n)

/-- The object with the listed fields, where the last field of a name counts. -/
def ofFields (fields : List (String × Json)) : Json :=
  object (Entries.ofList fields)

/-- The value, or `null`. -/
def ofOption : Option Json → Json
  | some value => value
  | none => null

mutual

/-- The value with the fields of every object in it in the order of their names. -/
def sorted : Json → Json
  | array items => array (sortedItems items)
  | object fields => ofFields (sortedFields fields)
  | value@(null) | value@(bool _) | value@(number _) | value@(string _) => value

/-- Each item with its fields in order. -/
def sortedItems : List Json → List Json
  | [] => []
  | item :: rest => sorted item :: sortedItems rest

/-- Each field with the fields of its value in order. -/
def sortedFields : List (String × Json) → List (String × Json)
  | [] => []
  | (name, value) :: rest => (name, sorted value) :: sortedFields rest

end

/-- The fields of an object. -/
def fields? : Json → Option (List (String × Json))
  | object fields => some fields
  | _ => none

/-- The field of an object. -/
def field? (name : String) : Json → Option Json
  | object fields => Entries.find? name fields
  | _ => none

/-- The text of a string. -/
def text? : Json → Option String
  | string text => some text
  | _ => none

/-- The items of an array. -/
def items? : Json → Option (List Json)
  | array items => some items
  | _ => none

end Json

end Reconciliation
