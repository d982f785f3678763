import Reconciliation.Json.Token

namespace Reconciliation.Json

/-!
# JSON documents

The tree of a text, read as far as the text is well formed:

* `Document` — a tree that keeps the order of the text, repeated fields, numbers out of range and
  strings without content, and that may break off;
* `Document.ofTokens`, `Document.ofBytes` — the tree of a text;
* `Document.ofJson` — the tree of a value.

Where the text breaks off, every open array and object ends in the same `Break`.  A reader that
walks through the tree in order therefore meets the problems of the text in their order.
-/

/-- A tree read from a text. -/
inductive Document where
  | null
  | bool (value : Bool)
  | number (value : Except Category Number)
  | string (content : Except Category String)
  /-- An array, and how it breaks off if it does. -/
  | array (items : List Document) (ending : Option Break)
  /-- An object, and how it breaks off if it does. -/
  | object (fields : List (Except Category String × Document)) (ending : Option Break)
  /-- No value stands here.  `begun` says that a number, `true` or `false` had begun. -/
  | missing (begun : Bool) (reason : Break)

namespace Document

/-- An array or object that has been opened; what it holds so far, last one first. -/
inductive Frame where
  | array (items : List Document)
  /-- An object; `name` is set while its value is read. -/
  | object (fields : List (Except Category String × Document))
      (name : Option (Except Category String))

/-- What the text has to go on with. -/
inductive Place where
  /-- A value. -/
  | value
  /-- The first item of an array, or its end. -/
  | firstItem
  /-- The first name of an object, or its end. -/
  | firstName
  /-- The next name of an object. -/
  | nextName
  /-- A colon. -/
  | colon
  /-- A comma, or the end of the innermost array or object. -/
  | separator

/-- A state of the reading: what comes next, and what is open, innermost first. -/
structure State where
  place : Place
  frames : List Frame

/-- How the reading goes on after a token. -/
inductive Step where
  | next (state : State)
  | finished (document : Document)
  | broken (begun : Bool) (reason : Break)

/-- A complete value is put into the innermost frame. -/
def State.put (frames : List Frame) (document : Document) : Step :=
  match frames with
  | [] => .finished document
  | .array items :: outer => .next ⟨.separator, .array (document :: items) :: outer⟩
  | .object fields (some name) :: outer =>
    .next ⟨.separator, .object ((name, document) :: fields) none :: outer⟩
  | .object fields none :: outer => .next ⟨.separator, .object fields none :: outer⟩

/-- A value starts with the token. -/
def State.startValue (frames : List Frame) : Token → Step
  | .literal (.bool value) => put frames (.bool value)
  | .literal _ => put frames .null
  | .number value => put frames (.number value)
  | .string content => put frames (.string content)
  | .openArray => .next ⟨.firstItem, .array [] :: frames⟩
  | .openObject => .next ⟨.firstName, .object [] none :: frames⟩
  | .cutString reason => .broken false reason
  | .cutScalar isNull reason => .broken (!isNull) reason
  | .closeArray | .closeObject | .comma | .colon | .stray => .broken false (.any .malformed)

/-- A name of the innermost object starts with the token.  No value but a string is even begun in
    the place of a name. -/
def State.startName (frames : List Frame) (token : Token) : Step :=
  match token, frames with
  | .string name, .object fields _ :: outer => .next ⟨.colon, .object fields (some name) :: outer⟩
  | .cutString reason, _ => .broken false reason
  | _, _ => .broken false (.any .malformed)

/-- The reading after one more token. -/
def State.step (s : State) (token : Token) : Step :=
  match s.place, token, s.frames with
  | .value, _, _ => startValue s.frames token
  | .firstItem, .closeArray, .array items :: outer => put outer (.array items.reverse none)
  | .firstItem, _, _ => startValue s.frames token
  | .firstName, .closeObject, .object fields _ :: outer =>
    put outer (.object fields.reverse none)
  | .firstName, _, _ | .nextName, _, _ => startName s.frames token
  | .colon, .colon, _ => .next ⟨.value, s.frames⟩
  | .separator, .comma, .array _ :: _ => .next ⟨.value, s.frames⟩
  | .separator, .comma, .object _ _ :: _ => .next ⟨.nextName, s.frames⟩
  | .separator, .closeArray, .array items :: outer => put outer (.array items.reverse none)
  | .separator, .closeObject, .object fields _ :: outer =>
    put outer (.object fields.reverse none)
  | .colon, _, _ | .separator, _, _ => .broken false (.any .malformed)

/-- The tree when the text breaks off: each frame holds the part that was open inside it. -/
def breakOff (reason : Break) (inner : Document) : List Frame → Document
  | [] => inner
  | .array items :: outer =>
    breakOff reason (.array (inner :: items).reverse (some reason)) outer
  | .object fields (some name) :: outer =>
    breakOff reason (.object ((name, inner) :: fields).reverse (some reason)) outer
  | .object fields none :: outer =>
    breakOff reason (.object fields.reverse (some reason)) outer

/-- The tree when the text breaks off in a state.  A value that is awaited is missing.  After a
    comma an object has more than one field, whatever comes. -/
def State.breakOff (begun : Bool) (reason : Break) (s : State) : Document :=
  match s.place, s.frames with
  | .value, _ | .colon, _ => Document.breakOff reason (.missing begun reason) s.frames
  | .firstItem, .array items :: outer | .separator, .array items :: outer =>
    Document.breakOff reason (.array items.reverse (some reason)) outer
  | .nextName, .object fields _ :: outer =>
    -- The comma alone is too much for a reader that wants one field.
    let reason := { reason with sole := .malformed }
    Document.breakOff reason (.object fields.reverse (some reason)) outer
  | _, .object fields _ :: outer =>
    Document.breakOff reason (.object fields.reverse (some reason)) outer
  | _, _ => .missing begun reason

/-- The tree of the tokens from a state on, and the tokens left over. -/
def ofTokensFrom (s : State) : List Token → Document × List Token
  | [] => (s.breakOff false (.any .ended), [])
  | token :: rest =>
    match s.step token with
    | .next s' => ofTokensFrom s' rest
    | .finished document => (document, rest)
    | .broken begun reason => (s.breakOff begun reason, rest)

/-- The tree at the start of the tokens, and the tokens left over. -/
def ofTokens (tokens : List Token) : Document × List Token :=
  ofTokensFrom ⟨.value, []⟩ tokens

/-- The tree of a text, and whether the text goes on after it. -/
def ofBytes (bytes : List UInt8) : Document × Bool :=
  let (document, rest) := ofTokens (Token.ofBytes bytes)
  (document, !rest.isEmpty)

mutual

/-- The tree of a value. -/
def ofJson : Json → Document
  | .null => null
  | .bool value => bool value
  | .number value => number (.ok value)
  | .string text => string (.ok text)
  | .array items => array (ofItems items) none
  | .object fields => object (ofFields fields) none

/-- The trees of items. -/
def ofItems : List Json → List Document
  | [] => []
  | item :: rest => ofJson item :: ofItems rest

/-- The trees of fields. -/
def ofFields : List (String × Json) → List (Except Category String × Document)
  | [] => []
  | (name, value) :: rest => (.ok name, ofJson value) :: ofFields rest

end

end Document

end Reconciliation.Json
