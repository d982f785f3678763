import Reconciliation.Json.Number
import Reconciliation.Text.Utf8

namespace Reconciliation.Json

/-!
# JSON tokens

The bytes of a text cut into tokens:

* `Break` — how a text breaks off, told apart by what the reader wants of it;
* `Token` — the tokens, among them the ones that no reader gets past;
* `StringScan.scan` — the content of a string;
* `Token.ofBytes` — all tokens of a text, up to the first that no reader gets past.

A string or a number can be complete as a token and still have no content: a reader that skips it
passes over it, and one that takes it in meets a problem.
-/

/-- The problem at the place where a text breaks off, for a reader that takes the value in
    (`strict`), for one that skips it (`lax`), and for one that wants an object with one field and
    looks at nothing else (`sole`). -/
structure Break where
  strict : Category
  lax : Category
  sole : Category
deriving DecidableEq, Repr

/-- A break that is the same for every reader. -/
def Break.any (category : Category) : Break := ⟨category, category, category⟩

/-- A piece of a JSON text. -/
inductive Token where
  | openArray
  | closeArray
  | openObject
  | closeObject
  | comma
  | colon
  | literal (value : Json)
  | number (value : Except Category Number)
  | string (content : Except Category String)
  /-- A string that breaks off. -/
  | cutString (reason : Break)
  /-- A literal or a number that breaks off; `isNull` says that it began like `null`. -/
  | cutScalar (isNull : Bool) (reason : Break)
  /-- A byte that starts no token. -/
  | stray

/-! ### Strings -/

/-- What a scan of the bytes after a quotation mark found. -/
inductive StringScan where
  /-- A string that takes `length` bytes, its closing mark counted. -/
  | closed (content : Except Category (List UInt8)) (length : Nat)
  | cut (reason : Break)

namespace StringScan

/-- The number that four hexadecimal digits stand for. -/
def hexNumber? (a b c d : UInt8) : Option Nat :=
  [a, b, c, d].foldlM (fun n byte => (value? byte).map (n * 16 + ·)) 0
where
  /-- The value of one digit. -/
  value? (byte : UInt8) : Option Nat :=
    if 0x30 ≤ byte && byte ≤ 0x39 then some (byte.toNat - 0x30)
    else if 0x41 ≤ byte && byte ≤ 0x46 then some (byte.toNat - 0x37)
    else if 0x61 ≤ byte && byte ≤ 0x66 then some (byte.toNat - 0x57)
    else none

/-- The byte that a backslash and a letter stand for. -/
def escaped? (letter : UInt8) : Option UInt8 :=
  if letter = 0x22 ∨ letter = 0x5c ∨ letter = 0x2f then some letter
  else if letter = 0x62 then some 0x08
  else if letter = 0x66 then some 0x0c
  else if letter = 0x6e then some 0x0a
  else if letter = 0x72 then some 0x0d
  else if letter = 0x74 then some 0x09
  else none

/-- What has been read of a string: its bytes, last one first, the leading surrogate that waits for
    its partner, and the first problem of a reader that takes the string in. -/
structure State where
  content : List UInt8
  waiting : Option Nat
  problem : Option Category

/-- The state before the first byte. -/
def State.initial : State := ⟨[], none, none⟩

/-- The state with the problem of a surrogate without partner, if one waits. -/
def State.settle (s : State) : State :=
  if s.waiting.isSome then ⟨s.content, none, s.problem <|> some .malformed⟩ else s

/-- The state after one more byte of content. -/
def State.push (s : State) (byte : UInt8) : State :=
  let s := s.settle
  ⟨byte :: s.content, none, s.problem⟩

/-- The state after the character of a code point. -/
def State.pushPoint (s : State) (point : Nat) : State :=
  ⟨(Text.bytes (Char.ofNat point).toString).reverse ++ s.content, none, s.problem⟩

/-- The state after a number written with four hexadecimal digits. -/
def State.unit (s : State) (n : Nat) : State :=
  match s.waiting with
  | some lead =>
    -- The two halves together are one character beyond the first plane.
    if 0xdc00 ≤ n && n ≤ 0xdfff then
      s.pushPoint ((lead - 0xd800) * 0x400 + (n - 0xdc00) + 0x10000)
    else s.settle
  | none =>
    if 0xd800 ≤ n && n ≤ 0xdbff then ⟨s.content, some n, s.problem⟩
    else if 0xdc00 ≤ n && n ≤ 0xdfff then ⟨s.content, none, s.problem <|> some .malformed⟩
    else s.pushPoint n

/-- The break at this point, where skipping meets `category`. -/
def State.breakOff (s : State) (category : Category) : StringScan :=
  let strict := s.problem.getD category
  .cut ⟨strict, category, strict⟩

/-- The string at its closing mark.  Its bytes have to be the bytes of a text. -/
def State.close (s : State) (length : Nat) : StringScan :=
  match s.settle.problem with
  | some category => .closed (.error category) length
  | none => .closed (.ok s.content.reverse) length

/-- Reads on, `length` bytes after the opening mark. -/
def scanFrom (s : State) (length : Nat) : List UInt8 → StringScan
  | [] => s.breakOff .ended
  | 0x22 :: _ => s.close (length + 1)
  | 0x5c :: 0x75 :: a :: b :: c :: d :: rest =>
    match hexNumber? a b c d with
    | some n => scanFrom (s.unit n) (length + 6) rest
    | none => s.breakOff .malformed
  -- Fewer than four bytes follow, whatever they are.
  | 0x5c :: 0x75 :: _ => s.breakOff .ended
  | [0x5c] => s.breakOff .ended
  | 0x5c :: letter :: rest =>
    match escaped? letter with
    | some byte => scanFrom (s.push byte) (length + 2) rest
    | none => s.settle.breakOff .malformed
  | byte :: rest =>
    -- Control characters have to be escaped.
    if byte < 0x20 then s.settle.breakOff .malformed
    else scanFrom (s.push byte) (length + 1) rest

/-- Reads the bytes after an opening mark. -/
def scan (bytes : List UInt8) : StringScan := scanFrom .initial 0 bytes

end StringScan

/-! ### Tokens -/

namespace Token

/-- The token of a string, and the bytes it takes after its opening mark. -/
def ofString (bytes : List UInt8) : Token × Nat :=
  match StringScan.scan bytes with
  | .cut reason => (cutString reason, bytes.length)
  | .closed (.error category) length => (string (.error category), length)
  | .closed (.ok content) length =>
    match Text.decode? content with
    | some text => (string (.ok text), length)
    | none => (string (.error .malformed), length)

/-- The token of a number, and the bytes it takes after its first. -/
def ofNumber (bytes : List UInt8) : Token × Nat :=
  match Numeral.scan bytes with
  | .found numeral length => (number numeral.value, length - 1)
  | .cut true => (cutScalar false ⟨.ended, .malformed, .ended⟩, bytes.length)
  | .cut false => (cutScalar false (.any .malformed), bytes.length)

/-- The token of a literal spelt `rest` after its first byte, and the bytes it takes there. -/
def ofLiteral (spelling : List UInt8) (value : Json) (bytes : List UInt8) : Token × Nat :=
  if spelling.isPrefixOf bytes then (literal value, spelling.length)
  else if bytes.isPrefixOf spelling then (cutScalar (value = .null) (.any .ended), bytes.length)
  else (cutScalar (value = .null) (.any .malformed), bytes.length)

/-- The token that starts with `byte`, and how many of the bytes after it belong to it. -/
def startingWith (byte : UInt8) (rest : List UInt8) : Token × Nat :=
  if byte = 0x5b then (openArray, 0)
  else if byte = 0x5d then (closeArray, 0)
  else if byte = 0x7b then (openObject, 0)
  else if byte = 0x7d then (closeObject, 0)
  else if byte = 0x2c then (comma, 0)
  else if byte = 0x3a then (colon, 0)
  else if byte = 0x22 then ofString rest
  else if byte = 0x6e then ofLiteral (Text.bytes "ull") .null rest
  else if byte = 0x74 then ofLiteral (Text.bytes "rue") (.bool true) rest
  else if byte = 0x66 then ofLiteral (Text.bytes "alse") (.bool false) rest
  else if byte = 0x2d || Numeral.isDigit byte then ofNumber (byte :: rest)
  else (stray, rest.length)

/-- Whether the byte may stand between tokens. -/
def isSpace (byte : UInt8) : Bool :=
  byte = 0x20 || byte = 0x0a || byte = 0x09 || byte = 0x0d

/-- The tokens of a text. -/
def ofBytes : List UInt8 → List Token
  | [] => []
  | byte :: rest =>
    if isSpace byte then ofBytes rest
    else
      let (token, length) := startingWith byte rest
      token :: ofBytes (rest.drop length)
termination_by bytes => bytes.length
decreasing_by all_goals simp_wf; try omega

end Token

end Reconciliation.Json
