import Reconciliation.Text.Blank
import Reconciliation.Text.Utf8

namespace Reconciliation.Text

/-!
# Percent encoding

Bytes written as `%` and two hexadecimal digits inside addresses:

* `percentDecode` — a text with its percent escapes replaced by the bytes they stand for;
* `formPairs` — the names and values of a query string, in which `+` is a space too;
* `percentEncode` — a text in which every byte outside `isPlain` is escaped.
-/

/-- The value of a hexadecimal digit. -/
def hexValue? (byte : UInt8) : Option UInt8 :=
  if 0x30 ≤ byte && byte ≤ 0x39 then some (byte - 0x30)
  else if 0x41 ≤ byte && byte ≤ 0x46 then some (byte - 0x37)
  else if 0x61 ≤ byte && byte ≤ 0x66 then some (byte - 0x57)
  else none

/-- Bytes with each `%` and two hexadecimal digits replaced by one byte; a `%` without two digits
    stays. -/
def percentDecodeBytes : List UInt8 → List UInt8
  | 0x25 :: high :: low :: rest =>
    match hexValue? high, hexValue? low with
    | some h, some l => (h * 16 + l) :: percentDecodeBytes rest
    -- The bytes after a lone percent sign may start an escape themselves.
    | _, _ => 0x25 :: percentDecodeBytes (high :: low :: rest)
  | byte :: rest => byte :: percentDecodeBytes rest
  | [] => []

/-- The text that a percent-encoded text stands for. -/
def percentDecode (text : String) : String :=
  decodeLossy (percentDecodeBytes (bytes text))

/-- One name or value of a query string. -/
def formDecode (part : String) : String :=
  decodeLossy (percentDecodeBytes ((bytes part).map fun byte => if byte = 0x2b then 0x20 else byte))

/-- The names and values of a query string; a name without `=` has the empty value. -/
def formPairs (query : String) : List (String × String) :=
  ((cutAll '&' query).filter fun piece => !piece.isEmpty).map fun piece =>
    match cutFirst? '=' piece with
    | some (name, value) => (formDecode name, formDecode value)
    | none => (formDecode piece, "")

/-- Whether a byte stands for itself in an encoded value: ASCII letters, digits and `-._~!*()`. -/
def isPlain (byte : UInt8) : Bool :=
  (0x61 ≤ byte && byte ≤ 0x7a) || (0x41 ≤ byte && byte ≤ 0x5a) || (0x30 ≤ byte && byte ≤ 0x39) ||
    (bytes "-._~!*()").contains byte

/-- The uppercase hexadecimal digit of a number below sixteen. -/
def upperHexDigit (n : Nat) : Char :=
  (Nat.digitChar n).toUpper

/-- A byte of an encoded value. -/
def percentEncodeByte (byte : UInt8) : List Char :=
  if isPlain byte then [Char.ofNat byte.toNat]
  else ['%', upperHexDigit (byte.toNat / 16), upperHexDigit (byte.toNat % 16)]

/-- The text as one encoded value. -/
def percentEncode (text : String) : String :=
  String.ofList ((bytes text).flatMap percentEncodeByte)

end Reconciliation.Text
