import Reconciliation.Decimal.Layout
import Reconciliation.Json.Basic

namespace Reconciliation.Json

/-!
# JSON numbers as text

* `Numeral` — the digits of a number as they are written;
* `Numeral.scan` — the numeral at the start of some bytes, and how many bytes it takes;
* `Numeral.value` — the number that a numeral stands for;
* `Number.text` — the text that a number is written as.

A numeral without fraction and power is a whole number where `Number.whole` reaches.  Every other
one is computed in binary64: as many leading digits as fit into 64 bits are converted, then
multiplied or divided by a power of ten, in steps of at most `10 ^ 308`.  The two roundings may give
a neighbour of the nearest number.
-/

/-- The parts of a written number.  `power` holds the sign of the power of ten and its digits. -/
structure Numeral where
  negative : Bool
  whole : List Nat
  fraction : List Nat
  isWhole : Bool
  power : Option (Bool × List Nat)
deriving Repr

/-- What a scan for a numeral found. -/
inductive Numeral.Scan where
  /-- A numeral that takes `length` bytes. -/
  | found (numeral : Numeral) (length : Nat)
  /-- The bytes start no numeral; `atEnd` says that they end where a digit has to follow. -/
  | cut (atEnd : Bool)

namespace Numeral

/-- Whether the byte is a decimal digit. -/
def isDigit (byte : UInt8) : Bool := 0x30 ≤ byte && byte ≤ 0x39

/-- The values of the digits at the start. -/
def digits (bytes : List UInt8) : List Nat :=
  (bytes.takeWhile isDigit).map fun byte => byte.toNat - 0x30

/-- The digits before the point; a leading zero stands alone. -/
def scanWhole (bytes : List UInt8) : Except Bool (List Nat) :=
  match bytes, digits bytes with
  | [], _ => .error true
  | _, [] => .error false
  -- A digit after a leading zero starts no other token either, so the numeral breaks off.
  | _, 0 :: _ :: _ => .error false
  | _, found => .ok found

/-- The digits after the point, and the bytes they take with it. -/
def scanFraction (bytes : List UInt8) : Except Bool (Option (List Nat) × Nat) :=
  match bytes with
  | 0x2e :: rest =>
    match digits rest with
    | [] => .error rest.isEmpty
    | found => .ok (some found, found.length + 1)
  | _ => .ok (none, 0)

/-- The sign at the start of a power of ten, and the bytes it takes. -/
def scanSign (bytes : List UInt8) : Bool × Nat :=
  match bytes with
  | 0x2b :: _ => (false, 1)
  | 0x2d :: _ => (true, 1)
  | _ => (false, 0)

/-- The power of ten, and the bytes it takes. -/
def scanPower (bytes : List UInt8) : Except Bool (Option (Bool × List Nat) × Nat) :=
  match bytes with
  | [] => .ok (none, 0)
  | byte :: rest =>
    if byte = 0x65 ∨ byte = 0x45 then
      let (negative, sign) := scanSign rest
      match digits (rest.drop sign) with
      | [] => .error (rest.drop sign).isEmpty
      | found => .ok (some (negative, found), 1 + sign + found.length)
    else .ok (none, 0)

/-- The numeral at the start of the bytes. -/
def scan (bytes : List UInt8) : Scan :=
  let negative := bytes.head? == some 0x2d
  let start := if negative then 1 else 0
  let parts : Except Bool (Numeral × Nat) := do
    let whole ← scanWhole (bytes.drop start)
    let reached := start + whole.length
    let (fraction, width) ← scanFraction (bytes.drop reached)
    let (power, breadth) ← scanPower (bytes.drop (reached + width))
    return (⟨negative, whole, fraction.getD [], fraction.isNone && power.isNone, power⟩,
      reached + width + breadth)
  match parts with
  | .ok (numeral, length) => .found numeral length
  | .error atEnd => .cut atEnd

/-- Appends digits to a number as long as it stays below `limit`; the digits left over follow. -/
def gather (limit : Nat) (number : Nat) : List Nat → Nat × List Nat
  | [] => (number, [])
  | d :: rest =>
    if number * 10 + d < limit then gather limit (number * 10 + d) rest
    else (number, d :: rest)

/-- The power `10 ^ n` as a binary64 number. -/
def tenTo (n : Nat) : Float := OfScientific.ofScientific 1 false n

/-- `x / 10 ^ n`, in steps of at most `10 ^ 308`. -/
def scaleDown (x : Float) (n : Nat) : Float :=
  if n ≤ 308 then x / tenTo n
  else if x == 0 then x
  else scaleDown (x / tenTo 308) (n - 308)
termination_by n

/-- `x · 10 ^ power`, unless it is too large. -/
def scale (x : Float) (power : Int) : Except Category Float :=
  match power with
  | .ofNat n =>
    if n ≤ 308 then
      let y := x * tenTo n
      if y.isInf then .error .malformed else .ok y
    else if x == 0 then .ok x
    else .error .malformed
  | .negSucc n => .ok (scaleDown x (n + 1))

/-- A binary64 number with its sign. -/
def double (negative : Bool) (x : Float) : Number :=
  .double (if negative then -x else x).toBits

/-- The number that the numeral stands for; an error if it is out of range. -/
def value (n : Numeral) : Except Category Number := do
  let (whole, surplus) := gather UInt64.size 0 n.whole
  if n.isWhole && surplus.isEmpty then
    if !n.negative then return .whole whole
    -- Minus zero is no whole number: it keeps its sign.
    else if 0 < whole && whole ≤ 1 <<< 63 then return .whole (-whole)
    else return double true whole.toUInt64.toFloat
  else
    -- Digits that find no room are dropped; those before the point still count as powers of ten.
    let (significand, unused) := gather UInt64.size whole n.fraction
    let point : Int := (surplus.length : Int) - ((n.fraction.length - unused.length : Nat) : Int)
    match n.power with
    | none => return double n.negative (← scale significand.toUInt64.toFloat point)
    | some (below, powerDigits) =>
      let (power, overflow) := gather (1 <<< 31) 0 powerDigits
      if overflow.isEmpty then
        let total := if below then point - power else point + power
        return double n.negative (← scale significand.toUInt64.toFloat total)
      -- A power out of all bounds leaves zero, unless it makes the number too large.
      else if significand ≠ 0 && !below then .error .malformed
      else return double n.negative 0

end Numeral

/-- The text of a number: whole numbers by their digits; the others by the fewest digits that name
    them, positional from `10 ^ -5` below `10 ^ 16` and always with a point there. -/
def Number.text : Number → String
  | .whole value => toString value
  | .double bits =>
    let decimal := Binary.decimal bits
    (if Binary.isNegative bits then "-" else "") ++
      if -5 ≤ decimal.magnitude && decimal.magnitude ≤ 15 then decimal.positional ".0"
      else decimal.scientific

end Reconciliation.Json
