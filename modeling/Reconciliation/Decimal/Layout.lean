import Reconciliation.Decimal.Shortest

namespace Reconciliation

/-!
# Written decimals

Two ways of writing a decimal:

* `Decimal.positional` — all digits in place, with as many zeros as it takes;
* `Decimal.scientific` — one digit, a point, the other digits, and the power of ten;
* `Binary.isNegative`, `Binary.decimal` — sign and digits of a binary64 number, to be written.
-/

namespace Decimal

/-- The digits as characters. -/
def digitChars (d : Decimal) : List Char :=
  Nat.toDigits 10 d.digits

/-- The power of ten of the first digit. -/
def magnitude (d : Decimal) : Int :=
  d.exponent + d.digitChars.length - 1

/-- The decimal with every digit in its place.  `whole` is what follows the digits of a whole
    number. -/
def positional (d : Decimal) (whole : String) : String :=
  let digits := d.digitChars
  if 0 ≤ d.exponent then
    String.ofList (digits ++ List.replicate d.exponent.toNat '0') ++ whole
  else
    -- The point stands so many digits before the end.
    let places := (-d.exponent).toNat
    if places < digits.length then
      String.ofList
        (digits.take (digits.length - places) ++ '.' :: digits.drop (digits.length - places))
    else
      String.ofList ('0' :: '.' :: List.replicate (places - digits.length) '0' ++ digits)

/-- The decimal with one digit before the point and a signed power of ten after `e`. -/
def scientific (d : Decimal) : String :=
  let mantissa :=
    match d.digitChars with
    | [] => []
    | [c] => [c]
    | c :: rest => c :: '.' :: rest
  let power := d.magnitude
  String.ofList mantissa ++ (if power < 0 then "e-" else "e+") ++ toString power.natAbs

end Decimal

namespace Binary

/-- Whether the bits of a binary64 number carry the minus sign. -/
def isNegative (bits : UInt64) : Bool :=
  1 <<< 63 ≤ bits.toNat

/-- The shortest decimal of the magnitude of a finite binary64 number. -/
def decimal (bits : UInt64) : Decimal :=
  (ofBits bits).shortest

end Binary

end Reconciliation
