namespace Reconciliation

/-!
# Shortest decimals

The decimal with the fewest digits that still names one binary floating point number:

* `Decimal` — a natural number of units of a power of ten;
* `Binary` — a natural number of units of a power of two, as binary64 numbers are;
* `Binary.ofBits` — magnitude of a finite binary64 number, read off its bits;
* `Binary.shortest` — the shortest decimal in the interval of the reals that round to the number.

The interval reaches halfway to the two neighbours, its ends included when the mantissa is even.
Grids of powers of ten are tried from coarse to fine.  If some point of a grid lies in the interval
then so does one of the two points around the number itself, so only these two are looked at; the
nearer one wins, and of two equally near ones the even one.
-/

/-- The number `digits · 10 ^ exponent`. -/
structure Decimal where
  digits : Nat
  exponent : Int
deriving DecidableEq, Repr

/-- The number `mantissa · 2 ^ exponent`.  `narrow` says that the neighbour below is at half the
    distance of the neighbour above. -/
structure Binary where
  mantissa : Nat
  exponent : Int
  narrow : Bool
deriving DecidableEq, Repr

namespace Binary

/-- The magnitude of a finite binary64 number. -/
def ofBits (bits : UInt64) : Binary :=
  let fraction : Nat := bits.toNat % (1 <<< 52)
  let biased : Nat := bits.toNat / (1 <<< 52) % (1 <<< 11)
  if biased = 0 then ⟨fraction, -1074, false⟩
  else ⟨(1 <<< 52) + fraction, (biased : Int) - 1075, fraction = 0 && 1 < biased⟩

/-- A measure common to binary and decimal units: `n` quarters of the binary unit are `n · value`
    and `d` decimal units are `d · step` of it. -/
structure Measure where
  value : Nat
  step : Nat

/-- The measure for quarters of `2 ^ exponent` and units of `10 ^ unit`. -/
def measure (exponent unit : Int) : Measure :=
  { value := Nat.pow 2 (exponent - 2).toNat * Nat.pow 10 (-unit).toNat
    step := Nat.pow 2 (2 - exponent).toNat * Nat.pow 10 unit.toNat }

/-- Whether `d` units of the measure round to the number. -/
def covers (b : Binary) (m : Measure) (d : Nat) : Bool :=
  let low := (4 * b.mantissa - if b.narrow then 1 else 2) * m.value
  let high := (4 * b.mantissa + 2) * m.value
  -- The ends lie halfway between two numbers, and halfway goes to the even mantissa.
  if b.mantissa % 2 = 0 then low ≤ d * m.step && d * m.step ≤ high
  else low < d * m.step && d * m.step < high

/-- The point of the grid of `10 ^ unit` that names the number, if one does. -/
def onGrid? (b : Binary) (unit : Int) : Option Decimal :=
  let m := measure b.exponent unit
  let value := 4 * b.mantissa * m.value
  let below := value / m.step
  let above := below + 1
  match covers b m below, covers b m above with
  | false, false => none
  | true, false => some ⟨below, unit⟩
  | false, true => some ⟨above, unit⟩
  | true, true =>
    -- Both name the number: the nearer one, and of two equally near ones the even one.
    let down := value - below * m.step
    let up := above * m.step - value
    if down < up then some ⟨below, unit⟩
    else if up < down then some ⟨above, unit⟩
    else if below % 2 = 0 then some ⟨below, unit⟩
    else some ⟨above, unit⟩

/-- A power of ten that is greater than the number. -/
def coarsest (b : Binary) : Int :=
  (b.exponent + Nat.log2 b.mantissa) * 30103 / 100000 + 2

/-- The shortest decimal that names the number; zero has the single digit `0`. -/
def shortest (b : Binary) : Decimal :=
  if b.mantissa = 0 then ⟨0, 0⟩
  else
    -- Seventeen digits always suffice, so a grid is found long before the list ends.
    ((List.range 22).findSome? fun (i : Nat) => b.onGrid? (b.coarsest - i)).getD
      ⟨b.mantissa, b.exponent⟩

end Binary

end Reconciliation
