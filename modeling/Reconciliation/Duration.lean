import Reconciliation.Decimal.Layout

namespace Reconciliation

/-!
# Durations

* `Duration` — a span of time in whole seconds and nanoseconds;
* `Duration.display` — the span in the greatest unit that it fills;
* `Duration.secondsText`, `Duration.secondsBits` — the span in seconds, as a text and as the bits of
  a binary64 number.
-/

/-- A span of time. -/
structure Duration where
  seconds : Nat
  nanos : Nat
  nanos_lt : nanos < 1000000000 := by omega
deriving DecidableEq, Repr

namespace Duration

/-- The span of some seconds. -/
def ofSeconds (seconds : Nat) : Duration := ⟨seconds, 0, by omega⟩

/-- The span of some seconds and any number of nanoseconds. -/
def ofParts (seconds nanos : Nat) : Duration :=
  ⟨seconds + nanos / 1000000000, nanos % 1000000000, Nat.mod_lt _ (by omega)⟩

/-- Whether the span is empty. -/
def isZero (d : Duration) : Bool := d.seconds == 0 && d.nanos == 0

/-- A whole number, and a fraction of it that has up to `places` digits and shows no zero at its
    end. -/
def withFraction (whole fraction places : Nat) : String :=
  let digits := Nat.toDigits 10 fraction
  let padded := List.replicate (places - digits.length) '0' ++ digits
  toString whole ++
    if fraction = 0 then ""
    else String.ofList ('.' :: (padded.reverse.dropWhile (· == '0')).reverse)

/-- The span in seconds, or in the greatest unit below that it fills. -/
def display (d : Duration) : String :=
  if 0 < d.seconds then withFraction d.seconds d.nanos 9 ++ "s"
  else if 1000000 ≤ d.nanos then
    withFraction (d.nanos / 1000000) (d.nanos % 1000000) 6 ++ "ms"
  else if 1000 ≤ d.nanos then withFraction (d.nanos / 1000) (d.nanos % 1000) 3 ++ "µs"
  else toString d.nanos ++ "ns"

/-- The bits of the binary64 number of seconds. -/
def secondsBits (d : Duration) : UInt64 :=
  (d.seconds.toUInt64.toFloat + d.nanos.toUInt64.toFloat / 1000000000).toBits

/-- The binary64 number of seconds, written with all its digits in place. -/
def secondsText (d : Duration) : String :=
  (Binary.decimal d.secondsBits).positional ""

end Duration

end Reconciliation
