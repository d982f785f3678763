namespace Reconciliation.Text

/-!
# Natural numbers in texts

* `natural?` — the number that a text of decimal digits stands for.
-/

/-- The number that decimal digits stand for. -/
def digitsValue (digits : List Char) : Nat :=
  digits.foldl (fun value c => 10 * value + (c.toNat - '0'.toNat)) 0

/-- The number written as decimal digits, if it is below the limit.  One plus sign may stand in
    front. -/
def natural? (limit : Nat) (text : String) : Option Nat :=
  let digits := match text.toList with
    | '+' :: rest => rest
    | cs => cs
  if digits.isEmpty || !digits.all Char.isDigit then none
  else if digitsValue digits < limit then some (digitsValue digits)
  else none

end Reconciliation.Text
