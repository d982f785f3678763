import Mathlib.Algebra.Ring.Int.Defs
import Mathlib.Algebra.Ring.Nat
import Reconciliation.Proofs.Json.Quotation

namespace Reconciliation.Json

/-!
# Whole numbers that are read back

What the reader makes of a whole number that was written by its decimal digits:

* `decimals` — the digits of a number, greatest place first;
* `Numeral.gather_decimals` — gathered again they are the number;
* `Ends` — what may come after a number, so that it goes on no further;
* `Number.InReach` — the whole numbers that are held as such;
* `Token.ofBytes_number` — a number in reach is read as one token if what comes after it ends it.
-/

/-! ### Digits -/

/-- The decimal digits of a number, greatest place first. -/
def decimals (n : Nat) : List Nat :=
  if n < 10 then [n] else decimals (n / 10) ++ [n % 10]

theorem decimals_of_lt {n : Nat} (h : n < 10) : decimals n = [n] := by rw [decimals, if_pos h]

theorem decimals_of_ge {n : Nat} (h : 10 ≤ n) : decimals n = decimals (n / 10) ++ [n % 10] := by
  rw [decimals, if_neg (by omega)]

theorem decimals_ne_nil (n : Nat) : decimals n ≠ [] := by
  rcases Nat.lt_or_ge n 10 with h | h
  · simp [decimals_of_lt h]
  · simp [decimals_of_ge h]

theorem lt_of_mem_decimals {n d : Nat} (h : d ∈ decimals n) : d < 10 := by
  induction n using Nat.strongRecOn with
  | ind n ih =>
    rcases Nat.lt_or_ge n 10 with hlt | hge
    · rw [decimals_of_lt hlt, List.mem_singleton] at h
      omega
    · rw [decimals_of_ge hge, List.mem_append, List.mem_singleton] at h
      rcases h with hfront | rfl
      · exact ih (n / 10) (by omega) hfront
      · omega

theorem decimals_eq_cons (n : Nat) : ∃ d more, decimals n = d :: more ∧ d < 10 := by
  obtain ⟨d, more, hdecimals⟩ := List.exists_cons_of_ne_nil (decimals_ne_nil n)
  exact ⟨d, more, hdecimals, lt_of_mem_decimals (by rw [hdecimals]; exact List.mem_cons_self)⟩

/-- Only the digits of zero begin with a zero. -/
theorem eq_zero_of_head?_decimals {n : Nat} (h : (decimals n).head? = some 0) : n = 0 := by
  induction n using Nat.strongRecOn with
  | ind n ih =>
    rcases Nat.lt_or_ge n 10 with hlt | hge
    · rw [decimals_of_lt hlt] at h
      exact Option.some.inj h
    · obtain ⟨d, more, hfront, -⟩ := decimals_eq_cons (n / 10)
      rw [decimals_of_ge hge, hfront] at h
      have := ih (n / 10) (by omega) (by rw [hfront]; exact h)
      omega

/-- The byte of a digit. -/
def digitByte (d : Nat) : UInt8 := UInt8.ofNat (0x30 + d)

theorem toNat_digitByte {d : Nat} (h : d < 10) : (digitByte d).toNat = 0x30 + d :=
  Text.toNat_byte (by omega)

theorem isDigit_digitByte {d : Nat} (h : d < 10) : Numeral.isDigit (digitByte d) = true := by
  have hvalue := toNat_digitByte h
  simp only [Numeral.isDigit, Bool.and_eq_true, decide_eq_true_eq, UInt8.le_iff_toNat_le, hvalue]
  constructor
  · exact Nat.le_add_right _ _
  · show 0x30 + d ≤ 0x39
    omega

/-- A natural number is written by the bytes of its digits. -/
theorem bytes_toString (n : Nat) : Text.bytes (toString n) = (decimals n).map digitByte := by
  have hdigit : ∀ d < 10, String.utf8EncodeChar (Nat.digitChar d) = [digitByte d] := by decide
  have hdigits : (Nat.toDigits 10 n).flatMap String.utf8EncodeChar = (decimals n).map digitByte := by
    induction n using Nat.strongRecOn with
    | ind n ih =>
      rcases Nat.lt_or_ge n 10 with hlt | hge
      · rw [Nat.toDigits_of_lt_base hlt, decimals_of_lt hlt, List.flatMap_singleton, hdigit n hlt]
        rfl
      · rw [Nat.toDigits_of_base_le (by decide) hge, decimals_of_ge hge, List.flatMap_append,
          ih (n / 10) (by omega), List.flatMap_singleton, hdigit _ (by omega), List.map_append]
        rfl
  have htext : (toString n).toList = Nat.toDigits 10 n := by simp [toString, Nat.repr]
  rw [Text.bytes_eq, htext, hdigits]

/-! ### Numerals -/

/-- What comes after a number is no part of it: no digit, point or power of ten. -/
def Ends (rest : List UInt8) : Prop :=
  ∀ byte, rest.head? = some byte → ¬ Numeral.isDigit byte ∧ byte ≠ 0x2e ∧ byte ≠ 0x65 ∧ byte ≠ 0x45

namespace Numeral

/-- Digits that found room are gathered before the others. -/
theorem gather_append {limit start number : Nat} {front : List Nat}
    (h : gather limit start front = (number, [])) (back : List Nat) :
    gather limit start (front ++ back) = gather limit number back := by
  induction front generalizing start with
  | nil =>
    obtain rfl : start = number := (Prod.mk.inj h).1
    rfl
  | cons d rest ih =>
    rw [gather] at h
    rw [List.cons_append, gather]
    split at h
    · rename_i hroom
      rw [if_pos hroom]
      exact ih h
    · cases h

/-- The digits of a number that has room are gathered to the number. -/
theorem gather_decimals {limit n : Nat} (h : n < limit) : gather limit 0 (decimals n) = (n, []) := by
  induction n using Nat.strongRecOn with
  | ind n ih =>
    rcases Nat.lt_or_ge n 10 with hlt | hge
    · rw [decimals_of_lt hlt, gather, if_pos (by omega), gather, Nat.zero_mul, Nat.zero_add]
    · have hfront := ih (n / 10) (by omega) (by omega)
      have hvalue : n / 10 * 10 + n % 10 = n := by omega
      rw [decimals_of_ge hge, gather_append hfront, gather, hvalue, if_pos h, gather]

theorem digits_append {ds : List Nat} (hds : ∀ d ∈ ds, d < 10) {rest : List UInt8} (ends : Ends rest) :
    digits (ds.map digitByte ++ rest) = ds := by
  have hstop : rest.takeWhile isDigit = [] := by
    cases rest with
    | nil => rfl
    | cons byte others => exact List.takeWhile_cons_of_neg (ends byte rfl).1
  have htake : (ds.map digitByte ++ rest).takeWhile isDigit = ds.map digitByte := by
    rw [List.takeWhile_append_of_pos, hstop, List.append_nil]
    simpa using fun d hd => isDigit_digitByte (hds d hd)
  rw [digits, htake, List.map_map]
  refine (List.map_congr_left fun d hd => ?_).trans (List.map_id ds)
  show (digitByte d).toNat - 0x30 = d
  rw [toNat_digitByte (hds d hd)]
  omega

theorem scanWhole_decimals (n : Nat) {rest : List UInt8} (ends : Ends rest) :
    scanWhole ((decimals n).map digitByte ++ rest) = .ok (decimals n) := by
  have hdigits : digits ((decimals n).map digitByte ++ rest) = decimals n :=
    digits_append (fun _ => lt_of_mem_decimals) ends
  unfold scanWhole
  split
  · rename_i hnil
    simp [decimals_ne_nil] at hnil
  · rename_i hnil _
    exact absurd (hdigits.symm.trans hnil) (decimals_ne_nil n)
  · rename_i d more hzero _
    -- A zero in front of other digits would be the number zero, which has no other digits.
    have hdecimals : decimals n = 0 :: d :: more := hdigits.symm.trans hzero
    obtain rfl : n = 0 := eq_zero_of_head?_decimals (by rw [hdecimals]; rfl)
    rw [decimals_of_lt (by decide)] at hdecimals
    cases hdecimals
  · rw [hdigits]

theorem scanFraction_of_ends {rest : List UInt8} (ends : Ends rest) : scanFraction rest = .ok (none, 0) := by
  unfold scanFraction
  split
  · exact absurd rfl (ends _ rfl).2.1
  · rfl

theorem scanPower_of_ends {rest : List UInt8} (ends : Ends rest) : scanPower rest = .ok (none, 0) := by
  cases rest with
  | nil => rfl
  | cons byte others =>
    obtain ⟨_, _, hlower, hupper⟩ := ends byte rfl
    rw [scanPower, if_neg (by simp [hlower, hupper])]

/-- The sign in front of a number. -/
def signBytes (negative : Bool) : List UInt8 := if negative then [0x2d] else []

theorem head?_signed (negative : Bool) (n : Nat) (rest : List UInt8) :
    ((signBytes negative ++ ((decimals n).map digitByte ++ rest)).head? == some 0x2d) = negative := by
  cases negative with
  | true => rfl
  | false =>
    obtain ⟨d, more, hdecimals, hd⟩ := decimals_eq_cons n
    have hne : digitByte d ≠ 0x2d := by
      intro heq
      have hvalue := toNat_digitByte hd
      rw [heq] at hvalue
      have hminus : (0x2d : UInt8).toNat = 0x2d := rfl
      omega
    rw [hdecimals]
    simpa [signBytes] using hne

/-- The digits of a number, with a sign or without, are scanned as far as they go. -/
theorem scan_decimals (negative : Bool) (n : Nat) {rest : List UInt8} (ends : Ends rest) :
    scan (signBytes negative ++ ((decimals n).map digitByte ++ rest)) =
      .found ⟨negative, decimals n, [], true, none⟩
        ((signBytes negative).length + (decimals n).length) := by
  have hstart : (if negative then 1 else 0) = (signBytes negative).length := by
    cases negative <;> rfl
  have hreached : (signBytes negative ++ ((decimals n).map digitByte ++ rest)).drop
      ((signBytes negative).length + (decimals n).length) = rest := by
    rw [List.drop_length_add_append]
    exact List.drop_left' (List.length_map ..)
  simp only [scan, head?_signed, hstart, List.drop_left, scanWhole_decimals n ends, bind, Except.bind,
    hreached, scanFraction_of_ends ends, scanPower_of_ends ends, Nat.add_zero]
  rfl

/-- A whole number without a sign is its value. -/
theorem value_of_natural {n : Nat} (h : n < UInt64.size) :
    value ⟨false, decimals n, [], true, none⟩ = .ok (.whole n) := by
  rw [value, gather_decimals h]
  rfl

/-- A whole number with a sign is the negative value, which is not zero. -/
theorem value_of_negative {n : Nat} (positive : 0 < n) (h : n ≤ 2 ^ 63) :
    value ⟨true, decimals n, [], true, none⟩ = .ok (.whole (-n)) := by
  have hsize : n < UInt64.size := Nat.lt_of_le_of_lt h (by decide)
  have hreach : (decide (0 < n) && decide (n ≤ 1 <<< 63)) = true := by
    rw [Bool.and_eq_true, decide_eq_true_iff, decide_eq_true_iff]
    exact ⟨positive, h⟩
  rw [value, gather_decimals hsize]
  show (if (decide (0 < n) && decide (n ≤ 1 <<< 63)) = true then _ else _) = _
  rw [if_pos hreach]
  rfl

end Numeral

/-! ### Numbers -/

/-- The whole numbers that are held as such. -/
def Number.InReach : Number → Prop
  | .whole value => -2 ^ 63 ≤ value ∧ value < 2 ^ 64
  | .double _ => False

/-- A number in reach is written as a sign and digits, of which it is the value. -/
theorem Number.InReach.written {value : Number} (h : value.InReach) :
    ∃ negative n, Text.bytes value.text = Numeral.signBytes negative ++ (decimals n).map digitByte ∧
      Numeral.value ⟨negative, decimals n, [], true, none⟩ = .ok value := by
  cases value with
  | double bits => cases h
  | whole value =>
    obtain ⟨hlow, hhigh⟩ := h
    cases value with
    | ofNat n =>
      refine ⟨false, n, bytes_toString n, Numeral.value_of_natural ?_⟩
      show n < 2 ^ 64
      have hhigh : (n : Int) < 2 ^ 64 := hhigh
      omega
    | negSucc n =>
      refine ⟨true, n + 1, ?_, Numeral.value_of_negative (Nat.succ_pos n) ?_⟩
      · show Text.bytes ("-" ++ toString (n + 1)) = _
        have hminus : Text.bytes "-" = [0x2d] := by rw [Text.bytes_eq]; rfl
        rw [Text.bytes_append, hminus, bytes_toString]
        rfl
      · omega

namespace Token

/-- A minus sign or a digit starts a number. -/
theorem startingWith_number {byte : UInt8} (h : (decide (byte = 0x2d) || Numeral.isDigit byte) = true)
    (rest : List UInt8) :
    isSpace byte = false ∧ startingWith byte rest = ofNumber (byte :: rest) := by
  have hne : ∀ other : UInt8, (decide (other = 0x2d) || Numeral.isDigit other) = false → byte ≠ other := by
    rintro other hother rfl
    rw [hother] at h
    cases h
  constructor
  · simp only [isSpace, hne 0x20 (by decide), hne 0x0a (by decide), hne 0x09 (by decide),
      hne 0x0d (by decide), decide_false, Bool.or_false]
  · rw [startingWith, if_neg (hne _ (by decide)), if_neg (hne _ (by decide)), if_neg (hne _ (by decide)),
      if_neg (hne _ (by decide)), if_neg (hne _ (by decide)), if_neg (hne _ (by decide)),
      if_neg (hne _ (by decide)), if_neg (hne _ (by decide)), if_neg (hne _ (by decide)),
      if_neg (hne _ (by decide)), if_pos h]

/-- **Numbers.**  A number in reach is read as one token if what comes after it ends it. -/
theorem ofBytes_number {value : Number} (reach : value.InReach) {rest : List UInt8} (ends : Ends rest) :
    ofBytes (Text.bytes value.text ++ rest) = number (.ok value) :: ofBytes rest := by
  obtain ⟨negative, n, hbytes, hvalue⟩ := reach.written
  have hscan := Numeral.scan_decimals negative n ends
  have hlength : (Numeral.signBytes negative ++ (decimals n).map digitByte).length =
      (Numeral.signBytes negative).length + (decimals n).length := by
    rw [List.length_append, List.length_map]
  rw [← List.append_assoc, ← hbytes, ← hlength, ← hbytes] at hscan
  -- The first byte is a minus sign or a digit.
  obtain ⟨byte, tail, hcons, hfirst⟩ : ∃ byte tail, Text.bytes value.text = byte :: tail ∧
      (decide (byte = 0x2d) || Numeral.isDigit byte) = true := by
    obtain ⟨d, more, hdecimals, hd⟩ := decimals_eq_cons n
    rw [hbytes, hdecimals]
    cases negative with
    | true => exact ⟨0x2d, _, rfl, by decide⟩
    | false => exact ⟨digitByte d, _, rfl, by rw [isDigit_digitByte hd, Bool.or_true]⟩
  rw [hcons] at hscan ⊢
  obtain ⟨hspace, hstarts⟩ := startingWith_number hfirst (tail ++ rest)
  have hnumber : startingWith byte (tail ++ rest) = (number (.ok value), tail.length) := by
    rw [hstarts, ofNumber, ← List.cons_append, hscan]
    dsimp only
    rw [hvalue]
    rfl
  rw [List.cons_append, ofBytes_cons hspace hnumber, List.drop_left]

end Token

end Reconciliation.Json
