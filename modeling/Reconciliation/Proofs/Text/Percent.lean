import Reconciliation.Proofs.Text.Utf8
import Reconciliation.Text.Percent

namespace Reconciliation.Text

/-!
# Percent encoding undone

* `percentDecode_eq_self` — a text without a percent sign stands for itself;
* `bytes_percentEncode` — the bytes of an encoded text, `isPlain_of_mem_percentEncode` which they are;
* `formDecode_percentEncode` — an encoded text is read back as a value of a query.
-/

/-! ### Texts without escapes -/

theorem percentDecodeBytes_cons {byte : UInt8} (h : byte ≠ 0x25) (rest : List UInt8) :
    percentDecodeBytes (byte :: rest) = byte :: percentDecodeBytes rest := by
  rw [percentDecodeBytes]
  rintro high low tail heq
  exact absurd heq h

theorem percentDecodeBytes_eq_self {bytes : List UInt8} (h : 0x25 ∉ bytes) :
    percentDecodeBytes bytes = bytes := by
  induction bytes with
  | nil => rw [percentDecodeBytes]
  | cons byte rest ih =>
    rw [List.mem_cons, not_or] at h
    rw [percentDecodeBytes_cons (Ne.symm h.1), ih h.2]

/-- A text without a percent sign stands for itself. -/
theorem percentDecode_eq_self {text : String} (h : '%' ∉ text.toList) :
    percentDecode text = text := by
  have hbytes : (0x25 : UInt8) ∉ bytes text := fun hmem =>
    h ((mem_toList_iff_mem_bytes (by decide) text).mpr hmem)
  rw [percentDecode, percentDecodeBytes_eq_self hbytes, decodeLossy_bytes]

/-! ### Encoded texts -/

/-- What holds of every number below `0x100` holds of every byte. -/
theorem forall_byte {P : UInt8 → Prop} (h : ∀ n < 0x100, P (UInt8.ofNat n)) (byte : UInt8) :
    P byte := by
  have hbyte := h byte.toNat byte.toNat_lt
  rwa [UInt8.ofNat_toNat] at hbyte

/-- The bytes that encode one byte. -/
def encodedByte (byte : UInt8) : List UInt8 :=
  if isPlain byte then [byte]
  else [0x25, UInt8.ofNat (upperHexDigit (byte.toNat / 16)).toNat,
    UInt8.ofNat (upperHexDigit (byte.toNat % 16)).toNat]

set_option maxRecDepth 4000 in
theorem flatMap_percentEncodeByte (byte : UInt8) :
    (percentEncodeByte byte).flatMap String.utf8EncodeChar = encodedByte byte := by
  revert byte
  apply forall_byte
  decide +kernel

set_option maxRecDepth 4000 in
theorem all_encodedByte (byte : UInt8) :
    (encodedByte byte).all (fun other => isPlain other || other == 0x25) = true := by
  revert byte
  apply forall_byte
  decide +kernel

/-- The bytes that encode a byte are plain, but for the percent sign. -/
theorem isPlain_of_mem_encodedByte {byte other : UInt8} (h : other ∈ encodedByte byte) :
    isPlain other = true ∨ other = 0x25 := by
  have hother := List.all_eq_true.mp (all_encodedByte byte) other h
  simpa using hother

theorem bytes_percentEncode (text : String) :
    bytes (percentEncode text) = (bytes text).flatMap encodedByte := by
  rw [bytes_eq (percentEncode text), percentEncode, String.toList_ofList, List.flatMap_assoc]
  simp only [flatMap_percentEncodeByte]

/-- The bytes of an encoded text are plain, but for percent signs. -/
theorem isPlain_of_mem_percentEncode {text : String} {byte : UInt8}
    (h : byte ∈ bytes (percentEncode text)) : isPlain byte = true ∨ byte = 0x25 := by
  rw [bytes_percentEncode, List.mem_flatMap] at h
  obtain ⟨source, _, hbyte⟩ := h
  exact isPlain_of_mem_encodedByte hbyte

theorem hexValue?_upperHexDigit :
    ∀ n < 16, hexValue? (UInt8.ofNat (upperHexDigit n).toNat) = some (UInt8.ofNat n) := by
  decide

/-- An encoded byte is read back. -/
theorem percentDecodeBytes_encodedByte (byte : UInt8) (rest : List UInt8) :
    percentDecodeBytes (encodedByte byte ++ rest) = byte :: percentDecodeBytes rest := by
  have hbyte := byte.toNat_lt
  unfold encodedByte
  by_cases hplain : isPlain byte = true
  · have hne : byte ≠ 0x25 := by
      rintro rfl
      revert hplain
      decide +kernel
    rw [if_pos hplain, List.singleton_append, percentDecodeBytes_cons hne]
  · rw [if_neg hplain]
    simp only [List.cons_append, List.nil_append, percentDecodeBytes,
      hexValue?_upperHexDigit _ (show byte.toNat / 16 < 16 by omega),
      hexValue?_upperHexDigit _ (show byte.toNat % 16 < 16 by omega)]
    -- The two digits are the quotient and the rest of the byte.
    congr 1
    rw [← UInt8.toNat_inj]
    simp
    omega

theorem percentDecodeBytes_flatMap (source : List UInt8) :
    percentDecodeBytes (source.flatMap encodedByte) = source := by
  induction source with
  | nil => rw [List.flatMap_nil, percentDecodeBytes]
  | cons byte rest ih => rw [List.flatMap_cons, percentDecodeBytes_encodedByte, ih]

/-- An encoded text is read back as a value of a query. -/
theorem formDecode_percentEncode (text : String) : formDecode (percentEncode text) = text := by
  have hplus : (bytes (percentEncode text)).map (fun byte => if byte = 0x2b then 0x20 else byte) =
      bytes (percentEncode text) := by
    refine (List.map_congr_left fun byte hmem => ?_).trans (List.map_id _)
    -- A plus sign is encoded, so that none is left that could stand for a blank.
    have hne : byte ≠ 0x2b := by
      rintro rfl
      rcases isPlain_of_mem_percentEncode hmem with h | h <;> revert h <;> decide +kernel
    rw [if_neg hne, id]
  rw [formDecode, hplus, bytes_percentEncode, percentDecodeBytes_flatMap, decodeLossy_bytes]

end Reconciliation.Text
