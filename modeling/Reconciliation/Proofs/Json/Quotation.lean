import Reconciliation.Json.Printer
import Reconciliation.Json.Token
import Reconciliation.Proofs.Text.Utf8

namespace Reconciliation.Json

/-!
# Strings that are read back

What the reader makes of a string that was written with its escapes:

* `StringScan.escapes` — the bytes that the reader takes for one character behind a backslash;
* `quotedBytes` — the bytes that are written for a character;
* `StringScan.scanFrom_quotedBytes` — they are read as the bytes of the character;
* `Token.ofBytes_quote` — a quoted text is read as one token, whatever comes after it.

A character is written behind a backslash if it is a quotation mark, a backslash or a control character,
and as its own bytes otherwise.
-/

/-- The bytes that are written for a character of a string. -/
def quotedBytes (c : Char) : List UInt8 := (quoteChar c).toList.flatMap String.utf8EncodeChar

theorem bytes_quote (text : String) :
    Text.bytes (quote text) = 0x22 :: (text.toList.flatMap quotedBytes ++ [0x22]) := by
  have hmark : "\"".toList.flatMap String.utf8EncodeChar = [0x22] := by decide
  have hquoted : (String.join (text.toList.map quoteChar)).toList.flatMap String.utf8EncodeChar =
      text.toList.flatMap quotedBytes := by
    rw [String.toList_join, List.flatMap_map, List.flatMap_assoc]
    rfl
  rw [Text.bytes_eq, quote, String.toList_append, String.toList_append, List.flatMap_append,
    List.flatMap_append, hmark, hquoted]
  rfl

/-! ### Characters that stand for themselves -/

section

variable {c : Char} (control : ¬ c.toNat < 0x20) (mark : c ≠ '"') (backslash : c ≠ '\\')
include control mark backslash

theorem quotedBytes_plain : quotedBytes c = String.utf8EncodeChar c := by
  have hcontrols : ∀ d : Char, d.toNat < 0x20 → c ≠ d := by
    rintro d hd rfl
    exact control hd
  rw [quotedBytes, quoteChar, if_neg mark, if_neg backslash, if_neg (hcontrols _ (by decide)),
    if_neg (hcontrols _ (by decide)), if_neg (hcontrols _ (by decide)), if_neg (hcontrols _ (by decide)),
    if_neg (hcontrols _ (by decide)), if_neg (by omega), if_neg (by omega), Char.toString_eq_singleton,
    String.toList_singleton, List.flatMap_singleton]

/-- Such a character has no byte that ends a string or escapes. -/
theorem plain_of_mem {byte : UInt8} (h : byte ∈ String.utf8EncodeChar c) :
    byte ≠ 0x22 ∧ byte ≠ 0x5c ∧ ¬ byte < 0x20 := by
  -- The byte of an ASCII character would be a byte of this one only if they were the same.
  have hother : ∀ d : Char, d.toNat < 0x80 → c ≠ d → byte ≠ UInt8.ofNat d.toNat := by
    rintro d hd hne rfl
    have hvalue : (UInt8.ofNat d.toNat).toNat = d.toNat := Text.toNat_byte (by omega)
    obtain ⟨heq, hascii⟩ := Text.eq_of_mem_utf8EncodeChar (by omega) h
    have hsame : d.toNat = c.toNat := by
      rw [← hvalue, heq, Text.toNat_byte (by omega)]
    exact hne (Char.toNat_inj.mp hsame.symm)
  refine ⟨hother '"' (by decide) mark, hother '\\' (by decide) backslash, fun hlow => ?_⟩
  have hlow : byte.toNat < 0x20 := hlow
  obtain ⟨heq, hascii⟩ := Text.eq_of_mem_utf8EncodeChar (by omega) h
  rw [heq, Text.toNat_byte (by omega)] at hlow
  exact control hlow

end

/-! ### One character -/

namespace StringScan

/-- Whether the bytes are a backslash and what the reader takes for the character behind it: a letter, or
    four hexadecimal digits. -/
def escapes (c : Char) : List UInt8 → Bool
  | [mark, letter] => mark == 0x5c && escaped? letter == some (UInt8.ofNat c.toNat)
  | [mark, letter, a, b, x, y] => mark == 0x5c && letter == 0x75 && hexNumber? a b x y == some c.toNat
  | _ => false

/-- Control characters are written behind a backslash. -/
theorem escapes_control : ∀ n < 0x20, escapes (Char.ofNat n) (quotedBytes (Char.ofNat n)) = true := by
  decide

/-- An ASCII character that is written behind a backslash is read as its byte. -/
theorem scanFrom_escape {c : Char} (ascii : c.toNat < 0x80) {bytes : List UInt8}
    (h : escapes c bytes = true) (content : List UInt8) (length : Nat) (rest : List UInt8) :
    scanFrom ⟨content, none, none⟩ length (bytes ++ rest) =
      scanFrom ⟨UInt8.ofNat c.toNat :: content, none, none⟩ (length + bytes.length) rest := by
  unfold escapes at h
  split at h
  · rename_i mark letter
    obtain ⟨rfl, hletter⟩ : mark = 0x5c ∧ escaped? letter = some (UInt8.ofNat c.toNat) := by simpa using h
    have hne : letter ≠ 0x75 := by
      rintro rfl
      cases hletter
    show scanFrom ⟨content, none, none⟩ length (0x5c :: letter :: rest) = _
    rw [scanFrom, hletter]
    · rfl
    · exact fun _ _ _ _ _ heq _ => hne heq
    · exact hne
  · rename_i mark letter a b x y
    obtain ⟨⟨rfl, rfl⟩, hnumber⟩ :
        (mark = 0x5c ∧ letter = 0x75) ∧ hexNumber? a b x y = some c.toNat := by simpa using h
    -- A number below `0x80` is no half of a pair.
    have hunit : State.unit ⟨content, none, none⟩ c.toNat =
        ⟨UInt8.ofNat c.toNat :: content, none, none⟩ := by
      have hlead : ¬ (0xd800 ≤ c.toNat ∧ c.toNat ≤ 0xdbff) := by omega
      have htrail : ¬ (0xdc00 ≤ c.toNat ∧ c.toNat ≤ 0xdfff) := by omega
      have hbytes : Text.bytes (Char.ofNat c.toNat).toString = [UInt8.ofNat c.toNat] := by
        rw [Char.ofNat_toNat, Text.bytes_eq, Char.toString_eq_singleton, String.toList_singleton,
          List.flatMap_singleton, Text.utf8EncodeChar_ascii ascii]
      simp only [State.unit, State.pushPoint, Bool.and_eq_true, decide_eq_true_eq, hlead, htrail, if_false,
        hbytes]
      rfl
    show scanFrom ⟨content, none, none⟩ length (0x5c :: 0x75 :: a :: b :: x :: y :: rest) = _
    rw [scanFrom, hnumber]
    dsimp only
    rw [hunit]
    rfl
  · cases h

/-- A byte that neither ends the string nor escapes is taken as it is. -/
theorem scanFrom_byte {byte : UInt8} (mark : byte ≠ 0x22) (escape : byte ≠ 0x5c)
    (printable : ¬ byte < 0x20) (content : List UInt8) (length : Nat) (rest : List UInt8) :
    scanFrom ⟨content, none, none⟩ length (byte :: rest) =
      scanFrom ⟨byte :: content, none, none⟩ (length + 1) rest := by
  rw [scanFrom, if_neg printable]
  · rfl
  all_goals simp_all

/-- Bytes that neither end the string nor escape are taken as they are. -/
theorem scanFrom_bytes {bytes : List UInt8}
    (h : ∀ byte ∈ bytes, byte ≠ 0x22 ∧ byte ≠ 0x5c ∧ ¬ byte < 0x20) (content : List UInt8)
    (length : Nat) (rest : List UInt8) :
    scanFrom ⟨content, none, none⟩ length (bytes ++ rest) =
      scanFrom ⟨bytes.reverse ++ content, none, none⟩ (length + bytes.length) rest := by
  induction bytes generalizing content length with
  | nil => rfl
  | cons byte others ih =>
    obtain ⟨⟨hmark, hescape, hprintable⟩, hothers⟩ := List.forall_mem_cons.mp h
    rw [List.cons_append, scanFrom_byte hmark hescape hprintable, ih hothers]
    simp [Nat.add_comm, Nat.add_left_comm]

/-- **One character.**  What is written for a character is read as its bytes. -/
theorem scanFrom_quotedBytes (c : Char) (content : List UInt8) (length : Nat) (rest : List UInt8) :
    scanFrom ⟨content, none, none⟩ length (quotedBytes c ++ rest) =
      scanFrom ⟨(String.utf8EncodeChar c).reverse ++ content, none, none⟩
        (length + (quotedBytes c).length) rest := by
  by_cases hescaped : c.toNat < 0x20 ∨ c = '"' ∨ c = '\\'
  · have hascii : c.toNat < 0x80 := by
      rcases hescaped with hcontrol | rfl | rfl
      · omega
      · decide
      · decide
    have hescapes : escapes c (quotedBytes c) = true := by
      rcases hescaped with hcontrol | rfl | rfl
      · simpa using escapes_control c.toNat hcontrol
      · decide
      · decide
    rw [scanFrom_escape hascii hescapes, Text.utf8EncodeChar_ascii hascii]
    rfl
  · -- The character stands for itself, and none of its bytes means anything else.
    obtain ⟨hcontrol, hmark, hbackslash⟩ : ¬ c.toNat < 0x20 ∧ c ≠ '"' ∧ c ≠ '\\' := by simpa using hescaped
    rw [quotedBytes_plain hcontrol hmark hbackslash,
      scanFrom_bytes fun byte => plain_of_mem hcontrol hmark hbackslash]

/-! ### The whole string -/

theorem scanFrom_chars (cs : List Char) (content : List UInt8) (length : Nat) (rest : List UInt8) :
    scanFrom ⟨content, none, none⟩ length (cs.flatMap quotedBytes ++ 0x22 :: rest) =
      .closed (.ok (content.reverse ++ cs.flatMap String.utf8EncodeChar))
        (length + (cs.flatMap quotedBytes).length + 1) := by
  induction cs generalizing content length with
  | nil =>
    rw [List.flatMap_nil, List.flatMap_nil, List.append_nil]
    rfl
  | cons c others ih =>
    rw [List.flatMap_cons, List.append_assoc, scanFrom_quotedBytes, ih]
    simp [Nat.add_assoc]

end StringScan

namespace Token

/-- A token that starts with a byte which is no space, and the tokens behind it. -/
theorem ofBytes_cons {byte : UInt8} {rest : List UInt8} {token : Token} {length : Nat}
    (space : isSpace byte = false) (starts : startingWith byte rest = (token, length)) :
    ofBytes (byte :: rest) = token :: ofBytes (rest.drop length) := by
  rw [ofBytes, space, starts]
  rfl

/-- **Strings.**  A quoted text is read as one token, whatever comes after it. -/
theorem ofBytes_quote (text : String) (rest : List UInt8) :
    ofBytes (Text.bytes (quote text) ++ rest) = string (.ok text) :: ofBytes rest := by
  have hscan : StringScan.scan (text.toList.flatMap quotedBytes ++ 0x22 :: rest) =
      .closed (.ok (text.toList.flatMap String.utf8EncodeChar))
        (0 + (text.toList.flatMap quotedBytes).length + 1) :=
    StringScan.scanFrom_chars text.toList [] 0 rest
  have hstring : startingWith 0x22 (text.toList.flatMap quotedBytes ++ 0x22 :: rest) =
      (string (.ok text), (text.toList.flatMap quotedBytes).length + 1) := by
    show ofString _ = _
    rw [ofString, hscan]
    simp only [Text.decode?_chars, String.ofList_toList, Nat.zero_add]
  have hbytes : Text.bytes (quote text) ++ rest =
      0x22 :: (text.toList.flatMap quotedBytes ++ 0x22 :: rest) := by
    rw [bytes_quote]
    simp
  rw [hbytes, ofBytes_cons (by decide) hstring, List.drop_length_add_append]
  rfl

end Token

end Reconciliation.Json
