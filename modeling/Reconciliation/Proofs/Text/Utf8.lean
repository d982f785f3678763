import Reconciliation.Text.Utf8

namespace Reconciliation.Text

/-!
# Texts and their bytes

* `bytes_eq` — the bytes of a text are those of its characters, one after the other;
* `mem_toList_iff_mem_bytes` — where ASCII characters are among the bytes;
* `decodeParts_char` — the bytes of a character are read as that character;
* `decode?_chars` — characters are a text that is read back from their bytes;
* `decodeLossy_bytes` — a text is read back from its bytes.
-/

/-! ### Bytes of a text -/

/-- What the conversion of a byte array to a list has still to do. -/
theorem toList_loop_eq (array : ByteArray) (i : Nat) (front : List UInt8) :
    ByteArray.toList.loop array i front = front.reverse ++ array.data.toList.drop i := by
  rw [ByteArray.toList.loop]
  by_cases h : i < array.size
  · have hlt : i < array.data.toList.length := by simpa using h
    rw [if_pos h, toList_loop_eq array (i + 1), List.drop_eq_getElem_cons hlt]
    simp [ByteArray.get!, h]
  · rw [if_neg h, List.drop_eq_nil_of_le (by simpa using h), List.append_nil]
termination_by array.size - i

theorem bytes_eq (text : String) : bytes text = text.toList.flatMap String.utf8EncodeChar := by
  rw [bytes, String.toUTF8_eq_toByteArray, ← String.utf8Encode_toList, ByteArray.toList,
    toList_loop_eq, List.utf8Encode, List.toList_data_toByteArray]
  simp

theorem bytes_append (first second : String) :
    bytes (first ++ second) = bytes first ++ bytes second := by
  simp [bytes_eq]

/-! ### ASCII -/

/-- The value of a byte that is made of a number. -/
theorem toNat_byte {n : Nat} (h : n < 0x100) : (UInt8.ofNat n).toNat = n := by
  rw [UInt8.toNat_ofNat', Nat.mod_eq_of_lt h]

/-- An ASCII character has one byte. -/
theorem utf8EncodeChar_ascii {c : Char} (h : c.toNat < 0x80) :
    String.utf8EncodeChar c = [UInt8.ofNat c.toNat] := by
  unfold String.utf8EncodeChar
  dsimp only
  rw [if_pos (show c.val.toNat ≤ 0x7f from Nat.le_of_lt_succ h)]
  rfl

/-- A byte below `0x80` stands for an ASCII character. -/
theorem eq_of_mem_utf8EncodeChar {c : Char} {byte : UInt8} (h : byte.toNat < 0x80)
    (hmem : byte ∈ String.utf8EncodeChar c) : byte = UInt8.ofNat c.toNat ∧ c.toNat < 0x80 := by
  by_cases hc : c.toNat < 0x80
  · rw [utf8EncodeChar_ascii hc, List.mem_singleton] at hmem
    exact ⟨hmem, hc⟩
  · -- All bytes of other characters are greater.
    have hbytes : ∀ other ∈ String.utf8EncodeChar c, 0x80 ≤ other.toNat := by
      intro other hother
      unfold String.utf8EncodeChar at hother
      dsimp only at hother
      rw [if_neg (show ¬ c.val.toNat ≤ 0x7f from fun hle => hc (Nat.lt_succ_of_le hle))] at hother
      split at hother
      · simp only [List.mem_cons, List.not_mem_nil, or_false] at hother
        rcases hother with rfl | rfl <;> rw [toNat_byte (by omega)] <;> omega
      · split at hother
        · simp only [List.mem_cons, List.not_mem_nil, or_false] at hother
          rcases hother with rfl | rfl | rfl <;> rw [toNat_byte (by omega)] <;> omega
        · simp only [List.mem_cons, List.not_mem_nil, or_false] at hother
          rcases hother with rfl | rfl | rfl | rfl <;> rw [toNat_byte (by omega)] <;> omega
    have := hbytes byte hmem
    omega

/-- An ASCII character is in a text exactly if its byte is among the bytes of the text. -/
theorem mem_toList_iff_mem_bytes {c : Char} (hc : c.toNat < 0x80) (text : String) :
    c ∈ text.toList ↔ UInt8.ofNat c.toNat ∈ bytes text := by
  rw [bytes_eq, List.mem_flatMap]
  constructor
  · intro hmem
    exact ⟨c, hmem, by rw [utf8EncodeChar_ascii hc]; exact List.mem_singleton.mpr rfl⟩
  · rintro ⟨other, hother, hbyte⟩
    have hvalue : (UInt8.ofNat c.toNat).toNat = c.toNat := toNat_byte (by omega)
    obtain ⟨heq, hascii⟩ := eq_of_mem_utf8EncodeChar (by omega) hbyte
    have hsame : c.toNat = other.toNat := by
      rw [← hvalue, heq, toNat_byte (by omega)]
    rwa [← Char.ofNat_toNat c, hsame, Char.ofNat_toNat]

/-! ### Characters that are read -/

/-- The followers of a first byte, by its value. -/
theorem followers_eq (lead : UInt8) :
    followers lead =
      if lead.toNat < 0x80 then some []
      else if lead.toNat < 0xc2 then none
      else if lead.toNat < 0xe0 then some [(0x80, 0xbf)]
      else if lead.toNat = 0xe0 then some [(0xa0, 0xbf), (0x80, 0xbf)]
      else if lead.toNat = 0xed then some [(0x80, 0x9f), (0x80, 0xbf)]
      else if lead.toNat < 0xf0 then some [(0x80, 0xbf), (0x80, 0xbf)]
      else if lead.toNat = 0xf0 then some [(0x90, 0xbf), (0x80, 0xbf), (0x80, 0xbf)]
      else if lead.toNat < 0xf4 then some [(0x80, 0xbf), (0x80, 0xbf), (0x80, 0xbf)]
      else if lead.toNat = 0xf4 then some [(0x80, 0x8f), (0x80, 0xbf), (0x80, 0xbf)]
      else none := by
  unfold followers
  simp only [UInt8.lt_iff_toNat_lt, ← UInt8.toNat_inj]
  rfl

/-- A byte that lies in its range is counted. -/
theorem countFollowing_cons {least greatest byte : UInt8} (hle : least.toNat ≤ byte.toNat)
    (hge : byte.toNat ≤ greatest.toNat) (ranges : List (UInt8 × UInt8)) (rest : List UInt8) :
    countFollowing ((least, greatest) :: ranges) (byte :: rest) =
      countFollowing ranges rest + 1 := by
  rw [countFollowing, if_pos (by simp [UInt8.le_iff_toNat_le, hle, hge])]

/-- A first byte with all its followers is read as one character. -/
theorem decodeParts_lead {lead : UInt8} {ranges : List (UInt8 × UInt8)} (tail : List UInt8)
    (hranges : followers lead = some ranges) (hlength : tail.length = ranges.length)
    (rest : List UInt8) (hcount : countFollowing ranges (tail ++ rest) = ranges.length) :
    decodeParts (lead :: (tail ++ rest)) =
      some (Char.ofNat (tail.foldl (fun point byte => point * 0x40 + byte.toNat % 0x40)
        (leadBits lead tail.length))) :: decodeParts rest := by
  rw [decodeParts]
  simp only [hranges, hcount, ← hlength, List.take_left, List.drop_left, if_true]

/-- A number below `0x80` is a character of one byte. -/
theorem decodeParts_one {n : Nat} (h : n < 0x80) (rest : List UInt8) :
    decodeParts (UInt8.ofNat n :: rest) = some (Char.ofNat n) :: decodeParts rest := by
  have hlead : (UInt8.ofNat n).toNat = n := toNat_byte (by omega)
  have hranges : followers (UInt8.ofNat n) = some [] := by
    rw [followers_eq, hlead, if_pos h]
  have hread : decodeParts (UInt8.ofNat n :: rest) =
      some (Char.ofNat (UInt8.ofNat n).toNat) :: decodeParts rest :=
    decodeParts_lead [] hranges rfl rest rfl
  rwa [hlead] at hread

/-- A number below `0x800` is a character of two bytes. -/
theorem decodeParts_two {n : Nat} (hlow : 0x80 ≤ n) (hhigh : n < 0x800) (rest : List UInt8) :
    decodeParts (UInt8.ofNat (n / 64 % 0x20 + 0xc0) :: UInt8.ofNat (n % 0x40 + 0x80) :: rest) =
      some (Char.ofNat n) :: decodeParts rest := by
  have hlead := toNat_byte (show n / 64 % 0x20 + 0xc0 < 0x100 by omega)
  have hlast := toNat_byte (show n % 0x40 + 0x80 < 0x100 by omega)
  generalize UInt8.ofNat (n / 64 % 0x20 + 0xc0) = lead at *
  generalize UInt8.ofNat (n % 0x40 + 0x80) = last at *
  have hranges : followers lead = some [(0x80, 0xbf)] := by
    rw [followers_eq, if_neg (by omega), if_neg (by omega), if_pos (by omega)]
  have hcount : countFollowing [(0x80, 0xbf)] ([last] ++ rest) = 1 := by
    rw [List.singleton_append, countFollowing_cons (by simp; omega) (by simp; omega)]
    rfl
  have hread : decodeParts (lead :: last :: rest) =
      some (Char.ofNat (lead.toNat % 0x20 * 0x40 + last.toNat % 0x40)) :: decodeParts rest :=
    decodeParts_lead [last] hranges rfl rest hcount
  rw [hread, show lead.toNat % 0x20 * 0x40 + last.toNat % 0x40 = n by omega]

/-- Any other number below `0x10000` is a character of three bytes, unless it is a surrogate. -/
theorem decodeParts_three {n : Nat} (hlow : 0x800 ≤ n) (hhigh : n < 0x10000)
    (hvalid : n < 0xd800 ∨ 0xdfff < n) (rest : List UInt8) :
    decodeParts (UInt8.ofNat (n / 4096 % 0x10 + 0xe0) :: UInt8.ofNat (n / 64 % 0x40 + 0x80) ::
        UInt8.ofNat (n % 0x40 + 0x80) :: rest) =
      some (Char.ofNat n) :: decodeParts rest := by
  have hlead := toNat_byte (show n / 4096 % 0x10 + 0xe0 < 0x100 by omega)
  have hmiddle := toNat_byte (show n / 64 % 0x40 + 0x80 < 0x100 by omega)
  have hlast := toNat_byte (show n % 0x40 + 0x80 < 0x100 by omega)
  generalize UInt8.ofNat (n / 4096 % 0x10 + 0xe0) = lead at *
  generalize UInt8.ofNat (n / 64 % 0x40 + 0x80) = middle at *
  generalize UInt8.ofNat (n % 0x40 + 0x80) = last at *
  -- The second byte has bounds of its own: after 0xe0 lest the number be below 0x800, and after
  -- 0xed lest it be a surrogate.
  have hranges : ∃ least greatest, followers lead = some [(least, greatest), (0x80, 0xbf)] ∧
      least.toNat ≤ middle.toNat ∧ middle.toNat ≤ greatest.toNat := by
    by_cases hfirst : lead.toNat = 0xe0
    · refine ⟨0xa0, 0xbf, ?_, by simp; omega, by simp; omega⟩
      rw [followers_eq, if_neg (by omega), if_neg (by omega), if_neg (by omega), if_pos hfirst]
    · by_cases hsurrogates : lead.toNat = 0xed
      · refine ⟨0x80, 0x9f, ?_, by simp; omega, by simp; omega⟩
        rw [followers_eq, if_neg (by omega), if_neg (by omega), if_neg (by omega), if_neg hfirst,
          if_pos hsurrogates]
      · refine ⟨0x80, 0xbf, ?_, by simp; omega, by simp; omega⟩
        rw [followers_eq, if_neg (by omega), if_neg (by omega), if_neg (by omega), if_neg hfirst,
          if_neg hsurrogates, if_pos (by omega)]
  obtain ⟨least, greatest, hranges, hleast, hgreatest⟩ := hranges
  have hcount : countFollowing [(least, greatest), (0x80, 0xbf)] ([middle, last] ++ rest) = 2 := by
    rw [List.cons_append, List.singleton_append, countFollowing_cons hleast hgreatest,
      countFollowing_cons (by simp; omega) (by simp; omega)]
    rfl
  have hread : decodeParts (lead :: middle :: last :: rest) =
      some (Char.ofNat ((lead.toNat % 0x10 * 0x40 + middle.toNat % 0x40) * 0x40 +
        last.toNat % 0x40)) :: decodeParts rest :=
    decodeParts_lead [middle, last] hranges rfl rest hcount
  rw [hread, show (lead.toNat % 0x10 * 0x40 + middle.toNat % 0x40) * 0x40 +
    last.toNat % 0x40 = n by omega]

/-- Any other number up to `0x10ffff` is a character of four bytes. -/
theorem decodeParts_four {n : Nat} (hlow : 0x10000 ≤ n) (hhigh : n < 0x110000)
    (rest : List UInt8) :
    decodeParts (UInt8.ofNat (n / 262144 % 0x08 + 0xf0) :: UInt8.ofNat (n / 4096 % 0x40 + 0x80) ::
        UInt8.ofNat (n / 64 % 0x40 + 0x80) :: UInt8.ofNat (n % 0x40 + 0x80) :: rest) =
      some (Char.ofNat n) :: decodeParts rest := by
  have hlead := toNat_byte (show n / 262144 % 0x08 + 0xf0 < 0x100 by omega)
  have hsecond := toNat_byte (show n / 4096 % 0x40 + 0x80 < 0x100 by omega)
  have hthird := toNat_byte (show n / 64 % 0x40 + 0x80 < 0x100 by omega)
  have hlast := toNat_byte (show n % 0x40 + 0x80 < 0x100 by omega)
  generalize UInt8.ofNat (n / 262144 % 0x08 + 0xf0) = lead at *
  generalize UInt8.ofNat (n / 4096 % 0x40 + 0x80) = second at *
  generalize UInt8.ofNat (n / 64 % 0x40 + 0x80) = third at *
  generalize UInt8.ofNat (n % 0x40 + 0x80) = last at *
  -- After 0xf0 the second byte keeps the number above 0xffff, and after 0xf4 below 0x110000.
  have hranges : ∃ least greatest,
      followers lead = some [(least, greatest), (0x80, 0xbf), (0x80, 0xbf)] ∧
      least.toNat ≤ second.toNat ∧ second.toNat ≤ greatest.toNat := by
    rw [followers_eq, if_neg (by omega), if_neg (by omega), if_neg (by omega), if_neg (by omega),
      if_neg (by omega), if_neg (by omega)]
    by_cases hfirst : lead.toNat = 0xf0
    · exact ⟨0x90, 0xbf, by rw [if_pos hfirst], by simp; omega, by simp; omega⟩
    · by_cases hmiddle : lead.toNat < 0xf4
      · exact ⟨0x80, 0xbf, by rw [if_neg hfirst, if_pos hmiddle], by simp; omega, by simp; omega⟩
      · refine ⟨0x80, 0x8f, ?_, by simp; omega, by simp; omega⟩
        rw [if_neg hfirst, if_neg hmiddle, if_pos (by omega)]
  obtain ⟨least, greatest, hranges, hleast, hgreatest⟩ := hranges
  have hcount : countFollowing [(least, greatest), (0x80, 0xbf), (0x80, 0xbf)]
      ([second, third, last] ++ rest) = 3 := by
    rw [List.cons_append, List.cons_append, List.singleton_append,
      countFollowing_cons hleast hgreatest, countFollowing_cons (by simp; omega) (by simp; omega),
      countFollowing_cons (by simp; omega) (by simp; omega)]
    rfl
  have hread : decodeParts (lead :: second :: third :: last :: rest) =
      some (Char.ofNat (((lead.toNat % 0x08 * 0x40 + second.toNat % 0x40) * 0x40 +
        third.toNat % 0x40) * 0x40 + last.toNat % 0x40)) :: decodeParts rest :=
    decodeParts_lead [second, third, last] hranges rfl rest hcount
  rw [hread, show ((lead.toNat % 0x08 * 0x40 + second.toNat % 0x40) * 0x40 +
    third.toNat % 0x40) * 0x40 + last.toNat % 0x40 = n by omega]

/-- The bytes of a character are read as that character. -/
theorem decodeParts_char (c : Char) (rest : List UInt8) :
    decodeParts (String.utf8EncodeChar c ++ rest) = some c :: decodeParts rest := by
  have hchar : Char.ofNat c.val.toNat = c := Char.ofNat_toNat c
  unfold String.utf8EncodeChar
  dsimp only
  by_cases hone : c.val.toNat ≤ 0x7f
  · rw [if_pos hone]
    exact (decodeParts_one (by omega) rest).trans (by rw [hchar])
  · rw [if_neg hone]
    by_cases htwo : c.val.toNat ≤ 0x7ff
    · rw [if_pos htwo]
      exact (decodeParts_two (by omega) (by omega) rest).trans (by rw [hchar])
    · rw [if_neg htwo]
      by_cases hthree : c.val.toNat ≤ 0xffff
      · rw [if_pos hthree]
        have hvalid : c.val.toNat < 0xd800 ∨ 0xdfff < c.val.toNat := by
          rcases c.valid with h | h
          · exact Or.inl h
          · exact Or.inr h.1
        exact (decodeParts_three (by omega) (by omega) hvalid rest).trans (by rw [hchar])
      · rw [if_neg hthree]
        have hbound : c.val.toNat < 0x110000 := by
          rcases c.valid with h | h
          · omega
          · exact h.2
        exact (decodeParts_four (by omega) hbound rest).trans (by rw [hchar])

/-- The bytes of characters are read as these characters. -/
theorem decodeParts_chars (cs : List Char) :
    decodeParts (cs.flatMap String.utf8EncodeChar) = cs.map some := by
  induction cs with
  | nil => rw [List.flatMap_nil, decodeParts, List.map_nil]
  | cons c rest ih => rw [List.flatMap_cons, decodeParts_char, ih, List.map_cons]

/-- The bytes of characters encode the text of these characters. -/
theorem decode?_chars (cs : List Char) :
    decode? (cs.flatMap String.utf8EncodeChar) = some (String.ofList cs) := by
  have hall : (cs.map some).mapM id = some cs := by
    induction cs with
    | nil => rfl
    | cons c rest ih =>
      rw [List.map_cons, List.mapM_cons, ih]
      rfl
  rw [decode?, decodeParts_chars, hall]
  rfl

/-- A text is read back from its bytes. -/
theorem decodeLossy_bytes (text : String) : decodeLossy (bytes text) = text := by
  rw [decodeLossy, bytes_eq, decodeParts_chars, List.map_map]
  simp [Function.comp_def]

end Reconciliation.Text
