namespace Reconciliation.Text

/-!
# Bytes of a text

Texts as UTF-8 bytes and back, also from bytes that are no text:

* `bytes` — the UTF-8 bytes of a text;
* `followers` — what may follow the first byte of an encoded character;
* `decodeParts` — bytes cut into characters and maximal ill-formed parts;
* `decode?` — the text, if no part is ill-formed;
* `decodeLossy` — the text with one `U+FFFD` for each ill-formed part.

An ill-formed part is maximal: it is the longest start of some encoded character, or one byte if
the byte starts none.
-/

/-- The UTF-8 bytes of a text. -/
def bytes (text : String) : List UInt8 :=
  text.toUTF8.toList

/-- The least and greatest values of the bytes that follow `lead`; `none` if no encoded character
    starts with it. -/
def followers (lead : UInt8) : Option (List (UInt8 × UInt8)) :=
  if lead < 0x80 then some []
  else if lead < 0xc2 then none
  else if lead < 0xe0 then some [(0x80, 0xbf)]
  else if lead = 0xe0 then some [(0xa0, 0xbf), (0x80, 0xbf)]
  else if lead = 0xed then some [(0x80, 0x9f), (0x80, 0xbf)]
  else if lead < 0xf0 then some [(0x80, 0xbf), (0x80, 0xbf)]
  else if lead = 0xf0 then some [(0x90, 0xbf), (0x80, 0xbf), (0x80, 0xbf)]
  else if lead < 0xf4 then some [(0x80, 0xbf), (0x80, 0xbf), (0x80, 0xbf)]
  else if lead = 0xf4 then some [(0x80, 0x8f), (0x80, 0xbf), (0x80, 0xbf)]
  else none

/-- How many of the bytes at the start lie, one by one, in the given ranges. -/
def countFollowing : List (UInt8 × UInt8) → List UInt8 → Nat
  | (least, greatest) :: ranges, byte :: rest =>
    if least ≤ byte && byte ≤ greatest then countFollowing ranges rest + 1 else 0
  | _, _ => 0

/-- The payload bits of a first byte that has `n` followers. -/
def leadBits (lead : UInt8) (n : Nat) : Nat :=
  match n with
  | 0 => lead.toNat
  | 1 => lead.toNat % 0x20
  | 2 => lead.toNat % 0x10
  | _ => lead.toNat % 0x08

/-- The bytes cut into characters, and `none` for each maximal ill-formed part. -/
def decodeParts : List UInt8 → List (Option Char)
  | [] => []
  | lead :: rest =>
    match followers lead with
    | none => none :: decodeParts rest
    | some ranges =>
      let n := countFollowing ranges rest
      let part :=
        -- All followers are there: each brings six bits.
        if n = ranges.length then
          some (Char.ofNat
            ((rest.take n).foldl (fun point byte => point * 0x40 + byte.toNat % 0x40)
              (leadBits lead n)))
        else none
      part :: decodeParts (rest.drop n)
termination_by bytes => bytes.length
decreasing_by all_goals simp_wf; try omega

/-- The text that the bytes encode, if they encode one. -/
def decode? (bytes : List UInt8) : Option String :=
  ((decodeParts bytes).mapM id).map String.ofList

/-- The text that the bytes encode, with a replacement character for each ill-formed part. -/
def decodeLossy (bytes : List UInt8) : String :=
  String.ofList ((decodeParts bytes).map fun part => part.getD '\ufffd')

end Reconciliation.Text
