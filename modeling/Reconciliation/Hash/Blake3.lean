import Reconciliation.Text.Utf8

namespace Reconciliation.Blake3

/-!
# BLAKE3

The BLAKE3 hash function on bytes:

* `compress` — the compression of one block;
* `Node` — the last compression of a part of the hash tree, not yet run;
* `Node.ofChunk`, `Node.parent` — the leaves and the inner nodes;
* `tree` — the tree over a list of chunks;
* `hash` — the first 32 bytes of the root;
* `fingerprint` — the first 32 hexadecimal digits of the hash of a text.

A chunk has up to 1024 bytes and is compressed in blocks of up to 64.  The left part of an inner
node holds the greatest power of two of chunks that leaves at least one for the right part.
-/

/-- Eight words that stand for everything hashed below. -/
abbrev Chain := Vector UInt32 8

/-- Sixteen words of a message. -/
abbrev Block := Vector UInt32 16

/-- The words that a chain starts from. -/
def initial : Chain :=
  #v[0x6a09e667, 0xbb67ae85, 0x3c6ef372, 0xa54ff53a, 0x510e527f, 0x9b05688c, 0x1f83d9ab, 0x5be0cd19]

/-- Marks the first block of a chunk. -/
def chunkStart : UInt32 := 1
/-- Marks the last block of a chunk. -/
def chunkEnd : UInt32 := 2
/-- Marks an inner node. -/
def parentNode : UInt32 := 4
/-- Marks the root. -/
def rootNode : UInt32 := 8

/-- The word with its bits moved `n` places to the right, around the end. -/
def rotateRight (word n : UInt32) : UInt32 := (word >>> n) ||| (word <<< (32 - n))

/-- Mixes two message words into four words of the state. -/
def mix (v : Block) (a b c d : Fin 16) (x y : UInt32) : Block :=
  let v := v.set a (v[a] + v[b] + x)
  let v := v.set d (rotateRight (v[d] ^^^ v[a]) 16)
  let v := v.set c (v[c] + v[d])
  let v := v.set b (rotateRight (v[b] ^^^ v[c]) 12)
  let v := v.set a (v[a] + v[b] + y)
  let v := v.set d (rotateRight (v[d] ^^^ v[a]) 8)
  let v := v.set c (v[c] + v[d])
  v.set b (rotateRight (v[b] ^^^ v[c]) 7)

/-- One round: the columns of the state, then its diagonals. -/
def round (v m : Block) : Block :=
  -- The columns.
  let v := mix v 0 4 8 12 m[0] m[1]
  let v := mix v 1 5 9 13 m[2] m[3]
  let v := mix v 2 6 10 14 m[4] m[5]
  let v := mix v 3 7 11 15 m[6] m[7]
  -- The diagonals.
  let v := mix v 0 5 10 15 m[8] m[9]
  let v := mix v 1 6 11 12 m[10] m[11]
  let v := mix v 2 7 8 13 m[12] m[13]
  mix v 3 4 9 14 m[14] m[15]

/-- The message words in the order of the next round. -/
def permute (m : Block) : Block :=
  #v[m[2], m[6], m[3], m[10], m[7], m[0], m[4], m[13], m[1], m[11], m[12], m[5], m[9], m[14],
    m[15], m[8]]

/-- The state after `n` rounds. -/
def rounds : Nat → Block → Block → Block
  | 0, v, _ => v
  | n + 1, v, m => rounds n (round v m) (permute m)

/-- The compression of one block of `length` bytes. -/
def compress (chain : Chain) (block : Block) (counter length : Nat) (flags : UInt32) : Chain :=
  let start : Block :=
    #v[chain[0], chain[1], chain[2], chain[3], chain[4], chain[5], chain[6], chain[7],
      0x6a09e667, 0xbb67ae85, 0x3c6ef372, 0xa54ff53a,
      counter.toUInt32, (counter >>> 32).toUInt32, length.toUInt32, flags]
  let v := rounds 7 start block
  #v[v[0] ^^^ v[8], v[1] ^^^ v[9], v[2] ^^^ v[10], v[3] ^^^ v[11], v[4] ^^^ v[12], v[5] ^^^ v[13],
    v[6] ^^^ v[14], v[7] ^^^ v[15]]

/-- The last compression of a part of the tree. -/
structure Node where
  chain : Chain
  block : Block
  counter : Nat
  length : Nat
  flags : UInt32

/-- The chain value that stands for the node inside the tree. -/
def Node.value (node : Node) : Chain :=
  compress node.chain node.block node.counter node.length node.flags

/-- The chain value of the node at the root. -/
def Node.root (node : Node) : Chain :=
  compress node.chain node.block 0 node.length (node.flags ||| rootNode)

/-- The list in pieces of `n + 1` elements, of which the last may be shorter; one at least. -/
def pieces {α : Type} (n : Nat) (xs : List α) : List (List α) :=
  if xs.length ≤ n + 1 then [xs] else xs.take (n + 1) :: pieces n (xs.drop (n + 1))
termination_by xs.length

/-- The `i`-th word of some bytes, least byte first and with zeros after their end. -/
def wordAt (bytes : Array UInt8) (i : Nat) : UInt32 :=
  let byte (k : Nat) : UInt32 := (bytes.getD (4 * i + k) 0).toUInt32
  byte 0 ||| (byte 1 <<< 8) ||| (byte 2 <<< 16) ||| (byte 3 <<< 24)

/-- The words of a block of bytes. -/
def blockOf (bytes : List UInt8) : Block :=
  let bytes := bytes.toArray
  .ofFn fun i => wordAt bytes i

/-- Compresses the blocks of a chunk but for the last. -/
def Node.ofBlocks (counter : Nat) (chain : Chain) (flags : UInt32) : List (List UInt8) → Node
  | [] => ⟨chain, blockOf [], counter, 0, flags ||| chunkEnd⟩
  | [last] => ⟨chain, blockOf last, counter, last.length, flags ||| chunkEnd⟩
  | block :: rest =>
    -- Only the first block of a chunk is marked as its start.
    ofBlocks counter (compress chain (blockOf block) counter block.length flags) 0 rest

/-- The node of the chunk with the given number. -/
def Node.ofChunk (counter : Nat) (bytes : List UInt8) : Node :=
  .ofBlocks counter initial chunkStart (pieces 63 bytes)

/-- The node above two parts. -/
def Node.parent (left right : Node) : Node :=
  ⟨initial, left.value ++ right.value, 0, 64, parentNode⟩

/-- The tree over chunks, the first of which has the given number. -/
def tree (counter : Nat) : List (List UInt8) → Node
  | [] => .ofChunk counter []
  | [chunk] => .ofChunk counter chunk
  | first :: second :: rest =>
    let chunks := first :: second :: rest
    -- The greatest power of two below the number of chunks.
    let left := 1 <<< Nat.log2 (rest.length + 1)
    .parent (tree counter (chunks.take left)) (tree (counter + left) (chunks.drop left))
termination_by chunks => chunks.length
decreasing_by
  · have := Nat.log2_self_le (n := rest.length + 1) (by omega)
    rw [← Nat.one_shiftLeft] at this
    simp only [List.length_take, List.length_cons]
    omega
  · have : 0 < 1 <<< Nat.log2 (rest.length + 1) := by
      rw [Nat.one_shiftLeft]
      exact Nat.two_pow_pos _
    simp only [List.length_drop, List.length_cons]
    omega

/-- The bytes of a word, least first. -/
def bytesOf (word : UInt32) : List UInt8 :=
  [word.toUInt8, (word >>> 8).toUInt8, (word >>> 16).toUInt8, (word >>> 24).toUInt8]

/-- The first 32 bytes of the hash. -/
def hash (bytes : List UInt8) : List UInt8 :=
  (tree 0 (pieces 1023 bytes)).root.toList.flatMap bytesOf

/-- The two hexadecimal digits of a byte. -/
def hexPair (byte : UInt8) : List Char :=
  [Nat.digitChar (byte.toNat / 16), Nat.digitChar (byte.toNat % 16)]

/-- The first 32 hexadecimal digits of the hash of a text. -/
def fingerprint (text : String) : String :=
  String.ofList (((hash (Text.bytes text)).take 16).flatMap hexPair)

end Reconciliation.Blake3
