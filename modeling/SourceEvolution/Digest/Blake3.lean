import SourceEvolution.Word.Mixing

/-!
# The BLAKE3 hash

The unkeyed BLAKE3 hash of a list of bytes, with the default output of 32 bytes. The input is cut
into chunks of 1024 bytes, each chunk into blocks of 64. Chunks are the leaves of a binary tree in
which every left subtree is a full tree with as many leaves as fit.

* `Blake3.compress`: the compression function.
* `Blake3.Output`: a compression that has not been run yet, since the root is compressed
  differently.
* `Blake3.chunk`, `Blake3.subtree`: the last compression of a chunk and of a subtree.
* `Blake3.hash`: the first eight words of the root.
-/

namespace SourceEvolution

namespace Blake3

/-- The words of a chaining value. -/
abbrev Chaining := Vector UInt32 8

/-- The initial chaining value. -/
def initial : Chaining :=
  #v[0x6A09E667, 0xBB67AE85, 0x3C6EF372, 0xA54FF53A, 0x510E527F, 0x9B05688C, 0x1F83D9AB, 0x5BE0CD19]

/-- The order in which the words of a message block are used in the next round, by their indices. -/
def schedule : Vector Nat 16 :=
  #v[2, 6, 3, 10, 7, 0, 4, 13, 1, 11, 12, 5, 9, 14, 15, 8]

/-- Marks the first block of a chunk. -/
def chunkStart : UInt32 := 1

/-- Marks the last block of a chunk. -/
def chunkEnd : UInt32 := 2

/-- Marks a node with two subtrees. -/
def parentNode : UInt32 := 4

/-- Marks the root. -/
def rootNode : UInt32 := 8

/-! ## Compression -/

/-- The message block with its words in the order of the next round. -/
def reorder (message : WordBlock) : WordBlock :=
  schedule.map fun i => message.toArray.getD i 0

/-- A number of rounds, the words of the message block being reordered before each but the first. -/
def rounds : Nat → WordBlock → WordBlock → WordBlock
  | 0, state, _ => state
  | n + 1, state, message => rounds n (state.mixAll Word.rotateRight message) (reorder message)

/-- The state at the start of a compression. -/
def start (chaining : Chaining) (counter : UInt64) (length flags : UInt32) : WordBlock :=
  chaining ++ #v[initial.get 0, initial.get 1, initial.get 2, initial.get 3,
    counter.toUInt32, (counter >>> 32).toUInt32, length, flags]

/-- The chaining value that comes out of a compression: the two halves of the state after seven
rounds, combined. -/
def compress (chaining : Chaining) (message : WordBlock) (counter : UInt64)
    (length flags : UInt32) : Chaining :=
  let state := rounds 7 (start chaining counter length flags) message
  Vector.ofFn fun i => state.get (i.castAdd 8) ^^^ state.get (i.natAdd 8)

/-! ## Outputs -/

/-- A compression that is about to be run. -/
structure Output where
  /-- The chaining value that goes in. -/
  chaining : Chaining
  /-- The message block. -/
  message : WordBlock
  /-- The number of the chunk. -/
  counter : UInt64
  /-- How many bytes of the message block are in use. -/
  length : UInt32
  /-- The marks of the block. -/
  flags : UInt32

namespace Output

/-- The chaining value of a node that is not the root. -/
def value (output : Output) : Chaining :=
  compress output.chaining output.message output.counter output.length output.flags

/-- The first words of the root. -/
def root (output : Output) : Chaining :=
  compress output.chaining output.message 0 output.length (output.flags ||| rootNode)

end Output

/-! ## Chunks and subtrees -/

/-- The message block of at most 64 bytes, filled up with zeros. -/
def messageBlock (bytes : List UInt8) : WordBlock :=
  let block := bytes.toArray
  Vector.ofFn fun i : Fin 16 =>
    Word.ofBytes (block.getD (4 * i) 0) (block.getD (4 * i + 1) 0) (block.getD (4 * i + 2) 0)
      (block.getD (4 * i + 3) 0)

/-- The last compression of a chunk from a block on; `flags` marks the first of these blocks. -/
def chunkFrom (chaining : Chaining) (counter : UInt64) (flags : UInt32) (bytes : List UInt8) :
    Output :=
  if bytes.length ≤ 64 then
    ⟨chaining, messageBlock bytes, counter, bytes.length.toUInt32, flags ||| chunkEnd⟩
  else
    chunkFrom (compress chaining (messageBlock (bytes.take 64)) counter 64 flags) counter 0
      (bytes.drop 64)
termination_by bytes.length
decreasing_by simp only [List.length_drop]; omega

/-- The last compression of a chunk. -/
def chunk (counter : UInt64) (bytes : List UInt8) : Output :=
  chunkFrom initial counter chunkStart bytes

/-- The compression of a node with two subtrees. -/
def parent (left right : Chaining) : Output :=
  ⟨initial, left ++ right, 0, 64, parentNode⟩

/-- How many bytes of an input that needs several chunks go to the left subtree. -/
def leftLength (length : Nat) : Nat :=
  1024 <<< ((length - 1) / 1024).log2

/-- The left subtree takes part of the input. -/
theorem leftLength_lt {length : Nat} (h : 1024 < length) : leftLength length < length := by
  have hpow := Nat.log2_self_le (show (length - 1) / 1024 ≠ 0 by omega)
  rw [leftLength, Nat.shiftLeft_eq]
  omega

/-- The left subtree takes at least one chunk. -/
theorem leftLength_pos (length : Nat) : 0 < leftLength length := by
  have hpow := Nat.two_pow_pos ((length - 1) / 1024).log2
  rw [leftLength, Nat.shiftLeft_eq]
  omega

/-- The last compression of the subtree over an input that starts at a chunk. -/
def subtree (counter : UInt64) (bytes : List UInt8) : Output :=
  if bytes.length ≤ 1024 then chunk counter bytes
  else
    let left := leftLength bytes.length
    parent (subtree counter (bytes.take left)).value
      (subtree (counter + (left / 1024).toUInt64) (bytes.drop left)).value
termination_by bytes.length
decreasing_by
  · have := leftLength_lt (show 1024 < bytes.length by omega)
    simp only [List.length_take]
    omega
  · have := leftLength_pos bytes.length
    simp only [List.length_drop]
    omega

/-- The hash of the bytes, as eight words. -/
def hash (bytes : List UInt8) : Chaining :=
  (subtree 0 bytes).root

end Blake3

end SourceEvolution
