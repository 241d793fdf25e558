import SourceEvolution.Random.Source
import SourceEvolution.Word.Mixing

/-!
# The random stream

The words behind every plan: ChaCha with twelve rounds, keyed from a 64-bit seed and read from block
zero on.

* `WordStream.ofSeed`: the stream of a seed.
* `WordStream.block`: the sixteen words of a block.
* The instance `WordSource WordStream` reads the blocks word by word.
-/

namespace SourceEvolution

/-- A place in a stream of random words. -/
structure WordStream where
  /-- The key. -/
  key : Vector UInt32 8
  /-- The number of the next block. -/
  counter : UInt64
  /-- The words of the last block that have not been read. -/
  pending : List UInt32

namespace WordStream

/-- A number of double rounds. -/
def doubleRounds : Nat → WordBlock → WordBlock
  | 0, state => state
  | n + 1, state => doubleRounds n (state.mixAll Word.rotateLeft (Vector.replicate 16 0))

/-- The words that every block starts with. -/
def constants : Vector UInt32 4 :=
  #v[0x61707865, 0x3320646e, 0x79622d32, 0x6b206574]

/-- The state that a block is made from: the constants, the key, and the number of the block. -/
def blockStart (key : Vector UInt32 8) (counter : UInt64) : WordBlock :=
  constants ++ key ++ #v[counter.toUInt32, (counter >>> 32).toUInt32, 0, 0]

/-- The words of a block. -/
def block (key : Vector UInt32 8) (counter : UInt64) : List UInt32 :=
  let start := blockStart key counter
  List.zipWith (· + ·) start.toList (doubleRounds 6 start).toList

/-- The next state of the generator that spreads a seed over a key. -/
def seedStep (state : UInt64) : UInt64 :=
  state * 6364136223846793005 + 11634580027462260723

/-- The key word of a state of that generator. -/
def seedWord (state : UInt64) : UInt32 :=
  let word := (((state >>> 18) ^^^ state) >>> 27).toUInt32
  let distance := (state >>> 59).toUInt32
  if distance = 0 then word else Word.rotateRight word distance

/-- The key words of a seed. -/
def seedWords : Nat → UInt64 → List UInt32
  | 0, _ => []
  | n + 1, state => seedWord (seedStep state) :: seedWords n (seedStep state)

/-- As many words are made as are asked for. -/
theorem length_seedWords (n : Nat) (state : UInt64) : (seedWords n state).length = n := by
  induction n generalizing state with
  | zero => rfl
  | succ n ih => simp [seedWords, ih]

/-- The stream of a seed, from its start. -/
def ofSeed (seed : UInt64) : WordStream where
  key := ⟨(seedWords 8 seed).toArray, by simp [length_seedWords]⟩
  counter := 0
  pending := []

/-- The next word of a stream. -/
def next (stream : WordStream) : UInt32 × WordStream :=
  match stream.pending with
  | word :: rest => (word, { stream with pending := rest })
  | [] =>
    match block stream.key stream.counter with
    | word :: rest => (word, { stream with counter := stream.counter + 1, pending := rest })
    | [] => (0, stream)

instance : WordSource WordStream where
  next := next

end WordStream

end SourceEvolution
