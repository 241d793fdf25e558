import SourceEvolution.Word.Basic

/-!
# Mixing sixteen words

The digest and the random stream both work on a state of sixteen words, seen as a square of four
columns. A step mixes four words of the state by additions, exclusive ors and rotations; a round
mixes the columns of the square and then its diagonals. The two differ in the direction of the
rotations, and in the message that the digest adds on the way.

* `WordBlock`: sixteen words.
* `WordBlock.mix`: one step on four words.
* `WordBlock.mixAll`: the columns and then the diagonals.
-/

namespace SourceEvolution

/-- Sixteen words. -/
abbrev WordBlock := Vector UInt32 16

namespace WordBlock

/-- The block with one of its words replaced. -/
def put (block : WordBlock) (i : Fin 16) (word : UInt32) : WordBlock :=
  block.set i.val word i.isLt

/-- Mixes four words of a block, and two message words `x` and `y`, with the given rotation. -/
def mix (rotate : UInt32 → UInt32 → UInt32) (block : WordBlock) (a b c d : Fin 16) (x y : UInt32) :
    WordBlock :=
  let block := block.put a (block.get a + block.get b + x)
  let block := block.put d (rotate (block.get d ^^^ block.get a) 16)
  let block := block.put c (block.get c + block.get d)
  let block := block.put b (rotate (block.get b ^^^ block.get c) 12)
  let block := block.put a (block.get a + block.get b + y)
  let block := block.put d (rotate (block.get d ^^^ block.get a) 8)
  let block := block.put c (block.get c + block.get d)
  block.put b (rotate (block.get b ^^^ block.get c) 7)

/-- Mixes the four columns of a block and then its four diagonals, each with two words of a
message. -/
def mixAll (rotate : UInt32 → UInt32 → UInt32) (block message : WordBlock) : WordBlock :=
  let block := mix rotate block 0 4 8 12 (message.get 0) (message.get 1)
  let block := mix rotate block 1 5 9 13 (message.get 2) (message.get 3)
  let block := mix rotate block 2 6 10 14 (message.get 4) (message.get 5)
  let block := mix rotate block 3 7 11 15 (message.get 6) (message.get 7)
  let block := mix rotate block 0 5 10 15 (message.get 8) (message.get 9)
  let block := mix rotate block 1 6 11 12 (message.get 10) (message.get 11)
  let block := mix rotate block 2 7 8 13 (message.get 12) (message.get 13)
  mix rotate block 3 4 9 14 (message.get 14) (message.get 15)

end WordBlock

end SourceEvolution
