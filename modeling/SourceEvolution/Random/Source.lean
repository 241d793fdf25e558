/-!
# Random words

Everything that is chosen at random is computed from 32-bit words. Where the words come from is left
open: a source is any state from which the next word can be drawn.

* `WordSource`: a source of words.
* `WordSource.below`: a number below a bound, nearly uniform, from one or two words.
* `WordSource.shuffle`: a list in a random order. Several positions are drawn with one number as
  long as the product of their ranges stays below `2 ^ 32`.
-/

namespace SourceEvolution

/-- A state from which 32-bit words can be drawn. -/
class WordSource (G : Type) where
  /-- The next word, and the state after it. -/
  next : G → UInt32 × G

namespace WordSource

variable {G : Type} [WordSource G]

/-! ## Numbers below a bound -/

/-- A number below `n`, for `0 < n`. The word is scaled to the range; when what is cut off lies
close to the next number, a second word decides between the two. -/
def below (n : Nat) (g : G) : Nat × G :=
  let (u, g) := next g
  let high := u.toNat * n / UInt32.size
  let low := u.toNat * n % UInt32.size
  if UInt32.size < low + n then
    let (v, g) := next g
    if UInt32.size ≤ low + v.toNat * n / UInt32.size then (high + 1, g) else (high, g)
  else (high, g)

/-- A number drawn below a bound is below it. -/
theorem below_lt {n : Nat} (hn : 0 < n) (g : G) : (below n g).1 < n := by
  simp only [below]
  have hu : (next g).1.toNat < UInt32.size := (next g).1.toNat_lt
  generalize (next g).1.toNat = u at hu
  have hle : u * n + n ≤ UInt32.size * n := by
    have : (u + 1) * n ≤ UInt32.size * n := Nat.mul_le_mul_right n hu
    rwa [Nat.succ_mul] at this
  have hdiv := Nat.div_add_mod (u * n) (UInt32.size)
  have hlt : u * n / UInt32.size < n := by
    rw [Nat.div_lt_iff_lt_mul (by decide), Nat.mul_comm n]
    omega
  split
  · rename_i hlow
    have hnext : u * n / UInt32.size + 1 < n := by
      rcases Nat.lt_or_ge (u * n / UInt32.size + 1) n with h | h
      · exact h
      · have heq : u * n / UInt32.size + 1 = n := by omega
        have : UInt32.size * (u * n / UInt32.size) + UInt32.size = UInt32.size * n := by
          rw [← Nat.mul_succ, Nat.succ_eq_add_one, heq]
        omega
    split <;> simp only <;> omega
  · exact hlt

/-! ## Random orders -/

/-- Numbers that are drawn several at a time. -/
structure Batch where
  /-- What is left of the number drawn last. -/
  chunk : Nat
  /-- How many positions that number still holds. -/
  left : Nat

/-- The product of `k`, `k + 1`, ... with as many factors as stay below `2 ^ 32`, and their number.
The product so far is `product` over `count` factors; `fuel` bounds the number of factors. -/
def batchSize : Nat → Nat → Nat → Nat → Nat × Nat
  | 0, _, product, count => (product, count)
  | fuel + 1, k, product, count =>
    if product * k < UInt32.size then batchSize fuel (k + 1) (product * k) (count + 1)
    else (product, count)

/-- A position below `k`, for the element at index `k - 1`. -/
def position (k : Nat) (batch : Batch) (g : G) : Nat × Batch × G :=
  let (batch, g) :=
    if batch.left = 0 then
      let (bound, count) := batchSize 32 (k + 1) k 1
      let (chunk, g) := below bound g
      (⟨chunk, count⟩, g)
    else (batch, g)
  let left := batch.left - 1
  if left = 0 then (batch.chunk, ⟨batch.chunk, 0⟩, g)
  else (batch.chunk % k, ⟨batch.chunk / k, left⟩, g)

/-- The array with two of its elements exchanged; unchanged if one of them is missing. -/
def exchange {α : Type} (xs : Array α) (i j : Nat) : Array α :=
  xs.swapIfInBounds i j

/-- Exchanges each element from index `i` on with one at or before it; `count` elements are left. -/
def shuffleFrom {α : Type} : Nat → Nat → Array α → Batch → G → Array α × G
  | 0, _, xs, _, g => (xs, g)
  | count + 1, i, xs, batch, g =>
    let (j, batch, g) := position (i + 1) batch g
    shuffleFrom count (i + 1) (exchange xs i j) batch g

/-- The list in a random order; nothing is drawn for fewer than two elements. -/
def shuffle {α : Type} (xs : List α) (g : G) : List α × G :=
  if xs.length ≤ 1 then (xs, g)
  else
    let (ys, g) := shuffleFrom xs.length 0 xs.toArray ⟨0, 1⟩ g
    (ys.toList, g)

end WordSource

end SourceEvolution
