import SourceEvolution.Text.Decimal

/-!
# Numerals

Numbers as JSON writes them: an optional sign, digits without a leading zero, an optional fraction
and an optional exponent.

A number that is kept as a value is kept in floating point, with a significand of 53 bits, and must
not be too large for it. What is kept of its digits is as much as fits in a word; the significand
and the power of ten that it is scaled by are each rounded, and then their product is.

* `Numeral.isNumber`: the grammar.
* `Numeral.Scaled.ofChars`: the digits that are kept, and the power of ten.
* `Numeral.isInRange`: whether the number is finite in floating point.
-/

namespace SourceEvolution

namespace Numeral

/-! ## Grammar -/

/-- The characters that numbers are made of. -/
def isNumberChar (c : Char) : Bool :=
  c.isDigit || c == '-' || c == '+' || c == '.' || c == 'e' || c == 'E'

/-- Whether a text is a run of one or more digits. -/
def isRun (cs : List Char) : Bool :=
  !cs.isEmpty && cs.all Char.isDigit

/-- Whether a text is a run of digits without a leading zero; a single zero is one. -/
def isWhole (cs : List Char) : Bool :=
  isRun cs && (cs.head? != some '0' || cs == ['0'])

/-- The text behind an optional sign, which is one of the given characters. -/
def dropSign (signs : List Char) : List Char → List Char
  | [] => []
  | c :: cs => if signs.contains c then cs else c :: cs

/-- Whether a text is nothing or an exponent: its mark, an optional sign, and digits. -/
def isExponent : List Char → Bool
  | [] => true
  | c :: cs => (c == 'e' || c == 'E') && isRun (dropSign ['+', '-'] cs)

/-- Whether a text may follow the digits of a whole number: an optional fraction, and an optional
exponent. -/
def isTail : List Char → Bool
  | [] => true
  | c :: cs =>
    if c = '.' then isRun (cs.takeWhile Char.isDigit) && isExponent (cs.dropWhile Char.isDigit)
    else isExponent (c :: cs)

/-- Whether a text is a number. -/
def isNumber (cs : List Char) : Bool :=
  let unsigned := dropSign ['-'] cs
  isWhole (unsigned.takeWhile Char.isDigit) && isTail (unsigned.dropWhile Char.isDigit)

/-! ## The digits that are kept -/

/-- Appends digits to a number as long as it fits in a word; gives the digits that are left over. -/
def fill (n : Nat) : List Char → Nat × List Char
  | [] => (n, [])
  | c :: cs =>
    let next := 10 * n + Decimal.digitValue c
    if next < Decimal.wordBound then fill next cs else (n, c :: cs)

/-- A number without its sign, as a word scaled by a power of ten. -/
structure Scaled where
  /-- The digits that are kept. -/
  significand : Nat
  /-- The power of ten that they are scaled by. -/
  exponent : Int
deriving DecidableEq, Repr

/-- The number behind the mark of an exponent; zero if there is none. -/
def shift : List Char → Int
  | [] => 0
  | _ :: '-' :: cs => -(Decimal.value cs : Int)
  | _ :: cs => (Decimal.value (dropSign ['+'] cs) : Int)

/-- The fraction at the start of a text, without its point, and what follows it. -/
def fraction : List Char → List Char × List Char
  | '.' :: cs => (cs.takeWhile Char.isDigit, cs.dropWhile Char.isDigit)
  | cs => ([], cs)

/-- What is kept of a number. Digits before the point that do not fit scale it up, digits behind the
point that do fit scale it down. -/
def Scaled.ofChars (cs : List Char) : Scaled :=
  let unsigned := dropSign ['-'] cs
  let (whole, spare) := fill 0 (unsigned.takeWhile Char.isDigit)
  let (places, tail) := fraction (unsigned.dropWhile Char.isDigit)
  let (significand, lost) := fill whole places
  { significand, exponent := spare.length - (places.length - lost.length : Nat) + shift tail }

/-! ## Floating point -/

/-- The nearest number of 53 significant bits; of two, the one whose last bit is zero. -/
def nearest (n : Nat) : Nat :=
  let unit := 1 <<< (n.log2 + 1 - 53)
  let below := n / unit
  let left := 2 * (n % unit)
  if unit < left ∨ (left = unit ∧ below % 2 = 1) then (below + 1) * unit else below * unit

/-- The least number that is rounded to infinity. -/
def overflowBound : Nat := (1 <<< 1024) - (1 <<< 970)

/-- The largest power of ten that a number is scaled by. -/
def maxExponent : Nat := 308

/-- Whether a scaled number is finite in floating point. -/
def Scaled.isFinite (scaled : Scaled) : Bool :=
  scaled.significand == 0 || scaled.exponent < 0 ||
    (scaled.exponent ≤ maxExponent &&
      nearest scaled.significand * nearest (Nat.pow 10 scaled.exponent.toNat) < overflowBound)

/-- Whether a number is finite in floating point. -/
def isInRange (cs : List Char) : Bool :=
  (Scaled.ofChars cs).isFinite

end Numeral

end SourceEvolution
