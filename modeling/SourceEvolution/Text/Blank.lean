/-!
# Blank characters

The characters with the Unicode property `White_Space`, and texts without them at either end.

* `isBlank`: the property, as a table of its twenty-five code points.
* `trim`: a text without blank characters at its ends.
-/

namespace SourceEvolution

namespace Text

/-- Whether a character has the Unicode property `White_Space`. -/
def isBlank (c : Char) : Bool :=
  let n := c.toNat
  (9 ≤ n && n ≤ 13) || n == 0x20 || n == 0x85 || n == 0xA0 || n == 0x1680 ||
    (0x2000 ≤ n && n ≤ 0x200A) || n == 0x2028 || n == 0x2029 || n == 0x202F || n == 0x205F ||
    n == 0x3000

/-- The characters of a text between its first and its last character that is not blank. -/
def trim (cs : List Char) : List Char :=
  ((cs.dropWhile isBlank).reverse.dropWhile isBlank).reverse

end Text

end SourceEvolution
