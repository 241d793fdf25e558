import SourceEvolution.Text.Pieces

/-!
# File names

The components of a file name are its pieces between slashes, without those that lead nowhere: the
empty ones, and single dots.

* `FileName.components`: the components.
* `FileName.extension?`: what stands behind the last dot of the last component.
-/

namespace SourceEvolution

namespace FileName

/-- The components of a file name. -/
def components (file : String) : List (List Char) :=
  (Text.pieces '/' file.toList).filter fun piece => piece != [] && piece != ['.']

/-- The part of a component behind its last dot. A dot at the very start does not count, and the two
dots that stand for the directory above have nothing behind them. -/
def extensionOf? (component : List Char) : Option (List Char) :=
  let behind := (component.reverse.takeWhile (· != '.')).reverse
  if component ≠ ['.', '.'] ∧ behind.length + 1 < component.length then some behind else none

/-- The extension of a file name. -/
def extension? (file : String) : Option (List Char) :=
  (components file).getLast?.bind extensionOf?

end FileName

end SourceEvolution
