import SourceEvolution.Yaml.Tag

/-!
# YAML values

Scalars, sequences and mappings, and references to values that have an anchor.

* `Yaml`: a value.
* `Yaml.targets`, `Yaml.follow?`: what the references in a document stand for.
* `Yaml.text?`, `Yaml.items?`, `Yaml.entries?`, `Yaml.isNull?`: a value as a text, as a list, as a
  table, and as nothing.
-/

namespace SourceEvolution

/-- What may be said about a value in front of it. -/
structure Yaml.Properties where
  /-- The number of its anchor. -/
  anchor? : Option Nat := none
  /-- Its tag. -/
  tag? : Option Yaml.Tag := none
deriving Repr, Inhabited

/-- A YAML value. -/
inductive Yaml where
  /-- A reference to the value with an anchor. -/
  | reference (anchor : Nat)
  /-- A scalar, and whether it is plain. -/
  | scalar (properties : Yaml.Properties) (text : String) (isPlain : Bool)
  | sequence (properties : Yaml.Properties) (items : List Yaml)
  | mapping (properties : Yaml.Properties) (entries : List (Yaml × Yaml))
deriving Repr, Inhabited

namespace Yaml

/-- The value that is not written at all. -/
def empty : Yaml := .scalar {} "" true

/-! ## References -/

/-- The number of the anchor of a value. -/
def anchor? : Yaml → Option Nat
  | reference _ => none
  | scalar properties _ _ => properties.anchor?
  | sequence properties _ => properties.anchor?
  | mapping properties _ => properties.anchor?

/-- Whether a value is a reference. -/
def isReference : Yaml → Bool
  | reference _ => true
  | _ => false

mutual

/-- A value and all values in it, in the order of the document. -/
def parts : Yaml → List Yaml
  | reference anchor => [reference anchor]
  | scalar properties text isPlain => [scalar properties text isPlain]
  | sequence properties items => sequence properties items :: partsOfItems items
  | mapping properties entries => mapping properties entries :: partsOfEntries entries

/-- The parts of the items of a sequence. -/
def partsOfItems : List Yaml → List Yaml
  | [] => []
  | item :: items => parts item ++ partsOfItems items

/-- The parts of the entries of a mapping. -/
def partsOfEntries : List (Yaml × Yaml) → List Yaml
  | [] => []
  | (key, value) :: entries => parts key ++ (parts value ++ partsOfEntries entries)

end

/-- The values with an anchor, the last ones first, so that the last value with a number is found
first. -/
def targets (root : Yaml) : List (Nat × Yaml) :=
  (root.parts.filterMap fun value => value.anchor?.map (·, value)).reverse

/-- A value itself, or the one that a reference stands for. -/
def follow? (targets : List (Nat × Yaml)) : Yaml → Option Yaml
  | reference anchor => targets.lookup anchor
  | value => some value

/-- How many signs it takes to write a value apart from what is in it: one for a scalar and for a
reference, two for a collection. -/
def signCount : Yaml → Nat
  | reference _ | scalar .. => 1
  | sequence .. | mapping .. => 2

/-- How many signs it takes to write a value. -/
def extent (root : Yaml) : Nat :=
  root.parts.foldl (fun total part => total + part.signCount) 0

/-! ## Readings -/

/-- The text of a scalar. -/
def text? : Yaml → Option String
  | scalar _ text _ => some text
  | _ => none

/-- Whether a value is a plain scalar without text. -/
def isEmpty : Yaml → Bool
  | scalar _ text true => text.isEmpty
  | _ => false

/-- The items of a sequence; where nothing is written, there are none. -/
def items? : Yaml → Option (List Yaml)
  | sequence _ items => some items
  | value => if value.isEmpty then some [] else none

/-- The entries of a mapping; where nothing is written, there are none. -/
def entries? : Yaml → Option (List (Yaml × Yaml))
  | mapping _ entries => some entries
  | value => if value.isEmpty then some [] else none

/-- The words for nothing. -/
def nullWords : List String := ["~", "null", "Null", "NULL"]

/-- Whether a value stands for nothing. A plain scalar does if it has no text or is one of the words
for nothing. With a tag it does not, unless it is the tag of nothing; then there must be a word. -/
def isNull? : Yaml → Option Bool
  | scalar properties text true =>
    match properties.tag? with
    | none => some (text.isEmpty || nullWords.contains text)
    | some tag =>
      if tag ≠ Tag.null then some false
      else if nullWords.contains text then some true
      else none
  | _ => some false

end Yaml

end SourceEvolution
