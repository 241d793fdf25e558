import SourceEvolution.Text.Decimal
import SourceEvolution.Yaml.Character
import SourceEvolution.Yaml.Scalar

/-!
# Scalars of whole lines

A block scalar is announced in a header and then takes all lines that are indented. Its lines are
kept as they are (`|`), or folded where neither of two neighbours starts with a blank (`>`).

* `BlockHeader`, `blockHeader?`: what the header says.
* `BlockText`, `blockLines?`: the text of the lines.
* `blockScalar?`: a block scalar.
-/

namespace SourceEvolution

namespace Yaml

/-! ## Headers -/

/-- Which line ends at the end of a block scalar belong to it. -/
inductive Chomping where
  /-- None of them. -/
  | strip
  /-- The one that ends its last line. -/
  | clip
  /-- All of them. -/
  | keep
deriving DecidableEq, Repr

/-- What the header of a block scalar says. -/
structure BlockHeader where
  /-- Which line ends at its end belong to it. -/
  chomping : Chomping
  /-- How much further its lines are indented than what it belongs to, if that is said. -/
  increment? : Option Nat

/-- The sign for line ends that a text starts with, and what follows it. -/
def chomping? : PlacedText → Option Chomping × PlacedText
  | [] => (none, [])
  | p :: rest =>
    if p.char = '+' then (some .keep, rest)
    else if p.char = '-' then (some .strip, rest)
    else (none, p :: rest)

/-- The digit for the indentation that a text starts with, which is not zero, and what follows
it. -/
def increment? : PlacedText → Option (Option Nat × PlacedText)
  | [] => some (none, [])
  | p :: rest =>
    if p.char = '0' then none
    else if p.char.isDigit then some (some (Decimal.digitValue p.char), rest)
    else some (none, p :: rest)

/-- The header of a block scalar, read behind the character that announces it, and the lines below
it. The two signs may stand in either order. -/
def blockHeader? (text : PlacedText) : Option (BlockHeader × PlacedText) := do
  let (first, rest) := chomping? text
  let (increment, rest) ← increment? rest
  let (chomping, rest) := if first.isSome then (first, rest) else chomping? rest
  return (⟨chomping.getD .clip, increment⟩, ← finishLine? false rest)

/-! ## Lines -/

/-- How far the first line with content is indented, or an earlier line of blanks that goes further.
A tab in the indentation is refused. -/
def contentColumn? (widest : Nat) : PlacedText → Option Nat
  | [] => some widest
  | p :: rest =>
    if p.char = ' ' then contentColumn? (max widest (p.column + 1)) rest
    else if p.char = '\t' then none
    else if isLineEnd p.char then contentColumn? widest rest
    else some widest

/-- The text of a block scalar that is being read. -/
structure BlockText where
  /-- The characters so far, last first. -/
  done : List Char := []
  /-- The line ends since then, last first. -/
  breaks : List Char := []
  /-- Whether a line is being read. -/
  inLine : Bool := false
  /-- Whether the last line starts with a blank. -/
  isIndented : Bool := false

namespace BlockText

/-- The text when another line starts with a character. In a folded scalar, the line ends between
two lines are folded if neither of the two starts with a blank. -/
def startLine (block : BlockText) (folds : Bool) (c : Char) : BlockText :=
  let breaks := block.breaks.reverse
  let gap :=
    if folds && !block.done.isEmpty && !block.isIndented && !isBlank c then unfolded breaks
    else breaks
  { done := c :: (gap.reverse ++ block.done), inLine := true, isIndented := isBlank c }

/-- The text at its end. The first of the last line ends is the one that ends the last line, if
there is such a line. -/
def closed (block : BlockText) (chomping : Chomping) : String :=
  let breaks := block.breaks.reverse
  let tail := match chomping with
    | .strip => []
    | .clip => if block.done.isEmpty then [] else breaks.take 1
    | .keep => breaks
  String.ofList (block.done.reverse ++ tail)

end BlockText

/-- The lines of a block scalar that are indented up to a column, and what follows them. A tab in
the indentation is refused. -/
def blockLines? (folds : Bool) (column : Nat) (block : BlockText) :
    PlacedText → Option (BlockText × PlacedText)
  | [] => some (block, [])
  | p :: rest =>
    if isLineEnd p.char then
      blockLines? folds column
        { block with breaks := p.char :: block.breaks, inLine := false } rest
    else if block.inLine then
      blockLines? folds column { block with done := p.char :: block.done } rest
    else if p.column < column && p.char = ' ' then blockLines? folds column block rest
    else if p.column < column && p.char = '\t' then none
    else if p.column = column then blockLines? folds column (block.startLine folds p.char) rest
    else some (block, p :: rest)

/-- The column that the lines of a block scalar are indented up to. `parent?` is the column of the
block around it. -/
def blockColumn? (header : BlockHeader) (parent? : Option Nat) (lines : PlacedText) : Option Nat :=
  match header.increment? with
  | some increment => some (parent?.getD 0 + increment)
  | none => (contentColumn? 0 lines).map fun column => max column (max 1 (parent?.elim 0 (· + 1)))

/-- A block scalar, read behind the character that announces it, and what follows it. `parent?` is
the column of the block around it. -/
def blockScalar? (folds : Bool) (parent? : Option Nat) (text : PlacedText) :
    Option (String × PlacedText) := do
  let (header, lines) ← blockHeader? text
  let column ← blockColumn? header parent? lines
  let (block, rest) ← blockLines? folds column {} lines
  return (block.closed header.chomping, rest)

end Yaml

end SourceEvolution
