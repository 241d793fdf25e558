import SourceEvolution.Text.Decimal
import SourceEvolution.Text.Pieces
import SourceEvolution.Tree.Node

/-!
# Paths

A path addresses a node of a tree by the child indices that lead to it from the root. This module
holds paths, their text form, and reading and replacing the node that a path addresses.

* `Path.render` and `Path.parse`: the text form, indices joined by dots, the root as a single dot.
* `Node.nodeAt?`: the node that a path leads to.
* `Node.replaceAt?`: the tree with that node replaced; the nodes above it keep everything but the
  child that changed.
-/

namespace SourceEvolution

/-- Child indices from the root down; the empty path is the root. -/
abbrev Path := List Nat

/-- Why a text is not a path. -/
inductive PathError where
  /-- Two dots stand side by side, or a dot stands at an end. -/
  | emptySegment
  /-- A segment is not a number below `2 ^ 64`. -/
  | invalidSegment (segment : String)
deriving DecidableEq, Repr

/-- The wording of a path error. -/
def PathError.message : PathError → String
  | .emptySegment => "path contains empty segment"
  | .invalidSegment segment => "invalid segment: " ++ segment ++ " (must be a non-negative integer)"

namespace Path

/-! ## Text form -/

/-- Reads one segment. -/
def parseSegment (segment : List Char) : Except PathError Nat :=
  if segment = [] then .error .emptySegment
  else match Decimal.parseWord? segment with
    | some index => .ok index
    | none => .error (.invalidSegment (String.ofList segment))

/-- Reads a path; of several bad segments the leftmost is reported. -/
def parse (text : String) : Except PathError Path :=
  let cs := text.toList
  if cs = [] ∨ cs = ['.'] then .ok []
  else (Text.pieces '.' cs).mapM parseSegment

/-- The text of a path: its indices joined by dots, or a single dot for the root. -/
def render (path : Path) : String :=
  if path = [] then "." else String.ofList (List.intercalate ['.'] (path.map Decimal.digits))

/-- The path of a child of the node at `path`. -/
def child (path : Path) (index : Nat) : Path :=
  path ++ [index]

/-! ## Order -/

/-- Paths are ordered by their first differing index, a path before its extensions. -/
def cmp : Path → Path → Ordering
  | [], [] => .eq
  | [], _ :: _ => .lt
  | _ :: _, [] => .gt
  | i :: p, j :: q => (compare i j).then (cmp p q)

end Path

namespace Node

/-! ## Reading and replacing -/

/-- The child at an index. -/
def child? (node : Node) (index : Nat) : Option Node :=
  node.children[index]?

/-- The same node with the child at an index replaced; none if there is no such child. -/
def replaceChild? (node : Node) (index : Nat) (replacement : Node) : Option Node :=
  if index < node.children.length then
    some (node.withChildren (node.children.set index replacement))
  else none

/-- The node that a path leads to. -/
def nodeAt? (node : Node) : Path → Option Node
  | [] => some node
  | index :: rest => (node.child? index).bind fun child => child.nodeAt? rest

/-- The tree with the node at a path replaced; none if the path leads nowhere. -/
def replaceAt? (node : Node) (path : Path) (replacement : Node) : Option Node :=
  match path with
  | [] => some replacement
  | index :: rest => do
    let child ← node.child? index
    let changed ← child.replaceAt? rest replacement
    node.replaceChild? index changed

end Node

end SourceEvolution
