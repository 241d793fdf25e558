import SourceEvolution.Json.Reader
import SourceEvolution.Json.Record
import SourceEvolution.Tree.Path

/-!
# Trees as documents

Nodes, positions, paths and source files as JSON values. What a node does not have is not written;
what may be left out may also be given as `null`, except the children.

* `Position.toJson`, `Node.toJson`, `Path.toJson`, `SourceFile.toJson` and their readers `ofJson?`.
* `SourceFile`: a tree and the name of the file it was parsed from.
-/

namespace SourceEvolution

/-! ## Positions and kinds -/

namespace Position

/-- A position as a record. -/
def toJson (position : Position) : Json :=
  .object [("line", .natural position.line.toNat), ("column", .natural position.column.toNat)]

/-- Reads a position. -/
def ofJson? (json : Json) : Option Position :=
  match json.record? ["line", "column"] with
  | some [some line, some column] => do return ⟨← line.word32?, ← column.word32?⟩
  | _ => none

end Position

namespace NodeKind

/-- A kind by its name. -/
def toJson (kind : NodeKind) : Json :=
  .string kind.name

/-- Reads a kind. -/
def ofJson? (json : Json) : Option NodeKind :=
  json.unitName?.bind ofName?

end NodeKind

/-! ## Nodes -/

namespace Node

mutual

/-- A node as a record, without the fields it has nothing for. -/
def toJson : Node → Json
  | ⟨kind, text, position, children⟩ =>
    .object
      ([("kind", kind.toJson)] ++
        (text.map fun text => ("text", Json.string text)).toList ++
        (position.map fun position => ("position", position.toJson)).toList ++
        (if children.isEmpty then [] else [("children", .array (listToJson children))]))

/-- Several nodes, one after the other. -/
def listToJson : List Node → List Json
  | [] => []
  | node :: rest => node.toJson :: listToJson rest

end

/-- Several nodes are written one by one. -/
theorem listToJson_eq_map (nodes : List Node) : listToJson nodes = nodes.map toJson := by
  induction nodes with
  | nil => rfl
  | cons node rest ih => simp [listToJson, ih]

/-- A node from what is given for its fields. The children may be left out and may be given once. -/
def assemble? (kind text position : Option Json) (children : List (Option (List Node))) :
    Option Node := do
  let kind ← kind.bind NodeKind.ofJson?
  let text ← Json.optional? Json.string? text
  let position ← Json.optional? Position.ofJson? position
  let children ← match children with
    | [] => some []
    | [given] => given
    | _ => none
  return { kind, text, position, children }

mutual

/-- Reads a node. -/
def ofJson? : Json → Option Node
  | .object fields => do
    assemble? (← Json.field? fields "kind") (← Json.field? fields "text")
      (← Json.field? fields "position") (childFields fields)
  | .array [kind] => assemble? (some kind) none none []
  | .array [kind, text] => assemble? (some kind) (some text) none []
  | .array [kind, text, position] => assemble? (some kind) (some text) (some position) []
  | .array [kind, text, position, children] =>
    assemble? (some kind) (some text) (some position) [childrenOfJson? children]
  | _ => none

/-- Reads several nodes. -/
def listOfJson? : List Json → Option (List Node)
  | [] => some []
  | json :: rest => do return (← ofJson? json) :: (← listOfJson? rest)

/-- Reads the children of a node. -/
def childrenOfJson? : Json → Option (List Node)
  | .array items => listOfJson? items
  | _ => none

/-- What the fields of an object give for the children. -/
def childFields : List (String × Json) → List (Option (List Node))
  | [] => []
  | (name, value) :: rest =>
    if name = "children" then childrenOfJson? value :: childFields rest else childFields rest

end

end Node

/-! ## Paths -/

namespace Path

/-- A path as the array of its indices. -/
def toJson (path : Path) : Json :=
  .array (path.map Json.natural)

/-- Reads an array of indices. -/
def ofJson? (json : Json) : Option Path :=
  json.array?.bind fun items => items.mapM Json.word?

end Path

/-! ## Source files -/

/-- A parsed source file. -/
structure SourceFile where
  /-- The name of the file. -/
  path : String
  /-- The tree it was parsed into. -/
  root : Node
deriving DecidableEq, Repr, Inhabited

namespace SourceFile

/-- A source file as a record. -/
def toJson (source : SourceFile) : Json :=
  .object [("path", .string source.path), ("root", source.root.toJson)]

/-- Reads a source file. -/
def ofJson? (json : Json) : Option SourceFile :=
  match json.record? ["path", "root"] with
  | some [some path, some root] => do return ⟨← path.string?, ← Node.ofJson? root⟩
  | _ => none

/-- Reads a source file from the text of a document. -/
def parse? (text : String) : Option SourceFile :=
  (Json.parse? text).bind ofJson?

end SourceFile

end SourceEvolution
