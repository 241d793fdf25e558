import SourceEvolution.Change.Document
import SourceEvolution.Digest.Basic

/-!
# Plans

A plan is the list of evolutions that have been chosen for one or more files, in the order in which
they are to be applied.

* `PlanEntry`, `Plan`: the data; an entry is labelled with the place that it was planned for.
* `Plan.entriesFor`: the entries of one file.
* `Plan.toJson`, `Plan.ofJson?`, `Plan.render`, `Plan.parse?`: plans as documents.
-/

namespace SourceEvolution

/-- The label of a place in a file: its position where that is known, and its path otherwise. -/
def locationLabel (file : String) (path : Path) : Option Position → String
  | some position =>
    file ++ ":" ++ Decimal.render position.line.toNat ++ ":" ++ Decimal.render position.column.toNat
  | none => file ++ "@" ++ path.render

/-- An evolution that has been chosen. -/
structure PlanEntry where
  /-- The label of the place. -/
  location : String
  /-- The name of the file. -/
  file : String
  /-- The path of the node in the tree of the file. -/
  path : Path
  /-- What is to be done to the node. -/
  evolution : Evolution
deriving DecidableEq, Repr

namespace PlanEntry

/-- The entry for an evolution of a node. -/
def forNode (file : String) (path : Path) (node : Node) (evolution : Evolution) : PlanEntry :=
  ⟨locationLabel file path node.position, file, path, evolution⟩

/-- An entry as a record. -/
def toJson (entry : PlanEntry) : Json :=
  .object [("location", .string entry.location), ("file", .string entry.file),
    ("path", entry.path.toJson), ("evolution", entry.evolution.toJson)]

/-- Reads an entry. -/
def ofJson? (json : Json) : Option PlanEntry :=
  match json.record? ["location", "file", "path", "evolution"] with
  | some [some location, some file, some path, some evolution] => do
    return ⟨← location.string?, ← file.string?, ← Path.ofJson? path, ← Evolution.ofJson? evolution⟩
  | _ => none

end PlanEntry

/-- Evolutions in the order in which they are to be applied. -/
abbrev Plan := List PlanEntry

namespace Plan

/-- The entries of one file, in order. -/
def entriesFor (plan : Plan) (file : String) : Plan :=
  plan.filter fun entry => entry.file == file

/-- A plan as the array of its entries. -/
def toJson (plan : Plan) : Json :=
  .array (plan.map PlanEntry.toJson)

/-- Reads a plan. -/
def ofJson? (json : Json) : Option Plan :=
  json.array?.bind fun items => items.mapM PlanEntry.ofJson?

/-- The text that a plan is saved as. -/
def render (plan : Plan) : String :=
  plan.toJson.pretty

/-- Reads a plan from its text. -/
def parse? (text : String) : Option Plan :=
  (Json.parse? text).bind ofJson?

/-- The digest of a plan. -/
def digest (plan : Plan) : Digest :=
  Digest.ofJson plan.toJson

end Plan

end SourceEvolution
