import SourceEvolution.Tree.Node

/-!
# Shapes of types

A type is classified by what a literal of it looks like: an empty array, a number, `nil`, and so on.
The classification is by exact names and by the structure of the type node, never by part of a name.

* `TypeShape`: the classes.
* `TypeShape.ofStandardName`, `TypeShape.ofNode`: the classification.
* `TypeShape.literal?`: the literal that stands for a value of the shape.
-/

namespace SourceEvolution

/-- What a literal of a type looks like. -/
inductive TypeShape where
  | array
  | set
  | dictionary
  | text
  | integer
  | floating
  | optional
  | named
deriving DecidableEq, Repr, Inhabited

namespace TypeShape

/-- The name under which a shape is written. -/
def name : TypeShape → String
  | array => "Array"
  | set => "Set"
  | dictionary => "Dictionary"
  | text => "Text"
  | integer => "Integer"
  | floating => "Floating"
  | optional => "Optional"
  | named => "Named"

/-- Every shape. -/
def all : List TypeShape :=
  [array, set, dictionary, text, integer, floating, optional, named]

/-- The shape written as `s`, if there is one. -/
def ofName? (s : String) : Option TypeShape :=
  all.find? fun shape => shape.name == s

/-- The shape of a type of the standard library, by its unqualified name. -/
def ofStandardName (name : String) : TypeShape :=
  if name ∈ ["Array", "ContiguousArray", "ArraySlice"] then array
  else if name = "Set" then set
  else if name = "Dictionary" then dictionary
  else if name ∈ ["String", "Substring"] then text
  else if name ∈ ["Int", "Int8", "Int16", "Int32", "Int64",
      "UInt", "UInt8", "UInt16", "UInt32", "UInt64"] then integer
  else if name ∈ ["Float", "Double", "Float16", "Float80"] then floating
  else if name ∈ ["Optional", "ImplicitlyUnwrappedOptional"] then optional
  else named

/-- Whether a type node is the plain name of the standard module. -/
def isStandardModule (base : Node) : Bool :=
  base.kind == .type .simple && base.text == some "Swift" && base.children.isEmpty

/-- The shape of a type node, when no declaration of the file gives its names another meaning. -/
def ofNode (type : Node) : TypeShape :=
  match type.kind, type.text, type.children with
  | .type .array, _, _ => array
  | .type .dictionary, _, _ => dictionary
  | .type .optional, _, _ => optional
  | .type .implicitlyUnwrapped, _, _ => optional
  | .type .simple, some name, _ => ofStandardName name
  | .type .member, some name, base :: _ =>
    if isStandardModule base then ofStandardName name else named
  | _, _, _ => named

/-- The literal that can stand for a value of the shape; a named type has none. -/
def literal? : TypeShape → Option String
  | array | set => some "[]"
  | dictionary => some "[:]"
  | text => some "\"lorem ipsum\""
  | integer => some "0"
  | floating => some "0.0"
  | optional => some "nil"
  | named => none

end TypeShape

end SourceEvolution
