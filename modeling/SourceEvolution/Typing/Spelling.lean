import SourceEvolution.Tree.Node

/-!
# Spelling of types

The source text of a type node. `Node.spelling` works from the leaves up: the spellings of the
children are put together by `Spelling.assemble`, which knows how each kind of type is written.
-/

namespace SourceEvolution

namespace Spelling

/-- Spellings separated by commas. -/
def joined (parts : List String) : String :=
  String.intercalate ", " parts

/-- A name followed by its generic arguments, if it has any. -/
def withArguments (name : String) (arguments : List String) : String :=
  if arguments.isEmpty then name else name ++ "<" ++ joined arguments ++ ">"

/-- How a type of a kind is written, given its own text and the spellings of its children. -/
def assemble (kind : NodeKind) (text : String) (parts : List String) : String :=
  match kind with
  | .type .simple => withArguments text parts
  | .type .member => parts.headD "" ++ "." ++ withArguments text parts.tail
  | .type .array => "[" ++ joined parts ++ "]"
  | .type .dictionary =>
    match parts with
    | [key, value] => "[" ++ key ++ ": " ++ value ++ "]"
    | _ => "[" ++ joined parts ++ "]"
  | .type .optional => joined parts ++ "?"
  | .type .implicitlyUnwrapped => joined parts ++ "!"
  | .type .tuple => "(" ++ joined parts ++ ")"
  | .type .function =>
    match parts.getLast? with
    | some result => "(" ++ joined parts.dropLast ++ ") -> " ++ result
    | none => "() -> ()"
  | _ => text

end Spelling

namespace Node

mutual

/-- The source text of a type; a node that is no type is spelled by its own text. -/
def spelling : Node → String
  | ⟨kind, text, _, children⟩ => Spelling.assemble kind (text.getD "") (spellings children)

/-- The source texts of several types. -/
def spellings : List Node → List String
  | [] => []
  | node :: rest => node.spelling :: spellings rest

end

end Node

end SourceEvolution
