import SourceEvolution.Text.Decimal
import SourceEvolution.Tree.Builder

/-!
# Sample trees

Short ways to write down declarations, and a few whole files built with them. They serve as worked
examples of the layouts and as inputs on which the planner can be tried.

* `Sketch`: a declaration with members, assembled step by step and turned into a node by
  `Sketch.toNode`.
* `Sample`: variables, functions and aliases by their names.
* `Sample.frozenStruct`, `Sample.resilientStruct`, `Sample.collectionFunction`, `Sample.aliasChain`:
  files.
-/

namespace SourceEvolution

/-! ## Declarations with members -/

/-- A declaration with members, as it is written down. -/
structure Sketch where
  /-- The kind of declaration. -/
  kind : DeclKind
  /-- What stands before the members: the identifier, or the type that is extended. -/
  head : Node
  /-- The attributes. -/
  attributes : List String := []
  /-- The modifiers. -/
  modifiers : List String := []
  /-- The members. -/
  members : List Node := []
  /-- Where the declaration starts. -/
  position : Option Position := none

namespace Sketch

/-- A declaration introduced by a name. -/
def named (kind : DeclKind) (name : String) : Sketch :=
  { kind, head := Build.identifier name }

/-- The declaration with one more attribute. -/
def marked (declaration : Sketch) (mark : String) : Sketch :=
  { declaration with attributes := declaration.attributes ++ [mark] }

/-- The declaration with its layout fixed. -/
def frozen (declaration : Sketch) : Sketch :=
  declaration.marked "frozen"

/-- The declaration with one more modifier. -/
def modified (declaration : Sketch) (modifier : String) : Sketch :=
  { declaration with modifiers := declaration.modifiers ++ [modifier] }

/-- The declaration with more members. -/
def extended (declaration : Sketch) (members : List Node) : Sketch :=
  { declaration with members := declaration.members ++ members }

/-- The declaration at a position. -/
def positioned (declaration : Sketch) (position : Position) : Sketch :=
  { declaration with position := some position }

/-- The node of a declaration: attributes, modifiers, head and member block, in this order. -/
def toNode (declaration : Sketch) : Node where
  kind := .decl declaration.kind
  text := none
  position := declaration.position
  children :=
    declaration.attributes.map Build.attributeMark ++ declaration.modifiers.map Build.modifier ++
      [declaration.head, .branch .memberBlock declaration.members]

end Sketch

namespace Sample

/-! ## Changes to the head of a declaration -/

/-- The declaration with modifiers put after its leading attributes. -/
def withModifiers (declaration : Node) (modifiers : List String) : Node :=
  let isMark := fun child : Node => child.kind == .attributeMark
  declaration.withChildren
    (declaration.children.takeWhile isMark ++ modifiers.map Build.modifier ++
      declaration.children.dropWhile isMark)

/-- The declaration with attributes put before everything else. -/
def withAttributes (declaration : Node) (attributes : List String) : Node :=
  declaration.withChildren (attributes.map Build.attributeMark ++ declaration.children)

/-! ## Variables -/

/-- A variable declaration introduced by a keyword. -/
def variableDecl (keyword : String) (bindings : List Node) : Node :=
  .titled (.decl .variableDecl) keyword bindings

/-- The declaration `var name: type`. -/
def annotatedVar (name : String) (type : Node) : Node :=
  variableDecl "var" [Build.patternBinding name (some type) none]

/-- The declaration `var name: type`. -/
def typedVar (name type : String) : Node :=
  annotatedVar name (Build.simpleType type)

/-- The declaration `var name = value`. -/
def storedVar (name value : String) : Node :=
  variableDecl "var" [Build.patternBinding name none (some (Build.expr value))]

/-- The declaration `var name: type = value`. -/
def typedVarWithValue (name type value : String) : Node :=
  variableDecl "var"
    [Build.patternBinding name (some (Build.simpleType type)) (some (Build.expr value))]

/-- The declaration `let name: type`. -/
def constant (name type : String) : Node :=
  variableDecl "let" [Build.patternBinding name (some (Build.simpleType type)) none]

/-- The declaration `let name = value`. -/
def constantWithValue (name value : String) : Node :=
  variableDecl "let" [Build.patternBinding name none (some (Build.expr value))]

/-- One `var` with a binding of the same type for each name. -/
def multiVar (names : List String) (type : String) : Node :=
  variableDecl "var"
    (names.map fun name => Build.patternBinding name (some (Build.simpleType type)) none)

/-- A block with one empty accessor for each keyword. -/
def accessorBlock (keywords : List String) : Node :=
  .branch .accessorBlock
    (keywords.map fun keyword => Node.titled .accessor keyword [Build.codeBlock []])

/-- The declaration `var name: type` followed by accessors. -/
def varWithAccessors (name type : String) (accessors : Node) : Node :=
  variableDecl "var"
    [(Build.patternBinding name (some (Build.simpleType type)) none).append [accessors]]

/-- A variable that is computed by a getter. -/
def computedVar (name type : String) : Node :=
  varWithAccessors name type
    (.branch .accessorBlock [Build.codeBlock [Build.statement "fatalError()"]])

/-! ## Functions and the rest -/

/-- The parameter `label: type`. -/
def param (label type : String) : Node :=
  Build.parameter label (Build.simpleType type) none

/-- The parameter `label: type = value`. -/
def paramWithDefault (label : String) (type : Node) (value : String) : Node :=
  Build.parameter label type (some (Build.expr value))

/-- A function with an empty body. -/
def function (name : String) (params : List Node) : Node :=
  .branch (.decl .function)
    [Build.identifier name, Build.parameterClause params, Build.codeBlock []]

/-- A function without a body, as a protocol requires it. -/
def requirement (name : String) (params : List Node) : Node :=
  .branch (.decl .function) [Build.identifier name, Build.parameterClause params]

/-- An initializer with an empty body. -/
def initializer (params : List Node) : Node :=
  Build.initializer [] params []

/-- A subscript with an empty getter. -/
def subscript (params : List Node) (result : String) : Node :=
  .branch (.decl .subscript)
    [Build.parameterClause params, Build.simpleType result,
      .branch .accessorBlock [Build.codeBlock []]]

/-- The declaration `typealias name = target`. -/
def typeAlias (name : String) (target : Node) : Node :=
  .branch (.decl .typeAlias) [Build.identifier name, target]

/-- The declaration `associatedtype name`. -/
def associatedType (name : String) : Node :=
  .branch (.decl .associatedType) [Build.identifier name]

/-- A source file. -/
def file (declarations : List Node) : Node :=
  .branch (.decl .file) declarations

/-! ## Whole files -/

/-- Ten stored properties `p0` to `p9` of type `Int`. -/
def tenProperties : List Node :=
  (List.range 10).map fun i => typedVar ("p" ++ Decimal.render i) "Int"

/-- A frozen struct with ten stored properties. -/
def frozenStruct : Node :=
  file [((Sketch.named .structDecl "Frozen").frozen.extended tenProperties).toNode]

/-- A struct with ten stored properties, whose layout may change. -/
def resilientStruct : Node :=
  file [((Sketch.named .structDecl "Resilient").extended tenProperties).toNode]

/-- A function that takes an array and a dictionary. -/
def collectionFunction : Node :=
  file
    [function "consume"
      [Build.parameter "items" (Build.arrayType (Build.simpleType "Int")) none,
        Build.parameter "lookup"
          (Build.dictionaryType (Build.simpleType "String") (Build.simpleType "Int")) none]]

/-- The name of the type that a chain of aliases of the given length stands for. -/
def aliasName : Nat → String
  | 0 => "Int"
  | i + 1 => "A" ++ Decimal.render i

/-- Aliases, each of the one before and the first of `Int`, and a function that takes the last. -/
def aliasChain (depth : Nat) : Node :=
  file
    ((List.range depth).map
        (fun i => typeAlias (aliasName (i + 1)) (Build.simpleType (aliasName i))) ++
      [function "take" [param "value" (aliasName depth)]])

end Sample

end SourceEvolution
