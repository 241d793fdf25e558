import SourceEvolution.Tree.Node

/-!
# Building nodes

The layouts in which declarations and their pieces are written as nodes. An evolution that adds
something to a tree builds it here.
-/

namespace SourceEvolution

namespace Build

/-! ## Leaves -/

/-- An identifier. -/
def identifier (text : String) : Node := .leaf .identifier text

/-- An attribute of a declaration. -/
def attributeMark (text : String) : Node := .leaf .attributeMark text

/-- A modifier of a declaration. -/
def modifier (text : String) : Node := .leaf .modifier text

/-- An expression, by its text. -/
def expr (text : String) : Node := .leaf .expr text

/-- A statement, by its text. -/
def statement (text : String) : Node := .leaf .statement text

/-- A type that is a plain name. -/
def simpleType (name : String) : Node := .leaf (.type .simple) name

/-! ## Types -/

/-- The type `base.member`. -/
def memberType (base : Node) (member : String) : Node := .titled (.type .member) member [base]

/-- The type `[element]`. -/
def arrayType (element : Node) : Node := .branch (.type .array) [element]

/-- The type `[key: value]`. -/
def dictionaryType (key value : Node) : Node := .branch (.type .dictionary) [key, value]

/-- The type `wrapped?`. -/
def optionalType (wrapped : Node) : Node := .branch (.type .optional) [wrapped]

/-! ## Pieces of declarations -/

/-- The default argument of a parameter. -/
def defaultArgument (value : Node) : Node := .branch .defaultArgument [value]

/-- The parameter `label: type`, with `= value` after it when a default is given. -/
def parameter (label : String) (type : Node) (default? : Option Node) : Node :=
  .branch .parameter (.leaf .label label :: type :: (default?.map defaultArgument).toList)

/-- The parameters of a declaration. -/
def parameterClause (parameters : List Node) : Node := .branch .parameterClause parameters

/-- A body of statements. -/
def codeBlock (statements : List Node) : Node := .branch .codeBlock statements

/-- The binding `name: type = value`, the type and the value each being optional. -/
def patternBinding (name : String) (type? value? : Option Node) : Node :=
  .branch .patternBinding
    (identifier name ::
      ((type?.map fun type => Node.branch .typeClause [type]).toList ++
        (value?.map fun value => Node.branch .initializerClause [value]).toList))

/-! ## Declarations -/

/-- An initializer: its modifiers, then its parameters, then its body. -/
def initializer (modifiers : List String) (parameters body : List Node) : Node :=
  .branch (.decl .initializer)
    (modifiers.map modifier ++ [parameterClause parameters, codeBlock body])

end Build

end SourceEvolution
