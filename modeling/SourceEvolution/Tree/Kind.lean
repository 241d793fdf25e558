/-!
# Node kinds

A node of a parsed source file carries one of forty kinds. Twelve of them are declarations, which
open a scope; nine are types; the rest are the pieces declarations are made of.

* `DeclKind`, `TypeKind`, `NodeKind`: the kinds.
* `NodeKind.name` and `NodeKind.ofName?`: their written names, and `NodeKind.ofName?_name`, which
  says that reading a written name gives the kind back.
* `NodeKind.isDeclaration`, `NodeKind.isType`, `NodeKind.hasParameters`: the classes other modules
  ask for.
-/

namespace SourceEvolution

/-- The kinds of declaration. Each opens a scope of its own. -/
inductive DeclKind where
  | file
  | classDecl
  | structDecl
  | enumDecl
  | protocolDecl
  | extensionDecl
  | typeAlias
  | associatedType
  | function
  | initializer
  | subscript
  | variableDecl
deriving DecidableEq, Repr, Inhabited

/-- The kinds of type written in a source file. -/
inductive TypeKind where
  | simple
  | member
  | array
  | dictionary
  | optional
  | implicitlyUnwrapped
  | tuple
  | function
  | opaqueResult
deriving DecidableEq, Repr, Inhabited

/-- The kind of a node: a declaration, a type, or one of the pieces these are made of. -/
inductive NodeKind where
  | decl (kind : DeclKind)
  | type (kind : TypeKind)
  | attributeMark
  | modifier
  | identifier
  | label
  | inheritanceClause
  | memberBlock
  | enumCase
  | patternBinding
  | typeClause
  | initializerClause
  | accessorBlock
  | accessor
  | parameterClause
  | parameter
  | defaultArgument
  | codeBlock
  | statement
  | expr
  | other
deriving DecidableEq, Repr, Inhabited

/-! ## Declarations -/

namespace DeclKind

/-- The one-word name of a kind of declaration. -/
def name : DeclKind → String
  | file => "File"
  | classDecl => "Class"
  | structDecl => "Struct"
  | enumDecl => "Enum"
  | protocolDecl => "Protocol"
  | extensionDecl => "Extension"
  | typeAlias => "TypeAlias"
  | associatedType => "AssociatedType"
  | function => "Function"
  | initializer => "Initializer"
  | subscript => "Subscript"
  | variableDecl => "Variable"

end DeclKind

/-! ## Written names -/

namespace NodeKind

/-- The name under which a kind is written in a tree's text form. -/
def name : NodeKind → String
  | decl .file => "SourceFile"
  | decl .classDecl => "ClassDecl"
  | decl .structDecl => "StructDecl"
  | decl .enumDecl => "EnumDecl"
  | decl .protocolDecl => "ProtocolDecl"
  | decl .extensionDecl => "ExtensionDecl"
  | decl .typeAlias => "TypeAliasDecl"
  | decl .associatedType => "AssociatedTypeDecl"
  | decl .function => "FunctionDecl"
  | decl .initializer => "InitializerDecl"
  | decl .subscript => "SubscriptDecl"
  | decl .variableDecl => "VariableDecl"
  | attributeMark => "Attribute"
  | modifier => "Modifier"
  | identifier => "Name"
  | label => "Label"
  | inheritanceClause => "InheritanceClause"
  | memberBlock => "MemberBlock"
  | enumCase => "EnumCaseDecl"
  | patternBinding => "PatternBinding"
  | typeClause => "TypeAnnotation"
  | initializerClause => "InitializerClause"
  | accessorBlock => "AccessorBlock"
  | accessor => "Accessor"
  | parameterClause => "ParameterClause"
  | parameter => "Parameter"
  | defaultArgument => "DefaultArgument"
  | codeBlock => "CodeBlock"
  | statement => "Statement"
  | expr => "Expr"
  | other => "Other"
  | type .simple => "SimpleType"
  | type .member => "MemberType"
  | type .array => "ArrayType"
  | type .dictionary => "DictionaryType"
  | type .optional => "OptionalType"
  | type .implicitlyUnwrapped => "ImplicitlyUnwrappedOptionalType"
  | type .tuple => "TupleType"
  | type .function => "FunctionType"
  | type .opaqueResult => "OpaqueType"

/-- Every kind, declarations first and types last. -/
def all : List NodeKind :=
  [decl .file, decl .classDecl, decl .structDecl, decl .enumDecl, decl .protocolDecl,
    decl .extensionDecl, decl .typeAlias, decl .associatedType, decl .function, decl .initializer,
    decl .subscript, decl .variableDecl, attributeMark, modifier, identifier, label,
    inheritanceClause, memberBlock, enumCase, patternBinding, typeClause, initializerClause,
    accessorBlock, accessor, parameterClause, parameter, defaultArgument, codeBlock, statement,
    expr, other, type .simple, type .member, type .array, type .dictionary, type .optional,
    type .implicitlyUnwrapped, type .tuple, type .function, type .opaqueResult]

/-- The kind written as `s`, if there is one. -/
def ofName? (s : String) : Option NodeKind :=
  all.find? fun kind => kind.name == s

/-- Reading the written name of a kind gives the kind back. -/
theorem ofName?_name (kind : NodeKind) : ofName? kind.name = some kind := by
  cases kind with
  | decl kind => cases kind <;> decide
  | type kind => cases kind <;> decide
  | _ => decide

/-! ## Classes of kinds -/

/-- Whether nodes of this kind open a scope. -/
def isDeclaration : NodeKind → Bool
  | decl _ => true
  | _ => false

/-- Whether nodes of this kind are types. -/
def isType : NodeKind → Bool
  | type _ => true
  | _ => false

/-- Whether nodes of this kind take parameters. -/
def hasParameters : NodeKind → Bool
  | decl .function | decl .initializer | decl .subscript => true
  | _ => false

end NodeKind

end SourceEvolution
