import SourceEvolution.Declaration.Access
import SourceEvolution.Typing.Spelling

/-!
# Declarations

A declaration is a node whose kind opens a scope. What it is called, whether its layout may change,
what it holds and how visible it is are all read off the node.

* `Decl`: a node together with the kind of declaration it is; `Decl.ofNode?` is the view of a node.
* `Decl.name`, `Decl.answersTo`: the name, and whether a lookup for a name finds the declaration.
* `Decl.isResilient`: whether the layout may change.
* `Decl.members`, `Decl.lookup`: the declarations directly inside it.
* `Decl.isStored?`, `Decl.isInstanceStorage`: variables that take up storage.
-/

namespace SourceEvolution

/-- A node that is a declaration. -/
structure Decl where
  /-- The node. -/
  node : Node
  /-- The kind of declaration. -/
  kind : DeclKind
  /-- The kind is that of the node. -/
  kind_eq : node.kind = .decl kind

namespace Decl

/-- A declaration is its node. -/
@[ext]
theorem ext_node {a b : Decl} (h : a.node = b.node) : a = b := by
  obtain ⟨n, k, hk⟩ := a
  obtain ⟨m, l, hl⟩ := b
  obtain rfl : n = m := h
  obtain rfl : k = l := NodeKind.decl.inj (hk.symm.trans hl)
  rfl

instance : DecidableEq Decl := fun a b =>
  decidable_of_iff (a.node = b.node) ⟨ext_node, fun h => h ▸ rfl⟩

/-- The declaration that a node is, if it is one. -/
def ofNode? (node : Node) : Option Decl :=
  match h : node.kind with
  | .decl kind => some ⟨node, kind, h⟩
  | _ => none

/-- The declarations among a list of nodes, in order. -/
def ofNodes (nodes : List Node) : List Decl :=
  nodes.filterMap ofNode?

/-! ## Names -/

/-- The name of the scope that is the file itself. -/
def fileName : String := "(file)"

/-- The names that the bindings of a variable declaration bind. -/
def bindingNames (decl : Decl) : List String :=
  decl.node.bindings.filterMap Node.name?

/-- The type that an extension extends, or that an alias stands for. -/
def target? (decl : Decl) : Option Node :=
  decl.node.typeChild?

/-- The name of a declaration, as it appears in qualified names. -/
def name (decl : Decl) : String :=
  match decl.kind with
  | .file => fileName
  | .extensionDecl => (decl.target?.map Node.spelling).getD ""
  | .initializer => "init"
  | .subscript => "subscript"
  | .variableDecl => String.intercalate "," decl.bindingNames
  | _ => decl.node.name?.getD ""

/-- Whether a lookup for a name finds the declaration. A file and an extension are never found. -/
def answersTo (decl : Decl) (name : String) : Bool :=
  match decl.kind with
  | .file => false
  | .extensionDecl => false
  | .initializer => name == "init"
  | .subscript => name == "subscript"
  | .variableDecl => decl.bindingNames.contains name
  | _ => decl.node.name? == some name

/-! ## Layout -/

/-- The attributes that fix the layout of a declaration. -/
def frozenMarks : List String := ["frozen", "_fixed_layout"]

/-- Whether the layout of a declaration may change. -/
def isResilient (decl : Decl) : Bool :=
  match decl.kind with
  | .file => true
  | _ => !frozenMarks.any fun mark => decl.node.hasAttribute mark

/-- The accessors that watch a stored property and do not replace its storage. -/
def observers : List String := ["willSet", "didSet"]

/-- Whether a binding takes up storage: it has no accessors, or only observers. -/
def bindingIsStored (binding : Node) : Bool :=
  match binding.accessorBlock? with
  | none => true
  | some block =>
    (block.firstOf? .codeBlock).isNone &&
      (block.allOf .accessor).all fun accessor => accessor.text.any observers.contains

/-- Whether all bindings of a declaration take up storage. -/
def bindingsAreStored (decl : Decl) : Bool :=
  decl.node.bindings.all bindingIsStored

/-- Whether a variable takes up storage; other declarations have no answer. -/
def isStored? (decl : Decl) : Option Bool :=
  match decl.kind with
  | .variableDecl => some decl.bindingsAreStored
  | _ => none

/-- Whether a variable cannot be assigned again. -/
def isConstant (decl : Decl) : Bool :=
  decl.node.text == some "let"

/-- Whether a variable belongs to the type and not to its instances. -/
def isStatic (decl : Decl) : Bool :=
  decl.node.modifiers.any fun modifier => modifier == "static" || modifier == "class"

/-- Whether a declaration is a variable stored in each instance. -/
def isInstanceStorage (decl : Decl) : Bool :=
  decl.isStored? == some true && !decl.isStatic

/-- The access level that a modifier asks for. -/
def accessLevel? (decl : Decl) : Option AccessLevel :=
  decl.node.modifiers.findSome? AccessLevel.ofKeyword?

/-! ## Members -/

/-- The declarations directly inside a declaration, in source order. -/
def members (decl : Decl) : List Decl :=
  match decl.kind with
  | .file => ofNodes decl.node.children
  | .classDecl | .structDecl | .enumDecl | .protocolDecl | .extensionDecl =>
    match decl.node.memberBlock? with
    | some block => ofNodes block.children
    | none => []
  | _ => []

/-- The members that a lookup for a name finds, in source order. -/
def lookup (decl : Decl) (name : String) : List Decl :=
  decl.members.filter fun member => member.answersTo name

/-- Whether a declaration has an initializer among its members. -/
def hasExplicitInitializer (decl : Decl) : Bool :=
  decl.members.any fun member => member.kind == .initializer

/-- Whether a declaration is a struct that relies on the initializers it is given implicitly. -/
def hasImplicitInitializers (decl : Decl) : Bool :=
  decl.kind == .structDecl && !decl.hasExplicitInitializer

end Decl

end SourceEvolution
