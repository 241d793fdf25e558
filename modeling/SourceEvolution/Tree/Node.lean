import SourceEvolution.Tree.Kind

/-!
# Nodes

A parsed source file is a tree of nodes. A node has a kind, perhaps a text, perhaps a position in
the file, and children in source order. This module holds the type and the questions that are
answered by looking at a node and its children only.

* `Position`, `Node`: the data, with decidable equality.
* `Node.size`: the number of nodes of a subtree.
* `Node.firstOf?`, `Node.allOf`: the children of one kind, and the named parts of a declaration
  built on them (`attributes`, `modifiers`, `name?`, `memberBlock?`, `parameters`, `bindings`, ...).
-/

namespace SourceEvolution

/-- A place in the text of a file. -/
structure Position where
  /-- The line. -/
  line : UInt32
  /-- The column in that line. -/
  column : UInt32
deriving DecidableEq, Repr, Inhabited

/-- A node of a parsed source file. -/
structure Node where
  /-- What the node stands for. -/
  kind : NodeKind
  /-- The text of the node itself, where it has one. -/
  text : Option String
  /-- Where the node starts in the file, where that is known. -/
  position : Option Position
  /-- The children in source order. -/
  children : List Node
deriving Repr, Inhabited

namespace Node

/-! ## Equality -/

mutual

/-- Equality of nodes is decided field by field. -/
def decEq : (a b : Node) → Decidable (a = b)
  | ⟨k₁, t₁, p₁, cs₁⟩, ⟨k₂, t₂, p₂, cs₂⟩ =>
    if hk : k₁ = k₂ then
      if ht : t₁ = t₂ then
        if hp : p₁ = p₂ then
          match decEqList cs₁ cs₂ with
          | isTrue hc => isTrue (by rw [hk, ht, hp, hc])
          | isFalse hc => isFalse fun h => hc (Node.mk.inj h).2.2.2
        else isFalse fun h => hp (Node.mk.inj h).2.2.1
      else isFalse fun h => ht (Node.mk.inj h).2.1
    else isFalse fun h => hk (Node.mk.inj h).1

/-- Equality of lists of nodes is decided element by element. -/
def decEqList : (as bs : List Node) → Decidable (as = bs)
  | [], [] => isTrue rfl
  | [], _ :: _ => isFalse (by simp)
  | _ :: _, [] => isFalse (by simp)
  | a :: as, b :: bs =>
    match decEq a b with
    | isTrue h =>
      match decEqList as bs with
      | isTrue hs => isTrue (by rw [h, hs])
      | isFalse hs => isFalse fun e => hs (List.cons.inj e).2
    | isFalse h => isFalse fun e => h (List.cons.inj e).1

end

instance : DecidableEq Node := decEq

/-! ## Making nodes -/

/-- A node without text or position. -/
def branch (kind : NodeKind) (children : List Node) : Node :=
  ⟨kind, none, none, children⟩

/-- A node that is nothing but its text. -/
def leaf (kind : NodeKind) (text : String) : Node :=
  ⟨kind, some text, none, []⟩

/-- A node with text and children. -/
def titled (kind : NodeKind) (text : String) (children : List Node) : Node :=
  ⟨kind, some text, none, children⟩

/-- The same node at another position. -/
def positioned (node : Node) (position : Position) : Node :=
  { node with position := some position }

/-- The same node over other children. -/
def withChildren (node : Node) (children : List Node) : Node :=
  { node with children := children }

/-- A node over its own children is the node itself. -/
theorem withChildren_children (node : Node) : node.withChildren node.children = node := by
  cases node
  rfl

/-- The same node with more children at its end. -/
def append (node : Node) (more : List Node) : Node :=
  node.withChildren (node.children ++ more)

/-! ## Size -/

mutual

/-- The number of nodes in the subtree of a node, itself included. -/
def size : Node → Nat
  | ⟨_, _, _, children⟩ => 1 + sizeList children

/-- The number of nodes in the subtrees of a list of nodes. -/
def sizeList : List Node → Nat
  | [] => 0
  | node :: rest => node.size + sizeList rest

end

/-- A node counts once, over and above the subtrees of its children. -/
theorem size_eq (node : Node) : node.size = 1 + sizeList node.children := by
  cases node
  rw [size]

/-- The sizes of two lists of subtrees add up. -/
theorem sizeList_append (first second : List Node) :
    sizeList (first ++ second) = sizeList first + sizeList second := by
  induction first with
  | nil => simp [sizeList]
  | cons node rest ih => rw [List.cons_append, sizeList, sizeList, ih, Nat.add_assoc]

/-! ## Children of one kind -/

/-- The first child of the given kind. -/
def firstOf? (node : Node) (kind : NodeKind) : Option Node :=
  node.children.find? fun child => child.kind == kind

/-- The children of the given kind, in source order. -/
def allOf (node : Node) (kind : NodeKind) : List Node :=
  node.children.filter fun child => child.kind == kind

/-- The texts of the children of the given kind, those without a text left out. -/
def textsOf (node : Node) (kind : NodeKind) : List String :=
  (node.allOf kind).filterMap Node.text

/-- The attributes written on a declaration. -/
def attributes (node : Node) : List String :=
  node.textsOf .attributeMark

/-- The modifiers written on a declaration. -/
def modifiers (node : Node) : List String :=
  node.textsOf .modifier

/-- Whether a declaration carries the attribute. -/
def hasAttribute (node : Node) (mark : String) : Bool :=
  node.attributes.contains mark

/-- The text of the first identifier of a node. -/
def name? (node : Node) : Option String :=
  (node.firstOf? .identifier).bind Node.text

/-- The first child that is a type. -/
def typeChild? (node : Node) : Option Node :=
  node.children.find? fun child => child.kind.isType

/-- The block that holds the members of a declaration. -/
def memberBlock? (node : Node) : Option Node :=
  node.firstOf? .memberBlock

/-- The parameters in the first parameter clause of a declaration. -/
def parameters (node : Node) : List Node :=
  match node.firstOf? .parameterClause with
  | some clause => clause.allOf .parameter
  | none => []

/-- The pattern bindings of a variable declaration. -/
def bindings (node : Node) : List Node :=
  node.allOf .patternBinding

/-- The type that a binding is annotated with. -/
def declaredType? (node : Node) : Option Node :=
  (node.firstOf? .typeClause).bind typeChild?

/-- The expression that a binding is initialised with. -/
def initialValue? (node : Node) : Option Node :=
  (node.firstOf? .initializerClause).bind fun clause => clause.firstOf? .expr

/-- The expression that a parameter defaults to. -/
def defaultValue? (node : Node) : Option Node :=
  (node.firstOf? .defaultArgument).bind fun clause => clause.firstOf? .expr

/-- The accessors written after a binding. -/
def accessorBlock? (node : Node) : Option Node :=
  node.firstOf? .accessorBlock

end Node

end SourceEvolution
