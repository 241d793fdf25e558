import SourceEvolution.Declaration.Basic
import SourceEvolution.Tree.Path

/-!
# Scopes

A scope is a place in a tree as name lookup sees it: the declarations around it. Names are looked up
among the members of one declaration, or outward through all of them.

* `Scope`: the chain of declarations, and the bound on aliases to follow.
* `Scope.lookupDirect?`, `Scope.lookup?`: lookup in the innermost declaration, and outward.
* `Scope.qualifiedName`: the names of the chain, joined by dots.
* `Node.scopeAt`: the scope of the node at a path.
* `Node.declarations`: all declarations of a tree.
* `Site`: a node in a scope.
-/

namespace SourceEvolution

/-- How many aliases are followed when nothing else is asked for. -/
def defaultAliasBound : Nat := 32

/-- The declarations around a place in a tree. -/
structure Scope where
  /-- The declarations, the innermost first. -/
  chain : List Decl := []
  /-- How many aliases may be followed to resolve a type. -/
  aliasBound : Nat := defaultAliasBound
deriving DecidableEq

namespace Scope

/-- The scope inside a declaration. -/
def push (scope : Scope) (decl : Decl) : Scope :=
  { scope with chain := decl :: scope.chain }

/-- The scope outside the innermost declaration. -/
def pop (scope : Scope) : Scope :=
  { scope with chain := scope.chain.tail }

/-- The innermost declaration. -/
def innermost? (scope : Scope) : Option Decl :=
  scope.chain.head?

/-- The declaration around the innermost one. -/
def enclosing? (scope : Scope) : Option Decl :=
  scope.chain.tail.head?

/-- The number of declarations around the place. -/
def depth (scope : Scope) : Nat :=
  scope.chain.length

/-- Whether the layout of the innermost declaration may change; outside every declaration it may. -/
def isResilient (scope : Scope) : Bool :=
  scope.innermost?.all Decl.isResilient

/-- Whether the innermost declaration is a variable that takes up storage. -/
def isStored? (scope : Scope) : Option Bool :=
  scope.innermost?.bind Decl.isStored?

/-- Whether the innermost declaration is a struct that relies on implicit initializers. -/
def hasImplicitInitializers (scope : Scope) : Bool :=
  scope.innermost?.any Decl.hasImplicitInitializers

/-- The names of the declarations from the outermost inward, joined by dots. -/
def qualifiedName (scope : Scope) : String :=
  if scope.chain.isEmpty then Decl.fileName
  else String.intercalate "." (scope.chain.reverse.map Decl.name)

/-! ## Lookup -/

/-- The first member with a name of the first declaration of a chain that has one, on top of the
part of the chain that it was found in. -/
def lookupChain? (name : String) : List Decl → Option (List Decl)
  | [] => none
  | decl :: outer =>
    match (decl.lookup name).head? with
    | some found => some (found :: decl :: outer)
    | none => lookupChain? name outer

/-- The scope of the first member of the innermost declaration with a name. -/
def lookupDirect? (scope : Scope) (name : String) : Option Scope := do
  let decl ← scope.innermost?
  let found ← (decl.lookup name).head?
  return scope.push found

/-- The scope of the first member with a name, looked up from the innermost declaration outward. -/
def lookup? (scope : Scope) (name : String) : Option Scope :=
  (lookupChain? name scope.chain).map fun chain => { scope with chain }

end Scope

/-! ## Scopes of nodes -/

namespace Scope

/-- The scope inside a node: inside the declaration that it is, or the same scope if it is none. -/
def enter (scope : Scope) (node : Node) : Scope :=
  match Decl.ofNode? node with
  | some decl => scope.push decl
  | none => scope

end Scope

namespace Node

/-- What has been met on the way down once a node itself is counted. -/
def declsHere (node : Node) (start : Path) (met : List (Path × Decl)) : List (Path × Decl) :=
  match Decl.ofNode? node with
  | some decl => (start, decl) :: met
  | none => met

/-- The declarations met on the way down a path, each with the path that it stands at, the innermost
first. `start` is the path of the node itself, and `met` is what has been met above it. -/
def declsAlong (node : Node) (start : Path) (met : List (Path × Decl)) : Path → List (Path × Decl)
  | [] => declsHere node start met
  | index :: rest =>
    match node.child? index with
    | some child => child.declsAlong (start.child index) (declsHere node start met) rest
    | none => declsHere node start met

/-- The scope of the node at a path: all declarations around it, itself included. -/
def scopeAt (root : Node) (path : Path) (aliasBound : Nat) : Scope where
  chain := (root.declsAlong [] [] path).map Prod.snd
  aliasBound := aliasBound

end Node

namespace Node

mutual

/-- The declarations of a tree, each with its path, a declaration before those inside it. `start` is
the path of the node itself. -/
def declarations (start : Path) : Node → List (Path × Decl)
  | ⟨kind, text, position, children⟩ =>
    declsHere ⟨kind, text, position, children⟩ start [] ++ declarationsOf start 0 children

/-- The declarations below the node at a path, in the children from an index on. -/
def declarationsOf (start : Path) (index : Nat) : List Node → List (Path × Decl)
  | [] => []
  | child :: rest =>
    child.declarations (start.child index) ++ declarationsOf start (index + 1) rest

end

end Node

/-! ## Sites -/

/-- A node in a scope, as the place that an evolution may apply to. -/
structure Site where
  /-- The node. -/
  node : Node
  /-- The scope that it stands in. -/
  scope : Scope
  /-- Whether the innermost declaration of the scope is this very node, not merely one that looks
  the same. -/
  isInnermost : Bool

namespace Site

/-- The declaration that the node stands in, itself not counted. -/
def container? (site : Site) : Option Decl :=
  if site.isInnermost then site.scope.enclosing? else site.scope.innermost?

/-- The node at a path, in the scope of the node at another path. -/
def at? (root : Node) (path scopePath : Path) (aliasBound : Nat) : Option Site := do
  let node ← root.nodeAt? path
  return {
    node
    scope := root.scopeAt scopePath aliasBound
    isInnermost := (root.declsAlong [] [] scopePath).head?.map Prod.fst == some path }

end Site

end SourceEvolution
