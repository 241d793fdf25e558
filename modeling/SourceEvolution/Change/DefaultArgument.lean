import SourceEvolution.Change.Error
import SourceEvolution.Random.Source
import SourceEvolution.Text.Blank
import SourceEvolution.Tree.Builder

/-!
# Changing a default argument

The default argument of a parameter is evaluated by the caller, so it may change. A parameter that
has one is given the same value by another expression; a parameter that has none is given a literal
of its type.

* `DefaultArgument`: a parameter and its new default.
* `DefaultArgument.find`: a random parameter of a site whose default can be changed.
* `DefaultArgument.accepts`, `DefaultArgument.applyTo?`: changing the default.
-/

namespace SourceEvolution

/-- A new default argument for one parameter. -/
structure DefaultArgument where
  /-- Which parameter. -/
  index : Nat
  /-- The text of the new default. -/
  value : String
deriving DecidableEq, Repr

namespace DefaultArgument

/-! ## New defaults -/

/-- The literals that stand for the place of the call, and so mean something else inside a
closure. -/
def callSiteLiterals : List String :=
  ["#file", "#fileID", "#filePath", "#line", "#column", "#function", "#dsohandle"]

/-- A text without blanks at its ends. -/
def trimmed (text : String) : String :=
  String.ofList (Text.trim text.toList)

/-- Whether an expression is a literal that stands for the place of the call. -/
def isCallSiteLiteral (text : String) : Bool :=
  callSiteLiterals.contains (trimmed text)

/-- The expression inside a closure that is called at once. A literal for the place of the call has
no such form. -/
def wrapped? (text : String) : Option String :=
  if isCallSiteLiteral text then none else some ("\x7b " ++ trimmed text ++ " \x7d()")

/-- The new default for a parameter, if it can be given one. -/
def newDefault? (scope : Scope) (parameter : Node) : Except ResolveError (Option String) :=
  match parameter.defaultValue?, parameter.typeChild? with
  | some existing, _ => .ok (wrapped? (existing.text.getD ""))
  | none, some type => (scope.shapeOf type).map TypeShape.literal?
  | none, none => .ok none

/-- The parameters that can be given a new default, counted from `index` on. -/
def eligible (scope : Scope) (index : Nat) : List Node → Except ResolveError (List DefaultArgument)
  | [] => .ok []
  | parameter :: rest => do
    let value? ← newDefault? scope parameter
    let later ← eligible scope (index + 1) rest
    return (value?.map fun value => ⟨index, value⟩).toList ++ later

/-- Whether a site is one where default arguments can stand: a function, an initializer or a
subscript that is not a requirement of a protocol. -/
def applies (site : Site) : Bool :=
  site.node.kind.hasParameters && !site.container?.any fun decl => decl.kind == .protocolDecl

/-- A random parameter of a site with a new default. -/
def find {G : Type} [WordSource G] (site : Site) :
    EStateM EvolutionError G (Option DefaultArgument) :=
  if applies site then
    match eligible site.scope 0 site.node.parameters with
    | .error cause => throw (.unresolved cause)
    | .ok [] => throw .unsupported
    | .ok (choice :: choices) => do
      let index ← modifyGet (WordSource.below (choices.length + 1))
      pure (choice :: choices)[index]?
  else throw .unsupported

/-! ## Applying it -/

/-- The first index of a child of a kind. -/
def indexOf? (kind : NodeKind) (children : List Node) : Option Nat :=
  children.findIdx? fun child => child.kind == kind

/-- The indices of the children of a kind. -/
def indicesOf (kind : NodeKind) (children : List Node) : List Nat :=
  (children.zipIdx.filter fun child => child.1.kind == kind).map Prod.snd

/-- A parameter with its default replaced, or with one added at its end. -/
def setDefault (parameter : Node) (value : String) : Node :=
  let clause := Build.defaultArgument (Build.expr value)
  match indexOf? .defaultArgument parameter.children with
  | some index => parameter.withChildren (parameter.children.set index clause)
  | none => parameter.append [clause]

/-- The declaration with the default of a parameter changed. The parameter is one of the first
parameter clause. -/
def applyTo? (change : DefaultArgument) (node : Node) : Option Node :=
  if node.kind.hasParameters then do
    let clauseIndex ← indexOf? .parameterClause node.children
    let clause ← node.child? clauseIndex
    let index ← (indicesOf .parameter clause.children)[change.index]?
    let parameter ← clause.child? index
    let clause ← clause.replaceChild? index (setDefault parameter change.value)
    node.replaceChild? clauseIndex clause
  else none

/-- Whether a node has the parameter. -/
def accepts (change : DefaultArgument) (node : Node) : Bool :=
  (change.applyTo? node).isSome

end DefaultArgument

end SourceEvolution
