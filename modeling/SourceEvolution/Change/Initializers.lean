import SourceEvolution.Change.Error
import SourceEvolution.Typing.Literal

/-!
# Writing out implicit initializers

A struct without an initializer of its own is given initializers implicitly: one without parameters
if every stored property has an initial value, and one with a parameter for each stored property.
The order of these parameters is the order of the properties. Writing the initializers out keeps
that order when the members are moved later.

* `InitializerParameter`, `Signature`: the parameters of an initializer.
* `Initializers.find`: the initializers that a struct is given implicitly, found in one pass over
  its stored properties.
* `Initializers.accepts`, `Initializers.applyTo?`: adding them to a member block.
-/

namespace SourceEvolution

/-- A parameter of an initializer, for the stored property of the same name. -/
structure InitializerParameter where
  /-- The name of the property. -/
  name : String
  /-- Its type. -/
  type : Node
deriving DecidableEq, Repr

/-- The parameters of an initializer, in order. -/
abbrev Signature := List InitializerParameter

/-- The initializers to be added to a member block. -/
structure Initializers where
  /-- One signature for each. -/
  signatures : List Signature
deriving DecidableEq, Repr

namespace Initializers

/-! ## The implicit initializers -/

/-- The stored instance properties of a member block, by their declarations. -/
def storage (block : Node) : List Decl :=
  (Decl.ofNodes block.children).filter Decl.isInstanceStorage

/-- The bindings of a property that an initializer assigns: a constant that has its value already is
left out. -/
def assignedBindings (decl : Decl) : List Node :=
  decl.node.bindings.filter fun binding => !(decl.isConstant && binding.initialValue?.isSome)

/-- The bindings of a member block that an initializer assigns, in source order. -/
def assigned (block : Node) : List Node :=
  (storage block).flatMap assignedBindings

/-- Whether a binding is one that an initializer can be written for: it has a name, and a type that
is written down or that a literal shows. -/
def isDetermined (binding : Node) : Bool :=
  binding.name?.isSome &&
    (binding.declaredType?.isSome || (binding.initialValue?.bind Node.literalType?).isSome)

/-- The parameter for a binding with a name and a type. -/
def parameter? (binding : Node) : Option InitializerParameter := do
  return ⟨← binding.name?, ← binding.declaredType?⟩

/-- What is known of the bindings of a struct after some of them have been looked at. -/
structure Tally where
  /-- All of them have initial values. -/
  allValued : Bool
  /-- The parameters for them, unless one of them has no type that is written down. -/
  full? : Option Signature

namespace Tally

/-- Nothing has been looked at. -/
def start : Tally := ⟨true, some []⟩

/-- One more binding is looked at. -/
def add (tally : Tally) (binding : Node) : Except EvolutionError Tally :=
  if isDetermined binding then
    .ok {
      allValued := tally.allValued && binding.initialValue?.isSome
      full? := do return (← tally.full?) ++ [← parameter? binding] }
  else .error .unsupported

/-- The signatures of the implicit initializers, once all bindings have been looked at. Without any
parameters the second one would repeat the first. -/
def signatures (tally : Tally) : List Signature :=
  (if tally.allValued then [[]] else []) ++
    match tally.full? with
    | some parameters => if tally.allValued && parameters.isEmpty then [] else [parameters]
    | none => []

end Tally

/-- The implicit initializers of the struct whose member block the site is. -/
def find (site : Site) : Except EvolutionError (Option Initializers) :=
  if site.node.kind = .memberBlock ∧ site.scope.hasImplicitInitializers then do
    let tally ← (assigned site.node).foldlM Tally.add .start
    match tally.signatures with
    | [] => return none
    | signatures => return some ⟨signatures⟩
  else .error .unsupported

/-! ## Adding them -/

/-- Whether initializers can be added to a node: it is a member block without an initializer. -/
def accepts (node : Node) : Bool :=
  node.kind == .memberBlock && (node.allOf (.decl .initializer)).isEmpty

/-- Whether a stored property of a member block cannot be seen in the rest of the module. -/
def hasHiddenStorage (block : Node) : Bool :=
  (storage block).any fun decl => decl.accessLevel?.any AccessLevel.isHidden

/-- The statement that assigns a property. -/
def assignment (parameter : InitializerParameter) : Node :=
  Build.statement ("self." ++ parameter.name ++ " = " ++ parameter.name)

/-- The initializer with a signature. -/
def toNode (modifiers : List String) (signature : Signature) : Node :=
  Build.initializer modifiers
    (signature.map fun parameter => Build.parameter parameter.name parameter.type none)
    (signature.map assignment)

/-- The modifiers of the initializers that are added to a member block. -/
def modifiersFor (block : Node) : List String :=
  if hasHiddenStorage block then ["fileprivate"] else []

/-- The member block with the initializers added at its end. -/
def applyTo? (initializers : Initializers) (node : Node) : Option Node :=
  if accepts node then
    some (node.append (initializers.signatures.map (toNode (modifiersFor node))))
  else none

end Initializers

end SourceEvolution
