import Mathlib.Data.List.Basic
import SourceEvolution.Proofs.Scope.Meaning
import SourceEvolution.Typing.Literal

/-!
# Trees without positions

A node carries its position in the text of the file. This module takes the positions out of a tree
and says that nothing that is read off a node, no name lookup and no resolution of a type notices.
Where the answer is a node, a declaration or a scope, it is the same one without its positions.

* **Nodes** (`Node.bare`): a tree without positions, and the parts of a node
  (`Node.firstOf?_bare`, `Node.allOf_bare` and what is built on them).
* **Types** (`Node.spelling_bare`, `TypeShape.ofNode_bare`): spelling and shape.
* **Declarations** (`Decl.bare`): names, layout and members.
* **Scopes** (`Scope.bare`): lookup, and the name of a scope.
* **Resolution** (`Scope.resolve_bare`): by one lemma for a single type, given what it means to
  follow an alias, and by induction on the number of aliases from there.
-/

namespace SourceEvolution

/-! ## Nodes -/

namespace Node

mutual

/-- A tree without positions. -/
def bare : Node → Node
  | ⟨kind, text, _, children⟩ => ⟨kind, text, none, bareAll children⟩

/-- Several trees without positions. -/
def bareAll : List Node → List Node
  | [] => []
  | node :: rest => node.bare :: bareAll rest

end

theorem bareAll_eq_map (nodes : List Node) : bareAll nodes = nodes.map bare := by
  induction nodes with
  | nil => rfl
  | cons node rest ih => simp [bareAll, ih]

@[simp]
theorem bare_kind (node : Node) : node.bare.kind = node.kind := by
  cases node
  rfl

@[simp]
theorem bare_text (node : Node) : node.bare.text = node.text := by
  cases node
  rfl

@[simp]
theorem bare_position (node : Node) : node.bare.position = none := by
  cases node
  rfl

@[simp]
theorem bare_children (node : Node) : node.bare.children = node.children.map bare := by
  cases node
  rw [bare, bareAll_eq_map]

/-- The parts of a tree without positions. -/
theorem bare_mk (kind : NodeKind) (text : Option String) (position : Option Position)
    (children : List Node) :
    (⟨kind, text, position, children⟩ : Node).bare = ⟨kind, text, none, children.map bare⟩ := by
  rw [bare, bareAll_eq_map]

@[simp]
theorem firstOf?_bare (node : Node) (kind : NodeKind) :
    node.bare.firstOf? kind = (node.firstOf? kind).map bare := by
  simp only [firstOf?, bare_children, List.find?_map, Function.comp_def, bare_kind]

@[simp]
theorem allOf_bare (node : Node) (kind : NodeKind) :
    node.bare.allOf kind = (node.allOf kind).map bare := by
  simp [allOf, List.filter_map, Function.comp_def]

@[simp]
theorem textsOf_bare (node : Node) (kind : NodeKind) :
    node.bare.textsOf kind = node.textsOf kind := by
  simp [textsOf, List.filterMap_map]

@[simp]
theorem name?_bare (node : Node) : node.bare.name? = node.name? := by
  unfold name?
  rw [firstOf?_bare]
  cases node.firstOf? .identifier <;> simp

@[simp]
theorem typeChild?_bare (node : Node) : node.bare.typeChild? = node.typeChild?.map bare := by
  simp only [typeChild?, bare_children, List.find?_map, Function.comp_def, bare_kind]

@[simp]
theorem parameters_bare (node : Node) : node.bare.parameters = node.parameters.map bare := by
  unfold parameters
  rw [firstOf?_bare]
  cases node.firstOf? .parameterClause <;> simp

@[simp]
theorem bindings_bare (node : Node) : node.bare.bindings = node.bindings.map bare :=
  allOf_bare node .patternBinding

/-- What is found in the first child of a kind is found there without positions as well, if that is
so in every child. -/
theorem bind_firstOf?_bare {inside : Node → Option Node}
    (hinside : ∀ child, inside child.bare = (inside child).map bare) (node : Node)
    (kind : NodeKind) :
    (node.bare.firstOf? kind).bind inside = ((node.firstOf? kind).bind inside).map bare := by
  rw [firstOf?_bare]
  cases node.firstOf? kind with
  | none => rfl
  | some child => exact hinside child

@[simp]
theorem declaredType?_bare (node : Node) :
    node.bare.declaredType? = node.declaredType?.map bare :=
  bind_firstOf?_bare typeChild?_bare node .typeClause

@[simp]
theorem initialValue?_bare (node : Node) :
    node.bare.initialValue? = node.initialValue?.map bare :=
  bind_firstOf?_bare (fun clause => firstOf?_bare clause .expr) node .initializerClause

@[simp]
theorem defaultValue?_bare (node : Node) :
    node.bare.defaultValue? = node.defaultValue?.map bare :=
  bind_firstOf?_bare (fun clause => firstOf?_bare clause .expr) node .defaultArgument

/-! ## Types -/

mutual

@[simp]
theorem spelling_bare : (node : Node) → node.bare.spelling = node.spelling
  | ⟨kind, text, position, children⟩ => by
    rw [bare, spelling, spelling, spellings_bareAll children]

theorem spellings_bareAll : (nodes : List Node) → spellings (bareAll nodes) = spellings nodes
  | [] => rfl
  | node :: rest => by
    rw [bareAll, spellings, spellings, spelling_bare node, spellings_bareAll rest]

end

@[simp]
theorem literalType?_bare (node : Node) : node.bare.literalType? = node.literalType? := by
  simp [literalType?]

@[simp]
theorem isLookedUp_bare (type : Node) : type.bare.isLookedUp = type.isLookedUp := by
  obtain ⟨kind, text, position, children⟩ := type
  rw [bare_mk]
  cases kind with
  | type kind => cases kind <;> cases text <;> cases children <;> rfl
  | _ => rfl

end Node

@[simp]
theorem TypeShape.ofNode_bare (type : Node) : ofNode type.bare = ofNode type := by
  have hmodule : ∀ base : Node, isStandardModule base.bare = isStandardModule base := by
    intro base
    simp [isStandardModule]
  obtain ⟨kind, text, position, children⟩ := type
  rw [Node.bare_mk]
  cases kind with
  | type kind => cases kind <;> cases text <;> cases children <;> simp [ofNode, hmodule]
  | _ => rfl

/-! ## Declarations -/

namespace Decl

/-- A declaration without positions. -/
def bare (decl : Decl) : Decl :=
  ⟨decl.node.bare, decl.kind, by rw [Node.bare_kind, decl.kind_eq]⟩

@[simp]
theorem bare_node (decl : Decl) : decl.bare.node = decl.node.bare := rfl

@[simp]
theorem bare_kind (decl : Decl) : decl.bare.kind = decl.kind := rfl

@[simp]
theorem ofNode?_bare (node : Node) : ofNode? node.bare = (ofNode? node).map bare := by
  obtain ⟨kind, text, position, children⟩ := node
  cases kind <;> rfl

@[simp]
theorem ofNodes_bare (nodes : List Node) :
    ofNodes (nodes.map Node.bare) = (ofNodes nodes).map bare := by
  simp [ofNodes, List.filterMap_map, List.map_filterMap]

@[simp]
theorem bindingNames_bare (decl : Decl) : decl.bare.bindingNames = decl.bindingNames := by
  simp [bindingNames, List.filterMap_map]

@[simp]
theorem target?_bare (decl : Decl) : decl.bare.target? = decl.target?.map Node.bare := by
  simp [target?]

@[simp]
theorem name_bare (decl : Decl) : decl.bare.name = decl.name := by
  simp [name, Function.comp_def]

@[simp]
theorem answersTo_bare (decl : Decl) (name : String) :
    decl.bare.answersTo name = decl.answersTo name := by
  simp [answersTo]

@[simp]
theorem isResilient_bare (decl : Decl) : decl.bare.isResilient = decl.isResilient := by
  simp [isResilient, Node.hasAttribute, Node.attributes]

@[simp]
theorem bindingIsStored_bare (binding : Node) :
    bindingIsStored binding.bare = bindingIsStored binding := by
  unfold bindingIsStored Node.accessorBlock?
  rw [Node.firstOf?_bare]
  cases binding.firstOf? .accessorBlock <;> simp [List.all_map, Function.comp_def]

@[simp]
theorem isStored?_bare (decl : Decl) : decl.bare.isStored? = decl.isStored? := by
  simp [isStored?, bindingsAreStored, List.all_map, Function.comp_def]

@[simp]
theorem isConstant_bare (decl : Decl) : decl.bare.isConstant = decl.isConstant := by
  simp [isConstant]

@[simp]
theorem isInstanceStorage_bare (decl : Decl) :
    decl.bare.isInstanceStorage = decl.isInstanceStorage := by
  simp [isInstanceStorage, isStatic, Node.modifiers]

@[simp]
theorem members_bare (decl : Decl) : decl.bare.members = decl.members.map bare := by
  unfold members Node.memberBlock?
  rw [bare_kind, bare_node, Node.firstOf?_bare, Node.bare_children]
  cases decl.kind <;> cases decl.node.firstOf? .memberBlock <;> simp

@[simp]
theorem lookup_bare (decl : Decl) (name : String) :
    decl.bare.lookup name = (decl.lookup name).map bare := by
  simp [lookup, List.filter_map, Function.comp_def]

@[simp]
theorem hasImplicitInitializers_bare (decl : Decl) :
    decl.bare.hasImplicitInitializers = decl.hasImplicitInitializers := by
  simp [hasImplicitInitializers, hasExplicitInitializer, List.any_map, Function.comp_def]

end Decl

/-! ## Scopes -/

namespace Scope

/-- A scope without positions. -/
def bare (scope : Scope) : Scope :=
  { scope with chain := scope.chain.map Decl.bare }

@[simp]
theorem bare_chain (scope : Scope) : scope.bare.chain = scope.chain.map Decl.bare := rfl

@[simp]
theorem pop_bare (scope : Scope) : scope.bare.pop = scope.pop.bare := by
  simp [bare, pop, List.map_tail]

@[simp]
theorem innermost?_bare (scope : Scope) :
    scope.bare.innermost? = scope.innermost?.map Decl.bare := by
  simp [innermost?]

@[simp]
theorem enclosing?_bare (scope : Scope) :
    scope.bare.enclosing? = scope.enclosing?.map Decl.bare := by
  simp [enclosing?, ← List.map_tail]

@[simp]
theorem isResilient_bare (scope : Scope) : scope.bare.isResilient = scope.isResilient := by
  unfold isResilient
  rw [innermost?_bare]
  cases scope.innermost? <;> simp

@[simp]
theorem hasImplicitInitializers_bare (scope : Scope) :
    scope.bare.hasImplicitInitializers = scope.hasImplicitInitializers := by
  unfold hasImplicitInitializers
  rw [innermost?_bare]
  cases scope.innermost? <;> simp

@[simp]
theorem qualifiedName_bare (scope : Scope) : scope.bare.qualifiedName = scope.qualifiedName := by
  simp [qualifiedName, ← List.map_reverse, Function.comp_def]

@[simp]
theorem enter_bare (scope : Scope) (node : Node) :
    scope.bare.enter node.bare = (scope.enter node).bare := by
  unfold enter
  rw [Decl.ofNode?_bare]
  cases Decl.ofNode? node <;> rfl

/-- Where a name is found does not depend on positions. -/
theorem lookupChain?_bare (name : String) (chain : List Decl) :
    lookupChain? name (chain.map Decl.bare) =
      (lookupChain? name chain).map (List.map Decl.bare) := by
  induction chain with
  | nil => rfl
  | cons decl outer ih =>
    rw [List.map_cons, lookupChain?, lookupChain?, Decl.lookup_bare, List.head?_map]
    cases (decl.lookup name).head? with
    | none => exact ih
    | some found => rfl

@[simp]
theorem lookup?_bare (scope : Scope) (name : String) :
    scope.bare.lookup? name = (scope.lookup? name).map bare := by
  simp [lookup?, lookupChain?_bare, Function.comp_def, bare]

@[simp]
theorem lookupDirect?_bare (scope : Scope) (name : String) :
    scope.bare.lookupDirect? name = (scope.lookupDirect? name).map bare := by
  unfold lookupDirect?
  rw [innermost?_bare]
  cases scope.innermost? with
  | none => rfl
  | some decl =>
    simp only [Option.map_some, Option.bind_eq_bind, Option.bind_some, Decl.lookup_bare,
      List.head?_map]
    cases (decl.lookup name).head? <;> rfl

@[simp]
theorem aliasTarget?_bare (scope : Scope) :
    scope.bare.aliasTarget? = scope.aliasTarget?.map Node.bare := by
  unfold aliasTarget?
  rw [innermost?_bare]
  cases scope.innermost? with
  | none => rfl
  | some decl =>
    by_cases hkind : decl.kind = .typeAlias <;> simp [hkind]

end Scope

/-! ## Resolution -/

/-- What a type stands for, without positions. -/
def Resolved.bare : Resolved → Resolved
  | declaration scope => declaration scope.bare
  | unresolved type scope => unresolved type.bare scope.bare

namespace Scope

section follow

variable {follow followBare : Scope → Node → Except ResolveError Resolved}

theorem settle_bare
    (hfollow : ∀ found target,
      followBare found.bare target.bare = (follow found target).map Resolved.bare)
    (scope : Scope) (type : Node) (found? : Option Scope) :
    settle followBare scope.bare type.bare (found?.map bare) =
      (settle follow scope type found?).map Resolved.bare := by
  cases found? with
  | none => rfl
  | some found =>
    simp only [Option.map_some, settle, aliasTarget?_bare]
    cases found.aliasTarget? with
    | none => rfl
    | some target => exact hfollow found target

/-- A type is resolved without regard to positions if aliases are followed in this way. -/
theorem resolveBy_bare
    (hfollow : ∀ found target,
      followBare found.bare target.bare = (follow found target).map Resolved.bare)
    (scope : Scope) (type : Node) :
    resolveBy followBare scope.bare type.bare =
      (resolveBy follow scope type).map Resolved.bare := by
  induction type using resolveBy.induct with
  | case1 name position children =>
    have hsettle := settle_bare hfollow scope ⟨.type .simple, some name, position, children⟩
      (scope.lookup? name)
    rw [Node.bare_mk] at hsettle ⊢
    rw [resolveBy, resolveBy, lookup?_bare, hsettle]
  | case2 name position base arguments ih =>
    rw [Node.bare_mk, List.map_cons, resolveBy_member, resolveBy_member, ih]
    rcases resolveBy follow scope base with error | result
    · rfl
    · cases result with
      | declaration found =>
        have hsettle := settle_bare hfollow scope
          ⟨.type .member, some name, position, base :: arguments⟩ (found.lookupDirect? name)
        rw [Node.bare_mk, List.map_cons, ← lookupDirect?_bare] at hsettle
        exact hsettle
      | unresolved type other =>
        rw [← List.map_cons, ← Node.bare_mk _ _ position]
        rfl
  | case3 type hname hmember =>
    have hnot : type.isLookedUp = false := by
      rcases isLookedUp_cases type with ⟨_, _, _, h⟩ | ⟨_, _, _, _, h⟩ | h
      · exact absurd h (hname _ _ _)
      · exact absurd h (hmember _ _ _ _)
      · exact h
    rw [resolveBy_of_not_isLookedUp hnot,
      resolveBy_of_not_isLookedUp ((Node.isLookedUp_bare type).trans hnot)]
    rfl

end follow

theorem resolveWithin_bare (remaining : Nat) (scope : Scope) (type : Node) :
    resolveWithin remaining scope.bare type.bare =
      (resolveWithin remaining scope type).map Resolved.bare := by
  induction remaining generalizing scope type with
  | zero =>
    refine resolveBy_bare (fun found target => ?_) scope type
    rw [qualifiedName_bare]
    rfl
  | succ remaining ih =>
    refine resolveBy_bare (fun found target => ?_) scope type
    rw [pop_bare, ih]

/-- What a type stands for does not depend on positions. -/
theorem resolve_bare (scope : Scope) (type : Node) :
    scope.bare.resolve type.bare = (scope.resolve type).map Resolved.bare :=
  resolveWithin_bare scope.aliasBound scope type

@[simp]
theorem shapeOf_bare (scope : Scope) (type : Node) :
    scope.bare.shapeOf type.bare = scope.shapeOf type := by
  unfold shapeOf
  rw [resolve_bare]
  rcases scope.resolve type with error | result
  · rfl
  · cases result with
    | declaration found => rfl
    | unresolved type found =>
      exact congrArg Except.ok (TypeShape.ofNode_bare type)

end Scope

end SourceEvolution
