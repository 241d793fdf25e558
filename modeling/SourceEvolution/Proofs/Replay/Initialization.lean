import SourceEvolution.Proofs.Replay.Layout
import SourceEvolution.Proofs.Replay.Success

/-!
# Definite initialization

A struct without an initializer is given initializers implicitly. When they are written out, every
stored property of an instance must still have a value once an initializer has run. This module says
exactly which initializers are found for the member block of such a struct, what they look like once
they have been added, and that they leave no property without a value.

* **Properties** (`Node.IsInstanceVariable`, `Node.IsHidden`, `Node.assignable`): what is stored in
  an instance, what the rest of the module cannot see, and what an initializer has to assign, read
  off the nodes.
* **Signatures** (`Initializers.IsImplicit`): one initializer without parameters where all bindings
  have values, and one with a parameter for each where all have types.
* **Nodes** (`Initializers.WritesOut`): how an initializer with a signature is written out.
* **Initialization** (`Initializers.IsImplicit.assigns`, `Initializers.find_initializes`).
-/

namespace SourceEvolution

/-! ## Properties -/

namespace Node

/-- A variable belongs to the type and not to its instances. -/
def IsTypeLevel (node : Node) : Prop :=
  "static" ∈ node.modifiers ∨ "class" ∈ node.modifiers

/-- A variable is stored in each instance. -/
def IsInstanceVariable (node : Node) : Prop :=
  node.IsStoredVariable ∧ ¬ node.IsTypeLevel

/-- The modifiers that ask for an access level. -/
def accessModifiers : List String :=
  ["private", "fileprivate", "internal", "package", "public", "open"]

/-- The rest of the module cannot see a declaration: the first access level among its modifiers is
that of its scope or of its file. -/
def IsHidden (node : Node) : Prop :=
  ∃ before level after, node.modifiers = before ++ level :: after ∧
    (∀ modifier ∈ before, modifier ∉ accessModifiers) ∧
    (level = "private" ∨ level = "fileprivate")

/-- A stored property of a member block is hidden. -/
def HidesStorage (block : Node) : Prop :=
  ∃ member ∈ block.children, member.IsInstanceVariable ∧ member.IsHidden

/-- A binding of a variable has its value already, and cannot be assigned another. -/
def IsSettled (member binding : Node) : Prop :=
  member.text = some "let" ∧ binding.initialValue?.isSome = true

instance (member binding : Node) : Decidable (IsSettled member binding) :=
  inferInstanceAs (Decidable (_ ∧ _))

theorem isInstanceStorage_iff {decl : Decl} :
    decl.isInstanceStorage = true ↔ decl.node.IsInstanceVariable := by
  have hpins := @MemberOrder.pinsLayout_iff decl.node
  have hview : Decl.ofNode? decl.node = some decl := Decl.ofNode?_eq_some_iff.mpr rfl
  have hkind : decl.node.kind ≠ .enumCase := by
    rw [decl.kind_eq]
    exact NodeKind.noConfusion
  have hcase : (decl.node.kind == .enumCase) = false := beq_eq_false_iff_ne.mpr hkind
  have hstored : (decl.isStored? == some true) = true ↔ decl.node.IsStoredVariable := by
    simpa [MemberOrder.pinsLayout, hcase, hview, hkind] using hpins
  have hstatic : decl.isStatic = true ↔ decl.node.IsTypeLevel := by
    simp only [Decl.isStatic, List.any_eq_true, Bool.or_eq_true, beq_iff_eq, and_or_left,
      exists_or, exists_eq_right, IsTypeLevel]
  rw [Decl.isInstanceStorage, Bool.and_eq_true, Bool.not_eq_true', ← Bool.not_eq_true, hstored,
    hstatic, IsInstanceVariable]

theorem isInstanceStorage_ofNode? {node : Node} :
    (Decl.ofNode? node).any Decl.isInstanceStorage = true ↔ node.IsInstanceVariable := by
  rcases hview : Decl.ofNode? node with _ | decl
  · have hkind : node.kind ≠ .decl .variableDecl := by
      intro hkind
      rw [Decl.ofNode?_eq_none_iff, hkind] at hview
      cases hview
    simp [IsInstanceVariable, IsStoredVariable, hkind]
  · obtain rfl := Decl.ofNode?_eq_some_iff.mp hview
    exact isInstanceStorage_iff

instance (node : Node) : Decidable node.IsInstanceVariable :=
  decidable_of_iff _ isInstanceStorage_ofNode?

/-- The bindings of a member block that an initializer has to assign, in source order: those of the
variables that are stored in an instance, unless they have their value already. -/
def assignable (block : Node) : List Node :=
  (block.children.filter fun member => member.IsInstanceVariable).flatMap fun member =>
    member.bindings.filter fun binding => ¬ member.IsSettled binding

end Node

namespace Initializers

theorem assignedBindings_eq (decl : Decl) :
    assignedBindings decl =
      decl.node.bindings.filter fun binding => ¬ decl.node.IsSettled binding := by
  refine List.filter_congr fun binding _ => ?_
  rw [Bool.eq_iff_iff, decide_eq_true_eq, Bool.not_eq_true', ← Bool.not_eq_true, Bool.and_eq_true,
    Decl.isConstant, beq_iff_eq, Node.IsSettled]

/-- The bindings that are looked at are those that an initializer has to assign. -/
theorem assigned_eq_assignable (block : Node) : assigned block = block.assignable := by
  rw [assigned, storage, Node.assignable, Decl.ofNodes]
  induction block.children with
  | nil => rfl
  | cons member rest ih =>
    have hmember := @Node.isInstanceStorage_ofNode? member
    rcases hview : Decl.ofNode? member with _ | decl
    · rw [hview] at hmember
      have hnot : ¬ member.IsInstanceVariable := fun h => by simpa using hmember.mpr h
      rw [List.filterMap_cons_none hview, ih, List.filter_cons_of_neg (by simpa using hnot)]
    · rw [hview, Option.any_some] at hmember
      rw [List.filterMap_cons_some hview]
      by_cases hstored : decl.isInstanceStorage = true
      · obtain rfl := Decl.ofNode?_eq_some_iff.mp hview
        rw [List.filter_cons_of_pos hstored, List.flatMap_cons, ih, assignedBindings_eq,
          List.filter_cons_of_pos (by simpa using hmember.mp hstored), List.flatMap_cons]
      · have hnot : ¬ member.IsInstanceVariable := fun h => hstored (hmember.mpr h)
        rw [List.filter_cons_of_neg hstored, ih, List.filter_cons_of_neg (by simpa using hnot)]

/-! ## Access -/

theorem ofKeyword?_eq_none_iff {modifier : String} :
    AccessLevel.ofKeyword? modifier = none ↔ modifier ∉ Node.accessModifiers := by
  have hkeywords : Node.accessModifiers = AccessLevel.all.map AccessLevel.keyword := rfl
  rw [AccessLevel.ofKeyword?, List.find?_eq_none, hkeywords, List.mem_map, not_exists]
  simp only [beq_iff_eq, not_and]

theorem any_isHidden_ofKeyword? {modifier : String} :
    (AccessLevel.ofKeyword? modifier).any AccessLevel.isHidden = true ↔
      modifier = "private" ∨ modifier = "fileprivate" := by
  constructor
  · intro h
    obtain ⟨level, hlevel, hhidden⟩ := (Option.any_eq_true _ _).mp h
    have hkeyword : level.keyword = modifier := by
      simpa using List.find?_some hlevel
    rw [← hkeyword]
    cases level with
    | ownScope => exact Or.inl rfl
    | ownFile => exact Or.inr rfl
    | _ => cases hhidden
  · rintro (rfl | rfl) <;> decide

/-- The access level of a declaration is that of the first modifier that asks for one. -/
theorem any_isHidden_accessLevel? {decl : Decl} :
    decl.accessLevel?.any AccessLevel.isHidden = true ↔ decl.node.IsHidden := by
  rw [Decl.accessLevel?, Node.IsHidden, Option.any_eq_true]
  constructor
  · rintro ⟨level, hlevel, hhidden⟩
    obtain ⟨before, modifier, after, hmodifiers, hmodifier, hbefore⟩ :=
      List.findSome?_eq_some_iff.mp hlevel
    refine ⟨before, modifier, after, hmodifiers, ?_, ?_⟩
    · exact fun other hother => ofKeyword?_eq_none_iff.mp (hbefore other hother)
    · rw [← any_isHidden_ofKeyword?, hmodifier]
      exact hhidden
  · rintro ⟨before, modifier, after, hmodifiers, hbefore, hmodifier⟩
    obtain ⟨level, hlevel, hhidden⟩ :=
      (Option.any_eq_true _ _).mp (any_isHidden_ofKeyword?.mpr hmodifier)
    refine ⟨level, List.findSome?_eq_some_iff.mpr ?_, hhidden⟩
    exact ⟨before, modifier, after, hmodifiers, hlevel,
      fun other hother => ofKeyword?_eq_none_iff.mpr (hbefore other hother)⟩

theorem hasHiddenStorage_iff {block : Node} :
    hasHiddenStorage block = true ↔ block.HidesStorage := by
  simp only [hasHiddenStorage, storage, Decl.ofNodes, List.any_filter, List.any_eq_true,
    List.mem_filterMap, Decl.ofNode?_eq_some_iff, Bool.and_eq_true, any_isHidden_accessLevel?,
    Node.isInstanceStorage_iff, Node.HidesStorage]
  constructor
  · rintro ⟨decl, ⟨member, hmember, rfl⟩, hstored, hhidden⟩
    exact ⟨_, hmember, hstored, hhidden⟩
  · rintro ⟨member, hmember, hstored, hhidden⟩
    obtain ⟨decl, -, hnode⟩ := Decl.exists_of_isDeclaration
      (show member.kind.isDeclaration = true by rw [hstored.1.1]; rfl)
    subst hnode
    exact ⟨decl, ⟨_, hmember, rfl⟩, hstored, hhidden⟩

end Initializers

/-! ## Signatures -/

/-- An initializer can be written for a binding: it has a name, and a type that is written down or
that a literal shows. -/
def Node.IsDeterminable (binding : Node) : Prop :=
  (∃ name, binding.name? = some name) ∧
    ((∃ type, binding.declaredType? = some type) ∨
      ∃ value type, binding.initialValue? = some value ∧ value.literalType? = some type)

/-- A parameter is for a binding: it has its name and the type that is written down for it. -/
def InitializerParameter.IsFor (binding : Node) (parameter : InitializerParameter) : Prop :=
  binding.name? = some parameter.name ∧ binding.declaredType? = some parameter.type

/-- Each element of the second of two related lists belongs to one of the first. -/
theorem exists_of_mem_forall₂ {α β : Type} {r : α → β → Prop} {xs : List α} {ys : List β}
    (h : List.Forall₂ r xs ys) {y : β} (hy : y ∈ ys) : ∃ x ∈ xs, r x y := by
  obtain ⟨i, hi, rfl⟩ := List.getElem_of_mem hy
  have hi' : i < xs.length := h.length_eq ▸ hi
  exact ⟨_, List.getElem_mem hi', (List.forall₂_iff_get.mp h).2 i hi' hi⟩

namespace Initializers

/-- All bindings have values. -/
def AllValued (bindings : List Node) : Prop :=
  ∀ binding ∈ bindings, ∃ value, binding.initialValue? = some value

/-- All bindings have types that are written down. -/
def AllTyped (bindings : List Node) : Prop :=
  ∀ binding ∈ bindings, ∃ type, binding.declaredType? = some type

theorem allValued_iff {bindings : List Node} :
    (bindings.all fun binding => binding.initialValue?.isSome) = true ↔ AllValued bindings := by
  simp only [List.all_eq_true, Option.isSome_iff_exists, AllValued]

theorem allTyped_iff {bindings : List Node} :
    (bindings.all fun binding => binding.declaredType?.isSome) = true ↔ AllTyped bindings := by
  simp only [List.all_eq_true, Option.isSome_iff_exists, AllTyped]

instance (bindings : List Node) : Decidable (AllValued bindings) :=
  decidable_of_iff _ allValued_iff

instance (bindings : List Node) : Decidable (AllTyped bindings) :=
  decidable_of_iff _ allTyped_iff

/-- The initializers that a struct is given implicitly for its bindings: one without parameters if
all have values, then one with a parameter for each if all have types. Without bindings the second
one would be the first again. -/
def IsImplicit (bindings : List Node) (initializers : Initializers) : Prop :=
  ∃ full : Signature,
    (AllTyped bindings → List.Forall₂ InitializerParameter.IsFor bindings full) ∧
    initializers.signatures =
      (if AllValued bindings then [[]] else []) ++
        if AllTyped bindings ∧ bindings ≠ [] then [full] else []

theorem isDetermined_iff {binding : Node} :
    isDetermined binding = true ↔ binding.IsDeterminable := by
  simp only [isDetermined, Bool.and_eq_true, Bool.or_eq_true, Option.isSome_iff_exists,
    Option.bind_eq_some_iff, Node.IsDeterminable]
  constructor
  · rintro ⟨hname, htype | ⟨type, value, hvalue, htype⟩⟩
    · exact ⟨hname, Or.inl htype⟩
    · exact ⟨hname, Or.inr ⟨value, type, hvalue, htype⟩⟩
  · rintro ⟨hname, htype | ⟨value, type, hvalue, htype⟩⟩
    · exact ⟨hname, Or.inl htype⟩
    · exact ⟨hname, Or.inr ⟨type, value, hvalue, htype⟩⟩

/-- Bindings with names and types have a parameter each. -/
theorem forall₂_filterMap_parameter? {bindings : List Node}
    (hnames : ∀ binding ∈ bindings, binding.IsDeterminable) (htypes : AllTyped bindings) :
    List.Forall₂ InitializerParameter.IsFor bindings (bindings.filterMap parameter?) := by
  induction bindings with
  | nil => exact .nil
  | cons binding rest ih =>
    obtain ⟨⟨⟨name, hname⟩, -⟩, hrestNames⟩ := List.forall_mem_cons.mp hnames
    obtain ⟨⟨type, htype⟩, hrestTypes⟩ := List.forall_mem_cons.mp htypes
    have hparameter : parameter? binding = some ⟨name, type⟩ := by
      rw [parameter?, hname, htype]
      rfl
    rw [List.filterMap_cons_some hparameter]
    exact .cons ⟨hname, htype⟩ (ih hrestNames hrestTypes)

theorem isImplicit_signaturesFor {bindings : List Node}
    (h : ∀ binding ∈ bindings, binding.IsDeterminable) :
    IsImplicit bindings ⟨signaturesFor bindings⟩ := by
  refine ⟨bindings.filterMap parameter?, forall₂_filterMap_parameter? h, ?_⟩
  have hfull : (!bindings.isEmpty && bindings.all fun binding => binding.declaredType?.isSome) =
      true ↔ AllTyped bindings ∧ bindings ≠ [] := by
    rw [Bool.and_eq_true, allTyped_iff, Bool.not_eq_true', List.isEmpty_eq_false_iff, and_comm]
  simp only [signaturesFor, allValued_iff, hfull]

/-- There are no implicit initializers exactly if some binding has no value and some has no type. -/
theorem IsImplicit.signatures_eq_nil_iff {bindings : List Node} {initializers : Initializers}
    (h : IsImplicit bindings initializers) :
    initializers.signatures = [] ↔ ¬ AllValued bindings ∧ ¬ AllTyped bindings := by
  obtain ⟨full, -, hsignatures⟩ := h
  rw [hsignatures]
  by_cases hvalued : AllValued bindings
  · simp [hvalued]
  · have hsome : bindings ≠ [] := by
      rintro rfl
      exact hvalued fun _ hbinding => absurd hbinding List.not_mem_nil
    simp [hvalued, hsome]

/-! ## Nodes -/

/-- The parameters of an initializer with a signature. -/
def parameterNodes (signature : Signature) : List Node :=
  signature.map fun parameter => .branch .parameter [.leaf .label parameter.name, parameter.type]

/-- The assignments of an initializer with a signature. -/
def assignmentNodes (signature : Signature) : List Node :=
  signature.map fun parameter =>
    .leaf .statement ("self." ++ parameter.name ++ " = " ++ parameter.name)

/-- A node is an initializer with a signature, written out: hidden if it has to be, with the
parameters in their order, and with one assignment for each. -/
structure WritesOut (hidden : Prop) (signature : Signature) (new : Node) : Prop where
  /-- It is an initializer. -/
  kind : new.kind = .decl .initializer
  /-- It is marked if it has to be hidden. -/
  marked : hidden → new.modifiers = ["fileprivate"]
  /-- Otherwise it is not marked. -/
  unmarked : ¬ hidden → new.modifiers = []
  /-- It has the parameters of the signature. -/
  parameters : new.parameters = parameterNodes signature
  /-- Its body assigns each property of the signature, and does nothing else. -/
  body : new.firstOf? .codeBlock = some (.branch .codeBlock (assignmentNodes signature))
  /-- Besides these it has nothing. -/
  length : new.children.length = new.modifiers.length + 2

section toNode

variable (modifiers : List String) (signature : Signature)

theorem children_toNode :
    (toNode modifiers signature).children =
      modifiers.map (.leaf .modifier) ++
        [.branch .parameterClause (parameterNodes signature),
          .branch .codeBlock (assignmentNodes signature)] :=
  rfl

theorem modifiers_toNode : (toNode modifiers signature).modifiers = modifiers := by
  rw [Node.modifiers, Node.textsOf, Node.allOf, children_toNode, List.filter_append,
    List.filterMap_append]
  simp [Node.leaf, Node.branch, List.filter_map, List.filterMap_map, Function.comp_def]

/-- What is looked for in an initializer stands behind its modifiers. -/
theorem firstOf?_toNode {kind : NodeKind} (hkind : kind ≠ .modifier) :
    (toNode modifiers signature).firstOf? kind =
      [Node.branch .parameterClause (parameterNodes signature),
        .branch .codeBlock (assignmentNodes signature)].find? fun child => child.kind == kind := by
  have hmodifiers : (modifiers.map (Node.leaf .modifier)).find? (fun child => child.kind == kind) =
      none := by
    rw [List.find?_eq_none]
    intro child hchild
    obtain ⟨modifier, -, rfl⟩ := List.mem_map.mp hchild
    rw [beq_iff_eq]
    exact hkind.symm
  rw [Node.firstOf?, children_toNode, List.find?_append, hmodifiers, Option.none_or]

theorem parameters_toNode : (toNode modifiers signature).parameters = parameterNodes signature := by
  have hclause : (toNode modifiers signature).firstOf? .parameterClause =
      some (.branch .parameterClause (parameterNodes signature)) := by
    rw [firstOf?_toNode _ _ NodeKind.noConfusion]
    rfl
  simp only [Node.parameters, hclause]
  refine List.filter_eq_self.mpr fun child hchild => ?_
  obtain ⟨parameter, -, rfl⟩ := List.mem_map.mp hchild
  rfl

theorem body_toNode :
    (toNode modifiers signature).firstOf? .codeBlock =
      some (.branch .codeBlock (assignmentNodes signature)) := by
  rw [firstOf?_toNode _ _ NodeKind.noConfusion]
  rfl

end toNode

theorem writesOut_toNode (block : Node) (signature : Signature) :
    WritesOut block.HidesStorage signature (toNode (modifiersFor block) signature) where
  kind := rfl
  marked hhidden := by
    rw [modifiers_toNode, modifiersFor, if_pos (hasHiddenStorage_iff.mpr hhidden)]
  unmarked hhidden := by
    rw [modifiers_toNode, modifiersFor, if_neg fun h => hhidden (hasHiddenStorage_iff.mp h)]
  parameters := parameters_toNode _ signature
  body := body_toNode _ signature
  length := by
    rw [modifiers_toNode, children_toNode, List.length_append, List.length_map]
    rfl

theorem forall₂_writesOut (block : Node) (signatures : List Signature) :
    List.Forall₂ (WritesOut block.HidesStorage) signatures
      (signatures.map (toNode (modifiersFor block))) := by
  rw [List.forall₂_map_right_iff, List.forall₂_same]
  exact fun signature _ => writesOut_toNode block signature

/-! ## Initialization -/

/-- An initializer assigns the property with a name. -/
def Assigns (new : Node) (name : String) : Prop :=
  ∃ body, new.firstOf? .codeBlock = some body ∧
    .leaf .statement ("self." ++ name ++ " = " ++ name) ∈ body.children

theorem WritesOut.assigns {hidden : Prop} {signature : Signature} {new : Node}
    (h : WritesOut hidden signature new) {parameter : InitializerParameter}
    (hparameter : parameter ∈ signature) : Assigns new parameter.name :=
  ⟨_, h.body, List.mem_map_of_mem hparameter⟩

/-- Whatever implicit initializers are written out, each of them assigns every binding that has no
value. -/
theorem IsImplicit.assigns {bindings added : List Node} {initializers : Initializers}
    {hidden : Prop} (h : IsImplicit bindings initializers)
    (hadded : List.Forall₂ (WritesOut hidden) initializers.signatures added) {binding : Node}
    (hbinding : binding ∈ bindings) (hvalue : binding.initialValue? = none) :
    ∀ new ∈ added, ∃ name, binding.name? = some name ∧ Assigns new name := by
  intro new hnew
  obtain ⟨signature, hsignature, hwritten⟩ := exists_of_mem_forall₂ hadded hnew
  obtain ⟨full, hfull, hsignatures⟩ := h
  have hvalued : ¬ AllValued bindings := by
    intro hvalued
    obtain ⟨value, hsome⟩ := hvalued binding hbinding
    rw [hvalue] at hsome
    cases hsome
  -- without a value for the binding there is no initializer without parameters
  rw [hsignatures, if_neg hvalued, List.nil_append] at hsignature
  split at hsignature
  · rename_i htyped
    rw [List.mem_singleton.mp hsignature] at hwritten
    obtain ⟨parameter, hparameter, hname, -⟩ :=
      exists_of_mem_forall₂ (hfull htyped.1).flip hbinding
    exact ⟨parameter.name, hname, hwritten.assigns hparameter⟩
  · exact absurd hsignature List.not_mem_nil

/-- A binding without a value is among those that an initializer has to assign. -/
theorem mem_assignable {block member binding : Node} (hmember : member ∈ block.children)
    (hstored : member.IsInstanceVariable) (hbinding : binding ∈ member.bindings)
    (hvalue : binding.initialValue? = none) : binding ∈ block.assignable := by
  have hsettled : ¬ member.IsSettled binding := by
    rintro ⟨-, hsome⟩
    rw [hvalue] at hsome
    cases hsome
  refine List.mem_flatMap.mpr ⟨member, List.mem_filter.mpr ⟨hmember, ?_⟩, ?_⟩
  · exact decide_eq_true hstored
  · exact List.mem_filter.mpr ⟨hbinding, decide_eq_true hsettled⟩

section find

variable {site : Site}

/-- Where initializers are looked for, they are found unless no initializer can be written for some
binding. -/
theorem find_eq_unsupported_iff
    (hhere : site.node.kind = .memberBlock ∧ site.scope.hasImplicitInitializers = true) :
    find site = .error .unsupported ↔
      ∃ binding ∈ site.node.assignable, ¬ binding.IsDeterminable := by
  rw [find_eq, if_pos hhere, assigned_eq_assignable]
  by_cases hall : (site.node.assignable.all isDetermined) = true
  · rw [if_pos hall]
    simp only [List.all_eq_true, isDetermined_iff] at hall
    refine iff_of_false ?_ fun ⟨binding, hbinding, hnot⟩ => hnot (hall binding hbinding)
    cases signaturesFor site.node.assignable <;> exact nofun
  · rw [if_neg hall]
    simpa [isDetermined_iff] using hall

/-- What is found where an initializer can be written for every binding. -/
theorem find_of_isDeterminable
    (hhere : site.node.kind = .memberBlock ∧ site.scope.hasImplicitInitializers = true)
    (hall : ∀ binding ∈ site.node.assignable, binding.IsDeterminable) :
    ∃ initializers, IsImplicit site.node.assignable initializers ∧
      find site = .ok (if initializers.signatures = [] then none else some initializers) := by
  have hdetermined : (site.node.assignable.all isDetermined) = true := by
    simpa only [List.all_eq_true, isDetermined_iff] using hall
  refine ⟨⟨signaturesFor site.node.assignable⟩, isImplicit_signaturesFor hall, ?_⟩
  rw [find_eq, if_pos hhere, assigned_eq_assignable, if_pos hdetermined]
  cases signaturesFor site.node.assignable <;> rfl

end find

/-- What is found for the member block of a struct that has no initializer, and what it is good for.
There is no answer exactly if no initializer can be written for some binding. Otherwise nothing is
found exactly if some binding has no value and some has no type, and else the implicit initializers
are found. Any initializers can be added, each as its signature says, behind all members. After
those that have been found are added, every binding of a stored property of an instance has a value,
or is assigned by each of them. -/
theorem find_initializes {site : Site} {decl : Decl}
    (hinnermost : site.scope.innermost? = some decl) (hstruct : decl.kind = .structDecl)
    (hfree : ∀ member ∈ decl.members, member.kind ≠ .initializer)
    (hblock : decl.node.memberBlock? = some site.node) :
    (find site = .error .unsupported ↔
      ∃ binding ∈ site.node.assignable, ¬ binding.IsDeterminable) ∧
    ((∀ binding ∈ site.node.assignable, binding.IsDeterminable) →
      (find site = .ok none ↔
        ¬ AllValued site.node.assignable ∧ ¬ AllTyped site.node.assignable) ∧
      (AllValued site.node.assignable ∨ AllTyped site.node.assignable →
        ∃ initializers, find site = .ok (some initializers) ∧
          IsImplicit site.node.assignable initializers)) ∧
    ∀ initializers : Initializers, ∃ added,
      initializers.applyTo? site.node =
        some (site.node.withChildren (site.node.children ++ added)) ∧
      List.Forall₂ (WritesOut site.node.HidesStorage) initializers.signatures added ∧
      (find site = .ok (some initializers) →
        ∀ member ∈ site.node.children, member.IsInstanceVariable →
          ∀ binding ∈ member.bindings, binding.initialValue? = none →
            ∀ new ∈ added, ∃ name, binding.name? = some name ∧ Assigns new name) := by
  have hrelies : site.scope.hasImplicitInitializers = true :=
    MemberOrder.relies_iff.mp ⟨decl, hinnermost, hstruct, hfree⟩
  have hkind : site.node.kind = .memberBlock := by
    simpa using List.find?_some hblock
  have himplicit : decl.hasImplicitInitializers = true := by
    simpa [Scope.hasImplicitInitializers, hinnermost] using hrelies
  have hnone := decl.forall_kind_ne_of_memberBlock? himplicit hblock
  refine ⟨find_eq_unsupported_iff ⟨hkind, hrelies⟩, fun hall => ?_, fun initializers => ?_⟩
  · obtain ⟨initializers, hinitializers, hfind⟩ := find_of_isDeterminable ⟨hkind, hrelies⟩ hall
    rw [hfind, ← hinitializers.signatures_eq_nil_iff]
    refine ⟨by simp, fun hsome => ⟨initializers, ?_, hinitializers⟩⟩
    have hne : initializers.signatures ≠ [] := by
      rw [Ne, hinitializers.signatures_eq_nil_iff]
      tauto
    rw [if_neg hne]
  · refine ⟨_, if_pos (accepts_iff.mpr ⟨hkind, hnone⟩), forall₂_writesOut _ _, ?_⟩
    intro hfind member hmember hstored binding hbinding hvalue
    have hall : ∀ binding ∈ site.node.assignable, binding.IsDeterminable := by
      intro binding hbinding
      by_contra hnot
      have hunsupported := (find_eq_unsupported_iff ⟨hkind, hrelies⟩).mpr ⟨binding, hbinding, hnot⟩
      rw [hfind] at hunsupported
      cases hunsupported
    obtain ⟨found, hfoundImplicit, hfound⟩ := find_of_isDeterminable ⟨hkind, hrelies⟩ hall
    obtain rfl : found = initializers := by
      rw [hfind] at hfound
      split at hfound
      · cases hfound
      · cases hfound
        rfl
    exact hfoundImplicit.assigns (forall₂_writesOut _ _)
      (mem_assignable hmember hstored hbinding hvalue) hvalue

end Initializers

/-- A struct with a hidden pair of properties, and with properties that no initializer assigns: a
constant that has its value, one of the type, and one that is computed. -/
def Sample.account : Decl where
  node := ((Sketch.named .structDecl "Account").extended
    [Sample.withModifiers (Sample.typedVar "balance" "Int") ["public", "private"],
      Sample.constantWithValue "limit" "1_000",
      Sample.withModifiers (Sample.typedVar "count" "Int") ["static"],
      Sample.withModifiers (Sample.multiVar ["owner", "heir"] "String") ["private", "public"],
      Sample.computedVar "isEmpty" "Bool"]).toNode
  kind := .structDecl
  kind_eq := rfl

/-- The member block of the account. -/
def Sample.accountSite : Site where
  node := .branch .memberBlock (Sample.account.members.map Decl.node)
  scope := { chain := [Sample.account] }
  isInnermost := false

/-- The initializer of the account has a parameter for each property that it assigns. -/
def Sample.accountSignature : Signature :=
  [⟨"balance", Build.simpleType "Int"⟩, ⟨"owner", Build.simpleType "String"⟩,
    ⟨"heir", Build.simpleType "String"⟩]

/-- One initializer is added to the account. It is hidden, since the owner and the heir are, and the
balance, which has no value, is assigned by it. -/
theorem Initializers.find_initializes_account :
    Sample.accountSite.scope.innermost? = some Sample.account ∧
    Sample.account.kind = .structDecl ∧
    (∀ member ∈ Sample.account.members, member.kind ≠ .initializer) ∧
    Sample.account.node.memberBlock? = some Sample.accountSite.node ∧
    find Sample.accountSite = .ok (some ⟨[Sample.accountSignature]⟩) ∧
    ∃ new, applyTo? ⟨[Sample.accountSignature]⟩ Sample.accountSite.node =
        some (Sample.accountSite.node.withChildren (Sample.accountSite.node.children ++ [new])) ∧
      new.modifiers = ["fileprivate"] ∧ new.parameters = parameterNodes Sample.accountSignature ∧
      Assigns new "balance" := by
  have hfree : ∀ member ∈ Sample.account.members, member.kind ≠ .initializer := by decide
  have hfind : find Sample.accountSite = .ok (some ⟨[Sample.accountSignature]⟩) := by decide
  have hhidden : Sample.accountSite.node.HidesStorage := hasHiddenStorage_iff.mp (by decide)
  refine ⟨rfl, rfl, hfree, rfl, hfind, ?_⟩
  obtain ⟨added, happly, hwritten, hassigned⟩ :=
    (@find_initializes Sample.accountSite Sample.account rfl rfl hfree rfl).2.2
      ⟨[Sample.accountSignature]⟩
  obtain ⟨new, _, hnew, hrest, rfl⟩ := List.forall₂_cons_left_iff.mp hwritten
  obtain rfl := List.forall₂_nil_left_iff.mp hrest
  -- the first member is the variable of the balance, with one binding
  obtain ⟨name, hname, hassigns⟩ := hassigned hfind _ List.mem_cons_self (by decide)
    _ (List.mem_singleton.mpr rfl) rfl new List.mem_cons_self
  cases hname
  exact ⟨new, happly, hnew.marked hhidden, hnew.parameters, hassigns⟩

end SourceEvolution
