import SourceEvolution.Proofs.Replay.Planned

/-!
# What replay may change

A plan that was made for a file changes the file in a few known ways only. This module says which
ways these are, without mention of plans, and proves that replay takes no other.

* **At one node** (`Alters`): once its children have changed, a node is kept, or it is a member
  block whose members are put into another order and may be given initializers, or it takes
  parameters and one of these is given another default.
* **In a whole tree** (`Evolves`): every child changes in these ways, and then the node itself. The
  declarations around a node decide what may happen to it.
* **One node of a plan** (`alters_of_admits`): the changes that a plan has for a place alter its
  node in one of the ways above.
* **Whole plans** (`evolves_of_rewrite?`, `evolves_of_replay`): a tree that is rewritten with such
  changes evolves, and so does a file on which its plan is replayed.
-/

namespace SourceEvolution

variable {G : Type} [WordSource G]

/-! ## Evolving trees -/

/-- What may happen to a node once its children have become `changed`. `around` are the declarations
that enclose the node, the innermost first. -/
inductive Alters (around : List Decl) (node : Node) (changed : List Node) : Node → Prop where
  /-- Nothing happens. -/
  | kept : Alters around node changed (node.withChildren changed)
  /-- The members of a member block are put into another order, and initializers are added behind
  them. -/
  | members {order : List Nat} {added : List Node} (block : node.kind = .memberBlock)
      (perm : order.Perm (List.range changed.length))
      -- where the layout is fixed, the members that are part of it keep their order
      (pinned : around.head?.any (fun decl => !decl.isResilient) = true →
        (order.filter fun index => node.children[index]?.any MemberOrder.pinsLayout).Pairwise
          (· < ·))
      -- only a struct without initializers is given any
      (initializers : ∀ new ∈ added, new.kind = .decl .initializer)
      (implicit : added ≠ [] → around.head?.any (fun decl => decl.kind == .structDecl) = true ∧
        ∀ child ∈ node.children, child.kind ≠ .decl .initializer) :
      Alters around node changed
        (node.withChildren (order.filterMap (fun index => changed[index]?) ++ added))
  /-- One parameter in the first parameter clause is given another default. -/
  | redefault {clauseIndex index : Nat} {clause parameter redefaulted : Node}
      (parametric : node.kind.hasParameters = true)
      (free : around.head?.any (fun decl => decl.kind == .protocolDecl) = false)
      (first : DefaultArgument.indexOf? .parameterClause changed = some clauseIndex)
      (at_clause : changed[clauseIndex]? = some clause)
      (at_parameter : clause.children[index]? = some parameter)
      (kind : parameter.kind = .parameter)
      (redefaults : DefaultArgument.Redefaults parameter redefaulted) :
      Alters around node changed (node.withChildren (changed.set clauseIndex
        (clause.withChildren (clause.children.set index redefaulted))))

/-- A node becomes another by what may happen to its children, one by one, and then to itself.
`around` are the declarations that enclose the node, the innermost first. -/
inductive Evolves : List Decl → Node → Node → Prop where
  | intro {around : List Decl} {node after : Node} {changed : List Node}
      (length : changed.length = node.children.length)
      (children : ∀ (i : Nat) (child changedChild : Node), node.children[i]? = some child →
        changed[i]? = some changedChild →
          Evolves ((Decl.ofNode? node).toList ++ around) child changedChild)
      (own : Alters around node changed after) : Evolves around node after

/-! ## One node of a plan -/

section node

variable {node after : Node} {start : Path} {met : List (Path × Decl)} {aliasBound : Nat}
  {changed : List Node}

/-- A struct that relies on implicit initializers is a struct. -/
theorem isStruct_of_hasImplicitInitializers (hkind : node.kind = .memberBlock)
    (h : ((node.placeHere start met).site aliasBound).scope.hasImplicitInitializers = true) :
    (met.map Prod.snd).head?.any (fun decl => decl.kind == .structDecl) = true := by
  rw [Scope.hasImplicitInitializers, innermost?_placeHere hkind] at h
  rcases hhead : (met.map Prod.snd).head? with _ | decl
  · rw [hhead] at h
    cases h
  · rw [hhead, Option.any_some, Decl.hasImplicitInitializers, Bool.and_eq_true] at h
    exact h.1

/-- An order that has been found keeps the members that are part of a fixed layout in their
order. -/
theorem pinned_of_suits {order : MemberOrder}
    (h : (Evolution.shuffleMembers order).Suits ((node.placeHere start met).site aliasBound))
    (hfixed : (met.map Prod.snd).head?.any (fun decl => !decl.isResilient) = true) :
    (order.mapping.filter fun index => node.children[index]?.any MemberOrder.pinsLayout).Pairwise
      (· < ·) := by
  refine MemberOrder.pairwise_lt_of_suits h ?_
  have hkind : node.kind = .memberBlock := h.1
  rw [Scope.isResilient, innermost?_placeHere hkind]
  rcases hhead : (met.map Prod.snd).head? with _ | decl
  · rw [hhead] at hfixed
    cases hfixed
  · rw [hhead, Option.any_some, Bool.not_eq_true'] at hfixed
    rw [Option.all_some, hfixed]

/-- An order that has been found alters a member block in one of the known ways, also when
initializers have been added behind the members. -/
theorem alters_of_order {order : MemberOrder} {added : List Node}
    (hsuits : (Evolution.shuffleMembers order).Suits ((node.placeHere start met).site aliasBound))
    (hlength : changed.length = node.children.length)
    (hadded : ∀ new ∈ added, new.kind = .decl .initializer)
    (himplicit : added ≠ [] →
      (met.map Prod.snd).head?.any (fun decl => decl.kind == .structDecl) = true ∧
        ∀ child ∈ node.children, child.kind ≠ .decl .initializer)
    (h : order.applyTo? (node.withChildren (changed ++ added)) = some after) :
    Alters (met.map Prod.snd) node changed after := by
  have hkind : node.kind = .memberBlock := hsuits.1
  have hperm : order.mapping.Perm (List.range changed.length) := by
    rw [hlength]
    exact MemberOrder.perm_range_of_suits hsuits
  rw [MemberOrder.applyTo?_append hperm hkind] at h
  cases h
  exact Alters.members hkind hperm (pinned_of_suits hsuits) hadded himplicit

/-- Adding initializers alone keeps the members where they are. -/
theorem alters_of_initializers {added : List Node} (hkind : node.kind = .memberBlock)
    (hadded : ∀ new ∈ added, new.kind = .decl .initializer)
    (himplicit : added ≠ [] →
      (met.map Prod.snd).head?.any (fun decl => decl.kind == .structDecl) = true ∧
        ∀ child ∈ node.children, child.kind ≠ .decl .initializer) :
    Alters (met.map Prod.snd) node changed (node.withChildren (changed ++ added)) := by
  have halters : Alters (met.map Prod.snd) node changed (node.withChildren
      ((List.range changed.length).filterMap (fun index => changed[index]?) ++ added)) :=
    Alters.members hkind (List.Perm.refl _) (fun _ => List.pairwise_lt_range.filter _) hadded
      himplicit
  rwa [filterMap_getElem?_range] at halters

/-- The changes that a plan may have for a place alter its node in one of the known ways, once its
children have been rewritten. -/
theorem alters_of_admits {changes : List Evolution}
    (hadmits : (node.placeHere start met).Admits aliasBound changes)
    (hkinds : changed.map Node.kind = node.children.map Node.kind)
    (h : Evolution.applyAll? changes (node.withChildren changed) = some after) :
    Alters (met.map Prod.snd) node changed after := by
  have hlength : changed.length = node.children.length := by
    simpa using congrArg List.length hkinds
  rcases hadmits with rfl | ⟨evolution, hsuits, rfl⟩
  · rw [Evolution.applyAll?_nil] at h
    cases h
    exact Alters.kept
  · rcases Evolution.chain_of_suits hsuits with
      ⟨hchain, -⟩ | ⟨initializers, order, rfl, himplicit, -, hchain⟩
    · rw [hchain, Evolution.applyAll?_singleton] at h
      cases evolution with
      | shuffleMembers order =>
        refine alters_of_order hsuits hlength (fun _ h => absurd h List.not_mem_nil)
          (fun h => absurd rfl h) ?_
        rwa [List.append_nil]
      | synthesizeInitializers initializers =>
        obtain ⟨hkind, himplicit⟩ := Initializers.find_eq_ok_some hsuits
        obtain ⟨hnone, added, hadded, rfl⟩ := Initializers.applyTo?_eq_some h
        exact alters_of_initializers hkind hadded fun _ =>
          ⟨isStruct_of_hasImplicitInitializers hkind himplicit,
            Node.forall_kind_ne_of_map_kind hkinds hnone⟩
      | changeDefaultArgument change =>
        obtain ⟨clauseIndex, clause, index, parameter, redefaulted, hfirst, hclause, hparameter,
          hkind, hredefaults, rfl⟩ := DefaultArgument.applyTo?_eq_some h
        have happlies := hsuits.1
        rw [DefaultArgument.applies, container?_placeHere, Bool.and_eq_true,
          Bool.not_eq_true'] at happlies
        exact Alters.redefault happlies.1 happlies.2 hfirst hclause hparameter hkind hredefaults
    · rw [hchain, ← List.singleton_append, Evolution.applyAll?_append,
        Evolution.applyAll?_singleton] at h
      obtain ⟨between, hfirst, hsecond⟩ := Option.bind_eq_some_iff.mp h
      rw [Evolution.applyAll?_singleton] at hsecond
      obtain ⟨hnone, added, hadded, rfl⟩ := Initializers.applyTo?_eq_some hfirst
      exact alters_of_order hsuits hlength hadded (fun _ =>
        ⟨isStruct_of_hasImplicitInitializers hsuits.1 himplicit,
          Node.forall_kind_ne_of_map_kind hkinds hnone⟩) hsecond

end node

/-! ## Whole plans -/

/-- A tree that is rewritten with changes that a plan may have evolves. -/
theorem evolves_of_rewrite? {changes : Path → List Evolution} {aliasBound : Nat} {node after : Node}
    {start : Path} {met : List (Path × Decl)}
    (hadmits : ∀ place ∈ node.places start met, place.Admits aliasBound (changes place.path))
    (h : node.rewrite? changes start = some after) : Evolves (met.map Prod.snd) node after := by
  induction node using Node.inductionOn generalizing start met after with
  | step node ih =>
    rw [Node.rewrite?_eq] at h
    obtain ⟨changed, hchanged, hown⟩ := Option.bind_eq_some_iff.mp h
    obtain ⟨hlength, hchildren⟩ := Node.rewriteAll?_eq_some_iff.mp hchanged
    rw [Node.places_eq, List.forall_mem_cons] at hadmits
    refine Evolves.intro hlength ?_ (alters_of_admits hadmits.1
      (Node.map_kind_of_rewriteAll? hchanged) hown)
    intro i child changedChild hchild hchangedChild
    obtain ⟨after, hafter, hrewrite⟩ := hchildren i child hchild
    obtain rfl : after = changedChild := Option.some.inj (hafter.symm.trans hchangedChild)
    have hinside : (node.declsHere start met).map Prod.snd =
        (Decl.ofNode? node).toList ++ met.map Prod.snd := by
      unfold Node.declsHere
      split <;> rename_i hdecl <;> rw [hdecl] <;> rfl
    rw [← hinside]
    refine ih child (List.mem_of_getElem? hchild) ?_ hrewrite
    intro place hplace
    refine hadmits.2 place (Node.mem_placesOf.mpr ⟨i, child, hchild, ?_⟩)
    rwa [Nat.zero_add] at hplace

/-- Replaying a plan on the file that it was made for changes the file in the known ways only. -/
theorem evolves_of_replay (config : PlannerConfig) (source : SourceFile) (words : G) {plan : Plan}
    {evolved : SourceFile} (hplan : (planFile config source words).1 = .ok plan)
    (hreplay : replay source plan = .ok evolved) :
    evolved.path = source.path ∧ Evolves [] source.root evolved.root := by
  rw [replay, entriesFor_of_planFile hplan] at hreplay
  rcases hresult : plan.foldlM replayEntry source.root with error | root
  · rw [hresult] at hreplay
    cases hreplay
  · rw [hresult] at hreplay
    cases hreplay
    have hroot := toOption_foldlM_of_planFile hplan
    rw [hresult] at hroot
    exact ⟨rfl, evolves_of_rewrite? (planFile_admits hplan) hroot.symm⟩

/-- The file with a point, changed by its plan. -/
def Sample.movedPointFile : SourceFile :=
  ⟨"Point", Sample.file [((Sketch.named .structDecl "Point").extended
    [Sample.storedVar "y" "2", Sample.function "move"
        [Sample.paramWithDefault "by" (Build.simpleType "Int") "\x7b 1 \x7d()"],
      Sample.storedVar "x" "1", Sample.initializer []]).toNode]⟩

/-- The file with a point evolves by its plan. -/
theorem evolves_of_replay_pointFile :
    (planFile {} Sample.pointFile (WordStream.ofSeed 7)).1 = .ok Sample.pointPlan ∧
      replay Sample.pointFile Sample.pointPlan = .ok Sample.movedPointFile ∧
      Evolves [] Sample.pointFile.root Sample.movedPointFile.root := by
  have hreplay : replay Sample.pointFile Sample.pointPlan = .ok Sample.movedPointFile := by
    decide +kernel
  exact ⟨planFile_pointFile, hreplay, (evolves_of_replay {} Sample.pointFile
    (WordStream.ofSeed 7) planFile_pointFile hreplay).2⟩

end SourceEvolution
