import SourceEvolution.Proofs.Passes
import SourceEvolution.Proofs.Replay.Planned

/-!
# Replay succeeds

A plan that was made for a file can be replayed on it. All that is asked of the file is that the
members of a struct stand where they are looked for.

* **Layout** (`LaidOut`): a member block that belongs to a struct is the first one of the struct.
  Then a struct that relies on implicit initializers has no initializer in any member block
  (`LaidOut.forall_kind_ne`).
* **One node** (`exists_applyAll?_of_admits`): the changes that a plan may have for a place are
  accepted by its node, once the children have been rewritten. Rewriting keeps the kinds of
  children, and a parameter clause is never changed itself, so everything that was counted when the
  change was found is still there.
* **Whole trees** (`exists_rewrite?`) and plans (`exists_replay_of_planFile`): every entry finds the
  node that it is for, and the node accepts it.
-/

namespace SourceEvolution

variable {G : Type} [WordSource G]

/-! ## Layout -/

/-- Every member block whose nearest declaration is a struct is the first member block of that
struct. -/
def LaidOut (root : Node) : Prop :=
  ∀ place ∈ root.places [] [], place.node.kind = .memberBlock →
    ∀ owner ∈ place.decls.head?, owner.2.kind = .structDecl →
      ∃ index ∈ DefaultArgument.indexOf? .memberBlock owner.2.node.children,
        place.path = owner.1.child index

instance (root : Node) : Decidable (LaidOut root) :=
  inferInstanceAs (Decidable (∀ place ∈ root.places [] [], place.node.kind = .memberBlock →
    ∀ owner ∈ place.decls.head?, owner.2.kind = .structDecl →
      ∃ index ∈ DefaultArgument.indexOf? .memberBlock owner.2.node.children,
        place.path = owner.1.child index))

/-- A struct without an initializer among its members has none in its first member block. -/
theorem Decl.forall_kind_ne_of_memberBlock? {decl : Decl} (h : decl.hasImplicitInitializers = true)
    {block : Node} (hblock : decl.node.memberBlock? = some block) :
    ∀ child ∈ block.children, child.kind ≠ .decl .initializer := by
  rw [hasImplicitInitializers, Bool.and_eq_true, beq_iff_eq, Bool.not_eq_true'] at h
  obtain ⟨hkind, hexplicit⟩ := h
  have hmembers : decl.members = ofNodes block.children := by
    simp only [members, hkind, hblock]
  rw [hasExplicitInitializer, hmembers, List.any_eq_false] at hexplicit
  intro child hchild hinitializer
  obtain ⟨member, hmember, hnode⟩ := exists_of_isDeclaration
    (show child.kind.isDeclaration = true by rw [hinitializer]; rfl)
  have hmemberKind : member.kind = .initializer := by
    have := member.kind_eq
    rw [hnode, hinitializer] at this
    exact (NodeKind.decl.inj this).symm
  refine hexplicit member (List.mem_filterMap.mpr ⟨child, hchild, hmember⟩) ?_
  rw [hmemberKind, beq_self_eq_true]

/-- In a tree that is laid out, the member block of a struct that relies on implicit initializers
has no initializer. -/
theorem LaidOut.forall_kind_ne {root : Node} (hlayout : LaidOut root) {place : Place}
    (hplace : place ∈ root.places [] []) (hkind : place.node.kind = .memberBlock)
    {aliasBound : Nat} (himplicit : (place.scope aliasBound).hasImplicitInitializers = true) :
    ∀ child ∈ place.node.children, child.kind ≠ .decl .initializer := by
  rcases hhead : place.decls.head? with _ | owner
  · rw [Scope.hasImplicitInitializers, Scope.innermost?, Place.scope, List.head?_map, hhead]
      at himplicit
    cases himplicit
  · rw [Scope.hasImplicitInitializers, Scope.innermost?, Place.scope, List.head?_map, hhead]
      at himplicit
    have hstruct : owner.2.kind = .structDecl := by
      have := himplicit
      simp only [Option.map_some, Option.any_some, Decl.hasImplicitInitializers,
        Bool.and_eq_true, beq_iff_eq] at this
      exact this.1
    obtain ⟨index, hindex, hpath⟩ := hlayout place hplace hkind owner hhead hstruct
    obtain ⟨block, hblock, -, hfirst⟩ := DefaultArgument.firstOf?_of_indexOf? hindex
    -- the path of the place leads to this very block
    obtain ⟨rest, hrest, hnode, -⟩ := Node.mem_places_iff.mp hplace
    rw [List.nil_append] at hrest
    rw [← hrest, hpath, Path.child, Node.nodeAt?_append,
      Node.nodeAt?_of_mem_decls hplace (List.mem_of_mem_head? hhead), Option.bind_some,
      Node.nodeAt?_cons, Node.child?, hblock] at hnode
    obtain rfl : block = place.node := Option.some.inj hnode
    exact owner.2.forall_kind_ne_of_memberBlock? himplicit hfirst

/-! ## One node -/

section node

variable {node : Node} {start : Path} {met : List (Path × Decl)} {aliasBound : Nat}
  {changes : List Evolution}

/-- A plan has no changes for nodes that are neither member blocks nor take parameters. -/
theorem Place.Admits.eq_nil {place : Place} (h : place.Admits aliasBound changes)
    (hblock : place.node.kind ≠ .memberBlock)
    (hparameters : place.node.kind.hasParameters = false) :
    changes = [] := by
  rcases h with h | ⟨evolution, hsuits, -⟩
  · exact h
  · cases evolution with
    | shuffleMembers order => exact absurd hsuits.1 hblock
    | synthesizeInitializers initializers =>
      exact absurd (Initializers.find_eq_ok_some hsuits).1 hblock
    | changeDefaultArgument change =>
      have happlies := hsuits.1
      rw [DefaultArgument.applies, Bool.and_eq_true] at happlies
      exact absurd (hparameters.symm.trans happlies.1) Bool.false_ne_true

/-- The changes that a plan may have for a place are accepted by its node, once its children have
been rewritten. -/
theorem exists_applyAll?_of_admits {place : Place} (hadmits : place.Admits aliasBound changes)
    {changed : List Node} (hkinds : changed.map Node.kind = place.node.children.map Node.kind)
    (hclauses : ∀ (i : Nat) (child changedChild : Node), place.node.children[i]? = some child →
      changed[i]? = some changedChild → child.kind = .parameterClause →
        changedChild.children.map Node.kind = child.children.map Node.kind)
    (hnone : place.node.kind = .memberBlock →
      (place.scope aliasBound).hasImplicitInitializers = true →
        ∀ child ∈ place.node.children, child.kind ≠ .decl .initializer) :
    ∃ after, Evolution.applyAll? changes (place.node.withChildren changed) = some after := by
  have hlength : changed.length = place.node.children.length := by
    simpa using congrArg List.length hkinds
  have hinitializers : ∀ initializers : Initializers, place.node.kind = .memberBlock →
      (place.scope aliasBound).hasImplicitInitializers = true →
        ∃ added, initializers.applyTo? (place.node.withChildren changed) =
          some (place.node.withChildren (changed ++ added)) := by
    intro initializers hkind himplicit
    have hblock : (place.node.withChildren changed).kind = .memberBlock := hkind
    exact initializers.exists_applyTo? hblock
      (Node.forall_kind_ne_of_map_kind hkinds.symm (hnone hkind himplicit))
  rcases hadmits with rfl | ⟨evolution, hsuits, rfl⟩
  · exact ⟨_, Evolution.applyAll?_nil _⟩
  · rcases Evolution.chain_of_suits hsuits with
      ⟨hchain, -⟩ | ⟨initializers, order, rfl, himplicit, hfind, hchain⟩
    · rw [hchain, Evolution.applyAll?_singleton]
      cases evolution with
      | shuffleMembers order =>
        have hblock : (place.node.withChildren changed).kind = .memberBlock := hsuits.1
        exact ⟨_, MemberOrder.applyTo?_of_perm (MemberOrder.perm_range_of_suits hsuits) hblock
          (Nat.le_of_eq hlength.symm)⟩
      | synthesizeInitializers initializers =>
        obtain ⟨hkind, himplicit⟩ := Initializers.find_eq_ok_some hsuits
        obtain ⟨added, hadded⟩ := hinitializers initializers hkind himplicit
        exact ⟨_, hadded⟩
      | changeDefaultArgument change =>
        obtain ⟨happlies, choices, heligible, hchange⟩ := hsuits
        rw [DefaultArgument.applies, Bool.and_eq_true] at happlies
        have hindex := DefaultArgument.index_lt_of_mem_eligible heligible hchange
        rw [Nat.zero_add] at hindex
        exact DefaultArgument.exists_applyTo?_of_kinds happlies.1 hindex rfl hkinds hclauses
    · rw [hchain, ← List.singleton_append, Evolution.applyAll?_append,
        Evolution.applyAll?_singleton]
      obtain ⟨added, hadded⟩ := hinitializers initializers hsuits.1 himplicit
      have hblock : (place.node.withChildren (changed ++ added)).kind = .memberBlock := hsuits.1
      have hcount : place.node.children.length ≤
          (place.node.withChildren (changed ++ added)).children.length := by
        rw [Node.withChildren, List.length_append, hlength]
        exact Nat.le_add_right _ _
      have happlied := MemberOrder.applyTo?_of_perm (MemberOrder.perm_range_of_suits hsuits) hblock
        hcount
      have hfirst : (Evolution.synthesizeInitializers initializers).applyTo?
          (place.node.withChildren changed) = some (place.node.withChildren (changed ++ added)) :=
        hadded
      rw [hfirst, Option.bind_some, Evolution.applyAll?_singleton]
      exact ⟨_, happlied⟩

end node

/-! ## Whole trees -/

section trees

variable {changes : Path → List Evolution} {start : Path}

/-- Children are rewritten if each of them is. -/
theorem exists_rewriteAll? {index : Nat} {children : List Node}
    (h : ∀ (i : Nat) (child : Node), children[i]? = some child →
      ∃ after, child.rewrite? changes (start.child (index + i)) = some after) :
    ∃ changed, Node.rewriteAll? changes start index children = some changed := by
  induction children generalizing index with
  | nil => exact ⟨[], rfl⟩
  | cons first rest ih =>
    obtain ⟨after, hafter⟩ := h 0 first rfl
    have hrest : ∀ (i : Nat) (child : Node), rest[i]? = some child →
        ∃ after, child.rewrite? changes (start.child (index + 1 + i)) = some after := by
      intro i child hchild
      have hchanged := h (i + 1) child hchild
      rwa [Nat.add_comm i, ← Nat.add_assoc] at hchanged
    obtain ⟨later, hlater⟩ := ih hrest
    refine ⟨after :: later, ?_⟩
    rw [Node.rewriteAll?, show first.rewrite? changes (start.child index) = some after from hafter,
      hlater]
    rfl

/-- Without changes for the node itself, rewriting keeps the kinds of its children. -/
theorem map_kind_children_of_rewrite? {node after : Node} (hnothing : changes start = [])
    (h : node.rewrite? changes start = some after) :
    after.children.map Node.kind = node.children.map Node.kind := by
  rw [Node.rewrite?_eq, hnothing] at h
  obtain ⟨changed, hchanged, hafter⟩ := Option.bind_eq_some_iff.mp h
  rw [Evolution.applyAll?_nil] at hafter
  cases hafter
  exact Node.map_kind_of_rewriteAll? hchanged

/-- A tree in which member blocks have initializers only where they may can be rewritten with all
changes that a plan may have. -/
theorem exists_rewrite? {aliasBound : Nat} {node : Node} {met : List (Path × Decl)}
    (hadmits : ∀ place ∈ node.places start met, place.Admits aliasBound (changes place.path))
    (hnone : ∀ place ∈ node.places start met, place.node.kind = .memberBlock →
      (place.scope aliasBound).hasImplicitInitializers = true →
        ∀ child ∈ place.node.children, child.kind ≠ .decl .initializer) :
    ∃ after, node.rewrite? changes start = some after := by
  induction node using Node.inductionOn generalizing start met with
  | step node ih =>
    rw [Node.places_eq, List.forall_mem_cons] at hadmits hnone
    have hbelow : ∀ (i : Nat) (child : Node), node.children[i]? = some child →
        ∀ place ∈ child.places (start.child i) (node.declsHere start met),
          place ∈ Node.placesOf start (node.declsHere start met) 0 node.children :=
      fun i child hchild place hplace => Node.mem_placesOf.mpr ⟨i, child, hchild, hplace⟩
    have hchildren : ∀ (i : Nat) (child : Node), node.children[i]? = some child →
        ∃ after, child.rewrite? changes (start.child (0 + i)) = some after := by
      intro i child hchild
      rw [Nat.zero_add]
      exact ih child (List.mem_of_getElem? hchild)
        (fun place hplace => hadmits.2 place (hbelow i child hchild place hplace))
        (fun place hplace => hnone.2 place (hbelow i child hchild place hplace))
    obtain ⟨changed, hchanged⟩ := exists_rewriteAll? hchildren
    rw [Node.rewrite?_eq, hchanged, Option.bind_some]
    refine exists_applyAll?_of_admits hadmits.1 (Node.map_kind_of_rewriteAll? hchanged) ?_ hnone.1
    -- no plan has changes for a parameter clause
    intro i child changedChild hchild hchangedChild hkind
    obtain ⟨-, hrewritten⟩ := Node.rewriteAll?_eq_some_iff.mp hchanged
    obtain ⟨after, hafter, hrewrite⟩ := hrewritten i child hchild
    obtain rfl : after = changedChild := Option.some.inj (hafter.symm.trans hchangedChild)
    refine map_kind_children_of_rewrite? ?_ hrewrite
    have hplace : child.placeHere (start.child (0 + i)) (node.declsHere start met) ∈
        child.places (start.child i) (node.declsHere start met) := by
      rw [Node.places_eq, Nat.zero_add]
      exact List.mem_cons_self
    refine (hadmits.2 _ (hbelow i child hchild _ hplace)).eq_nil ?_ ?_
    · change child.kind ≠ _
      rw [hkind]
      decide
    · change child.kind.hasParameters = false
      rw [hkind]
      rfl

end trees

/-! ## Plans -/

/-- A node that a change can be applied to accepts it. -/
theorem Evolution.accepts_of_applyTo? {evolution : Evolution} {node after : Node}
    (h : evolution.applyTo? node = some after) : evolution.accepts node = true := by
  cases evolution with
  | shuffleMembers order =>
    change order.applyTo? node = some after at h
    rw [MemberOrder.applyTo?, Option.ite_none_right_eq_some] at h
    exact h.1
  | synthesizeInitializers initializers =>
    change initializers.applyTo? node = some after at h
    rw [Initializers.applyTo?, Option.ite_none_right_eq_some] at h
    exact h.1
  | changeDefaultArgument change =>
    exact Option.isSome_iff_exists.mpr ⟨after, h⟩

/-- When a plan has been replayed to its end, every entry has found a node that accepts it. -/
theorem exists_accepts_of_foldlM {root evolved : Node} {before after : Plan} {entry : PlanEntry}
    (h : (before ++ entry :: after).foldlM replayEntry root = .ok evolved) :
    ∃ tree node, before.foldlM replayEntry root = .ok tree ∧
      tree.nodeAt? entry.path = some node ∧ entry.evolution.accepts node = true := by
  rw [List.foldlM_append] at h
  obtain ⟨tree, hbefore, hrest⟩ := Except.bind_eq_ok_iff.mp h
  rw [List.foldlM_cons] at hrest
  obtain ⟨next, hentry, -⟩ := Except.bind_eq_ok_iff.mp hrest
  obtain ⟨node, changed, hnode, hchanged, -⟩ := replayEntry_eq_ok_iff.mp hentry
  exact ⟨tree, node, hbefore, hnode, Evolution.accepts_of_applyTo? hchanged⟩

/-- A plan can be replayed on the file that it was made for: every entry finds the node that it is
for in the tree as the entries before it have left it, and the node accepts it. -/
theorem exists_replay_of_planFile (config : PlannerConfig) (source : SourceFile) (words : G)
    {plan : Plan} (hlayout : LaidOut source.root)
    (hplan : (planFile config source words).1 = .ok plan) :
    (∃ evolved, replay source plan = .ok evolved) ∧
      ∀ before entry after, plan = before ++ entry :: after →
        ∃ tree node, before.foldlM replayEntry source.root = .ok tree ∧
          tree.nodeAt? entry.path = some node ∧ entry.evolution.accepts node = true := by
  obtain ⟨root, hroot⟩ := exists_rewrite? (planFile_admits hplan)
    fun place hplace hkind himplicit => hlayout.forall_kind_ne hplace hkind himplicit
  have hreplayed : plan.foldlM replayEntry source.root = .ok root := by
    have hfold := toOption_foldlM_of_planFile hplan
    rw [hroot] at hfold
    rcases hresult : plan.foldlM replayEntry source.root with error | result
    · rw [hresult] at hfold
      cases hfold
    · rw [hresult] at hfold
      cases hfold
      rfl
  refine ⟨⟨{ source with root }, ?_⟩, ?_⟩
  · rw [replay, entriesFor_of_planFile hplan, hreplayed]
    rfl
  · rintro before entry after rfl
    exact exists_accepts_of_foldlM hreplayed

/-- The plan for the file with a point can be replayed on it. -/
theorem exists_replay_pointFile :
    LaidOut Sample.pointFile.root ∧
      (planFile {} Sample.pointFile (WordStream.ofSeed 7)).1 = .ok Sample.pointPlan ∧
      ∃ evolved, replay Sample.pointFile Sample.pointPlan = .ok evolved := by
  have hlayout : LaidOut Sample.pointFile.root := by
    decide +kernel
  exact ⟨hlayout, planFile_pointFile, (exists_replay_of_planFile {} Sample.pointFile
    (WordStream.ofSeed 7) hlayout planFile_pointFile).1⟩

end SourceEvolution
