import SourceEvolution.Proofs.Replay.BottomUp

/-!
# Layouts under reordering

The layout of a frozen declaration is the sequence of its enum cases and stored variables. This
module says exactly when an order of members is found, and that such an order keeps the layout: also
after initializers have been added to the member block that it was found for.

* **Members** (`Node.IsStoredVariable`, `MemberOrder.Movable`): what takes up storage and what may
  be moved, read off the nodes.
* **Outcomes** (`MemberOrder.isHeldBack_eq`): a search for an order in a member block never fails.
  What may hold it back is a struct whose implicit initializers cannot be written out.
* **Blocks** (`MemberOrder.applyTo?_of_suits`): the members that may be moved come first, in any
  order, then the others in the order that they had, then what has been added.
* **Exactness** (`MemberOrder.find_exact`).
-/

namespace SourceEvolution

/-! ## Members -/

/-- A binding takes up storage: it has no getter, and the only accessors that it may have are
observers. -/
def Node.TakesStorage (binding : Node) : Prop :=
  ∀ block ∈ binding.accessorBlock?,
    (∀ child ∈ block.children, child.kind ≠ .codeBlock) ∧
      ∀ child ∈ block.children, child.kind = .accessor →
        child.text = some "willSet" ∨ child.text = some "didSet"

/-- A variable takes up storage if all its bindings do. -/
def Node.IsStoredVariable (node : Node) : Prop :=
  node.kind = .decl .variableDecl ∧ ∀ binding ∈ node.bindings, binding.TakesStorage

theorem Decl.bindingIsStored_iff {binding : Node} :
    bindingIsStored binding = true ↔ binding.TakesStorage := by
  have hobserver : ∀ text : Option String, text.any observers.contains = true ↔
      text = some "willSet" ∨ text = some "didSet" := by
    intro text
    cases text <;> simp [observers]
  unfold bindingIsStored Node.TakesStorage
  split
  · rename_i hnone
    simp [hnone]
  · rename_i block hblock
    simp only [hblock, Node.firstOf?, Node.allOf, Bool.and_eq_true, Option.isNone_iff_eq_none,
      List.find?_eq_none, List.all_eq_true, List.mem_filter, beq_iff_eq, hobserver, and_imp,
      Option.mem_some_iff, forall_eq']

/-- A search for initializers fails in one way only. -/
theorem Initializers.find_cases (site : Site) :
    (∃ found, find site = .ok found) ∨ find site = .error .unsupported := by
  by_cases hhere : site.node.kind = .memberBlock ∧ site.scope.hasImplicitInitializers = true
  · by_cases hall : (assigned site.node).all isDetermined = true
    · simp only [find_eq, if_pos hhere, if_pos hall]
      cases signaturesFor (assigned site.node) <;> simp
    · simp [find_eq, hall]
  · simp [find_eq, if_neg hhere]

namespace MemberOrder

/-- A member may be moved: the layout around it may change, or it is not part of the layout. -/
def Movable (scope : Scope) (member : Node) : Prop :=
  (∀ decl ∈ scope.innermost?, decl.isResilient = true) ∨
    member.kind ≠ .enumCase ∧ ¬ member.IsStoredVariable

theorem pinsLayout_iff {member : Node} :
    pinsLayout member = true ↔ member.kind = .enumCase ∨ member.IsStoredVariable := by
  have hstored : ((Decl.ofNode? member).any fun decl => decl.isStored? == some true) = true ↔
      member.IsStoredVariable := by
    rcases hdecl : Decl.ofNode? member with _ | decl
    · have hkind : member.kind ≠ .decl .variableDecl := by
        intro hkind
        rw [Decl.ofNode?_eq_none_iff, hkind] at hdecl
        cases hdecl
      simp [Node.IsStoredVariable, hkind]
    · obtain rfl := Decl.ofNode?_eq_some_iff.mp hdecl
      by_cases hkind : decl.kind = .variableDecl
      · simp [Node.IsStoredVariable, Decl.isStored?, Decl.bindingsAreStored, decl.kind_eq, hkind,
          Decl.bindingIsStored_iff]
      · have hnone : decl.isStored? = none := by
          unfold Decl.isStored?
          split
          · contradiction
          · rfl
        simp [Node.IsStoredVariable, hnone, decl.kind_eq, hkind]
  rw [pinsLayout, Bool.or_eq_true, hstored, beq_iff_eq]

theorem isMovable_iff {scope : Scope} {member : Node} :
    isMovable scope member = true ↔ Movable scope member := by
  have hresilient : scope.isResilient = true ↔
      ∀ decl ∈ scope.innermost?, decl.isResilient = true := by
    simp [Scope.isResilient, Option.all_eq_true]
  rw [isMovable, Bool.or_eq_true, hresilient, Bool.not_eq_true', ← Bool.not_eq_true, pinsLayout_iff,
    not_or, Movable]

instance (scope : Scope) (member : Node) : Decidable (Movable scope member) :=
  decidable_of_iff _ isMovable_iff

theorem isMovable_eq_decide (scope : Scope) :
    isMovable scope = fun member => decide (Movable scope member) := by
  funext member
  rw [Bool.eq_iff_iff, isMovable_iff, decide_eq_true_eq]

/-- The members with a property, found by their indices. -/
theorem filterMap_indicesWhere (p : Node → Bool) (members : List Node) :
    (indicesWhere p members).filterMap (fun index => members[index]?) = members.filter p := by
  have hfst : members.filter p =
      (members.zipIdx.filter fun member => p member.1).map Prod.fst := by
    conv_lhs => rw [← List.zipIdx_map_fst 0 members, List.filter_map]
    rfl
  rw [hfst, map_fst_filter_zipIdx, indicesWhere]

theorem length_movable (site : Site) :
    (movable site).length = site.node.children.countP fun member => Movable site.scope member := by
  rw [movable, length_indicesWhere, isMovable_eq_decide]

theorem mem_movable {site : Site} {index : Nat} :
    index ∈ movable site ↔
      ∃ member, site.node.children[index]? = some member ∧ Movable site.scope member := by
  simp only [movable, mem_indicesWhere, isMovable_iff]

theorem mem_pinned {site : Site} {index : Nat} :
    index ∈ pinned site ↔
      ∃ member, site.node.children[index]? = some member ∧ ¬ Movable site.scope member := by
  simp only [pinned, mem_indicesWhere, Bool.not_eq_true', ← Bool.not_eq_true, isMovable_iff]

/-! ## Outcomes -/

/-- The innermost declaration is a struct that relies on the initializers it is given implicitly,
since it has none of its own. -/
def Relies (scope : Scope) : Prop :=
  ∃ decl ∈ scope.innermost?, decl.kind = .structDecl ∧
    ∀ member ∈ decl.members, member.kind ≠ .initializer

theorem relies_iff {scope : Scope} :
    Relies scope ↔ scope.hasImplicitInitializers = true := by
  simp [Scope.hasImplicitInitializers, Relies, Decl.hasImplicitInitializers,
    Decl.hasExplicitInitializer, Option.any_eq_true]

/-- A search for an order is held back exactly where implicit initializers are relied on and cannot
be written out. It does not fail in the way that a search for these does. -/
theorem isHeldBack_eq (site : Site) :
    ∃ held, isHeldBack site = .ok held ∧
      (held = false ↔ (Relies site.scope →
        ∃ initializers, Initializers.find site = .ok (some initializers))) := by
  rw [relies_iff, isHeldBack]
  by_cases himplicit : site.scope.hasImplicitInitializers = true
  · rw [if_pos himplicit]
    rcases Initializers.find_cases site with ⟨found, hfound⟩ | hunsupported
    · refine ⟨found.isNone, by rw [hfound], ?_⟩
      cases found <;> simp [himplicit, hfound]
    · refine ⟨true, by rw [hunsupported], ?_⟩
      simp [himplicit, hunsupported]
  · exact ⟨false, if_neg himplicit, by simp [himplicit]⟩

/-- What a search for an order in a member block finds, if anything, is decided by what holds it
back and by how many members may be moved. -/
theorem find_of_memberBlock {G : Type} [WordSource G] {site : Site}
    (hkind : site.node.kind = .memberBlock) (words : G) :
    ∃ found rest, find site words = .ok found rest ∧
      (found.isSome = true ↔
        isHeldBack site = .ok false ∧ minimumMovable ≤ (movable site).length) := by
  obtain ⟨held, hheld, -⟩ := isHeldBack_eq site
  rw [find_run, if_pos hkind, hheld]
  cases held with
  | true => exact ⟨none, words, rfl, by simp⟩
  | false =>
    by_cases hfew : (movable site).length < minimumMovable
    · exact ⟨none, words, if_pos hfew, by simp [hfew]⟩
    · exact ⟨some _, _, if_neg hfew, by simpa using hfew⟩

theorem suits_of_find_eq_ok {G : Type} [WordSource G] {site : Site} {words rest : G}
    {order : MemberOrder} (h : find site words = .ok (some order) rest) :
    (Evolution.shuffleMembers order).Suits site := by
  have hfind : EvolutionKind.find site .shuffleMembers words =
      .ok (some (.shuffleMembers order)) rest := by
    rw [EvolutionKind.find_shuffleMembers, h]
    rfl
  exact (Evolution.suits_of_find hfind).1

/-! ## Blocks -/

/-- The member block that an order has been found for, with more added behind its members: the
members that may be moved come first, and the others keep their order. -/
theorem applyTo?_of_suits {site : Site} {order : MemberOrder}
    (h : (Evolution.shuffleMembers order).Suits site) :
    ∃ front : List Node,
      front.Perm (site.node.children.filter fun member => Movable site.scope member) ∧
      ∀ added, order.applyTo? (site.node.withChildren (site.node.children ++ added)) =
        some (site.node.withChildren
          (front ++ (site.node.children.filter fun member => ¬ Movable site.scope member) ++
            added)) := by
  have hperm := perm_range_of_suits h
  obtain ⟨hkind, -, moved, hmoved, hmapping⟩ := h
  have hmovable : (movable site).filterMap (fun index => site.node.children[index]?) =
      site.node.children.filter fun member => Movable site.scope member := by
    rw [movable, filterMap_indicesWhere, isMovable_eq_decide]
  have hpinned : (pinned site).filterMap (fun index => site.node.children[index]?) =
      site.node.children.filter fun member => ¬ Movable site.scope member := by
    rw [pinned, filterMap_indicesWhere, isMovable_eq_decide]
    simp only [decide_not]
  refine ⟨moved.filterMap fun index => site.node.children[index]?, ?_, ?_⟩
  · rw [← hmovable]
    exact hmoved.filterMap _
  · intro added
    rw [applyTo?_append hperm hkind, hmapping, List.filterMap_append, hpinned]

/-- Before a reordering, only initializers are added, and only behind the members. -/
theorem eq_append_of_prerequisites {site : Site} {order : MemberOrder} {before : Node}
    (h : Evolution.applyAll? ((Evolution.shuffleMembers order).prerequisites site) site.node =
      some before) :
    ∃ added : List Node, (∀ new ∈ added, new.kind = .decl .initializer) ∧
      before = site.node.withChildren (site.node.children ++ added) := by
  rcases Evolution.prerequisites_shuffleMembers site order with hnone | ⟨initializers, hone⟩
  · rw [hnone, Evolution.applyAll?_nil, Option.some.injEq] at h
    exact ⟨[], by simp, by rw [List.append_nil, Node.withChildren_children, h]⟩
  · rw [hone, Evolution.applyAll?_singleton] at h
    exact (Initializers.applyTo?_eq_some h).2

/-- What has to be done before a reordering can be done wherever the member block has no
initializer. -/
theorem exists_applyAll?_prerequisites {site : Site} (order : MemberOrder)
    (hkind : site.node.kind = .memberBlock)
    (hfree : ∀ child ∈ site.node.children, child.kind ≠ .decl .initializer) :
    ∃ before, Evolution.applyAll? ((Evolution.shuffleMembers order).prerequisites site) site.node =
      some before := by
  rcases Evolution.prerequisites_shuffleMembers site order with hnone | ⟨initializers, hone⟩
  · rw [hnone]
    exact ⟨_, Evolution.applyAll?_nil _⟩
  · obtain ⟨added, hadded⟩ := initializers.exists_applyTo? hkind hfree
    rw [hone, Evolution.applyAll?_singleton]
    exact ⟨_, hadded⟩

/-! ## Exactness -/

/-- An order of the members of a site keeps the layout of the declaration around them. -/
structure KeepsLayout (site : Site) (order : MemberOrder) : Prop where
  /-- The order names every member once. -/
  perm : order.mapping.Perm (List.range site.node.children.length)
  /-- The members that may be moved come first, and the others follow in increasing order. -/
  indices : ∃ moved pinned, order.mapping = moved ++ pinned ∧
    moved.Nodup ∧
    (∀ index, index ∈ moved ↔
      ∃ member, site.node.children[index]? = some member ∧ Movable site.scope member) ∧
    pinned.Pairwise (· < ·) ∧
    ∀ index, index ∈ pinned ↔
      ∃ member, site.node.children[index]? = some member ∧ ¬ Movable site.scope member
  /-- In the member block, the members that may not be moved are the same sequence as before, behind
  those that may be moved. What has been added for the sake of the order stays behind them. -/
  block : ∃ front : List Node,
    front.Perm (site.node.children.filter fun member => Movable site.scope member) ∧
    order.applyTo? site.node = some (site.node.withChildren
      (front ++ site.node.children.filter fun member => ¬ Movable site.scope member)) ∧
    ∀ before,
      Evolution.applyAll? ((Evolution.shuffleMembers order).prerequisites site) site.node =
        some before →
      ∃ added : List Node, (∀ new ∈ added, new.kind = .decl .initializer) ∧
        before = site.node.withChildren (site.node.children ++ added) ∧
        order.applyTo? before = some (site.node.withChildren
          (front ++ (site.node.children.filter fun member => ¬ Movable site.scope member) ++ added))
  /-- What has to be added can be added, unless there is an initializer. -/
  prepared : (∀ child ∈ site.node.children, child.kind ≠ .decl .initializer) →
    ∃ before, Evolution.applyAll? ((Evolution.shuffleMembers order).prerequisites site) site.node =
      some before

theorem keepsLayout_of_suits {site : Site} {order : MemberOrder}
    (h : (Evolution.shuffleMembers order).Suits site) : order.KeepsLayout site where
  perm := perm_range_of_suits h
  indices := by
    obtain ⟨-, -, moved, hmoved, hmapping⟩ := h
    refine ⟨moved, pinned site, hmapping, ?_, ?_, pairwise_lt_indicesWhere _ _, ?_⟩
    · exact hmoved.nodup_iff.mpr ((pairwise_lt_indicesWhere _ _).imp Nat.ne_of_lt)
    · intro index
      rw [hmoved.mem_iff, mem_movable]
    · intro index
      exact mem_pinned
  block := by
    obtain ⟨front, hfront, happly⟩ := applyTo?_of_suits h
    refine ⟨front, hfront, ?_, ?_⟩
    · have halone := happly []
      rwa [List.append_nil, List.append_nil, Node.withChildren_children] at halone
    · intro before hbefore
      obtain ⟨added, hadded, rfl⟩ := eq_append_of_prerequisites hbefore
      exact ⟨added, hadded, rfl, happly added⟩
  prepared := exists_applyAll?_prerequisites order h.1

/-- What a search for an order finds, for every site and all words. It is out of place exactly at a
node that is no member block. In a member block it does not fail, and finds an order exactly if two
members may be moved and nothing holds it back. Every order that it finds keeps the layout. -/
theorem find_exact {G : Type} [WordSource G] (site : Site) (words : G) :
    ((∃ rest, find site words = .error .unsupported rest) ↔ site.node.kind ≠ .memberBlock) ∧
    (site.node.kind = .memberBlock →
      ∃ found rest, find site words = .ok found rest ∧
        (found.isSome = true ↔
          (Relies site.scope → ∃ initializers, Initializers.find site = .ok (some initializers)) ∧
            2 ≤ site.node.children.countP fun member => Movable site.scope member) ∧
        ∀ order ∈ found, order.KeepsLayout site) := by
  by_cases hkind : site.node.kind = .memberBlock
  · obtain ⟨found, rest, hfind, hfound⟩ := find_of_memberBlock hkind words
    obtain ⟨held, hheld, hfree⟩ := isHeldBack_eq site
    refine ⟨by simp [hfind, hkind], fun _ => ⟨found, rest, hfind, ?_, ?_⟩⟩
    · rw [hfound, hheld, Except.ok.injEq, hfree, length_movable]
      rfl
    · intro order horder
      rw [Option.mem_def.mp horder] at hfind
      exact keepsLayout_of_suits (suits_of_find_eq_ok hfind)
  · rw [find_run, if_neg hkind]
    exact ⟨⟨fun _ => hkind, fun _ => ⟨words, rfl⟩⟩, fun h => absurd h hkind⟩

end MemberOrder

end SourceEvolution
