import SourceEvolution.Proofs.Replay.Success

/-!
# What has been found can be applied

A change is looked for with the declarations around a node in view, and applied to the node alone.
What has been found should be something that can be applied. In one case it is not: whether a struct
has an initializer is asked of its first member block, but whether one can be added is asked of the
member block at hand, and a struct may have several.

* **Applicable** (`Evolution.Applicable`): the node accepts the change and everything that has to be
  applied first, and still accepts the change after that.
* **Stray initializers** (`Site.HasStrayInitializer`): a member block with an initializer, in a
  struct whose first member block has none. `Evolution.applicable_iff` says that nothing else can be
  in the way.
* **Trees** (`applicable_of_find`): where the members of a struct stand in its first member block,
  everything that has been found can be applied. In the second member block of `Sample.twoBlocks`
  something is found that cannot.
-/

namespace SourceEvolution

/-- A member block has an initializer, but the struct that it belongs to has none in its first
member block. -/
def Site.HasStrayInitializer (site : Site) : Prop :=
  site.node.kind = .memberBlock ∧ site.scope.hasImplicitInitializers = true ∧
    ∃ child ∈ site.node.children, child.kind = .decl .initializer

/-- In a member block of a struct that relies on implicit initializers, every initializer is
stray. -/
theorem not_hasStrayInitializer_iff {site : Site} (hkind : site.node.kind = .memberBlock)
    (himplicit : site.scope.hasImplicitInitializers = true) :
    ¬ site.HasStrayInitializer ↔
      ∀ child ∈ site.node.children, child.kind ≠ .decl .initializer := by
  constructor
  · intro hstray child hchild hinitializer
    exact hstray ⟨hkind, himplicit, child, hchild, hinitializer⟩
  · rintro hnone ⟨-, -, child, hchild, hinitializer⟩
    exact hnone child hchild hinitializer

namespace Evolution

/-- A change can be applied to the node of a site, and so can everything that has to be applied
first. -/
structure Applicable (site : Site) (evolution : Evolution) : Prop where
  /-- The node accepts the change. -/
  accepted : evolution.accepts site.node = true
  /-- There is a changed node. -/
  applied : ∃ after, evolution.applyTo? site.node = some after
  /-- The node accepts what has to be applied first. -/
  prerequisites : ∀ needed ∈ evolution.prerequisites site, needed.accepts site.node = true
  /-- What has to be applied first can be applied in order, and the outcome accepts the change. -/
  behind : ∃ prepared, applyAll? (evolution.prerequisites site) site.node = some prepared ∧
    evolution.accepts prepared = true

/-- A change that nothing has to be applied before is applicable where it can be applied. -/
theorem applicable_of_applyTo? {site : Site} {evolution : Evolution} {after : Node}
    (hnothing : evolution.prerequisites site = [])
    (h : evolution.applyTo? site.node = some after) : evolution.Applicable site where
  accepted := accepts_of_applyTo? h
  applied := ⟨after, h⟩
  prerequisites needed hneeded := by
    rw [hnothing] at hneeded
    exact absurd hneeded List.not_mem_nil
  behind := by
    rw [hnothing]
    exact ⟨site.node, applyAll?_nil _, accepts_of_applyTo? h⟩

/-- An order that has been found is accepted by the node, also once members have been added. -/
theorem exists_applyTo?_order {site : Site} {order : MemberOrder}
    (h : (shuffleMembers order).Suits site) (added : List Node) :
    ∃ after, (shuffleMembers order).applyTo?
      (site.node.withChildren (site.node.children ++ added)) = some after := by
  have hkind : (site.node.withChildren (site.node.children ++ added)).kind = .memberBlock := h.1
  refine ⟨_, MemberOrder.applyTo?_of_perm (MemberOrder.perm_range_of_suits h) hkind ?_⟩
  rw [Node.withChildren, List.length_append]
  exact Nat.le_add_right _ _

/-- A change that has been found is applicable exactly if no stray initializer is in the way. -/
theorem applicable_iff {site : Site} {evolution : Evolution} (h : evolution.Suits site) :
    evolution.Applicable site ↔ ¬ site.HasStrayInitializer := by
  cases evolution with
  | shuffleMembers order =>
    obtain ⟨after, hafter⟩ := exists_applyTo?_order h []
    rw [List.append_nil, Node.withChildren_children] at hafter
    rcases himplicit : site.scope.hasImplicitInitializers with _ | _
    · have hnothing : (shuffleMembers order).prerequisites site = [] := by
        simp [Evolution.prerequisites, himplicit]
      refine iff_of_true (applicable_of_applyTo? hnothing hafter) ?_
      rintro ⟨-, hstray, -⟩
      exact absurd (himplicit.symm.trans hstray) Bool.false_ne_true
    · -- the implicit initializers are found too, and have to be written out first
      obtain ⟨initializers, hfind⟩ := exists_initializers_of_isHeldBack himplicit h.2.1
      have hneeded : (shuffleMembers order).prerequisites site =
          [synthesizeInitializers initializers] := by
        simp only [Evolution.prerequisites, if_pos himplicit, hfind]
      rw [not_hasStrayInitializer_iff h.1 himplicit]
      constructor
      · intro happlicable
        have haccepts := happlicable.prerequisites (synthesizeInitializers initializers)
        rw [hneeded] at haccepts
        exact (Initializers.accepts_iff.mp (haccepts List.mem_cons_self)).2
      · intro hnone
        obtain ⟨added, hadded⟩ := initializers.exists_applyTo? h.1 hnone
        obtain ⟨ordered, hordered⟩ := exists_applyTo?_order h added
        refine ⟨accepts_of_applyTo? hafter, ⟨after, hafter⟩, ?_, ?_⟩
        · rw [hneeded]
          exact List.forall_mem_singleton.mpr (Initializers.accepts_iff.mpr ⟨h.1, hnone⟩)
        · rw [hneeded, applyAll?_singleton]
          exact ⟨_, hadded, accepts_of_applyTo? hordered⟩
  | synthesizeInitializers initializers =>
    obtain ⟨hkind, himplicit⟩ := Initializers.find_eq_ok_some h
    rw [not_hasStrayInitializer_iff hkind himplicit]
    constructor
    · intro happlicable
      exact (Initializers.accepts_iff.mp happlicable.accepted).2
    · intro hnone
      obtain ⟨added, hadded⟩ := initializers.exists_applyTo? hkind hnone
      exact applicable_of_applyTo? rfl hadded
  | changeDefaultArgument change =>
    obtain ⟨happlies, choices, heligible, hchange⟩ := h
    rw [DefaultArgument.applies, Bool.and_eq_true] at happlies
    have hindex := DefaultArgument.index_lt_of_mem_eligible heligible hchange
    rw [Nat.zero_add] at hindex
    constructor
    · rintro - ⟨hkind, -⟩
      rw [hkind] at happlies
      exact absurd happlies.1 Bool.false_ne_true
    · intro _
      obtain ⟨after, hafter⟩ : ∃ after, change.applyTo? site.node = some after := by
        refine DefaultArgument.exists_applyTo?_of_kinds happlies.1 hindex rfl rfl ?_
        intro i child other hchild hother _
        rw [Option.some.inj (hchild.symm.trans hother)]
      exact applicable_of_applyTo? rfl hafter

end Evolution

/-! ## Trees -/

/-- A change that has been found at a node of a tree, whatever the tree, can be applied to the node,
and so can everything that has to be applied first, unless the node has a stray initializer. In a
tree where every member block of a struct is its first one, there are none. -/
theorem applicable_of_find {G : Type} [WordSource G] {root : Node} {place : Place}
    (hplace : place ∈ root.places [] []) {aliasBound : Nat} {kind : EvolutionKind} {words rest : G}
    {evolution : Evolution}
    (h : kind.find (place.site aliasBound) words = .ok (some evolution) rest) :
    (evolution.Applicable (place.site aliasBound) ↔
      ¬ (place.site aliasBound).HasStrayInitializer) ∧
    (LaidOut root → evolution.Applicable (place.site aliasBound)) := by
  have hiff := Evolution.applicable_iff (Evolution.suits_of_find h).1
  refine ⟨hiff, fun hlayout => hiff.mpr ?_⟩
  rintro ⟨hkind, himplicit, child, hchild, hinitializer⟩
  exact hlayout.forall_kind_ne hplace hkind himplicit child hchild hinitializer

/-- Initializers are found for the member block of the point, and can be added to it. -/
theorem applicable_of_find_pointFile :
    LaidOut Sample.pointFile.root ∧
      ∃ place ∈ Sample.pointFile.root.places [] [], place.path = [0, 1] ∧
        EvolutionKind.find (place.site defaultAliasBound) .synthesizeInitializers
            (WordStream.ofSeed 0) =
          .ok (some (.synthesizeInitializers ⟨[[]]⟩)) (WordStream.ofSeed 0) ∧
        Evolution.Applicable (place.site defaultAliasBound) (.synthesizeInitializers ⟨[[]]⟩) := by
  have hlayout : LaidOut Sample.pointFile.root := by
    decide +kernel
  have hplace : ∃ place ∈ Sample.pointFile.root.places [] [], place.path = [0, 1] ∧
      EvolutionKind.find (place.site defaultAliasBound) .synthesizeInitializers
          (WordStream.ofSeed 0) =
        .ok (some (.synthesizeInitializers ⟨[[]]⟩)) (WordStream.ofSeed 0) :=
    ⟨_, List.mem_of_getElem? (i := 3) rfl, rfl, rfl⟩
  obtain ⟨place, hmem, hpath, hfind⟩ := hplace
  exact ⟨hlayout, place, hmem, hpath, hfind, (applicable_of_find hmem hfind).2 hlayout⟩

/-- A tree with a struct of two member blocks, where only the second one has an initializer. -/
def Sample.twoBlocks : Node :=
  Sample.file [.branch (.decl .structDecl) [.leaf .identifier "S", .branch .memberBlock [],
    .branch .memberBlock [.branch (.decl .initializer) [.branch .parameterClause []]]]]

/-- Initializers are found for the second member block, but it does not accept them, since it has
one already. -/
theorem not_accepts_twoBlocks :
    ∃ place ∈ Sample.twoBlocks.places [] [], place.path = [0, 2] ∧
      EvolutionKind.find (place.site defaultAliasBound) .synthesizeInitializers
          (WordStream.ofSeed 0) =
        .ok (some (.synthesizeInitializers ⟨[[]]⟩)) (WordStream.ofSeed 0) ∧
      Evolution.accepts place.node (.synthesizeInitializers ⟨[[]]⟩) = false ∧
      Evolution.applyTo? place.node (.synthesizeInitializers ⟨[[]]⟩) = none := by
  refine ⟨_, List.mem_of_getElem? (i := 4) rfl, rfl, rfl, rfl, rfl⟩

end SourceEvolution
