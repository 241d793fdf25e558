import SourceEvolution.Proofs.Change.Findings
import SourceEvolution.Proofs.Change.Reordering

/-!
# What changes do to a node

A change is found at one node and applied to another, whose children have been rewritten in the
meantime. This module says what a change does to such a node, and when the node accepts it.

* **Frame** (`Evolution.exists_withChildren_of_applyTo?`): a change replaces nothing but children.
* **Orders** (`MemberOrder.perm_range_of_suits`, `MemberOrder.pairwise_lt_of_suits`,
  `MemberOrder.reorder_append`): an order that has been found names every member once and keeps the
  members that may not be moved in their order. It leaves what has been added behind the members
  where it is.
* **Initializers** (`Initializers.accepts_iff`, `Initializers.applyTo?_eq_some`): initializers are
  added behind the members of a member block that has none.
* **Defaults** (`DefaultArgument.applyTo?_eq_some`, `DefaultArgument.exists_applyTo?_of_kinds`): one
  parameter of the first parameter clause is given another default, and for that it is enough that
  the clause has as many parameters as when the change was found.
-/

namespace SourceEvolution

theorem Node.replaceChild?_eq_some {node after : Node} {index : Nat} {replacement : Node}
    (h : node.replaceChild? index replacement = some after) :
    index < node.children.length ∧
      after = node.withChildren (node.children.set index replacement) := by
  rw [replaceChild?] at h
  split at h
  · cases h
    exact ⟨by assumption, rfl⟩
  · cases h

/-- Two lists of nodes with the same kinds lack the same kinds. -/
theorem Node.forall_kind_ne_of_map_kind {nodes others : List Node} {kind : NodeKind}
    (hkinds : nodes.map Node.kind = others.map Node.kind) (h : ∀ node ∈ nodes, node.kind ≠ kind) :
    ∀ node ∈ others, node.kind ≠ kind := by
  intro node hnode hkind
  have hmem : kind ∈ nodes.map Node.kind := by
    rw [hkinds, ← hkind]
    exact List.mem_map_of_mem hnode
  obtain ⟨other, hother, hotherKind⟩ := List.mem_map.mp hmem
  exact h other hother hotherKind

/-! ## Orders -/

namespace MemberOrder

theorem mem_indicesWhere {p : Node → Bool} {members : List Node} {index : Nat} :
    index ∈ indicesWhere p members ↔ ∃ member, members[index]? = some member ∧ p member = true := by
  rw [indicesWhere, List.mem_map]
  constructor
  · rintro ⟨⟨member, i⟩, hmember, rfl⟩
    rw [List.mem_filter, List.mk_mem_zipIdx_iff_getElem?] at hmember
    exact ⟨member, hmember⟩
  · rintro ⟨member, hmember⟩
    refine ⟨(member, index), ?_, rfl⟩
    rwa [List.mem_filter, List.mk_mem_zipIdx_iff_getElem?]

theorem length_indicesWhere (p : Node → Bool) (members : List Node) :
    (indicesWhere p members).length = members.countP p := by
  conv_rhs => rw [← List.zipIdx_map_fst 0 members, List.countP_map, List.countP_eq_length_filter]
  rw [indicesWhere, List.length_map]
  rfl

theorem pairwise_lt_indicesWhere (p : Node → Bool) (members : List Node) :
    (indicesWhere p members).Pairwise (· < ·) := by
  have hsublist : (indicesWhere p members).Sublist (members.zipIdx.map Prod.snd) :=
    List.filter_sublist.map _
  refine List.Pairwise.sublist hsublist ?_
  rw [List.zipIdx_map_snd, ← List.range_eq_range']
  exact List.pairwise_lt_range

/-- The members with a property and those without it are all members. -/
theorem indicesWhere_append_perm (p : Node → Bool) (members : List Node) :
    (indicesWhere p members ++ indicesWhere (fun member => !p member) members).Perm
      (List.range members.length) := by
  have hperm := (List.filter_append_perm (fun member : Node × Nat => p member.1)
    members.zipIdx).map Prod.snd
  rw [List.map_append, List.zipIdx_map_snd, ← List.range_eq_range'] at hperm
  exact hperm

/-- An order that has been found names every member once. -/
theorem perm_range_of_suits {site : Site} {order : MemberOrder}
    (h : (Evolution.shuffleMembers order).Suits site) :
    order.mapping.Perm (List.range site.node.children.length) := by
  obtain ⟨-, -, moved, hmoved, hmapping⟩ := h
  rw [hmapping]
  exact (hmoved.append_right _).trans (indicesWhere_append_perm _ _)

/-- Where the layout is fixed, an order that has been found keeps the members that are part of the
layout in their order. -/
theorem pairwise_lt_of_suits {site : Site} {order : MemberOrder}
    (h : (Evolution.shuffleMembers order).Suits site) (hfixed : site.scope.isResilient = false) :
    (order.mapping.filter fun index => site.node.children[index]?.any pinsLayout).Pairwise
      (· < ·) := by
  obtain ⟨-, -, moved, hmoved, hmapping⟩ := h
  have hmovedNil : moved.filter (fun index => site.node.children[index]?.any pinsLayout) = [] := by
    rw [List.filter_eq_nil_iff]
    intro index hindex
    obtain ⟨member, hmember, hmovable⟩ := mem_indicesWhere.mp (hmoved.mem_iff.mp hindex)
    rw [isMovable, hfixed, Bool.false_or, Bool.not_eq_true'] at hmovable
    simp [hmember, hmovable]
  rw [hmapping, List.filter_append, hmovedNil, List.nil_append]
  exact (pairwise_lt_indicesWhere _ _).filter _

/-- An order of the first members leaves what comes behind them where it is. -/
theorem reorder_append {order : MemberOrder} {members : List Node}
    (h : order.mapping.Perm (List.range members.length)) (added : List Node) :
    order.reorder (members ++ added) =
      order.mapping.filterMap (fun index => members[index]?) ++ added := by
  have hmem : ∀ index, index ∈ order.mapping ↔ index < members.length := by
    intro index
    rw [h.mem_iff, List.mem_range]
  have hunnamed : order.unnamed members.length = [] := by
    refine List.eq_nil_iff_forall_not_mem.mpr fun index hindex => ?_
    obtain ⟨hlt, hnot⟩ := mem_unnamed.mp hindex
    exact hnot ((hmem index).mpr hlt)
  rw [reorder_append_of_lt fun index => (hmem index).mp, reorder_eq_filterMap, hunnamed,
    List.append_nil]

/-- An order of the first members is accepted by every member block that has them. -/
theorem applyTo?_of_perm {order : MemberOrder} {count : Nat}
    (h : order.mapping.Perm (List.range count)) {node : Node} (hkind : node.kind = .memberBlock)
    (hcount : count ≤ node.children.length) :
    order.applyTo? node = some (node.withChildren (order.reorder node.children)) := by
  have haccepts : order.accepts node = true := by
    refine accepts_eq_true_iff.mpr ⟨hkind, h.nodup_iff.mpr List.nodup_range, ?_⟩
    intro index hindex
    rw [h.mem_iff, List.mem_range] at hindex
    exact Nat.lt_of_lt_of_le hindex hcount
  rw [applyTo?, if_pos haccepts]

/-- An order of members puts them into that order, with what has been added left behind them. -/
theorem applyTo?_append {order : MemberOrder} {node : Node} {members : List Node}
    (h : order.mapping.Perm (List.range members.length)) (hkind : node.kind = .memberBlock)
    (added : List Node) :
    order.applyTo? (node.withChildren (members ++ added)) =
      some (node.withChildren
        (order.mapping.filterMap (fun index => members[index]?) ++ added)) := by
  have hcount : members.length ≤ (node.withChildren (members ++ added)).children.length := by
    rw [Node.withChildren, List.length_append]
    exact Nat.le_add_right _ _
  have hblock : (node.withChildren (members ++ added)).kind = .memberBlock := hkind
  rw [applyTo?_of_perm h hblock hcount]
  change some (node.withChildren (order.reorder (members ++ added))) = _
  rw [reorder_append h]

end MemberOrder

/-! ## Initializers -/

namespace Initializers

/-- Initializers are found only for the member block of a struct that relies on implicit ones. -/
theorem find_eq_ok_some {site : Site} {initializers : Initializers}
    (h : find site = .ok (some initializers)) :
    site.node.kind = .memberBlock ∧ site.scope.hasImplicitInitializers = true := by
  rw [find] at h
  split at h
  · assumption
  · cases h

/-- Initializers are accepted by every member block that has none. -/
theorem accepts_iff {node : Node} :
    accepts node = true ↔
      node.kind = .memberBlock ∧ ∀ child ∈ node.children, child.kind ≠ .decl .initializer := by
  simp [accepts, Node.allOf, List.filter_eq_nil_iff]

/-- Initializers are added behind all members. -/
theorem applyTo?_eq_some {initializers : Initializers} {node after : Node}
    (h : initializers.applyTo? node = some after) :
    (∀ child ∈ node.children, child.kind ≠ .decl .initializer) ∧
      ∃ added : List Node, (∀ new ∈ added, new.kind = .decl .initializer) ∧
        after = node.withChildren (node.children ++ added) := by
  rw [applyTo?] at h
  split at h
  · rename_i haccepts
    cases h
    refine ⟨(accepts_iff.mp haccepts).2, _, ?_, rfl⟩
    intro new hnew
    obtain ⟨signature, -, rfl⟩ := List.mem_map.mp hnew
    rfl
  · cases h

theorem exists_applyTo? (initializers : Initializers) {node : Node}
    (hkind : node.kind = .memberBlock)
    (hnone : ∀ child ∈ node.children, child.kind ≠ .decl .initializer) :
    ∃ added, initializers.applyTo? node = some (node.withChildren (node.children ++ added)) :=
  ⟨_, if_pos (accepts_iff.mpr ⟨hkind, hnone⟩)⟩

end Initializers

/-! ## Defaults -/

namespace DefaultArgument

/-- A parameter is given another default: its first default is replaced, or one is added at its end
where it has none. The default is a single expression. -/
inductive Redefaults (parameter : Node) : Node → Prop where
  /-- The first default is replaced. -/
  | replaced {index : Nat} {value : String}
      (first : indexOf? .defaultArgument parameter.children = some index) :
      Redefaults parameter (parameter.withChildren
        (parameter.children.set index (.branch .defaultArgument [.leaf .expr value])))
  /-- There was no default. -/
  | added {value : String}
      (none : ∀ child ∈ parameter.children, child.kind ≠ .defaultArgument) :
      Redefaults parameter (parameter.withChildren
        (parameter.children ++ [.branch .defaultArgument [.leaf .expr value]]))

theorem redefaults_setDefault (parameter : Node) (value : String) :
    Redefaults parameter (setDefault parameter value) := by
  rcases hindex : indexOf? .defaultArgument parameter.children with _ | index
  · have hnone : ∀ child ∈ parameter.children, child.kind ≠ .defaultArgument := by
      intro child hchild hkind
      have := List.findIdx?_eq_none_iff.mp hindex child hchild
      rw [hkind, beq_self_eq_true] at this
      cases this
    simp only [setDefault, hindex]
    exact Redefaults.added hnone
  · simp only [setDefault, hindex]
    exact Redefaults.replaced hindex

theorem indicesOf_eq_indicesWhere (kind : NodeKind) (children : List Node) :
    indicesOf kind children =
      MemberOrder.indicesWhere (fun child => child.kind == kind) children :=
  rfl

theorem mem_indicesOf {kind : NodeKind} {children : List Node} {index : Nat} :
    index ∈ indicesOf kind children ↔
      ∃ child, children[index]? = some child ∧ child.kind = kind := by
  rw [indicesOf_eq_indicesWhere, MemberOrder.mem_indicesWhere]
  simp only [beq_iff_eq]

/-- A change is applied to the parameter with its number, in the first parameter clause. -/
theorem applyTo?_eq_some_iff {change : DefaultArgument} {node after : Node} :
    change.applyTo? node = some after ↔
      ∃ clauseIndex clause index parameter,
        node.kind.hasParameters = true ∧
        indexOf? .parameterClause node.children = some clauseIndex ∧
        node.children[clauseIndex]? = some clause ∧
        (indicesOf .parameter clause.children)[change.index]? = some index ∧
        clause.children[index]? = some parameter ∧
        after = node.withChildren (node.children.set clauseIndex (clause.withChildren
          (clause.children.set index (setDefault parameter change.value)))) := by
  constructor
  · intro h
    rw [applyTo?] at h
    split at h
    · rename_i hparameters
      obtain ⟨clauseIndex, hclauseIndex, h⟩ := Option.bind_eq_some_iff.mp h
      obtain ⟨clause, hclause, h⟩ := Option.bind_eq_some_iff.mp h
      obtain ⟨index, hindex, h⟩ := Option.bind_eq_some_iff.mp h
      obtain ⟨parameter, hparameter, h⟩ := Option.bind_eq_some_iff.mp h
      obtain ⟨changed, hchanged, h⟩ := Option.bind_eq_some_iff.mp h
      obtain ⟨-, rfl⟩ := Node.replaceChild?_eq_some hchanged
      obtain ⟨-, rfl⟩ := Node.replaceChild?_eq_some h
      exact ⟨clauseIndex, clause, index, parameter, hparameters, hclauseIndex, hclause, hindex,
        hparameter, rfl⟩
    · cases h
  · rintro ⟨clauseIndex, clause, index, parameter, hparameters, hclauseIndex, hclause, hindex,
      hparameter, rfl⟩
    have hlt := (List.getElem?_eq_some_iff.mp hparameter).1
    have hclauseLt := (List.getElem?_eq_some_iff.mp hclause).1
    simp only [applyTo?, hparameters, if_true, hclauseIndex, Node.child?, hclause, hindex,
      hparameter, Node.replaceChild?, hlt, hclauseLt, Option.bind_eq_bind, Option.bind_some]

/-- Applying a change gives one parameter of the first parameter clause another default. -/
theorem applyTo?_eq_some {change : DefaultArgument} {node after : Node}
    (h : change.applyTo? node = some after) :
    ∃ clauseIndex clause index parameter redefaulted,
      indexOf? .parameterClause node.children = some clauseIndex ∧
      node.children[clauseIndex]? = some clause ∧
      clause.children[index]? = some parameter ∧ parameter.kind = .parameter ∧
      Redefaults parameter redefaulted ∧
      after = node.withChildren (node.children.set clauseIndex
        (clause.withChildren (clause.children.set index redefaulted))) := by
  obtain ⟨clauseIndex, clause, index, parameter, -, hclauseIndex, hclause, hindex, hparameter,
    rfl⟩ := applyTo?_eq_some_iff.mp h
  obtain ⟨child, hchild, hkind⟩ := mem_indicesOf.mp (List.mem_of_getElem? hindex)
  obtain rfl : child = parameter := Option.some.inj (hchild.symm.trans hparameter)
  exact ⟨clauseIndex, clause, index, child, _, hclauseIndex, hclause, hparameter, hkind,
    redefaults_setDefault _ _, rfl⟩

/-- The changes for the parameters of a list are numbered by their parameters. -/
theorem index_lt_of_mem_eligible {scope : Scope} {index : Nat} {parameters : List Node}
    {choices : List DefaultArgument} (h : eligible scope index parameters = .ok choices)
    {change : DefaultArgument} (hchange : change ∈ choices) :
    change.index < index + parameters.length := by
  induction parameters generalizing index choices with
  | nil =>
    cases h
    cases hchange
  | cons parameter rest ih =>
    rw [eligible] at h
    rcases hvalue : newDefault? scope parameter with cause | value?
    · rw [hvalue] at h
      cases h
    · rcases hlater : eligible scope (index + 1) rest with cause | later
      · rw [hvalue, hlater] at h
        cases h
      · rw [hvalue, hlater] at h
        cases h
        rw [List.length_cons]
        rcases List.mem_append.mp hchange with hfirst | hrest
        · obtain ⟨value, -, rfl⟩ := Option.map_eq_some_iff.mp (Option.mem_toList.mp hfirst)
          change index < _
          omega
        · have := ih hlater hrest
          omega

/-- Where a kind is found among children depends on their kinds only. -/
theorem indexOf?_congr {kind : NodeKind} {children others : List Node}
    (h : others.map Node.kind = children.map Node.kind) :
    indexOf? kind others = indexOf? kind children := by
  have hkinds : ∀ nodes : List Node,
      indexOf? kind nodes = (nodes.map Node.kind).findIdx? (· == kind) := by
    intro nodes
    rw [List.findIdx?_map]
    rfl
  rw [hkinds, hkinds, h]

/-- How often a kind is found among children depends on their kinds only. -/
theorem length_indicesOf (kind : NodeKind) (children : List Node) :
    (indicesOf kind children).length = (children.map Node.kind).count kind := by
  rw [indicesOf_eq_indicesWhere, MemberOrder.length_indicesWhere, List.count, List.countP_map]
  rfl

/-- The children of a kind are found as often as there are. -/
theorem length_indicesOf_children (kind : NodeKind) (node : Node) :
    (indicesOf kind node.children).length = (node.allOf kind).length := by
  rw [indicesOf_eq_indicesWhere, MemberOrder.length_indicesWhere, List.countP_eq_length_filter,
    Node.allOf]

theorem firstOf?_of_indexOf? {kind : NodeKind} {node : Node} {index : Nat}
    (h : indexOf? kind node.children = some index) :
    ∃ child, node.children[index]? = some child ∧ child.kind = kind ∧
      node.firstOf? kind = some child := by
  obtain ⟨hlt, hkind, hbefore⟩ := List.findIdx?_eq_some_iff_getElem.mp h
  refine ⟨node.children[index], List.getElem?_eq_getElem hlt, beq_iff_eq.mp hkind, ?_⟩
  rw [Node.firstOf?, List.find?_eq_some_iff_getElem]
  exact ⟨hkind, index, hlt, rfl, fun j hj => by simpa using hbefore j hj⟩

theorem firstOf?_eq_none {kind : NodeKind} {node : Node}
    (h : indexOf? kind node.children = none) : node.firstOf? kind = none := by
  rw [Node.firstOf?, List.find?_eq_none]
  intro child hchild
  rw [List.findIdx?_eq_none_iff.mp h child hchild]
  exact Bool.false_ne_true

/-- A change that has been found for a parameter of a node is accepted by every node with children
of the same kinds, if the same holds of the parameter clause. -/
theorem exists_applyTo?_of_kinds {change : DefaultArgument} {node other : Node}
    (hparameters : node.kind.hasParameters = true) (hindex : change.index < node.parameters.length)
    (hkind : other.kind = node.kind)
    (hkinds : other.children.map Node.kind = node.children.map Node.kind)
    (hclauses : ∀ (i : Nat) (child otherChild : Node), node.children[i]? = some child →
      other.children[i]? = some otherChild → child.kind = .parameterClause →
        otherChild.children.map Node.kind = child.children.map Node.kind) :
    ∃ after, change.applyTo? other = some after := by
  rcases hclauseIndex : indexOf? .parameterClause node.children with _ | clauseIndex
  · rw [Node.parameters, firstOf?_eq_none hclauseIndex] at hindex
    cases hindex
  · obtain ⟨clause, hclause, hclauseKind, hfirst⟩ := firstOf?_of_indexOf? hclauseIndex
    have hotherIndex := (indexOf?_congr hkinds).trans hclauseIndex
    obtain ⟨otherClause, hotherClause, -⟩ := firstOf?_of_indexOf? hotherIndex
    have hlength : change.index < (indicesOf .parameter otherClause.children).length := by
      rw [length_indicesOf, hclauses _ _ _ hclause hotherClause hclauseKind, ← length_indicesOf,
        length_indicesOf_children]
      rw [Node.parameters, hfirst] at hindex
      exact hindex
    have hnumber := List.getElem?_eq_getElem hlength
    obtain ⟨parameter, hparameter, -⟩ := mem_indicesOf.mp (List.getElem_mem hlength)
    exact ⟨_, applyTo?_eq_some_iff.mpr ⟨_, otherClause, _, parameter, hkind ▸ hparameters,
      hotherIndex, hotherClause, hnumber, hparameter, rfl⟩⟩

end DefaultArgument

/-! ## All changes -/

/-- A change replaces nothing but children. -/
theorem Evolution.exists_withChildren_of_applyTo? {evolution : Evolution} {node after : Node}
    (h : evolution.applyTo? node = some after) :
    ∃ children, after = node.withChildren children := by
  cases evolution with
  | shuffleMembers order =>
    change order.applyTo? node = some after at h
    rw [MemberOrder.applyTo?] at h
    split at h
    · cases h
      exact ⟨_, rfl⟩
    · cases h
  | synthesizeInitializers initializers =>
    change initializers.applyTo? node = some after at h
    rw [Initializers.applyTo?] at h
    split at h
    · cases h
      exact ⟨_, rfl⟩
    · cases h
  | changeDefaultArgument change =>
    obtain ⟨_, _, _, _, _, -, -, -, -, -, rfl⟩ := DefaultArgument.applyTo?_eq_some h
    exact ⟨_, rfl⟩

end SourceEvolution
