import Mathlib.Data.List.Basic
import SourceEvolution.Change.Evolution
import SourceEvolution.Tree.Sample

/-!
# What an order does to members

An order names members by their indices. It is checked, and the members that it leaves out are
found, by marking members one after the other. This module says what the marks hold, and from that
what becomes of a member block under any order that it accepts, found by a search or not.

* **Marks** (`foldlM_mark?_isSome_iff`, `getElem?_placed`): one step marks one member. So a pass
  succeeds exactly for members that are there and differ, and leaves exactly these marked.
* **Indices** (`reorder_eq_filterMap`, `append_unnamed_perm`): the indices that an order names and,
  behind them in increasing order, those that it does not name are all indices, each once.
* **Blocks** (`MemberOrder.Reorders`, `MemberOrder.applyTo?_exact`): no member is lost or repeated,
  and the order of the first members as they stand changes nothing.
-/

namespace SourceEvolution

/-- Naming all elements of a list in their order gives the list. -/
theorem filterMap_getElem?_range {α : Type} (xs : List α) :
    (List.range xs.length).filterMap (fun index => xs[index]?) = xs := by
  have hmap : (List.range xs.length).map (fun index => xs[index]?) = xs.map some := by
    refine List.ext_getElem (by simp) fun i _ _ => ?_
    simp
  calc (List.range xs.length).filterMap (fun index => xs[index]?)
      = ((List.range xs.length).map fun index => xs[index]?).filterMap id := by
        rw [List.filterMap_map]
        rfl
    _ = xs := by
        rw [hmap, List.filterMap_map]
        exact List.filterMap_some

namespace MemberOrder

/-! ## Marks -/

section marks

variable {marks : Array Bool} {index other : Nat}

/-- One step leaves a member unmarked exactly if it was unmarked and is another one. -/
theorem getElem?_setIfInBounds_eq_some_false :
    (marks.setIfInBounds index true)[other]? = some false ↔
      other ≠ index ∧ marks[other]? = some false := by
  rw [Array.getElem?_setIfInBounds]
  by_cases hindex : index = other
  · subst hindex
    by_cases hlt : index < marks.size <;> simp [hlt]
  · simp [hindex, Ne.symm hindex]

theorem mark?_of_unmarked (h : marks[index]? = some false) :
    mark? marks index = some (marks.setIfInBounds index true) :=
  if_pos h

theorem mark?_of_not_unmarked (h : marks[index]? ≠ some false) : mark? marks index = none :=
  if_neg h

/-- A pass succeeds exactly if the members differ and all were unmarked. -/
theorem foldlM_mark?_isSome_iff (mapping : List Nat) (marks : Array Bool) :
    (mapping.foldlM mark? marks).isSome = true ↔
      mapping.Nodup ∧ ∀ index ∈ mapping, marks[index]? = some false := by
  induction mapping generalizing marks with
  | nil => simp [List.foldlM_nil]
  | cons index rest ih =>
    rw [List.foldlM_cons, List.nodup_cons, List.forall_mem_cons]
    by_cases hmark : marks[index]? = some false
    · -- the rest must differ from this member, since marking it is what the rest is checked against
      have hrest : (∀ other ∈ rest, (marks.setIfInBounds index true)[other]? = some false) ↔
          index ∉ rest ∧ ∀ other ∈ rest, marks[other]? = some false := by
        simp only [getElem?_setIfInBounds_eq_some_false]
        constructor
        · intro h
          exact ⟨fun hindex => (h index hindex).1 rfl, fun other hother => (h other hother).2⟩
        · rintro ⟨hindex, h⟩ other hother
          exact ⟨fun heq => hindex (heq ▸ hother), h other hother⟩
      rw [mark?_of_unmarked hmark, Option.bind_eq_bind, Option.bind_some, ih, hrest]
      tauto
    · rw [mark?_of_not_unmarked hmark]
      simp [hmark]

/-- A pass leaves a member unmarked exactly if it was unmarked and is not named. -/
theorem getElem?_foldl_setIfInBounds (mapping : List Nat) (marks : Array Bool) :
    (mapping.foldl (fun marks index => marks.setIfInBounds index true) marks)[other]? =
        some false ↔
      other ∉ mapping ∧ marks[other]? = some false := by
  induction mapping generalizing marks with
  | nil => simp
  | cons index rest ih =>
    rw [List.foldl_cons, ih, getElem?_setIfInBounds_eq_some_false, List.mem_cons, not_or]
    tauto

end marks

variable {order : MemberOrder} {count : Nat}

/-- The members that an order does not place are those that it does not name. -/
theorem getElem?_placed {index : Nat} :
    (order.placed count)[index]? = some false ↔ index ∉ order.mapping ∧ index < count := by
  rw [placed, getElem?_foldl_setIfInBounds, Array.getElem?_replicate]
  simp

/-- An order is accepted by a member block if it names different members of it. -/
theorem accepts_eq_true_iff {node : Node} :
    order.accepts node = true ↔
      node.kind = .memberBlock ∧ order.mapping.Nodup ∧
        ∀ index ∈ order.mapping, index < node.children.length := by
  have hunmarked : ∀ index, (Array.replicate node.children.length false)[index]? = some false ↔
      index < node.children.length := by
    intro index
    simp [Array.getElem?_replicate]
  simp only [accepts, Bool.and_eq_true, beq_iff_eq, foldlM_mark?_isSome_iff, hunmarked]

/-! ## Indices -/

/-- The indices that an order does not name, in increasing order. -/
def unnamed (order : MemberOrder) (count : Nat) : List Nat :=
  (List.range count).filter fun index => !order.mapping.contains index

theorem mem_unnamed {index : Nat} :
    index ∈ order.unnamed count ↔ index < count ∧ index ∉ order.mapping := by
  simp [unnamed]

theorem pairwise_lt_unnamed (order : MemberOrder) (count : Nat) :
    (order.unnamed count).Pairwise (· < ·) :=
  List.pairwise_lt_range.filter _

/-- The members at some of the indices are found by these indices. -/
theorem map_fst_filter_zipIdx (members : List Node) (p : Node × Nat → Bool) :
    (members.zipIdx.filter p).map Prod.fst =
      ((members.zipIdx.filter p).map Prod.snd).filterMap fun index => members[index]? := by
  have hmember : ∀ member ∈ members.zipIdx.filter p, members[member.2]? = some member.1 := by
    intro member hmember
    exact List.mk_mem_zipIdx_iff_getElem?.mp (List.mem_of_mem_filter hmember)
  rw [List.filterMap_map, ← List.filterMap_eq_map]
  exact (List.filterMap_congr hmember).symm

/-- The members in their new order are those that the order names, then those that it does not. -/
theorem reorder_eq_filterMap (order : MemberOrder) (members : List Node) :
    order.reorder members =
      (order.mapping ++ order.unnamed members.length).filterMap fun index => members[index]? := by
  have hplaced : members.zipIdx.filter
      (fun member => (order.placed members.length)[member.2]? == some false) =
      members.zipIdx.filter fun member => !order.mapping.contains member.2 := by
    refine List.filter_congr fun member hmember => ?_
    have hlt : member.2 < members.length := List.snd_lt_of_mem_zipIdx hmember
    rw [Bool.eq_iff_iff, beq_iff_eq, getElem?_placed]
    simp [hlt]
  have hunnamed : (members.zipIdx.filter fun member => !order.mapping.contains member.2).map
      Prod.snd = order.unnamed members.length := by
    rw [unnamed, List.range_eq_range', ← List.zipIdx_map_snd 0 members, List.filter_map]
    rfl
  rw [reorder, hplaced, map_fst_filter_zipIdx, hunnamed, List.filterMap_append]

/-- An order of different members and what it leaves out are all indices, each once. -/
theorem append_unnamed_perm (hnodup : order.mapping.Nodup)
    (hlt : ∀ index ∈ order.mapping, index < count) :
    (order.mapping ++ order.unnamed count).Perm (List.range count) := by
  have hdisjoint : ∀ index ∈ order.mapping, ∀ other ∈ order.unnamed count, index ≠ other := by
    rintro index hindex other hother rfl
    exact (mem_unnamed.mp hother).2 hindex
  have hunnamed : (order.unnamed count).Nodup :=
    (pairwise_lt_unnamed order count).imp Nat.ne_of_lt
  rw [List.perm_ext_iff_of_nodup (List.nodup_append.mpr ⟨hnodup, hunnamed, hdisjoint⟩)
    List.nodup_range]
  intro index
  rw [List.mem_append, mem_unnamed, List.mem_range]
  by_cases hindex : index ∈ order.mapping
  · simp [hindex, hlt index hindex]
  · simp [hindex]

/-- The first indices as they stand, and behind them those that are not named, are all indices as
they stand. -/
theorem range_append_unnamed {first : Nat} (hmapping : order.mapping = List.range first)
    (hle : first ≤ count) : order.mapping ++ order.unnamed count = List.range count := by
  have hlt : ∀ index ∈ order.mapping, index < count := by
    intro index hindex
    rw [hmapping, List.mem_range] at hindex
    exact Nat.lt_of_lt_of_le hindex hle
  have hsorted : (order.mapping ++ order.unnamed count).Pairwise (· < ·) := by
    refine List.pairwise_append.mpr ⟨?_, pairwise_lt_unnamed order count, ?_⟩
    · rw [hmapping]
      exact List.pairwise_lt_range
    · intro index hindex other hother
      have hother := (mem_unnamed.mp hother).2
      rw [hmapping, List.mem_range] at hindex hother
      omega
  refine List.Perm.eq_of_pairwise (fun a b _ _ hab hba => absurd hab (Nat.lt_asymm hba)) hsorted
    List.pairwise_lt_range (append_unnamed_perm ?_ hlt)
  rw [hmapping]
  exact List.nodup_range

/-- The members at indices that are there are one for each index. -/
theorem map_some_filterMap_getElem? {members : List Node} {indices : List Nat}
    (h : ∀ index ∈ indices, index < members.length) :
    (indices.filterMap fun index => members[index]?).map some =
      indices.map fun index => members[index]? := by
  induction indices with
  | nil => rfl
  | cons index rest ih =>
    obtain ⟨hlt, hrest⟩ := List.forall_mem_cons.mp h
    have hmember : members[index]? = some members[index] := List.getElem?_eq_getElem hlt
    rw [List.filterMap_cons_some hmember, List.map_cons, List.map_cons, ih hrest, hmember]

/-- An order leaves what stands behind the members that it is for out. -/
theorem unnamed_add (hlt : ∀ index ∈ order.mapping, index < count) (more : Nat) :
    order.unnamed (count + more) = order.unnamed count ++ List.range' count more := by
  have hbehind : (List.range' count more).filter (fun index => !order.mapping.contains index) =
      List.range' count more := by
    rw [List.filter_eq_self]
    intro index hindex
    have hnot : index ∉ order.mapping := by
      intro hmem
      exact absurd (hlt index hmem) (Nat.not_lt.mpr (List.mem_range'_1.mp hindex).1)
    simp [hnot]
  have hrange : List.range (count + more) = List.range count ++ List.range' count more := by
    rw [List.range_eq_range', List.range_eq_range', ← List.range'_append, Nat.one_mul, Nat.zero_add]
  rw [unnamed, hrange, List.filter_append, hbehind, unnamed]

/-- An order leaves what stands behind the members that it is for where it is. -/
theorem reorder_append_of_lt {members : List Node}
    (hlt : ∀ index ∈ order.mapping, index < members.length) (added : List Node) :
    order.reorder (members ++ added) = order.reorder members ++ added := by
  have hfront : ∀ index ∈ order.mapping ++ order.unnamed members.length,
      (members ++ added)[index]? = members[index]? := by
    intro index hindex
    refine List.getElem?_append_left ?_
    rcases List.mem_append.mp hindex with hnamed | hunnamed
    · exact hlt index hnamed
    · exact (mem_unnamed.mp hunnamed).1
  have hbehind : (List.range' members.length added.length).filterMap
      (fun index => (members ++ added)[index]?) = added := by
    conv_rhs => rw [← filterMap_getElem?_range added]
    rw [List.range'_eq_map_range, List.filterMap_map]
    refine List.filterMap_congr fun index _ => ?_
    change (members ++ added)[members.length + index]? = _
    rw [List.getElem?_append_right (Nat.le_add_right _ _), Nat.add_sub_cancel_left]
  rw [reorder_eq_filterMap, reorder_eq_filterMap, List.length_append, unnamed_add hlt,
    ← List.append_assoc, List.filterMap_append, hbehind, List.filterMap_congr hfront]

/-! ## Blocks -/

/-- A node has its members in a new order, and is otherwise as before. -/
structure Reorders (order : MemberOrder) (node after : Node) : Prop where
  /-- The kind stays. -/
  kind : after.kind = node.kind
  /-- So does the text. -/
  text : after.text = node.text
  /-- So does the position. -/
  position : after.position = node.position
  /-- The members that the order names come first, as it names them, and those that it does not name
  follow as they stood. Each index is used once. -/
  indices : ∃ rest : List Nat,
    rest.Pairwise (· < ·) ∧
    (∀ index, index ∈ rest ↔ index < node.children.length ∧ index ∉ order.mapping) ∧
    (order.mapping ++ rest).Perm (List.range node.children.length) ∧
    after.children.map some = (order.mapping ++ rest).map fun index => node.children[index]?
  /-- The members are the same, each as often as before. -/
  members : after.children.Perm node.children

theorem applyTo?_eq_some_iff {node after : Node} :
    order.applyTo? node = some after ↔
      order.accepts node = true ∧ after = node.withChildren (order.reorder node.children) := by
  rw [applyTo?]
  by_cases haccepts : order.accepts node = true
  · rw [if_pos haccepts, Option.some.injEq]
    exact ⟨fun h => ⟨haccepts, h.symm⟩, fun h => h.2.symm⟩
  · simp [haccepts]

/-- The members of a list in the order that different indices of it give are its members. -/
theorem reorder_perm {members : List Node} (hnodup : order.mapping.Nodup)
    (hlt : ∀ index ∈ order.mapping, index < members.length) :
    (order.reorder members).Perm members := by
  have hperm := (append_unnamed_perm hnodup hlt).filterMap fun index => members[index]?
  rwa [filterMap_getElem?_range, ← reorder_eq_filterMap] at hperm

theorem reorders_of_applyTo? {node after : Node} (h : order.applyTo? node = some after) :
    order.Reorders node after := by
  obtain ⟨haccepts, rfl⟩ := applyTo?_eq_some_iff.mp h
  obtain ⟨-, hnodup, hlt⟩ := accepts_eq_true_iff.mp haccepts
  have hperm := append_unnamed_perm hnodup hlt
  refine ⟨rfl, rfl, rfl, ?_, reorder_perm hnodup hlt⟩
  refine ⟨order.unnamed node.children.length, pairwise_lt_unnamed _ _, fun _ => mem_unnamed, hperm,
    ?_⟩
  change (order.reorder node.children).map some = _
  rw [reorder_eq_filterMap]
  exact map_some_filterMap_getElem? fun index hindex => List.mem_range.mp (hperm.mem_iff.mp hindex)

/-- What an order does to a node, for every order and every node. It is accepted exactly by a member
block of which it names different members, and then it can be applied. It puts the members that it
names before the others, and neither loses nor repeats one. If it names the first members as they
stand, all or none of them included, nothing changes. -/
theorem applyTo?_exact (order : MemberOrder) (node : Node) :
    (order.accepts node = true ↔
      node.kind = .memberBlock ∧ order.mapping.Nodup ∧
        ∀ index ∈ order.mapping, index < node.children.length) ∧
    (order.accepts node = true ↔ ∃ after, order.applyTo? node = some after) ∧
    (∀ after, order.applyTo? node = some after → order.Reorders node after) ∧
    ∀ first ≤ node.children.length, node.kind = .memberBlock →
      order.mapping = List.range first → order.applyTo? node = some node := by
  refine ⟨accepts_eq_true_iff, ?_, fun after => reorders_of_applyTo?, ?_⟩
  · simp only [applyTo?_eq_some_iff, exists_and_left, exists_eq, and_true]
  · intro first hle hkind hmapping
    have haccepts : order.accepts node = true := by
      refine accepts_eq_true_iff.mpr ⟨hkind, ?_, ?_⟩
      · rw [hmapping]
        exact List.nodup_range
      · intro index hindex
        rw [hmapping, List.mem_range] at hindex
        exact Nat.lt_of_lt_of_le hindex hle
    refine applyTo?_eq_some_iff.mpr ⟨haccepts, ?_⟩
    rw [reorder_eq_filterMap, range_append_unnamed hmapping hle, filterMap_getElem?_range,
      Node.withChildren_children]

end MemberOrder

/-- A member block with two equal members. -/
def Sample.twinBlock : Node :=
  .branch .memberBlock [Sample.typedVar "x" "Int", Sample.typedVar "y" "Int",
    Sample.typedVar "x" "Int"]

/-- The two last members of the block are put first, and the first two as they stand stay there. -/
theorem MemberOrder.applyTo?_exact_twinBlock :
    (∃ after, applyTo? ⟨[2, 1]⟩ Sample.twinBlock = some after ∧
      Reorders ⟨[2, 1]⟩ Sample.twinBlock after) ∧
    accepts ⟨[2, 2]⟩ Sample.twinBlock = false ∧
    applyTo? ⟨[0, 1]⟩ Sample.twinBlock = some Sample.twinBlock := by
  obtain ⟨-, hdefined, hreorders, -⟩ := applyTo?_exact ⟨[2, 1]⟩ Sample.twinBlock
  obtain ⟨after, hafter⟩ := hdefined.mp (by decide)
  refine ⟨⟨after, hafter, hreorders after hafter⟩, ?_, ?_⟩
  · rw [← Bool.not_eq_true, (applyTo?_exact ⟨[2, 2]⟩ Sample.twinBlock).1]
    decide
  · exact (applyTo?_exact ⟨[0, 1]⟩ Sample.twinBlock).2.2.2 2 (by decide) rfl rfl

end SourceEvolution
