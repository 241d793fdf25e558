import SourceEvolution.Proofs.Replay.Initialization

/-!
# Writing out initializers and reordering members

The initializers that a struct is given implicitly are written out before its members are moved.
Nothing hangs on that order: a member block that accepts both changes accepts each of them after the
other, and both ways lead to the same block. The order has been found for the members as they were,
and may name only some of them. The initializers take their access level from all members.

* **Initializers** (`Initializers.modifiersFor_of_perm`, `Initializers.accepts_of_perm`): how
  initializers are added to a member block depends on which members it has, not on their order.
* **Orders** (`MemberOrder.accepts_append`, `MemberOrder.applyTo?_behind`): an order is accepted
  with more members behind those that it is for, and leaves these where they are.
* **Interchange** (`MemberOrder.applyTo?_interchange`).
-/

namespace SourceEvolution

/-! ## Initializers -/

namespace Initializers

variable {block : Node} {members : List Node}

/-- The access level of added initializers does not depend on the order of the members. -/
theorem modifiersFor_of_perm (h : members.Perm block.children) :
    modifiersFor (block.withChildren members) = modifiersFor block := by
  have hhidden : hasHiddenStorage (block.withChildren members) = hasHiddenStorage block := by
    rw [Bool.eq_iff_iff, hasHiddenStorage_iff, hasHiddenStorage_iff]
    show (∃ member ∈ members, _) ↔ ∃ member ∈ block.children, _
    simp only [h.mem_iff]
  unfold modifiersFor
  rw [hhidden]

/-- A member block without initializers accepts them with its members in any order. -/
theorem accepts_of_perm (h : members.Perm block.children) (haccepts : accepts block = true) :
    accepts (block.withChildren members) = true := by
  obtain ⟨hkind, hnone⟩ := accepts_iff.mp haccepts
  apply accepts_iff.mpr
  refine ⟨hkind, ?_⟩
  intro child hchild
  exact hnone child (h.mem_iff.mp hchild)

/-- The initializers that are added to a member block. -/
def addedTo (initializers : Initializers) (block : Node) : List Node :=
  initializers.signatures.map (toNode (modifiersFor block))

theorem applyTo?_of_accepts (initializers : Initializers) (h : accepts block = true) :
    initializers.applyTo? block =
      some (block.withChildren (block.children ++ initializers.addedTo block)) := by
  unfold applyTo?
  rw [if_pos h]
  rfl

end Initializers

/-! ## Orders -/

namespace MemberOrder

variable {order : MemberOrder} {block : Node}

/-- An order that a member block accepts is accepted with more members behind its own. -/
theorem accepts_append (h : order.accepts block = true) (added : List Node) :
    order.accepts (block.withChildren (block.children ++ added)) = true := by
  obtain ⟨hkind, hnodup, hlt⟩ := accepts_eq_true_iff.mp h
  apply accepts_eq_true_iff.mpr
  refine ⟨hkind, hnodup, ?_⟩
  intro index hindex
  show index < (block.children ++ added).length
  rw [List.length_append]
  exact Nat.lt_add_right _ (hlt index hindex)

/-- An order leaves the members that have been added behind those that it is for where they are. -/
theorem applyTo?_behind (h : order.accepts block = true) (added : List Node) :
    order.applyTo? (block.withChildren (block.children ++ added)) =
      some (block.withChildren (order.reorder block.children ++ added)) := by
  obtain ⟨-, -, hlt⟩ := accepts_eq_true_iff.mp h
  apply applyTo?_eq_some_iff.mpr
  refine ⟨accepts_append h added, ?_⟩
  show _ = block.withChildren (order.reorder (block.children ++ added))
  rw [reorder_append_of_lt hlt]

/-! ## Interchange -/

/-- Writing out initializers and reordering members can be interchanged. For every member block that
accepts an order, of all its members or of some, and that accepts initializers: it accepts each of
them after the other, and the outcome is the same. It is the reordered block with the initializers
behind its members, one for each signature in turn. -/
theorem applyTo?_interchange (order : MemberOrder) (initializers : Initializers) {block : Node}
    (horder : order.accepts block = true) (hfree : Initializers.accepts block = true) :
    ∃ reordered extended both added,
      order.applyTo? block = some reordered ∧
      initializers.applyTo? block = some extended ∧
      order.accepts extended = true ∧
      Initializers.accepts reordered = true ∧
      order.applyTo? extended = some both ∧
      initializers.applyTo? reordered = some both ∧
      extended = block.withChildren (block.children ++ added) ∧
      both = reordered.withChildren (reordered.children ++ added) ∧
      List.Forall₂ (Initializers.WritesOut block.HidesStorage) initializers.signatures added := by
  obtain ⟨-, hnodup, hlt⟩ := accepts_eq_true_iff.mp horder
  have hperm : (order.reorder block.children).Perm block.children := reorder_perm hnodup hlt
  have hreordered : Initializers.accepts (block.withChildren (order.reorder block.children)) =
      true :=
    Initializers.accepts_of_perm hperm hfree
  -- the reordered block has the same members, so the initializers get the same access level
  have hadded : initializers.addedTo (block.withChildren (order.reorder block.children)) =
      initializers.addedTo block := by
    unfold Initializers.addedTo
    rw [Initializers.modifiersFor_of_perm hperm]
  refine ⟨block.withChildren (order.reorder block.children), _, _, initializers.addedTo block,
    applyTo?_eq_some_iff.mpr ⟨horder, rfl⟩, initializers.applyTo?_of_accepts hfree,
    accepts_append horder _, hreordered, applyTo?_behind horder _, ?_, rfl, rfl,
    Initializers.forall₂_writesOut block initializers.signatures⟩
  rw [initializers.applyTo?_of_accepts hreordered, hadded]
  rfl

end MemberOrder

/-- The owner of the account and its heir are put first, before or after the initializer of the
account is written out. It is hidden either way, since the owner is, and stands at the end. -/
theorem MemberOrder.applyTo?_interchange_account :
    accepts ⟨[3]⟩ Sample.accountSite.node = true ∧
    Initializers.accepts Sample.accountSite.node = true ∧
    ∃ reordered extended both new,
      applyTo? ⟨[3]⟩ Sample.accountSite.node = some reordered ∧
      Initializers.applyTo? ⟨[Sample.accountSignature]⟩ Sample.accountSite.node = some extended ∧
      applyTo? ⟨[3]⟩ extended = some both ∧
      Initializers.applyTo? ⟨[Sample.accountSignature]⟩ reordered = some both ∧
      both.children = reordered.children ++ [new] ∧ new.modifiers = ["fileprivate"] := by
  have horder : accepts ⟨[3]⟩ Sample.accountSite.node = true := by decide
  have hfree : Initializers.accepts Sample.accountSite.node = true := by decide
  have hhidden : Sample.accountSite.node.HidesStorage :=
    Initializers.hasHiddenStorage_iff.mp (by decide)
  obtain ⟨reordered, extended, both, added, hreordered, hextended, -, -, hfirst, hsecond, -, rfl,
    hwritten⟩ := applyTo?_interchange ⟨[3]⟩ ⟨[Sample.accountSignature]⟩ horder hfree
  obtain ⟨new, _, hnew, hrest, rfl⟩ := List.forall₂_cons_left_iff.mp hwritten
  obtain rfl := List.forall₂_nil_left_iff.mp hrest
  exact ⟨horder, hfree, reordered, extended, _, new, hreordered, hextended, hfirst, hsecond, rfl,
    hnew.marked hhidden⟩

end SourceEvolution
