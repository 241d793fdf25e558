import SourceEvolution.Proofs.Tree.Places
import SourceEvolution.Tree.Sample

/-!
# Replacing a node

A node of a tree is found by walking down a path, and is replaced by rebuilding the nodes above it.
This module says that the two fit together, and what becomes of the other nodes, for two paths in
any position to each other.

* **One level** (`replaceAt?_cons_eq_some_iff`): replacing below a node replaces inside one child.
  So exactly the nodes that a path leads to can be replaced (`exists_replaceAt?_iff`).
* **At the path and below it** (`nodeAt?_replaceAt?_append`): there stands what was put there.
  Putting back what stands there changes nothing (`replaceAt?_self`), and of two replacements the
  second one stays (`bind_replaceAt?_same`).
* **Elsewhere** (`nodeAt?_replaceAt?_of_unrelated`): a node that is neither above the path nor below
  it stays as it is, and a path that led nowhere still does. Two such nodes can be replaced in
  either order (`exists_replaceAt?_both`, `bind_replaceAt?_comm`).
* **Above** (`Node.SameHead`, `exists_sameHead_of_replaceAt?`): a node that is not at or below the
  path keeps everything but what its children are.
* **Size** (`size_replaceAt?`): the tree grows by as much as the node does.

All of this together is `replaceAt?_lawful`.
-/

namespace SourceEvolution

namespace Node

/-! ## One level -/

/-- Replacing below a node replaces inside one child. -/
theorem replaceAt?_cons_eq_some_iff {node after : Node} {index : Nat} {rest : Path}
    {replacement : Node} :
    node.replaceAt? (index :: rest) replacement = some after ↔
      ∃ child changed, node.children[index]? = some child ∧
        child.replaceAt? rest replacement = some changed ∧
        after = node.withChildren (node.children.set index changed) := by
  rw [replaceAt?]
  constructor
  · intro h
    obtain ⟨child, hchild, h⟩ := Option.bind_eq_some_iff.mp h
    obtain ⟨changed, hchanged, h⟩ := Option.bind_eq_some_iff.mp h
    rw [replaceChild?, Option.ite_none_right_eq_some, Option.some.injEq] at h
    exact ⟨child, changed, hchild, hchanged, h.2.symm⟩
  · rintro ⟨child, changed, hchild, hchanged, rfl⟩
    have hlt : index < node.children.length := (List.getElem?_eq_some_iff.mp hchild).1
    rw [child?, hchild]
    simp [hchanged, replaceChild?, hlt]

/-- A node that a path leads to can be replaced. -/
theorem exists_replaceAt?_of_nodeAt? {root node : Node} {path : Path}
    (h : root.nodeAt? path = some node) (replacement : Node) :
    ∃ after, root.replaceAt? path replacement = some after := by
  induction path generalizing root with
  | nil => exact ⟨replacement, rfl⟩
  | cons index rest ih =>
    rw [nodeAt?_cons] at h
    obtain ⟨child, hchild, hnode⟩ := Option.bind_eq_some_iff.mp h
    obtain ⟨changed, hchanged⟩ := ih hnode
    exact ⟨_, replaceAt?_cons_eq_some_iff.mpr ⟨child, changed, hchild, hchanged, rfl⟩⟩

/-- Only a node that a path leads to can be replaced. -/
theorem exists_nodeAt?_of_replaceAt? {root after replacement : Node} {path : Path}
    (h : root.replaceAt? path replacement = some after) :
    ∃ node, root.nodeAt? path = some node := by
  induction path generalizing root after with
  | nil => exact ⟨root, rfl⟩
  | cons index rest ih =>
    obtain ⟨child, changed, hchild, hchanged, -⟩ := replaceAt?_cons_eq_some_iff.mp h
    rw [nodeAt?_cons, child?, hchild, Option.bind_some]
    exact ih hchanged

theorem exists_replaceAt?_iff (root : Node) (path : Path) (replacement : Node) :
    (∃ after, root.replaceAt? path replacement = some after) ↔
      ∃ node, root.nodeAt? path = some node := by
  constructor
  · rintro ⟨after, h⟩
    exact exists_nodeAt?_of_replaceAt? h
  · rintro ⟨node, h⟩
    exact exists_replaceAt?_of_nodeAt? h replacement

/-- A path that leads nowhere is no place for a replacement. -/
theorem replaceAt?_eq_none_iff {root : Node} {path : Path} {replacement : Node} :
    root.replaceAt? path replacement = none ↔ root.nodeAt? path = none := by
  have h := exists_replaceAt?_iff root path replacement
  rw [← Option.isSome_iff_exists, ← Option.isSome_iff_exists] at h
  rw [← Option.not_isSome_iff_eq_none, ← Option.not_isSome_iff_eq_none, h]

/-- A path is walked from the root down, one child after the other. -/
theorem nodeAt?_eq_foldlM (root : Node) (path : Path) :
    root.nodeAt? path = path.foldlM child? root := by
  induction path generalizing root with
  | nil => rfl
  | cons index rest ih =>
    rw [nodeAt?_cons, List.foldlM_cons]
    exact congrArg _ (funext fun child => ih child)

section set

variable {node child changed : Node} {index : Nat}

/-- A path that leads through the child that has been set goes on in what it has been set to. -/
theorem nodeAt?_set_self (hchild : node.children[index]? = some child) (rest : Path) :
    (node.withChildren (node.children.set index changed)).nodeAt? (index :: rest) =
      changed.nodeAt? rest := by
  have hlt : index < node.children.length := (List.getElem?_eq_some_iff.mp hchild).1
  simp [nodeAt?_cons, child?, withChildren, hlt]

/-- A path that leads through another child does not notice. -/
theorem nodeAt?_set_ne {other : Nat} (hne : index ≠ other) (rest : Path) :
    (node.withChildren (node.children.set index changed)).nodeAt? (other :: rest) =
      node.nodeAt? (other :: rest) := by
  simp [nodeAt?_cons, child?, withChildren, List.getElem?_set_ne hne]

/-- Replacing inside the child that has been set replaces inside what it has been set to. -/
theorem replaceAt?_set_self (hchild : node.children[index]? = some child) {rest : Path}
    {replacement after : Node} (h : changed.replaceAt? rest replacement = some after) :
    (node.withChildren (node.children.set index changed)).replaceAt? (index :: rest) replacement =
      some (node.withChildren (node.children.set index after)) := by
  have hlt : index < node.children.length := (List.getElem?_eq_some_iff.mp hchild).1
  apply replaceAt?_cons_eq_some_iff.mpr
  refine ⟨changed, after, List.getElem?_set_self hlt, h, ?_⟩
  simp [withChildren]

/-- Replacing inside another child sets that one as well. -/
theorem replaceAt?_set_ne {other : Nat} (hne : index ≠ other) {sibling : Node}
    (hsibling : node.children[other]? = some sibling) {rest : Path} {replacement after : Node}
    (h : sibling.replaceAt? rest replacement = some after) :
    (node.withChildren (node.children.set index changed)).replaceAt? (other :: rest) replacement =
      some (node.withChildren ((node.children.set index changed).set other after)) := by
  apply replaceAt?_cons_eq_some_iff.mpr
  refine ⟨sibling, after, ?_, h, rfl⟩
  simp only [withChildren]
  rw [List.getElem?_set_ne hne, hsibling]

end set

/-! ## At the path and below it -/

/-- At the path of a replaced node and below it stands what it has been replaced with. -/
theorem nodeAt?_replaceAt?_append {root after replacement : Node} {path : Path}
    (h : root.replaceAt? path replacement = some after) (rest : Path) :
    after.nodeAt? (path ++ rest) = replacement.nodeAt? rest := by
  induction path generalizing root after with
  | nil =>
    obtain rfl : replacement = after := Option.some.inj h
    rfl
  | cons index path ih =>
    obtain ⟨child, changed, hchild, hchanged, rfl⟩ := replaceAt?_cons_eq_some_iff.mp h
    rw [List.cons_append, nodeAt?_set_self hchild]
    exact ih hchanged

theorem nodeAt?_replaceAt? {root after replacement : Node} {path : Path}
    (h : root.replaceAt? path replacement = some after) :
    after.nodeAt? path = some replacement := by
  have happend := nodeAt?_replaceAt?_append h []
  rwa [List.append_nil] at happend

/-- Putting back the node that stands at a path changes nothing. -/
theorem replaceAt?_self {root node : Node} {path : Path} (h : root.nodeAt? path = some node) :
    root.replaceAt? path node = some root := by
  induction path generalizing root with
  | nil => exact congrArg some (Option.some.inj h).symm
  | cons index rest ih =>
    rw [nodeAt?_cons] at h
    obtain ⟨child, hchild, hnode⟩ := Option.bind_eq_some_iff.mp h
    refine replaceAt?_cons_eq_some_iff.mpr ⟨child, child, hchild, ih hnode, ?_⟩
    obtain ⟨hlt, hget⟩ := List.getElem?_eq_some_iff.mp hchild
    rw [← hget, List.set_getElem_self, withChildren_children]

theorem replaceAt?_replaceAt? {root after first : Node} {path : Path}
    (h : root.replaceAt? path first = some after) (second : Node) :
    after.replaceAt? path second = root.replaceAt? path second := by
  induction path generalizing root after with
  | nil => rfl
  | cons index rest ih =>
    obtain ⟨child, changed, hchild, hchanged, rfl⟩ := replaceAt?_cons_eq_some_iff.mp h
    obtain ⟨node, hnode⟩ := exists_nodeAt?_of_replaceAt? hchanged
    obtain ⟨last, hlast⟩ := exists_replaceAt?_of_nodeAt? hnode second
    have hroot : root.replaceAt? (index :: rest) second =
        some (root.withChildren (root.children.set index last)) :=
      replaceAt?_cons_eq_some_iff.mpr ⟨child, last, hchild, hlast, rfl⟩
    rw [hroot]
    exact replaceAt?_set_self hchild ((ih hchanged).trans hlast)

/-- Of two replacements at a path the second one stays, also where the path leads nowhere. -/
theorem bind_replaceAt?_same (root : Node) (path : Path) (first second : Node) :
    ((root.replaceAt? path first).bind fun after => after.replaceAt? path second) =
      root.replaceAt? path second := by
  rcases h : root.replaceAt? path first with _ | after
  · rw [replaceAt?_eq_none_iff] at h
    exact (replaceAt?_eq_none_iff.mpr h).symm
  · exact replaceAt?_replaceAt? h second

/-! ## Elsewhere -/

/-- A path that is neither above nor below the path of a replaced node leads where it led before. -/
theorem nodeAt?_replaceAt?_of_unrelated {root after replacement : Node} {path other : Path}
    (h : root.replaceAt? path replacement = some after) (hbelow : ¬ path <+: other)
    (habove : ¬ other <+: path) : after.nodeAt? other = root.nodeAt? other := by
  induction path generalizing root after other with
  | nil => exact absurd List.nil_prefix hbelow
  | cons index rest ih =>
    obtain ⟨child, changed, hchild, hchanged, rfl⟩ := replaceAt?_cons_eq_some_iff.mp h
    cases other with
    | nil => exact absurd List.nil_prefix habove
    | cons first other =>
      by_cases hfirst : index = first
      · -- both paths lead into the same child, and are unrelated from there on
        subst hfirst
        rw [List.cons_prefix_cons] at hbelow habove
        rw [nodeAt?_set_self hchild, nodeAt?_cons, child?, hchild, Option.bind_some]
        apply ih hchanged
        · intro hprefix
          exact hbelow ⟨rfl, hprefix⟩
        · intro hprefix
          exact habove ⟨rfl, hprefix⟩
      · exact nodeAt?_set_ne hfirst other

/-- Two nodes of a tree that are unrelated can be replaced one after the other, and the outcome does
not depend on which comes first. -/
theorem exists_replaceAt?_both {root new₁ new₂ after₁ after₂ : Node} {path₁ path₂ : Path}
    (h₁ : root.replaceAt? path₁ new₁ = some after₁) (h₂ : root.replaceAt? path₂ new₂ = some after₂)
    (hbelow : ¬ path₁ <+: path₂) (habove : ¬ path₂ <+: path₁) :
    ∃ both, after₁.replaceAt? path₂ new₂ = some both ∧
      after₂.replaceAt? path₁ new₁ = some both := by
  induction path₁ generalizing root after₁ after₂ path₂ with
  | nil => exact absurd List.nil_prefix hbelow
  | cons index₁ rest₁ ih =>
    cases path₂ with
    | nil => exact absurd List.nil_prefix habove
    | cons index₂ rest₂ =>
      obtain ⟨child₁, changed₁, hchild₁, hchanged₁, rfl⟩ := replaceAt?_cons_eq_some_iff.mp h₁
      obtain ⟨child₂, changed₂, hchild₂, hchanged₂, rfl⟩ := replaceAt?_cons_eq_some_iff.mp h₂
      by_cases hindex : index₁ = index₂
      · -- both are replaced inside the same child
        subst hindex
        obtain rfl : child₁ = child₂ := Option.some.inj (hchild₁.symm.trans hchild₂)
        rw [List.cons_prefix_cons] at hbelow habove
        obtain ⟨both, hboth₁, hboth₂⟩ := ih hchanged₁ hchanged₂
          (fun hprefix => hbelow ⟨rfl, hprefix⟩) (fun hprefix => habove ⟨rfl, hprefix⟩)
        exact ⟨_, replaceAt?_set_self hchild₁ hboth₁, replaceAt?_set_self hchild₁ hboth₂⟩
      · refine ⟨_, replaceAt?_set_ne hindex hchild₂ hchanged₂, ?_⟩
        rw [List.set_comm _ _ hindex]
        exact replaceAt?_set_ne (Ne.symm hindex) hchild₁ hchanged₁

/-- Where nothing stands that could be replaced, nothing does after an unrelated replacement. -/
theorem replaceAt?_eq_none_of_unrelated {root new after : Node} {path other : Path}
    (h : root.replaceAt? path new = some after) {newer : Node}
    (hnone : root.replaceAt? other newer = none) (hbelow : ¬ path <+: other)
    (habove : ¬ other <+: path) : after.replaceAt? other newer = none := by
  rw [replaceAt?_eq_none_iff] at hnone ⊢
  rw [nodeAt?_replaceAt?_of_unrelated h hbelow habove, hnone]

/-- Replacements at unrelated paths commute, also where a path leads nowhere. -/
theorem bind_replaceAt?_comm (root new newer : Node) {path other : Path} (hbelow : ¬ path <+: other)
    (habove : ¬ other <+: path) :
    ((root.replaceAt? path new).bind fun after => after.replaceAt? other newer) =
      (root.replaceAt? other newer).bind fun after => after.replaceAt? path new := by
  rcases h₁ : root.replaceAt? path new with _ | after₁
  · rcases h₂ : root.replaceAt? other newer with _ | after₂
    · rfl
    · exact (replaceAt?_eq_none_of_unrelated h₂ h₁ habove hbelow).symm
  · rcases h₂ : root.replaceAt? other newer with _ | after₂
    · exact replaceAt?_eq_none_of_unrelated h₁ h₂ hbelow habove
    · obtain ⟨both, hboth₁, hboth₂⟩ := exists_replaceAt?_both h₁ h₂ hbelow habove
      exact hboth₁.trans hboth₂.symm

/-! ## Above -/

/-- Two nodes are the same but for what their children are. -/
structure SameHead (node after : Node) : Prop where
  /-- The kind stays. -/
  kind : after.kind = node.kind
  /-- So does the text. -/
  text : after.text = node.text
  /-- So does the position. -/
  position : after.position = node.position
  /-- There are as many children. -/
  length : after.children.length = node.children.length

theorem SameHead.refl (node : Node) : SameHead node node :=
  ⟨rfl, rfl, rfl, rfl⟩

theorem SameHead.trans {node between after : Node} (h : SameHead node between)
    (h' : SameHead between after) : SameHead node after :=
  ⟨h'.kind.trans h.kind, h'.text.trans h.text, h'.position.trans h.position,
    h'.length.trans h.length⟩

theorem sameHead_set (node : Node) (index : Nat) (child : Node) :
    SameHead node (node.withChildren (node.children.set index child)) :=
  ⟨rfl, rfl, rfl, List.length_set⟩

/-- A node that is neither the replaced one nor below it keeps everything but what its children
are. -/
theorem exists_sameHead_of_replaceAt? {root after replacement : Node} {path other : Path}
    (h : root.replaceAt? path replacement = some after) (hbelow : ¬ path <+: other) {node : Node}
    (hnode : root.nodeAt? other = some node) :
    ∃ kept, after.nodeAt? other = some kept ∧ SameHead node kept := by
  induction path generalizing root after other with
  | nil => exact absurd List.nil_prefix hbelow
  | cons index rest ih =>
    obtain ⟨child, changed, hchild, hchanged, rfl⟩ := replaceAt?_cons_eq_some_iff.mp h
    cases other with
    | nil =>
      -- the root itself has one child set
      obtain rfl : root = node := Option.some.inj hnode
      exact ⟨_, rfl, sameHead_set root index changed⟩
    | cons first other =>
      by_cases hfirst : index = first
      · subst hfirst
        rw [nodeAt?_cons, child?, hchild, Option.bind_some] at hnode
        rw [nodeAt?_set_self hchild]
        apply ih hchanged _ hnode
        intro hprefix
        exact hbelow (List.cons_prefix_cons.mpr ⟨rfl, hprefix⟩)
      · rw [nodeAt?_set_ne hfirst]
        exact ⟨node, hnode, SameHead.refl node⟩

/-! ## Size -/

theorem sizeList_set {nodes : List Node} {index : Nat} {child : Node}
    (h : nodes[index]? = some child) (changed : Node) :
    sizeList (nodes.set index changed) + child.size = sizeList nodes + changed.size := by
  induction nodes generalizing index with
  | nil => cases h
  | cons node rest ih =>
    cases index with
    | zero =>
      obtain rfl : node = child := Option.some.inj h
      rw [List.set_cons_zero, sizeList, sizeList]
      omega
    | succ index =>
      have hrest := ih h
      rw [List.set_cons_succ, sizeList, sizeList]
      omega

/-- The tree grows by as much as the node that is replaced. -/
theorem size_replaceAt? {root after node replacement : Node} {path : Path}
    (h : root.replaceAt? path replacement = some after) (hnode : root.nodeAt? path = some node) :
    after.size + node.size = root.size + replacement.size := by
  induction path generalizing root after with
  | nil =>
    obtain rfl : replacement = after := Option.some.inj h
    obtain rfl : root = node := Option.some.inj hnode
    exact Nat.add_comm _ _
  | cons index rest ih =>
    obtain ⟨child, changed, hchild, hchanged, rfl⟩ := replaceAt?_cons_eq_some_iff.mp h
    rw [nodeAt?_cons, child?, hchild, Option.bind_some] at hnode
    have hinside := ih hchanged hnode
    have hset := sizeList_set hchild changed
    have hafter : (root.withChildren (root.children.set index changed)).size =
        1 + sizeList (root.children.set index changed) := size_eq _
    rw [hafter, size_eq root]
    omega

/-! ## The laws -/

/-- What a tree has become when the node `old` at a path has been replaced with `new`. -/
structure Replaced (tree : Node) (path : Path) (old new after : Node) : Prop where
  /-- At the path stands the new node. -/
  here : after.nodeAt? path = some new
  /-- Below the path stands what is below the new node, and nothing else. -/
  below : ∀ rest, after.nodeAt? (path ++ rest) = new.nodeAt? rest
  /-- Paths that are unrelated to this one lead where they led, or nowhere as before. -/
  aside : ∀ other, ¬ path <+: other → ¬ other <+: path → after.nodeAt? other = tree.nodeAt? other
  /-- A node above the path keeps everything but what its children are. -/
  above : ∀ other, other <+: path → other ≠ path →
    ∃ node kept, tree.nodeAt? other = some node ∧ after.nodeAt? other = some kept ∧
      SameHead node kept
  /-- The tree has grown by as much as the node at the path. -/
  size : after.size + old.size = tree.size + new.size

theorem Replaced.of_replaceAt? {tree old new after : Node} {path : Path}
    (hold : tree.nodeAt? path = some old) (h : tree.replaceAt? path new = some after) :
    Replaced tree path old new after where
  here := nodeAt?_replaceAt? h
  below := nodeAt?_replaceAt?_append h
  aside := fun _ hbelow habove => nodeAt?_replaceAt?_of_unrelated h hbelow habove
  above := by
    intro other hprefix hne
    obtain ⟨rest, rfl⟩ := hprefix
    rw [nodeAt?_append] at hold
    obtain ⟨node, hnode, -⟩ := Option.bind_eq_some_iff.mp hold
    have hbelow : ¬ other ++ rest <+: other := fun hprefix =>
      hne ((List.prefix_append other rest).eq_of_length_le hprefix.length_le)
    obtain ⟨kept, hkept, hsame⟩ := exists_sameHead_of_replaceAt? h hbelow hnode
    exact ⟨node, kept, hnode, hkept, hsame⟩
  size := size_replaceAt? h hold

/-- Reading and replacing by paths obey the laws of independent places. Exactly the nodes that a
path leads to, walked from the root, can be replaced. The new node then stands at the path, and
nothing else in the tree is another than before, but for the sizes of what is above. Putting back
the node that stands there changes nothing, of two replacements at a path the second one stays, and
replacements at unrelated paths commute. -/
theorem replaceAt?_lawful (tree : Node) (path : Path) (new : Node) :
    (∀ other, tree.nodeAt? other = other.foldlM child? tree) ∧
    ((∃ after, tree.replaceAt? path new = some after) ↔ ∃ old, tree.nodeAt? path = some old) ∧
    (∀ old after, tree.nodeAt? path = some old → tree.replaceAt? path new = some after →
      Replaced tree path old new after) ∧
    (∀ old, tree.nodeAt? path = some old → tree.replaceAt? path old = some tree) ∧
    (∀ newer, ((tree.replaceAt? path new).bind fun after => after.replaceAt? path newer) =
      tree.replaceAt? path newer) ∧
    ∀ other newer, ¬ path <+: other → ¬ other <+: path →
      ((tree.replaceAt? path new).bind fun after => after.replaceAt? other newer) =
        (tree.replaceAt? other newer).bind fun after => after.replaceAt? path new := by
  refine ⟨nodeAt?_eq_foldlM tree, exists_replaceAt?_iff tree path new, ?_, ?_, ?_, ?_⟩
  · intro old after hold hafter
    exact Replaced.of_replaceAt? hold hafter
  · intro old hold
    exact replaceAt?_self hold
  · intro newer
    exact bind_replaceAt?_same tree path new newer
  · intro other newer hbelow habove
    exact bind_replaceAt?_comm tree new newer hbelow habove

end Node

/-- A file with a function that takes a number, and a variable behind it. -/
def Sample.moveFile : Node :=
  file [function "move" [param "by" "Int"], storedVar "x" "1"]

/-- In the file the parameter of the function is given a default value. It stands there now and can
be read, and it makes no difference whether the variable is replaced before or after it. -/
theorem Node.replaceAt?_lawful_moveFile :
    let changed := Sample.paramWithDefault "by" (Build.simpleType "Int") "2"
    ∃ after, Sample.moveFile.replaceAt? [0, 1, 0] changed = some after ∧
      after.nodeAt? [0, 1, 0, 2, 0] = some (Build.expr "2") ∧
      Replaced Sample.moveFile [0, 1, 0] (Sample.param "by" "Int") changed after ∧
      Sample.moveFile.replaceAt? [0, 1, 0] (Sample.param "by" "Int") = some Sample.moveFile ∧
      after.replaceAt? [1] (Sample.storedVar "y" "2") =
        (Sample.moveFile.replaceAt? [1] (Sample.storedVar "y" "2")).bind fun after =>
          after.replaceAt? [0, 1, 0] changed := by
  intro changed
  obtain ⟨-, hexists, hreplaced, hself, -, hcomm⟩ :=
    replaceAt?_lawful Sample.moveFile [0, 1, 0] changed
  have hold : Sample.moveFile.nodeAt? [0, 1, 0] = some (Sample.param "by" "Int") := rfl
  obtain ⟨after, hafter⟩ := hexists.mpr ⟨_, hold⟩
  have hchanged := hreplaced _ _ hold hafter
  have hswap := hcomm [1] (Sample.storedVar "y" "2") (by decide) (by decide)
  rw [hafter, Option.bind_some] at hswap
  refine ⟨after, hafter, ?_, hchanged, hself _ hold, hswap⟩
  exact (hchanged.below [2, 0]).trans rfl

end SourceEvolution
