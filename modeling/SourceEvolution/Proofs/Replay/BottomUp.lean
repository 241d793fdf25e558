import Mathlib.Data.List.Induction
import Mathlib.Logic.Function.Basic
import SourceEvolution.Planning.Replay
import SourceEvolution.Proofs.Change.Application
import SourceEvolution.Proofs.Tree.Places

/-!
# Replay from below

A plan is replayed entry by entry, and every path is read in the tree as the earlier entries have
left it. When no entry is above a later one, this is the same as going through the tree once, from
below: first the children of a node are rewritten, and then the changes for the node itself are
applied to the outcome. This module proves the two equal.

* **Changes** (`Node.changeAt?`, `Evolution.applyAll?`): one change at a path, and several changes
  of one node.
* **Rewriting** (`Node.rewrite?`): all changes of a tree, from below. What happens at a node depends
  on its subtree only, so paths are those of the tree before any change.
* **One more change** (`rewrite?_update`): a change that comes after all changes below it, and
  before none above it, can be left for the end.
* **Plans** (`toOption_foldlM_replayEntry`): replaying entries one by one is rewriting.
-/

namespace SourceEvolution

/-! ## Changes -/

/-- Changes of a node, one after the other. -/
def Evolution.applyAll? (evolutions : List Evolution) (node : Node) : Option Node :=
  evolutions.foldlM (fun node evolution => evolution.applyTo? node) node

theorem Evolution.applyAll?_nil (node : Node) : applyAll? [] node = some node :=
  List.foldlM_nil

theorem Evolution.applyAll?_append (first second : List Evolution) (node : Node) :
    applyAll? (first ++ second) node = (applyAll? first node).bind (applyAll? second) :=
  List.foldlM_append

theorem Evolution.applyAll?_singleton (evolution : Evolution) (node : Node) :
    applyAll? [evolution] node = evolution.applyTo? node := by
  simp [applyAll?]

/-- Changes of a node replace nothing but its children. -/
theorem Evolution.exists_withChildren_of_applyAll? {evolutions : List Evolution} {node after : Node}
    (h : applyAll? evolutions node = some after) :
    ∃ children, after = node.withChildren children := by
  induction evolutions generalizing node with
  | nil =>
    obtain rfl : node = after := Option.some.inj ((applyAll?_nil node).symm.trans h)
    exact ⟨node.children, (Node.withChildren_children node).symm⟩
  | cons evolution rest ih =>
    rw [← List.singleton_append, applyAll?_append, applyAll?_singleton] at h
    obtain ⟨between, hfirst, hrest⟩ := Option.bind_eq_some_iff.mp h
    obtain ⟨first, rfl⟩ := exists_withChildren_of_applyTo? hfirst
    obtain ⟨children, rfl⟩ := ih hrest
    exact ⟨children, rfl⟩

namespace Node

/-- The tree with the node at a path changed; none if the path leads nowhere or to a node that does
not accept the change. -/
def changeAt? (node : Node) (path : Path) (evolution : Evolution) : Option Node := do
  let target ← node.nodeAt? path
  let changed ← evolution.applyTo? target
  node.replaceAt? path changed

theorem changeAt?_nil (node : Node) (evolution : Evolution) :
    node.changeAt? [] evolution = evolution.applyTo? node := by
  simp [changeAt?, nodeAt?, replaceAt?]

theorem changeAt?_cons (node : Node) (index : Nat) (rest : Path) (evolution : Evolution) :
    node.changeAt? (index :: rest) evolution =
      (node.child? index).bind fun child =>
        (child.changeAt? rest evolution).bind (node.replaceChild? index) := by
  rcases hchild : node.child? index with _ | child
  · simp [changeAt?, nodeAt?, hchild]
  · simp [changeAt?, nodeAt?, replaceAt?, hchild, Option.bind_assoc]

theorem changeAt?_withChildren (node : Node) (children : List Node) (index : Nat) (rest : Path)
    (evolution : Evolution) :
    (node.withChildren children).changeAt? (index :: rest) evolution =
      ((children[index]?.bind fun child => child.changeAt? rest evolution).map
        (children.set index)).map node.withChildren := by
  rw [changeAt?_cons, show (node.withChildren children).child? index = children[index]? from rfl]
  rcases hchild : children[index]? with _ | child
  · rfl
  · have hlt : index < children.length := (List.getElem?_eq_some_iff.mp hchild).1
    rw [Option.bind_some, Option.bind_some]
    rcases child.changeAt? rest evolution with _ | changed
    · rfl
    · exact if_pos hlt

/-! ## Rewriting -/

mutual

/-- The tree with the changes for every path applied, those below a node before those of the node
itself. `start` is the path of the node. -/
def rewrite? (changes : Path → List Evolution) (start : Path) : Node → Option Node
  | ⟨kind, text, position, children⟩ => do
    let changed ← rewriteAll? changes start 0 children
    Evolution.applyAll? (changes start) ⟨kind, text, position, changed⟩

/-- The children of the node at a path, from an index on, rewritten. -/
def rewriteAll? (changes : Path → List Evolution) (start : Path) (index : Nat) :
    List Node → Option (List Node)
  | [] => some []
  | child :: rest => do
    let first ← child.rewrite? changes (start.child index)
    let later ← rewriteAll? changes start (index + 1) rest
    return first :: later

end

variable {changes others : Path → List Evolution} {start : Path}

theorem rewrite?_eq (changes : Path → List Evolution) (start : Path) (node : Node) :
    node.rewrite? changes start =
      (rewriteAll? changes start 0 node.children).bind fun changed =>
        Evolution.applyAll? (changes start) (node.withChildren changed) := by
  cases node
  rw [rewrite?]
  rfl

/-- Children are rewritten one by one. -/
theorem rewriteAll?_eq_some_iff {index : Nat} {children changed : List Node} :
    rewriteAll? changes start index children = some changed ↔
      changed.length = children.length ∧ ∀ (i : Nat) (child : Node), children[i]? = some child →
        ∃ after, changed[i]? = some after ∧
          child.rewrite? changes (start.child (index + i)) = some after := by
  induction children generalizing index changed with
  | nil =>
    simp only [rewriteAll?, Option.some.injEq, List.length_nil, List.getElem?_nil]
    constructor
    · rintro rfl
      exact ⟨rfl, fun _ _ h => by cases h⟩
    · rintro ⟨hlength, -⟩
      exact (List.length_eq_zero_iff.mp hlength).symm
  | cons first rest ih =>
    constructor
    · intro h
      rw [rewriteAll?] at h
      obtain ⟨after, hfirst, h⟩ := Option.bind_eq_some_iff.mp h
      obtain ⟨later, hlater, h⟩ := Option.bind_eq_some_iff.mp h
      cases h
      obtain ⟨hlength, hrest⟩ := ih.mp hlater
      refine ⟨by simp [hlength], ?_⟩
      rintro (_ | i) child hchild
      · cases hchild
        exact ⟨after, rfl, hfirst⟩
      · obtain ⟨after, hafter, hchild⟩ := hrest i child hchild
        refine ⟨after, hafter, ?_⟩
        rw [← hchild, Nat.add_assoc, Nat.add_comm 1]
    · rintro ⟨hlength, hall⟩
      obtain ⟨after, hafter, hfirst⟩ := hall 0 first rfl
      cases changed with
      | nil => cases hafter
      | cons head later =>
        obtain rfl : head = after := Option.some.inj hafter
        have hlater : rewriteAll? changes start (index + 1) rest = some later := by
          refine ih.mpr ⟨Nat.succ.inj hlength, ?_⟩
          intro i child hchild
          obtain ⟨after, hafter, hchild⟩ := hall (i + 1) child hchild
          refine ⟨after, hafter, ?_⟩
          rw [← hchild, Nat.add_assoc, Nat.add_comm 1]
        rw [rewriteAll?, show first.rewrite? changes (start.child index) = some head from hfirst,
          hlater]
        rfl

theorem rewriteAll?_congr {index : Nat} {children : List Node}
    (h : ∀ child ∈ children, ∀ i, index ≤ i →
      child.rewrite? changes (start.child i) = child.rewrite? others (start.child i)) :
    rewriteAll? changes start index children = rewriteAll? others start index children := by
  induction children generalizing index with
  | nil => rfl
  | cons first rest ih =>
    rw [List.forall_mem_cons] at h
    rw [rewriteAll?, rewriteAll?, h.1 index (Nat.le_refl index),
      ih fun child hchild i hi => h.2 child hchild i (Nat.le_of_succ_le hi)]

/-- Only the changes at and below a node matter for it. -/
theorem rewrite?_congr {node : Node} (h : ∀ path, start <+: path → changes path = others path) :
    node.rewrite? changes start = node.rewrite? others start := by
  induction node using inductionOn generalizing start with
  | step node ih =>
    rw [rewrite?_eq, rewrite?_eq, h start List.prefix_rfl, rewriteAll?_congr]
    intro child hchild i _
    refine ih child hchild fun path hpath => h path ?_
    exact (List.prefix_append start [i]).trans hpath

/-- Without changes nothing happens. -/
theorem rewrite?_nothing (node : Node) (start : Path) :
    node.rewrite? (fun _ => []) start = some node := by
  induction node using inductionOn generalizing start with
  | step node ih =>
    have hall : rewriteAll? (fun _ => []) start 0 node.children = some node.children := by
      rw [rewriteAll?_eq_some_iff]
      refine ⟨rfl, fun i child hchild => ⟨child, hchild, ?_⟩⟩
      exact ih child (List.mem_of_getElem? hchild) _
    rw [rewrite?_eq, hall, Option.bind_some, Evolution.applyAll?, List.foldlM_nil,
      withChildren_children]
    rfl

/-- Rewriting a node replaces nothing but its children. -/
theorem exists_withChildren_of_rewrite? {node after : Node}
    (h : node.rewrite? changes start = some after) :
    ∃ children, after = node.withChildren children := by
  rw [rewrite?_eq] at h
  obtain ⟨changed, -, h⟩ := Option.bind_eq_some_iff.mp h
  obtain ⟨children, rfl⟩ := Evolution.exists_withChildren_of_applyAll? h
  exact ⟨children, rfl⟩

/-- Rewriting children keeps their kinds. -/
theorem map_kind_of_rewriteAll? {index : Nat} {children changed : List Node}
    (h : rewriteAll? changes start index children = some changed) :
    changed.map Node.kind = children.map Node.kind := by
  obtain ⟨hlength, hchildren⟩ := rewriteAll?_eq_some_iff.mp h
  refine List.ext_getElem? fun i => ?_
  rw [List.getElem?_map, List.getElem?_map]
  rcases hchild : children[i]? with _ | child
  · rw [List.getElem?_eq_none_iff] at hchild
    rw [List.getElem?_eq_none_iff.mpr (hlength ▸ hchild)]
  · obtain ⟨after, hafter, hrewrite⟩ := hchildren i child hchild
    obtain ⟨_, rfl⟩ := exists_withChildren_of_rewrite? hrewrite
    rw [hafter]
    rfl

/-! ## One more change -/

/-- When one child is changed further after it has been rewritten, so is the list of children. -/
theorem rewriteAll?_bind {index i : Nat} {children : List Node} {child : Node}
    {step : Node → Option Node} (hi : children[i]? = some child)
    (hchild : child.rewrite? others (start.child (index + i)) =
      (child.rewrite? changes (start.child (index + i))).bind step)
    (hothers : ∀ other ∈ children, ∀ j, j ≠ index + i →
      other.rewrite? others (start.child j) = other.rewrite? changes (start.child j)) :
    rewriteAll? others start index children =
      (rewriteAll? changes start index children).bind fun changed =>
        (changed[i]?.bind step).map (changed.set i) := by
  induction children generalizing index i with
  | nil => cases hi
  | cons first rest ih =>
    rw [List.forall_mem_cons] at hothers
    cases i with
    | zero =>
      obtain rfl : first = child := Option.some.inj hi
      have hrest : rewriteAll? others start (index + 1) rest =
          rewriteAll? changes start (index + 1) rest :=
        rewriteAll?_congr fun other hother j hj => hothers.2 other hother j (by omega)
      rw [Nat.add_zero] at hchild
      rw [rewriteAll?, rewriteAll?, hchild, hrest]
      rcases first.rewrite? changes (start.child index) with _ | after
      · rfl
      · rcases rewriteAll? changes start (index + 1) rest with _ | later
        · rcases step after with _ | further <;> simp
        · rcases hstep : step after with _ | further <;> simp [hstep]
    | succ i =>
      have hindex : index + (i + 1) = index + 1 + i := by omega
      rw [hindex] at hchild hothers
      rw [rewriteAll?, rewriteAll?, hothers.1 index (by omega), ih hi hchild hothers.2]
      rcases first.rewrite? changes (start.child index) with _ | after
      · rfl
      · rcases rewriteAll? changes start (index + 1) rest with _ | later
        · rfl
        · rcases hnext : later[i]? with _ | next
          · simp [hnext]
          · rcases hstep : step next with _ | further <;> simp [hnext, hstep]

/-- A change can be left for the end when there are no changes above it. -/
theorem rewrite?_update {node : Node} {path : Path} (evolution : Evolution)
    (hpath : (node.nodeAt? path).isSome = true)
    (habove : ∀ upper, upper <+: path → upper ≠ path → changes (start ++ upper) = []) :
    node.rewrite? (Function.update changes (start ++ path)
        (changes (start ++ path) ++ [evolution])) start =
      (node.rewrite? changes start).bind fun changed => changed.changeAt? path evolution := by
  induction path generalizing node start with
  | nil =>
    have hbelow : rewriteAll? (Function.update changes start (changes start ++ [evolution])) start 0
        node.children = rewriteAll? changes start 0 node.children := by
      refine rewriteAll?_congr fun child _ i _ => rewrite?_congr fun path hpath => ?_
      refine Function.update_of_ne ?_ _ _
      rintro rfl
      exact absurd (length_lt_of_prefix_child hpath) (Nat.lt_irrefl _)
    rw [List.append_nil, rewrite?_eq, rewrite?_eq, hbelow, Function.update_self, Option.bind_assoc]
    refine congrArg _ (funext fun changed => ?_)
    rw [Evolution.applyAll?_append]
    refine congrArg _ (funext fun after => ?_)
    rw [Evolution.applyAll?_singleton, changeAt?_nil]
  | cons index rest ih =>
    rw [nodeAt?_cons] at hpath
    rcases hchild : node.child? index with _ | child
    · rw [hchild] at hpath
      cases hpath
    · rw [hchild, Option.bind_some] at hpath
      have hhere : changes start = [] := by
        have := habove [] List.nil_prefix (List.cons_ne_nil _ _).symm
        rwa [List.append_nil] at this
      have hassoc : start ++ index :: rest = start.child index ++ rest := by
        rw [Path.child, List.append_assoc, List.singleton_append]
      have hne : start ≠ start.child index ++ rest := by
        intro heq
        have := congrArg List.length heq
        simp only [Path.child, List.length_append, List.length_singleton] at this
        omega
      have hbelow : rewriteAll? (Function.update changes (start.child index ++ rest)
          (changes (start.child index ++ rest) ++ [evolution])) start 0 node.children =
            (rewriteAll? changes start 0 node.children).bind fun changed =>
              (changed[index]?.bind fun next => next.changeAt? rest evolution).map
                (changed.set index) := by
        refine rewriteAll?_bind hchild ?_ ?_
        · rw [Nat.zero_add]
          refine ih hpath fun upper hupper hne => ?_
          rw [Path.child, List.append_assoc]
          refine habove (index :: upper) (List.cons_prefix_cons.mpr ⟨rfl, hupper⟩) ?_
          exact fun heq => hne (List.cons.inj heq).2
        · intro other _ j hj
          refine rewrite?_congr fun path hpath => Function.update_of_ne ?_ _ _
          rintro rfl
          rw [Nat.zero_add] at hj
          exact hj (eq_of_prefix_child hpath (List.prefix_append _ _))
      rw [hassoc, rewrite?_eq, rewrite?_eq, hbelow, Function.update_of_ne hne, hhere]
      rw [Option.bind_assoc, Option.bind_assoc]
      refine congrArg _ (funext fun changed => ?_)
      rw [Evolution.applyAll?_nil, Option.bind_some, changeAt?_withChildren]
      rcases (changed[index]?.bind fun next => next.changeAt? rest evolution).map
        (changed.set index) with _ | further
      · rfl
      · exact Evolution.applyAll?_nil _

end Node

/-! ## Plans -/

/-- The changes that a plan has for a path, in order. -/
def Plan.changesAt (plan : Plan) (path : Path) : List Evolution :=
  (plan.filter fun entry => entry.path == path).map PlanEntry.evolution

theorem Plan.changesAt_append_singleton (plan : Plan) (entry : PlanEntry) :
    Plan.changesAt (plan ++ [entry]) =
      Function.update plan.changesAt entry.path
        (plan.changesAt entry.path ++ [entry.evolution]) := by
  funext path
  by_cases hpath : path = entry.path
  · subst hpath
    simp [changesAt]
  · have hne : (entry.path == path) = false := by
      rw [beq_eq_false_iff_ne]
      exact Ne.symm hpath
    simp [changesAt, hpath, hne]

/-- A plan has no changes for the paths that none of its entries has. -/
theorem Plan.changesAt_eq_nil {plan : Plan} {path : Path}
    (h : ∀ entry ∈ plan, entry.path ≠ path) : plan.changesAt path = [] := by
  rw [changesAt, List.map_eq_nil_iff, List.filter_eq_nil_iff]
  intro entry hentry
  rw [beq_iff_eq]
  exact h entry hentry

/-- No entry of a plan is above a later one. -/
def Plan.FromBelow (plan : Plan) : Prop :=
  plan.Pairwise fun earlier later => earlier.path <+: later.path → earlier.path = later.path

theorem toOption_replayEntry (root : Node) (entry : PlanEntry) :
    (replayEntry root entry).toOption = root.changeAt? entry.path entry.evolution := by
  unfold replayEntry Node.changeAt?
  rcases root.nodeAt? entry.path with _ | node
  · rfl
  · rcases hchanged : entry.evolution.applyTo? node with _ | changed
    · simp [hchanged, Except.toOption]
    · rcases hreplaced : root.replaceAt? entry.path changed with _ | replaced <;>
        simp [hchanged, hreplaced, Except.toOption]

/-- The entries of a plan that goes from below are applied one by one as a tree is rewritten. -/
theorem toOption_foldlM_replayEntry {root : Node} {plan : Plan}
    (hpaths : ∀ entry ∈ plan, (root.nodeAt? entry.path).isSome = true) (horder : plan.FromBelow) :
    (plan.foldlM replayEntry root).toOption = root.rewrite? plan.changesAt [] := by
  induction plan using List.reverseRecOn with
  | nil => exact (Node.rewrite?_nothing root []).symm
  | append_singleton plan entry ih =>
    obtain ⟨hplan, -, hlast⟩ := List.pairwise_append.mp horder
    have hih := ih (fun entry hentry => hpaths entry (List.mem_append_left _ hentry)) hplan
    -- an entry above the last one would have to come after it
    have habove : ∀ upper, upper <+: entry.path → upper ≠ entry.path →
        Plan.changesAt plan ([] ++ upper) = [] := by
      intro upper hupper hne
      refine Plan.changesAt_eq_nil ?_
      rintro earlier hearlier rfl
      exact hne (hlast earlier hearlier entry (List.mem_singleton.mpr rfl) hupper)
    have hupdate := Node.rewrite?_update entry.evolution
      (hpaths entry (List.mem_append_right _ (List.mem_singleton.mpr rfl))) habove
    rw [List.nil_append] at hupdate
    rw [Plan.changesAt_append_singleton, hupdate, ← hih, List.foldlM_append]
    rcases plan.foldlM replayEntry root with error | changed
    · rfl
    · change ([entry].foldlM replayEntry changed).toOption = changed.changeAt? _ _
      rw [← toOption_replayEntry, List.foldlM_cons]
      rcases replayEntry changed entry with error | after
      · rfl
      · rfl

end SourceEvolution
