import SourceEvolution.Planning.Replay
import SourceEvolution.Proofs.Passes
import SourceEvolution.Proofs.Planning.Blocks
import SourceEvolution.Proofs.Tree.Replacement

/-!
# What a replay leaves alone

A plan may come from anywhere: its entries can repeat a path, can lie above or below each other in
any order, and can be for other files. Whatever the plan, a replay touches no more than the nodes
that its entries for the file are for, and what is below them.

* **Steps** (`exists_replaceAt?_of_replayEntry`): one entry replaces the node at its path.
* **Runs** (`foldlM_replayEntry_induction`): what every step keeps, the replay keeps.
* **Frame** (`replay_frame`): paths that have nothing to do with the entries lead where they led
  before, and the nodes above the entries keep everything but what their children are.
-/

namespace SourceEvolution

/-! ## Steps -/

/-- One entry replaces the node at its path. -/
theorem exists_replaceAt?_of_replayEntry {root after : Node} {entry : PlanEntry}
    (h : replayEntry root entry = .ok after) :
    ∃ changed, root.replaceAt? entry.path changed = some after := by
  obtain ⟨node, changed, -, -, hreplaced⟩ := replayEntry_eq_ok_iff.mp h
  exact ⟨changed, hreplaced⟩

/-! ## Runs -/

/-- What holds of a tree, and is kept by each of the entries, holds after all of them. -/
theorem foldlM_replayEntry_induction {motive : Node → Prop} {entries : Plan}
    (step : ∀ entry ∈ entries, ∀ before after, replayEntry before entry = .ok after →
      motive before → motive after)
    {root evolved : Node} (h : entries.foldlM replayEntry root = .ok evolved)
    (start : motive root) : motive evolved := by
  induction entries generalizing root with
  | nil =>
    rw [List.foldlM_nil] at h
    cases h
    exact start
  | cons entry rest ih =>
    rw [List.forall_mem_cons] at step
    rw [List.foldlM_cons] at h
    obtain ⟨after, hentry, hrest⟩ := Except.bind_eq_ok_iff.mp h
    apply ih step.2 hrest
    exact step.1 root after hentry start

/-- A replay that comes to its end has gone through the entries for the file. -/
theorem foldlM_replayEntry_of_replay {source evolved : SourceFile} {plan : Plan}
    (h : replay source plan = .ok evolved) :
    (plan.entriesFor source.path).foldlM replayEntry source.root = .ok evolved.root ∧
      evolved.path = source.path := by
  unfold replay at h
  obtain ⟨root, hroot, hevolved⟩ := Except.bind_eq_ok_iff.mp h
  cases hevolved
  exact ⟨hroot, rfl⟩

theorem mem_entriesFor {plan : Plan} {file : String} {entry : PlanEntry} :
    entry ∈ plan.entriesFor file ↔ entry ∈ plan ∧ entry.file = file := by
  simp [Plan.entriesFor]

/-! ## Frame -/

/-- A replay touches only what its entries for the file are for. If no entry is above a path, at it
or below it, the path leads to the same node as before, or to none as before. If no entry is above a
path or at it, the node there keeps its kind, its text, its position and the number of its children.
-/
theorem replay_frame {source evolved : SourceFile} {plan : Plan}
    (h : replay source plan = .ok evolved) (path : Path) :
    evolved.path = source.path ∧
    ((∀ entry ∈ plan, entry.file = source.path →
        ¬ entry.path <+: path ∧ ¬ path <+: entry.path) →
      evolved.root.nodeAt? path = source.root.nodeAt? path) ∧
    ((∀ entry ∈ plan, entry.file = source.path → ¬ entry.path <+: path) →
      ∀ node, source.root.nodeAt? path = some node →
        ∃ kept, evolved.root.nodeAt? path = some kept ∧ node.SameHead kept) := by
  obtain ⟨hfold, hpath⟩ := foldlM_replayEntry_of_replay h
  refine ⟨hpath, ?_, ?_⟩
  · intro hunrelated
    refine foldlM_replayEntry_induction
      (motive := fun root => root.nodeAt? path = source.root.nodeAt? path) ?_ hfold rfl
    intro entry hentry before after hstep hbefore
    obtain ⟨hmem, hfile⟩ := mem_entriesFor.mp hentry
    obtain ⟨hbelow, habove⟩ := hunrelated entry hmem hfile
    obtain ⟨changed, hchanged⟩ := exists_replaceAt?_of_replayEntry hstep
    rw [Node.nodeAt?_replaceAt?_of_unrelated hchanged hbelow habove, hbefore]
  · intro hbelow node hnode
    refine foldlM_replayEntry_induction
      (motive := fun root => ∃ kept, root.nodeAt? path = some kept ∧ node.SameHead kept) ?_ hfold
      ⟨node, hnode, Node.SameHead.refl node⟩
    rintro entry hentry before after hstep ⟨kept, hkept, hsame⟩
    obtain ⟨hmem, hfile⟩ := mem_entriesFor.mp hentry
    obtain ⟨changed, hchanged⟩ := exists_replaceAt?_of_replayEntry hstep
    obtain ⟨later, hlater, hsame'⟩ :=
      Node.exists_sameHead_of_replaceAt? hchanged (hbelow entry hmem hfile) hkept
    exact ⟨later, hlater, hsame.trans hsame'⟩

/-- A plan that no search would find: it moves a function to the front of a struct, then changes the
function at its new path, and then adds initializers to the struct. One entry is for another file.
-/
def Sample.unsearchedPlan : Plan :=
  [⟨"Point@0.1", "Point", [0, 1], .shuffleMembers ⟨[2]⟩⟩,
    ⟨"Line@", "Line", [], .shuffleMembers ⟨[0]⟩⟩,
    ⟨"Point@0.1.0", "Point", [0, 1, 0], .changeDefaultArgument ⟨0, "2"⟩⟩,
    ⟨"Point@0.1", "Point", [0, 1], .synthesizeInitializers ⟨[[]]⟩⟩]

/-- The plan can be replayed on the file with a point. The name of the struct is left alone, and the
struct, whose members all move, is still a struct with two children. -/
theorem replay_frame_unsearchedPlan :
    ∃ evolved, replay Sample.pointFile Sample.unsearchedPlan = .ok evolved ∧
      evolved.root ≠ Sample.pointFile.root ∧
      evolved.root.nodeAt? [0, 0] = some (Build.identifier "Point") ∧
      ∃ kept, evolved.root.nodeAt? [0] = some kept ∧ kept.kind = .decl .structDecl ∧
        kept.children.length = 2 := by
  have hreplay : ∃ evolved, replay Sample.pointFile Sample.unsearchedPlan = .ok evolved ∧
      evolved.root ≠ Sample.pointFile.root :=
    ⟨⟨"Point", Sample.file [((Sketch.named .structDecl "Point").extended
      [Sample.function "move" [Sample.paramWithDefault "by" (Build.simpleType "Int") "2"],
        Sample.storedVar "x" "1", Sample.storedVar "y" "2", Sample.initializer []]).toNode]⟩,
      by decide +kernel, by decide +kernel⟩
  obtain ⟨evolved, hevolved, hne⟩ := hreplay
  obtain ⟨kept, hkept, hsame⟩ := (replay_frame hevolved [0]).2.2 (by decide) _ rfl
  exact ⟨evolved, hevolved, hne, (replay_frame hevolved [0, 0]).2.1 (by decide), kept, hkept,
    hsame.kind, hsame.length⟩

end SourceEvolution
