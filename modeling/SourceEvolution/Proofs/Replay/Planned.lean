import SourceEvolution.Proofs.Planning.Blocks
import SourceEvolution.Proofs.Replay.BottomUp

/-!
# Replay of a plan that has been made for the file

The entries of a plan that was made for a file are for nodes of the file, and no entry is above a
later one. So the plan is replayed from below, and all that matters is which changes it has for each
place.

* **Admission** (`Place.Admits`): the changes for a place are none, or one that suits the place
  behind what has to be applied first.
* **Plans** (`planFile_admits`, `toOption_foldlM_of_planFile`): a plan that was made for a file has
  only admitted changes, and replaying it is rewriting the tree with them.
-/

namespace SourceEvolution

variable {G : Type} [WordSource G]

/-- Changes are such as may be planned for a place. -/
def Place.Admits (aliasBound : Nat) (place : Place) (changes : List Evolution) : Prop :=
  changes = [] ∨ ∃ evolution : Evolution, evolution.Suits (place.site aliasBound) ∧
    changes = evolution.chain (place.site aliasBound)

/-! ## The changes for a place -/

theorem Plan.changesAt_append (first second : Plan) (path : Path) :
    Plan.changesAt (first ++ second) path = first.changesAt path ++ second.changesAt path := by
  simp [changesAt]

theorem Plan.changesAt_entries (file : String) (aliasBound : Nat) (evolution : Evolution)
    (place : Place) :
    Plan.changesAt (place.entries file aliasBound evolution) place.path =
      evolution.chain (place.site aliasBound) := by
  have hfilter : (place.entries file aliasBound evolution).filter
      (fun entry => entry.path == place.path) = place.entries file aliasBound evolution := by
    rw [List.filter_eq_self]
    intro entry hentry
    rw [(Place.path_of_mem_entries hentry).1, beq_self_eq_true]
  rw [changesAt, hfilter, Place.entries, List.map_map]
  exact List.map_id _

/-- All entries for a path are in the same block. -/
theorem changesAt_flatten {blocks : List Plan} {block : Plan} {entry : PlanEntry}
    (horder : blocks.Pairwise fun first second =>
      ∀ earlier ∈ first, ∀ later ∈ second, ¬ earlier.path <+: later.path)
    (hblock : block ∈ blocks) (hentry : entry ∈ block) :
    Plan.changesAt blocks.flatten entry.path = block.changesAt entry.path := by
  obtain ⟨before, after, rfl⟩ := List.append_of_mem hblock
  obtain ⟨-, hafter, hbefore⟩ := List.pairwise_append.mp horder
  have hbeforeNil : Plan.changesAt before.flatten entry.path = [] := by
    refine Plan.changesAt_eq_nil ?_
    intro earlier hearlier hpath
    obtain ⟨first, hfirst, hearlier⟩ := List.mem_flatten.mp hearlier
    exact hbefore first hfirst block List.mem_cons_self earlier hearlier entry hentry
      (hpath ▸ List.prefix_rfl)
  have hafterNil : Plan.changesAt after.flatten entry.path = [] := by
    refine Plan.changesAt_eq_nil ?_
    intro later hlater hpath
    obtain ⟨second, hsecond, hlater⟩ := List.mem_flatten.mp hlater
    exact (List.pairwise_cons.mp hafter).1 second hsecond entry hentry later hlater
      (hpath ▸ List.prefix_rfl)
  rw [List.flatten_append, List.flatten_cons, Plan.changesAt_append, Plan.changesAt_append,
    hbeforeNil, hafterNil, List.nil_append, List.append_nil]

/-! ## Plans -/

section plans

variable {config : PlannerConfig} {source : SourceFile} {words : G} {plan : Plan}

/-- An entry of a plan is for a change that suits a place of the file. -/
theorem exists_place_of_mem_planFile (h : (planFile config source words).1 = .ok plan)
    {entry : PlanEntry} (hentry : entry ∈ plan) :
    entry.file = source.path ∧ ∃ place ∈ source.root.places [] [], place.path = entry.path ∧
      place.Admits config.aliasBound (plan.changesAt entry.path) := by
  obtain ⟨blocks, hblocks, rfl⟩ := exists_blocks words h
  obtain ⟨block, hblock, hentry⟩ := List.mem_flatten.mp hentry
  rw [changesAt_flatten (pairwise_blocks hblocks) hblock hentry]
  obtain ⟨owner, hdrawn⟩ := exists_isDrawn hblocks hblock
  cases hdrawn with
  | nothing => cases hentry
  | @change place evolution mem owned decls suits =>
    obtain ⟨hpath, hfile⟩ := Place.path_of_mem_entries hentry
    refine ⟨hfile, place, mem, hpath.symm, Or.inr ⟨evolution, suits, ?_⟩⟩
    rw [hpath, Plan.changesAt_entries]

/-- A plan has only admitted changes for the places of the file. -/
theorem planFile_admits (h : (planFile config source words).1 = .ok plan) :
    ∀ place ∈ source.root.places [] [],
      place.Admits config.aliasBound (plan.changesAt place.path) := by
  intro place hplace
  by_cases hentries : ∃ entry ∈ plan, entry.path = place.path
  · obtain ⟨entry, hentry, hpath⟩ := hentries
    obtain ⟨-, other, hother, hotherPath, hadmits⟩ := exists_place_of_mem_planFile h hentry
    obtain rfl : other = place := Node.eq_of_mem_places hother hplace (hotherPath.trans hpath)
    rwa [hpath] at hadmits
  · refine Or.inl (Plan.changesAt_eq_nil fun entry hentry hpath => ?_)
    exact hentries ⟨entry, hentry, hpath⟩

/-- All entries of a plan are for the file that it was made for. -/
theorem entriesFor_of_planFile (h : (planFile config source words).1 = .ok plan) :
    plan.entriesFor source.path = plan := by
  rw [Plan.entriesFor, List.filter_eq_self]
  intro entry hentry
  rw [(exists_place_of_mem_planFile h hentry).1, beq_self_eq_true]

/-- Replaying the entries of a plan on the file that it was made for is rewriting the tree from
below. -/
theorem toOption_foldlM_of_planFile (h : (planFile config source words).1 = .ok plan) :
    (plan.foldlM replayEntry source.root).toOption = source.root.rewrite? plan.changesAt [] := by
  refine toOption_foldlM_replayEntry ?_ ?_
  · intro entry hentry
    obtain ⟨-, place, hplace, hpath, -⟩ := exists_place_of_mem_planFile h hentry
    obtain ⟨rest, hrest, hnode, -⟩ := Node.mem_places_iff.mp hplace
    rw [← hpath, hrest, List.nil_append, hnode]
    rfl
  · obtain ⟨blocks, hblocks, rfl⟩ := exists_blocks words h
    exact (pairwise_entries hblocks).imp fun hentries hextends => (hentries hextends).1

end plans

end SourceEvolution
