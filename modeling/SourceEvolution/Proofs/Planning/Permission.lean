import SourceEvolution.Proofs.Planning.Blocks

/-!
# Exclusions are respected

Kinds are checked against the exclusions when candidates are looked for. What a chosen candidate
needs first is put into the plan without another check, so the first check has to cover it.

* **Chains** (`Evolution.permitsChain_of_mem_chain`): a permitted change stands behind permitted
  changes only, since the kinds that are needed at a site are among those that the kind may need.
* **Places** (`Place.scope_eq_scopeAt`): the name that the exclusions are asked about is that of the
  declarations on the way to the node.
* **Plans** (`permits_of_mem_planFile`): every entry of a plan is permitted for the declaration that
  it belongs to, and so is every kind that it may need first.
-/

namespace SourceEvolution

variable {G H : Type} [WordSource G] [WordSource H]

/-- What has to be applied before a permitted change is permitted too. -/
theorem Evolution.permitsChain_of_mem_chain {exclusions : Exclusions} {name : String} {site : Site}
    {evolution needed : Evolution} (h : exclusions.permitsChain evolution.kind name = true)
    (hneeded : needed ∈ evolution.chain site) :
    exclusions.permitsChain needed.kind name = true := by
  induction evolution using Evolution.chain.induct site with
  | case1 evolution ih =>
    rw [Evolution.chain_eq, List.mem_append, List.mem_flatMap, List.mem_singleton] at hneeded
    rcases hneeded with ⟨first, hfirst, hneeded⟩ | rfl
    · have hkind := Evolution.kind_mem_of_mem_prerequisites hfirst
      exact ih ⟨first, hfirst⟩ ((Exclusions.permitsChain_iff.mp h).2 first.kind hkind) hneeded
    · exact h

/-- The scope at a place of a tree is that of the node at its path. -/
theorem Place.scope_eq_scopeAt {root : Node} {place : Place} (h : place ∈ root.places [] [])
    (aliasBound : Nat) : place.scope aliasBound = root.scopeAt place.path aliasBound := by
  obtain ⟨rest, hpath, -, hdecls⟩ := Node.mem_places_iff.mp h
  rw [Place.scope, Node.scopeAt, hdecls, hpath, List.nil_append]

/-- The entries of a block are permitted where they belong. -/
theorem IsDrawn.permitsChain {config : PlannerConfig} {source : SourceFile} {others : H}
    {place : Place} {block : Plan} (h : IsDrawn config source others place block)
    {entry : PlanEntry} (hentry : entry ∈ block) :
    (source.root.nodeAt? entry.path).isSome = true ∧
      config.exclusions.permitsChain entry.evolution.kind
        (source.root.scopeAt entry.path config.aliasBound).qualifiedName = true := by
  cases h with
  | nothing => cases hentry
  | @change other evolution mem owner decls suits offered =>
    obtain ⟨needed, hneeded, rfl⟩ := List.mem_map.mp hentry
    obtain ⟨rest, hpath, hnode, -⟩ := Node.mem_places_iff.mp mem
    rw [isOffered, Bool.and_eq_true] at offered
    refine ⟨?_, ?_⟩
    · change (source.root.nodeAt? other.path).isSome = true
      rw [hpath, List.nil_append, hnode]
      rfl
    · change config.exclusions.permitsChain needed.kind
        (source.root.scopeAt other.path config.aliasBound).qualifiedName = true
      rw [← Place.scope_eq_scopeAt mem]
      exact Evolution.permitsChain_of_mem_chain offered.1 hneeded

/-- Every entry of a plan is for a node of the file. Its kind, and every kind that this may need
first, is permitted for the qualified name of the declarations around the node, itself included. -/
theorem permits_of_mem_planFile (config : PlannerConfig) (source : SourceFile) (words : G)
    {plan : Plan} (h : (planFile config source words).1 = .ok plan) :
    ∀ entry ∈ plan,
      (source.root.nodeAt? entry.path).isSome = true ∧
      config.exclusions.permits entry.evolution.kind
        (source.root.scopeAt entry.path config.aliasBound).qualifiedName = true ∧
      ∀ needed ∈ entry.evolution.kind.prerequisites, config.exclusions.permits needed
        (source.root.scopeAt entry.path config.aliasBound).qualifiedName = true := by
  intro entry hentry
  obtain ⟨blocks, hblocks, rfl⟩ := exists_blocks words h
  obtain ⟨block, hblock, hentry⟩ := List.mem_flatten.mp hentry
  obtain ⟨place, hdrawn⟩ := exists_isDrawn hblocks hblock
  obtain ⟨hnode, hpermits⟩ := hdrawn.permitsChain hentry
  obtain ⟨hkind, hprerequisites⟩ := Exclusions.permitsChain_iff.mp hpermits
  refine ⟨hnode, hkind, fun needed hneeded => ?_⟩
  exact (Exclusions.permitsChain_iff.mp (hprerequisites needed hneeded)).1

/-- The defaults of the function of a point may not change, and the members of another struct may
not be moved. -/
def Sample.guarded : PlannerConfig where
  exclusions := (({} : Exclusions).set .changeDefaultArgument (.names ["(file).Point.move"])).set
    .shuffleMembers (.names ["(file).Line"])

theorem planFile_guarded_pointFile :
    (planFile Sample.guarded Sample.pointFile (WordStream.ofSeed 7)).1 =
      .ok Sample.pointPlan.tail := by
  decide +kernel

/-- The members of the point are moved behind its initializers, and both are permitted there. -/
theorem permits_of_mem_planFile_guarded :
    (planFile Sample.guarded Sample.pointFile (WordStream.ofSeed 7)).1 =
        .ok Sample.pointPlan.tail ∧
      (Sample.pointFile.root.scopeAt [0, 1] defaultAliasBound).qualifiedName = "(file).Point" ∧
      ∃ entry ∈ Sample.pointPlan.tail, entry.path = [0, 1] ∧
        entry.evolution.kind = .shuffleMembers ∧
        Sample.guarded.exclusions.permits .shuffleMembers "(file).Point" = true ∧
        Sample.guarded.exclusions.permits .synthesizeInitializers "(file).Point" = true := by
  have hname : (Sample.pointFile.root.scopeAt [0, 1] defaultAliasBound).qualifiedName =
      "(file).Point" := by
    decide +kernel
  have hentry : Sample.pointPlan[2] ∈ Sample.pointPlan.tail := by decide
  obtain ⟨-, hkind, hneeded⟩ := permits_of_mem_planFile Sample.guarded Sample.pointFile
    (WordStream.ofSeed 7) planFile_guarded_pointFile _ hentry
  have hneeded := hneeded .synthesizeInitializers List.mem_cons_self
  change Sample.guarded.exclusions.permits _
    (Sample.pointFile.root.scopeAt [0, 1] defaultAliasBound).qualifiedName = true at hkind hneeded
  rw [hname] at hkind hneeded
  exact ⟨planFile_guarded_pointFile, hname, _, hentry, rfl, rfl, hkind, hneeded⟩

end SourceEvolution
