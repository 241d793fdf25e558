import SourceEvolution.Proofs.Change.Application
import SourceEvolution.Proofs.Planning.Documents
import SourceEvolution.Proofs.Replay.Planned

/-!
# Saving a plan

A plan that was made for a file can be saved and read again. Two things could be in the way. Indices
could be too large: but they number nodes of the tree, and a tree has no more nodes than its text
has characters. And the plan could be nested too deeply: it holds types that are copied from the
file. But such a type stands four levels below a member block, which is more than what the plan puts
around it.

* **Trees** (`Node.size_le_of_ofJson?`, `Node.bounds_of_nodeAt?`): how large and how deeply nested a
  tree is bounds every node of it.
* **Changes** (`Evolution.indicesFit_of_suits`, `Evolution.depth_toJson_le_of_suits`): a change is
  bounded by the node that it has been found for.
* **Plans** (`parse?_render_of_planFile`).
-/

namespace SourceEvolution

/-! ## Trees -/

namespace Node

theorem size_lt_of_mem_children {node child : Node} (h : child ∈ node.children) :
    child.size < node.size := by
  obtain ⟨before, after, hchildren⟩ := List.append_of_mem h
  rw [size_eq node, hchildren, sizeList_append, sizeList]
  omega

theorem length_children_lt_size (node : Node) : node.children.length < node.size := by
  have hlength : ∀ nodes : List Node, nodes.length ≤ sizeList nodes := by
    intro nodes
    induction nodes with
    | nil => exact Nat.le_refl 0
    | cons first rest ih =>
      rw [sizeList, size_eq, List.length_cons]
      omega
  have hchildren := hlength node.children
  rw [size_eq]
  omega

theorem length_parameters_lt_size (node : Node) : node.parameters.length < node.size := by
  unfold parameters
  split
  · rename_i clause hclause
    have hclauseSize := size_lt_of_mem_children (List.mem_of_find?_eq_some hclause)
    have hchildren := clause.length_children_lt_size
    have hfilter : (clause.allOf .parameter).length ≤ clause.children.length :=
      List.length_filter_le _ _
    omega
  · rw [size_eq, List.length_nil]
    omega

theorem sizeList_le_sizeOfItems {items : List Json} {nodes : List Node}
    (hread : items.mapM ofJson? = some nodes)
    (h : ∀ node ∈ nodes, ∀ json, ofJson? json = some node → node.size ≤ json.size) :
    sizeList nodes ≤ Json.sizeOfItems items := by
  have hall := forall₂_of_mapM hread
  clear hread
  induction hall with
  | nil => exact Nat.le_refl 0
  | cons hfirst _ ih =>
    obtain ⟨hnode, hrest⟩ := List.forall_mem_cons.mp h
    rw [sizeList, Json.sizeOfItems]
    exact Nat.add_le_add (hnode _ hfirst) (ih hrest)

/-- A tree has no more nodes than the value that it is read from has parts. -/
theorem size_le_of_ofJson? {json : Json} {node : Node} (h : ofJson? json = some node) :
    node.size ≤ json.size := by
  induction node using inductionOn generalizing json with
  | step node ih =>
    obtain ⟨-, -, hchildren⟩ := parts_of_ofJson? h
    by_cases hempty : node.children = []
    · rw [size_eq, hempty]
      exact json.size_pos
    · obtain ⟨items, hnested, hread⟩ := hchildren hempty
      have hsum := sizeList_le_sizeOfItems hread fun child hchild json hjson =>
        ih child hchild hjson
      have hsize := hnested.size_lt
      rw [Json.size] at hsize
      rw [size_eq]
      omega

/-- A child is written inside two containers of its node. -/
theorem depth_toJson_child {node child : Node} (h : child ∈ node.children) :
    child.toJson.depth + 2 ≤ node.toJson.depth := by
  have hfield : ("children", Json.array (node.children.map toJson)) ∈ node.documentFields := by
    simp [documentFields, List.ne_nil_of_mem h]
  have hobject := Json.depth_lt_of_mem_object hfield
  have harray : child.toJson.depth < (Json.array (node.children.map toJson)).depth :=
    Json.depth_lt_of_mem_array (List.mem_map_of_mem h)
  rw [toJson_eq node]
  change (Json.array (node.children.map toJson)).depth < _ at hobject
  omega

/-- Every node of a tree is bounded by the tree, and so is every index that leads to it. -/
theorem bounds_of_nodeAt? {root node : Node} {path : Path} (h : root.nodeAt? path = some node) :
    node.size ≤ root.size ∧ node.toJson.depth ≤ root.toJson.depth ∧
      ∀ index ∈ path, index < root.size := by
  induction path generalizing root with
  | nil =>
    cases h
    exact ⟨Nat.le_refl _, Nat.le_refl _, fun _ hindex => absurd hindex List.not_mem_nil⟩
  | cons first rest ih =>
    rw [nodeAt?_cons] at h
    obtain ⟨child, hchild, h⟩ := Option.bind_eq_some_iff.mp h
    have hmem := List.mem_of_getElem? hchild
    have hfirst := (List.getElem?_eq_some_iff.mp hchild).1
    obtain ⟨hsize, hdepth, hrest⟩ := ih h
    have hchildSize := size_lt_of_mem_children hmem
    have hchildDepth := depth_toJson_child hmem
    refine ⟨by omega, by omega, List.forall_mem_cons.mpr ⟨?_, fun index hindex => ?_⟩⟩
    · exact Nat.lt_trans hfirst root.length_children_lt_size
    · exact Nat.lt_trans (hrest index hindex) hchildSize

end Node

/-- The tree of a source file is bounded by what the file is read from. -/
theorem SourceFile.bounds_of_ofJson? {json : Json} {source : SourceFile}
    (h : SourceFile.ofJson? json = some source) :
    source.root.toJson.depth < json.depth ∧ source.root.size < json.size := by
  rw [SourceFile.ofJson?] at h
  split at h
  · rename_i path root hrecord
    obtain ⟨name, -, h⟩ := Option.bind_eq_some_iff.mp h
    obtain ⟨node, hnode, h⟩ := Option.bind_eq_some_iff.mp h
    cases h
    have hnested : root.NestedIn json := Json.nestedIn_of_record? hrecord (by simp)
    exact ⟨Nat.lt_of_le_of_lt (Node.depth_toJson_le hnode) hnested.depth_lt,
      Nat.lt_of_le_of_lt (Node.size_le_of_ofJson? hnode) hnested.size_lt⟩
  · cases h

/-! ## Changes -/

theorem Json.depth_array_natural_le (indices : List Nat) :
    (Json.array (indices.map .natural)).depth ≤ 1 := by
  refine Json.depth_array_le Nat.one_pos fun item hitem => ?_
  obtain ⟨index, -, rfl⟩ := List.mem_map.mp hitem
  exact Nat.one_pos

theorem InitializerParameter.depth_toJson_le (parameter : InitializerParameter) :
    parameter.toJson.depth ≤ parameter.type.toJson.depth + 1 :=
  Json.depth_object_le (Nat.succ_pos _) (List.forall_mem_cons.mpr
    ⟨Nat.succ_pos _, List.forall_mem_singleton.mpr (Nat.lt_succ_self _)⟩)

namespace Initializers

/-- A parameter of an implicit initializer has the type of a binding that the initializer assigns.
-/
theorem exists_of_mem_signaturesFor {bindings : List Node} {signature : Signature}
    {parameter : InitializerParameter} (hsignature : signature ∈ signaturesFor bindings)
    (hparameter : parameter ∈ signature) :
    ∃ binding ∈ bindings, binding.declaredType? = some parameter.type := by
  rw [signaturesFor, List.mem_append] at hsignature
  rcases hsignature with hnone | hall
  · split at hnone
    · rw [List.mem_singleton.mp hnone] at hparameter
      exact absurd hparameter List.not_mem_nil
    · exact absurd hnone List.not_mem_nil
  · split at hall
    · rw [List.mem_singleton.mp hall] at hparameter
      obtain ⟨binding, hbinding, hread⟩ := List.mem_filterMap.mp hparameter
      obtain ⟨name, -, hread⟩ := Option.bind_eq_some_iff.mp hread
      obtain ⟨type, htype, hread⟩ := Option.bind_eq_some_iff.mp hread
      cases hread
      exact ⟨binding, hbinding, htype⟩
    · exact absurd hall List.not_mem_nil

/-- The type of a binding that an initializer assigns stands four levels below the member block. -/
theorem depth_type_of_mem_assigned {block binding type : Node} (hbinding : binding ∈ assigned block)
    (htype : binding.declaredType? = some type) :
    type.toJson.depth + 8 ≤ block.toJson.depth := by
  obtain ⟨decl, hdecl, hbinding⟩ := List.mem_flatMap.mp hbinding
  obtain ⟨member, hmember, hnode⟩ := List.mem_filterMap.mp (List.mem_of_mem_filter hdecl)
  rw [← Decl.ofNode?_eq_some_iff.mp hnode] at hmember
  obtain ⟨clause, hclause, htype⟩ := Option.bind_eq_some_iff.mp htype
  -- the way down is: declaration, binding, annotation, type
  have hbindingMem : binding ∈ decl.node.children :=
    List.mem_of_mem_filter (List.mem_of_mem_filter hbinding)
  have hdeclDepth := Node.depth_toJson_child hmember
  have hbindingDepth := Node.depth_toJson_child hbindingMem
  have hclauseDepth := Node.depth_toJson_child (List.mem_of_find?_eq_some hclause)
  have htypeDepth := Node.depth_toJson_child (List.mem_of_find?_eq_some htype)
  omega

/-- The initializers that have been found for a node are those of its bindings. -/
theorem signatures_of_find {site : Site} {initializers : Initializers}
    (h : find site = .ok (some initializers)) :
    initializers.signatures = signaturesFor (assigned site.node) := by
  rw [find_eq] at h
  split at h
  · split at h
    · split at h
      · cases h
      · cases h
        rfl
    · cases h
  · cases h

/-- The four levels between a member block and a type take eight containers, and the signatures put
three around the type. -/
theorem depth_signatures_le {site : Site} {initializers : Initializers}
    (h : find site = .ok (some initializers)) :
    (Json.array (initializers.signatures.map Signature.toJson)).depth ≤
      max 2 (site.node.toJson.depth - 5) := by
  refine Json.depth_array_le (by omega) fun item hitem => ?_
  obtain ⟨signature, hsignature, rfl⟩ := List.mem_map.mp hitem
  rw [signatures_of_find h] at hsignature
  have hsignatureDepth : signature.toJson.depth ≤ max 1 (site.node.toJson.depth - 6) := by
    refine Json.depth_array_le (by omega) fun item hitem => ?_
    obtain ⟨parameter, hparameter, rfl⟩ := List.mem_map.mp hitem
    obtain ⟨binding, hbinding, htype⟩ := exists_of_mem_signaturesFor hsignature hparameter
    have htypeDepth := depth_type_of_mem_assigned hbinding htype
    have hparameterDepth := parameter.depth_toJson_le
    omega
  omega

end Initializers

namespace Evolution

/-- The indices of a change that has been found number children of the node, or parameters. -/
theorem indicesFit_of_suits {site : Site} {evolution : Evolution} (h : evolution.Suits site)
    (hsize : site.node.size ≤ Decimal.wordBound) : evolution.IndicesFit := by
  cases evolution with
  | shuffleMembers order =>
    intro index hindex
    rw [(MemberOrder.perm_range_of_suits h).mem_iff, List.mem_range] at hindex
    exact Nat.lt_of_lt_of_le (Nat.lt_trans hindex site.node.length_children_lt_size) hsize
  | synthesizeInitializers initializers => exact trivial
  | changeDefaultArgument change =>
    obtain ⟨-, choices, heligible, hchange⟩ := h
    have hindex := DefaultArgument.index_lt_of_mem_eligible heligible hchange
    have hparameters := site.node.length_parameters_lt_size
    change change.index < _
    omega

/-- A change that has been found is nested less deeply than the node by more than a plan puts around
it, or hardly nested at all. -/
theorem depth_toJson_le_of_suits {site : Site} {evolution : Evolution} (h : evolution.Suits site) :
    evolution.toJson.depth ≤ max 3 (site.node.toJson.depth - 4) := by
  rw [toJson_eq]
  refine Json.depth_object_le (by omega) (List.forall_mem_cons.mpr ⟨?_, ?_⟩)
  · change 0 < _
    omega
  · cases evolution with
    | shuffleMembers order =>
      have harray := Json.depth_array_natural_le order.mapping
      refine List.forall_mem_singleton.mpr ?_
      change (Json.array (order.mapping.map .natural)).depth < _
      omega
    | synthesizeInitializers initializers =>
      have harray := Initializers.depth_signatures_le h
      refine List.forall_mem_singleton.mpr ?_
      change (Json.array (initializers.signatures.map Signature.toJson)).depth < _
      omega
    | changeDefaultArgument change =>
      refine List.forall_mem_cons.mpr ⟨?_, List.forall_mem_singleton.mpr ?_⟩
      all_goals
        change 0 < _
        omega

/-- Everything that is applied for a change that has been found has been found itself. -/
theorem suits_of_mem_chain {site : Site} {evolution other : Evolution} (h : evolution.Suits site)
    (hother : other ∈ evolution.chain site) : other.Suits site := by
  rcases chain_of_suits h with ⟨hchain, -⟩ | ⟨initializers, order, rfl, -, hfind, hchain⟩
  · rw [hchain, List.mem_singleton] at hother
    rwa [hother]
  · rw [hchain] at hother
    rcases List.mem_pair.mp hother with rfl | rfl
    · exact hfind
    · exact h

end Evolution

/-! ## Plans -/

section plans

variable {G : Type} [WordSource G] {config : PlannerConfig} {source : SourceFile} {words : G}
  {plan : Plan}

/-- An entry of a plan is for a change that has been found at the place of the entry. -/
theorem exists_suits_of_mem_planFile (h : (planFile config source words).1 = .ok plan)
    {entry : PlanEntry} (hentry : entry ∈ plan) :
    ∃ place ∈ source.root.places [] [], place.path = entry.path ∧
      entry.evolution.Suits (place.site config.aliasBound) := by
  obtain ⟨-, place, hplace, hpath, hadmits⟩ := exists_place_of_mem_planFile h hentry
  have hmem : entry.evolution ∈ plan.changesAt entry.path :=
    List.mem_map_of_mem (List.mem_filter.mpr ⟨hentry, beq_self_eq_true _⟩)
  rcases hadmits with hnone | ⟨evolution, hsuits, hchain⟩
  · rw [hnone] at hmem
    exact absurd hmem List.not_mem_nil
  · rw [hchain] at hmem
    exact ⟨place, hplace, hpath, Evolution.suits_of_mem_chain hsuits hmem⟩

/-- An entry of a plan is bounded by the tree that the plan was made for. -/
theorem bounds_of_mem_planFile (h : (planFile config source words).1 = .ok plan)
    {entry : PlanEntry} (hentry : entry ∈ plan) (hsize : source.root.size ≤ Decimal.wordBound) :
    entry.IndicesFit ∧
      entry.evolution.toJson.depth ≤ max 3 (source.root.toJson.depth - 4) := by
  obtain ⟨place, hplace, hpath, hsuits⟩ := exists_suits_of_mem_planFile h hentry
  obtain ⟨rest, hrest, hnode, -⟩ := Node.mem_places_iff.mp hplace
  obtain ⟨hnodeSize, hnodeDepth, hindices⟩ := Node.bounds_of_nodeAt? hnode
  have hevolution : entry.evolution.toJson.depth ≤ max 3 (place.node.toJson.depth - 4) :=
    Evolution.depth_toJson_le_of_suits hsuits
  rw [hrest, List.nil_append] at hpath
  refine ⟨⟨fun index hindex => ?_, ?_⟩, by omega⟩
  · rw [← hpath] at hindex
    exact Nat.lt_of_lt_of_le (hindices index hindex) hsize
  · exact Evolution.indicesFit_of_suits hsuits (Nat.le_trans hnodeSize hsize)

/-- A plan is nested two levels more deeply than the changes in it. -/
theorem Plan.depth_toJson_le {n : Nat} (hpos : 0 < n)
    (h : ∀ entry ∈ plan, entry.evolution.toJson.depth ≤ n) : plan.toJson.depth ≤ n + 2 := by
  refine Json.depth_array_le (by omega) fun item hitem => ?_
  obtain ⟨entry, hentry, rfl⟩ := List.mem_map.mp hitem
  refine Nat.lt_succ_of_le (Json.depth_object_le (Nat.succ_pos n)
    (PlanEntry.forall_mem_fields (motive := fun part => part.depth < n + 1) ?_ ?_ ?_))
  · exact fun _ => Nat.succ_pos n
  · exact Nat.lt_of_le_of_lt (Json.depth_array_natural_le entry.path) (by omega)
  · exact Nat.lt_succ_of_le (h entry hentry)

/-- A plan that was made for a file that has been read is read from the text that it is saved as.
The length of a text is a number of 64 bits, like every index. -/
theorem parse?_render_of_planFile {text : String} (htext : SourceFile.parse? text = some source)
    (hlength : text.length < Decimal.wordBound) (h : (planFile config source words).1 = .ok plan) :
    plan.toJson.depth ≤ Json.nestingLimit ∧ Plan.parse? plan.render = some plan := by
  obtain ⟨json, hjson, hread⟩ := Option.bind_eq_some_iff.mp htext
  obtain ⟨hlimit, hparts⟩ := Json.bounds_of_parseWithin? hjson
  rw [String.length_toList] at hparts
  obtain ⟨hdepth, hsize⟩ := SourceFile.bounds_of_ofJson? hread
  have hbounds : ∀ entry ∈ plan, entry.IndicesFit ∧
      entry.evolution.toJson.depth ≤ max 3 (source.root.toJson.depth - 4) :=
    fun entry hentry => bounds_of_mem_planFile h hentry (by omega)
  have hplan : plan.toJson.depth ≤ Json.nestingLimit := by
    have hplanDepth := Plan.depth_toJson_le (by omega) fun entry hentry => (hbounds entry hentry).2
    rw [Json.nestingLimit] at hlimit ⊢
    omega
  exact ⟨hplan,
    Plan.isFormat.roundTrips.pretty plan (fun entry hentry => (hbounds entry hentry).1) hplan⟩

end plans

/-- The file with a point is read from its compact text, and the plan for it from the text that the
plan is saved as. -/
theorem parse?_render_pointPlan :
    SourceFile.parse? Sample.pointFile.toJson.compact = some Sample.pointFile ∧
      (planFile {} Sample.pointFile (WordStream.ofSeed 7)).1 = .ok Sample.pointPlan ∧
      Plan.parse? Sample.pointPlan.render = some Sample.pointPlan := by
  have hdepth : Sample.pointFile.toJson.depth ≤ Json.nestingLimit := by decide +kernel
  have hload : SourceFile.parse? Sample.pointFile.toJson.compact = some Sample.pointFile :=
    SourceFile.isFormat.roundTrips.compact Sample.pointFile trivial hdepth
  have hlength : Sample.pointFile.toJson.compact.length < Decimal.wordBound := by
    rw [Json.compact, String.length_ofList]
    decide +kernel
  have hsaved := parse?_render_of_planFile hload hlength planFile_pointFile
  exact ⟨hload, planFile_pointFile, hsaved.2⟩

end SourceEvolution
