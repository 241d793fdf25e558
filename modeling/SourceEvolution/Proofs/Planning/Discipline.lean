import SourceEvolution.Proofs.Planning.Harvest
import SourceEvolution.Tree.Sample

/-!
# The discipline of the walk

The walk opens and closes scopes and frames in pairs, and it would notice if a pair did not match.
This module follows the walk through a file call by call and says that it never notices anything.

* **Calls** (`Walk.Comes`): the walk comes to the node at a path in a state. The root is where it
  starts, and it comes to a child once the node has been opened and searched and the children before
  it have been walked.
* **Standing** (`Walk.Stands`, `Walk.Comes.stands`): at every call the scope is the chain of
  declarations above the node, and there is a frame for what is found.
* **Tidiness** (`Walk.Tidy`, `planFile_refines_survey`): every call leaves the scope and the frames
  as it found them, but for candidates added to the innermost frame by a node that is no
  declaration, and the plan grows only at its end. The frame of a declaration holds exactly what its
  territory offers. The whole walk makes the plan that the survey makes.
-/

namespace SourceEvolution

variable {G H : Type} [WordSource G] [WordSource H]

namespace Walk

/-! ## Calls -/

/-- The walk through a tree, from a starting state, comes to the node at a path in a state. -/
inductive Comes (exclusions : Exclusions) (file : String) (root : Node) (start : Walk G) :
    Path → Node → Walk G → Prop where
  /-- The walk starts at the root. -/
  | root : Comes exclusions file root start [] root start
  /-- It comes to a child after the node itself and the children before it. -/
  | child {path : Path} {node child : Node} {walk opened collected before : Walk G}
      {id : Option FrameId} {index : Nat} (parent : Comes exclusions file root start path node walk)
      (opening : openScope node walk = .ok id opened)
      (collecting : collect exclusions path node opened = .ok () collected)
      (walking : visitAll exclusions file path 0 (node.children.take index) collected =
        .ok () before)
      (here : node.children[index]? = some child) :
      Comes exclusions file root start (path.child index) child before

/-- The walk stands at a node below the declarations `met`. -/
structure Stands (root : Node) (aliasBound : Nat) (path : Path) (node : Node)
    (met : List (Path × Decl)) (walk : Walk G) : Prop where
  /-- The declarations are above the node. -/
  above : Node.Above path met
  /-- What is at and below the node is part of the tree. -/
  places : ∀ place ∈ node.places path met, place ∈ root.places [] []
  /-- The scope is made of these declarations. -/
  scope : walk.scope = ⟨met.map Prod.snd, aliasBound⟩
  /-- There is a frame for what is found, or the node opens one. -/
  frame : node.kind.isDeclaration = true ∨ walk.frames.stack ≠ []

/-! ## Opening and collecting -/

omit [WordSource G] in
/-- Opening enters the scope of the node and makes sure that there is a frame. -/
theorem openScope_ok {node : Node} {walk opened : Walk G} {id : Option FrameId}
    (hframe : node.kind.isDeclaration = true ∨ walk.frames.stack ≠ [])
    (h : openScope node walk = .ok id opened) :
    opened.scope = walk.scope.enter node ∧ opened.frames.stack ≠ [] := by
  rcases hdecl : Decl.ofNode? node with _ | decl
  · rw [openScope_of_none hdecl] at h
    cases h
    have hkind := Decl.ofNode?_eq_none_iff.mp hdecl
    refine ⟨by simp only [Scope.enter, hdecl], ?_⟩
    rcases hframe with hframe | hframe
    · exact absurd (hkind.symm.trans hframe) Bool.false_ne_true
    · exact hframe
  · rw [openScope_of_some hdecl] at h
    cases h
    exact ⟨by simp only [opened, Scope.enter, hdecl], List.cons_ne_nil _ _⟩

/-- Collecting adds what the survey finds at the node to the innermost frame. -/
theorem collect_ok {exclusions : Exclusions} {path : Path} {node : Node} {walk after : Walk G}
    (hframe : walk.frames.stack ≠ []) (h : collect exclusions path node walk = .ok () after) :
    ∃ own words, Survey.tryKinds exclusions walk.scope path node EvolutionKind.all walk.words =
        .ok own words ∧ after = walk.absorb ⟨own, []⟩ words := by
  have hcarries := forM_collectKind_carries exclusions path node EvolutionKind.all hframe
  change Carries (collect exclusions path node walk) _ _ at hcarries
  rw [h] at hcarries
  exact hcarries.exists_of_ok

/-- Walking through children adds what the survey of them brings in. -/
theorem visitAll_ok {exclusions : Exclusions} {file : String} {path : Path} {index : Nat}
    {children : List Node} {walk after : Walk G} (hframe : walk.frames.stack ≠ [])
    (h : visitAll exclusions file path index children walk = .ok () after) :
    ∃ below words, Survey.surveyAll exclusions file walk.scope path index children walk.words =
        .ok below words ∧ after = walk.absorb below words := by
  have hcarries := visitAll_carries exclusions file path index children hframe
  rw [h] at hcarries
  exact hcarries.exists_of_ok

/-- At every call the scope is the chain of declarations above the node, and there is a frame. -/
theorem Comes.stands {config : PlannerConfig} {file : String} {root : Node} {words : G}
    (hroot : root.kind.isDeclaration = true) {path : Path} {node : Node} {walk : Walk G}
    (h : Comes config.exclusions file root (start config words) path node walk) :
    ∃ met, Stands root config.aliasBound path node met walk := by
  induction h with
  | root => exact ⟨[], Node.above_nil [], fun _ h => h, rfl, Or.inl hroot⟩
  | @child path node child walk opened collected before id index parent opening collecting walking
      here ih =>
    obtain ⟨met, hstands⟩ := ih
    obtain ⟨hscope, hframe⟩ := openScope_ok hstands.frame opening
    obtain ⟨own, left, -, rfl⟩ := collect_ok hframe collecting
    have hframe := stack_absorb_ne_nil hframe ⟨own, []⟩ left
    obtain ⟨below, rest, -, rfl⟩ := visitAll_ok hframe walking
    refine ⟨node.declsHere path met, hstands.above.declsHere node index, ?_, ?_, ?_⟩
    · intro place hplace
      refine hstands.places place ?_
      rw [Node.places_eq, List.mem_cons, Node.mem_placesOf]
      exact Or.inr ⟨index, child, here, hplace⟩
    · change opened.scope = _
      rw [hscope, hstands.scope, Node.enter_declsHere node path met]
    · exact Or.inr (stack_absorb_ne_nil hframe below rest)

/-! ## Tidiness -/

/-- What is promised of the call at a node, in the state in which the walk comes to it. -/
structure Tidy (config : PlannerConfig) (source : SourceFile) (others : H) (path : Path)
    (node : Node) (walk : Walk G) : Prop where
  /-- The path leads to the node. -/
  addressed : source.root.nodeAt? path = some node
  /-- The call fails only where a search fails: no frame is closed out of its turn, no candidate is
  found outside every frame, and every number drawn is the number of a candidate. -/
  failure : ∀ cause after,
    visit config.exclusions source.path path node walk = .error cause after →
      ∃ error, cause = .evolution error
  /-- The scope is left as it was. -/
  scope : ∀ after, visit config.exclusions source.path path node walk = .ok () after →
    after.scope = walk.scope
  /-- The frames are left as they were, but for candidates at the end of the innermost one; a
  declaration leaves that one as it was, too. -/
  frames : ∀ after, visit config.exclusions source.path path node walk = .ok () after →
    ∃ more, after.frames.stack = walk.frames.stack.modifyHead (fun frame =>
        { frame with candidates := frame.candidates ++ more }) ∧
      (node.kind.isDeclaration = true → more = [])
  /-- The plan grows at its end only. -/
  plan : ∀ after, visit config.exclusions source.path path node walk = .ok () after →
    walk.plan <+: after.plan
  /-- The frame of a declaration is closed in its turn. It holds what the places that the
  declaration owns offer, in the order of the places, and one of these is drawn. -/
  frame : ∀ id opened collected before, openScope node walk = .ok (some id) opened →
    collect config.exclusions path node opened = .ok () collected →
    visitAll config.exclusions source.path path 0 node.children collected = .ok () before →
      ∃ candidates, (before.frames.pop id).1 = .ok candidates ∧
        candidates.map Candidate.label =
          ((source.root.places [] []).filter fun place => place.owner? == some path).flatMap
            (Place.offers config.exclusions config.aliasBound others) ∧
        (∀ candidate ∈ candidates,
          source.root.nodeAt? candidate.path = some candidate.node) ∧
        (candidates ≠ [] →
          (WordSource.below candidates.length before.words).1 < candidates.length)

section calls

variable {config : PlannerConfig} {source : SourceFile} {path : Path} {node : Node} {walk : Walk G}
  {met : List (Path × Decl)}

omit [WordSource G] in
theorem Stands.placeHere_mem (h : Stands source.root config.aliasBound path node met walk) :
    node.placeHere path met ∈ source.root.places [] [] :=
  h.places _ (by rw [Node.places_eq]; exact List.mem_cons_self)

omit [WordSource G] in
theorem Stands.addressed (h : Stands source.root config.aliasBound path node met walk) :
    source.root.nodeAt? path = some node := by
  obtain ⟨rest, hpath, hnode, -⟩ := Node.mem_places_iff.mp h.placeHere_mem
  rw [List.nil_append] at hpath
  rw [show path = rest from hpath]
  exact hnode

/-- A call leaves behind what the survey of the node brings in, and a declaration leaves nothing to
the declaration around it. -/
theorem Stands.visit_ok (h : Stands source.root config.aliasBound path node met walk)
    {after : Walk G} (hvisit : visit config.exclusions source.path path node walk = .ok () after) :
    ∃ harvest words, after = walk.absorb harvest words ∧
      (node.kind.isDeclaration = true → harvest.loose = []) := by
  have hcarries := visit_carries config.exclusions source.path path node h.frame
  rw [hvisit, h.scope] at hcarries
  obtain ⟨harvest, words, hsurvey, rfl⟩ := hcarries.exists_of_ok
  refine ⟨harvest, words, rfl, fun hkind => ?_⟩
  have hlabels := (survey_fits walk.words node h.above hsurvey).labels
  rw [Node.filter_owner?_eq_nil h.above hkind] at hlabels
  exact List.map_eq_nil_iff.mp hlabels

/-- A call fails only where the survey fails. -/
theorem Stands.visit_error (h : Stands source.root config.aliasBound path node met walk)
    {cause : WalkError} {after : Walk G}
    (hvisit : visit config.exclusions source.path path node walk = .error cause after) :
    ∃ error, cause = .evolution error := by
  have hcarries := visit_carries config.exclusions source.path path node h.frame
  rw [hvisit] at hcarries
  rcases hsurvey : Survey.survey config.exclusions source.path walk.scope path node walk.words
    with ⟨harvest, words⟩ | ⟨error, words⟩
  · rw [hsurvey] at hcarries
    cases hcarries
  · rw [hsurvey] at hcarries
    obtain ⟨_, hfailed, -⟩ := hcarries
    cases hfailed
    exact ⟨error, rfl⟩

/-- When a declaration is about to be closed, its frame is the innermost one and holds what the
places that it owns offer. -/
theorem Stands.frame_closes (h : Stands source.root config.aliasBound path node met walk)
    (others : H) {id : FrameId} {opened collected before : Walk G}
    (opening : openScope node walk = .ok (some id) opened)
    (collecting : collect config.exclusions path node opened = .ok () collected)
    (walking : visitAll config.exclusions source.path path 0 node.children collected =
      .ok () before) :
    ∃ candidates, (before.frames.pop id).1 = .ok candidates ∧
      candidates.map Candidate.label =
        ((source.root.places [] []).filter fun place => place.owner? == some path).flatMap
          (Place.offers config.exclusions config.aliasBound others) := by
  rcases hdecl : Decl.ofNode? node with _ | decl
  · rw [openScope_of_none hdecl] at opening
    cases opening
  · rw [openScope_of_some hdecl] at opening
    cases opening
    have hscope : (walk.opened decl).scope =
        ⟨(node.declsHere path met).map Prod.snd, config.aliasBound⟩ := by
      rw [← Node.enter_declsHere, ← h.scope]
      simp only [Walk.opened, Scope.enter, hdecl]
    have hframe : (walk.opened decl).frames.stack ≠ [] := List.cons_ne_nil _ _
    obtain ⟨own, left, hown, rfl⟩ := collect_ok hframe collecting
    obtain ⟨below, rest, hbelow, rfl⟩ :=
      visitAll_ok (stack_absorb_ne_nil hframe ⟨own, []⟩ left) walking
    change Survey.surveyAll _ _ (walk.opened decl).scope _ _ _ _ = _ at hbelow
    rw [hscope] at hown hbelow
    rw [absorb_absorb]
    have hmem : node.placeHere path met ∈ source.root.closingPlaces [] [] :=
      Node.mem_closingPlaces_iff.mpr ⟨h.placeHere_mem, Decl.isDeclaration_of_ofNode? hdecl⟩
    refine ⟨own ++ below.loose, ?_, ?_⟩
    · simp [Walk.opened, absorb, Frames.absorb, Frames.push, Frames.pop, Harvest.append]
    · have hfits := surveyAll_fits others node.children 0
        (fun index => h.above.declsHere node index) hbelow
      rw [frame_labels hdecl hown hfits,
        ← Node.territory_eq_filter (Node.above_nil []) hmem]
      rfl

/-- Every call is tidy. -/
theorem Stands.tidy (h : Stands source.root config.aliasBound path node met walk) (others : H) :
    Tidy config source others path node walk where
  addressed := h.addressed
  failure := fun _ _ hvisit => h.visit_error hvisit
  scope := by
    intro after hvisit
    obtain ⟨harvest, words, rfl, -⟩ := h.visit_ok hvisit
    rfl
  frames := by
    intro after hvisit
    obtain ⟨harvest, words, rfl, hloose⟩ := h.visit_ok hvisit
    exact ⟨harvest.loose, rfl, hloose⟩
  plan := by
    intro after hvisit
    obtain ⟨harvest, words, rfl, -⟩ := h.visit_ok hvisit
    exact List.prefix_append _ _
  frame := by
    intro id opened collected before opening collecting walking
    obtain ⟨candidates, hpop, hlabels⟩ := h.frame_closes others opening collecting walking
    refine ⟨candidates, hpop, hlabels, ?_, ?_⟩
    · intro candidate hcandidate
      obtain ⟨place, hplace, hpath, hnode, -⟩ := exists_place_of_labels hlabels hcandidate
      obtain ⟨rest, hrest, hat, -⟩ := Node.mem_places_iff.mp (List.mem_of_mem_filter hplace)
      rw [← hpath, ← hnode, hrest]
      exact hat
    · intro hne
      exact WordSource.below_lt (List.length_pos_iff.mpr hne) before.words

end calls

end Walk

/-- The walk through a file makes the plan that the survey makes. It closes every frame and leaves
every scope that it opens, and every call on the way is tidy. -/
theorem planFile_refines_survey (config : PlannerConfig) (source : SourceFile) (words : G)
    (others : H) (hroot : source.root.kind = .decl .file) :
    planFile config source words = surveyFile config source words ∧
      (∀ after, Walk.visit config.exclusions source.path [] source.root (Walk.start config words) =
          .ok () after → after.scope.chain = [] ∧ after.frames.isEmpty = true) ∧
      ∀ path node walk, Walk.Comes config.exclusions source.path source.root
          (Walk.start config words) path node walk →
        Walk.Tidy config source others path node walk := by
  have hdecl : source.root.kind.isDeclaration = true := by
    rw [hroot]
    rfl
  have htidy : ∀ path node walk, Walk.Comes config.exclusions source.path source.root
      (Walk.start config words) path node walk → Walk.Tidy config source others path node walk := by
    intro path node walk hcomes
    obtain ⟨met, hstands⟩ := hcomes.stands hdecl
    exact hstands.tidy others
  refine ⟨planFile_eq_surveyFile config source words, ?_, htidy⟩
  intro after hvisit
  have hstart := htidy _ _ _ Walk.Comes.root
  obtain ⟨more, hframes, -⟩ := hstart.frames after hvisit
  refine ⟨?_, ?_⟩
  · rw [hstart.scope after hvisit]
    rfl
  · rw [Frames.isEmpty, hframes]
    rfl

/-- The walk through a struct with a few properties, which is tidy at its start. -/
theorem planFile_refines_survey_resilientStruct :
    planFile {} ⟨"Point", Sample.resilientStruct⟩ (WordStream.ofSeed 7) =
        surveyFile {} ⟨"Point", Sample.resilientStruct⟩ (WordStream.ofSeed 7) ∧
      Walk.Tidy {} ⟨"Point", Sample.resilientStruct⟩ (WordStream.ofSeed 0) [] Sample.resilientStruct
        (Walk.start {} (WordStream.ofSeed 7)) := by
  obtain ⟨hsurvey, -, htidy⟩ := planFile_refines_survey {} ⟨"Point", Sample.resilientStruct⟩
    (WordStream.ofSeed 7) (WordStream.ofSeed 0) rfl
  exact ⟨hsurvey, htidy _ _ _ Walk.Comes.root⟩

end SourceEvolution
