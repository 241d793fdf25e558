import SourceEvolution.Proofs.Planning.Blocks
import SourceEvolution.Proofs.Scope.Bare

/-!
# What positions decide

Positions are read in one place only: the label of an entry. This module says so for whole runs of
the planner. The planner does the same on a tree without positions, with the same words, so two
trees that are the same without positions are planned alike.

* **Searches** (`EvolutionKind.find_bare`): a search finds the same change with and without
  positions. Only the initializers of a struct hold nodes of the tree, the types of their
  parameters.
* **Chains** (`Evolution.chain_bare`): the same goes for what has to be applied first.
* **Surveys** (`Survey.survey_bare`): every step of a survey commutes with taking positions out.
* **Plans** (`planFile_bare`, `planFile_positions`).
-/

namespace SourceEvolution

variable {G : Type} [WordSource G]

/-! ## Searches -/

/-- A site without positions. -/
def Site.bare (site : Site) : Site :=
  ⟨site.node.bare, site.scope.bare, site.isInnermost⟩

/-- A parameter of an initializer, without the positions in its type. -/
def InitializerParameter.bare (parameter : InitializerParameter) : InitializerParameter :=
  { parameter with type := parameter.type.bare }

/-- Initializers without the positions in the types of their parameters. -/
def Initializers.bare (initializers : Initializers) : Initializers :=
  ⟨initializers.signatures.map (List.map InitializerParameter.bare)⟩

namespace Initializers

@[simp]
theorem assigned_bare (block : Node) : assigned block.bare = (assigned block).map Node.bare := by
  have hstorage : storage block.bare = (storage block).map Decl.bare := by
    simp [storage, List.filter_map, Function.comp_def]
  have hbindings : ∀ decl : Decl,
      assignedBindings decl.bare = (assignedBindings decl).map Node.bare := by
    intro decl
    simp [assignedBindings, List.filter_map, Function.comp_def]
  simp [assigned, hstorage, List.flatMap_map, List.map_flatMap, hbindings]

@[simp]
theorem isDetermined_bare (binding : Node) : isDetermined binding.bare = isDetermined binding := by
  have hliteral : (binding.initialValue?.map Node.bare).bind Node.literalType? =
      binding.initialValue?.bind Node.literalType? := by
    cases binding.initialValue? <;> simp
  simp [isDetermined, hliteral]

@[simp]
theorem parameter?_bare (binding : Node) :
    parameter? binding.bare = (parameter? binding).map InitializerParameter.bare := by
  unfold parameter?
  rw [Node.name?_bare, Node.declaredType?_bare]
  cases binding.name? <;> cases binding.declaredType? <;> rfl

theorem signaturesFor_bare (bindings : List Node) :
    signaturesFor (bindings.map Node.bare) =
      (signaturesFor bindings).map (List.map InitializerParameter.bare) := by
  have hparameters : (bindings.map Node.bare).filterMap parameter? =
      (bindings.filterMap parameter?).map InitializerParameter.bare := by
    simp [List.filterMap_map, List.map_filterMap]
  simp only [signaturesFor, hparameters, List.map_append, List.all_map, List.isEmpty_map,
    Function.comp_def, Node.initialValue?_bare, Node.declaredType?_bare, Option.isSome_map]
  congr 1
  · split <;> rfl
  · split <;> rfl

/-- The implicit initializers of a struct differ only in the positions inside their types. -/
theorem find_bare (site : Site) : find site.bare = (find site).map (Option.map bare) := by
  have hbindings : (assigned site.bare.node).all isDetermined =
      (assigned site.node).all isDetermined := by
    simp [Site.bare, List.all_map, Function.comp_def]
  have hsignatures : signaturesFor (assigned site.bare.node) =
      (signaturesFor (assigned site.node)).map (List.map InitializerParameter.bare) := by
    rw [Site.bare, assigned_bare, signaturesFor_bare]
  rw [find_eq, find_eq]
  simp only [hbindings, hsignatures]
  simp only [Site.bare, Node.bare_kind, Scope.hasImplicitInitializers_bare]
  split
  · split
    · cases signaturesFor (assigned site.node) <;> rfl
    · rfl
  · rfl

end Initializers

namespace MemberOrder

theorem isHeldBack_bare (site : Site) : isHeldBack site.bare = isHeldBack site := by
  have himplicit : site.bare.scope.hasImplicitInitializers = site.scope.hasImplicitInitializers :=
    Scope.hasImplicitInitializers_bare site.scope
  unfold isHeldBack
  rw [himplicit, Initializers.find_bare]
  rcases Initializers.find site with error | found
  · rfl
  · cases found <;> rfl

theorem isMovable_bare (scope : Scope) (member : Node) :
    isMovable scope.bare member.bare = isMovable scope member := by
  have hstored : ((Decl.ofNode? member.bare).any fun decl => decl.isStored? == some true) =
      (Decl.ofNode? member).any fun decl => decl.isStored? == some true := by
    rw [Decl.ofNode?_bare]
    cases Decl.ofNode? member <;> simp
  simp only [isMovable, pinsLayout, hstored, Scope.isResilient_bare, Node.bare_kind]

/-- Which members have a property depends on the property of each alone. -/
theorem indicesWhere_map_bare (p : Node → Bool) (members : List Node) :
    indicesWhere p (members.map Node.bare) =
      indicesWhere (fun member => p member.bare) members := by
  simp [indicesWhere, List.zipIdx_map, List.filter_map, Function.comp_def]

/-- A random order of members does not depend on positions, nor do the words that are drawn. -/
theorem find_bare (site : Site) :
    (find site.bare : Drawing G (Option MemberOrder)) = find site := by
  unfold find
  rw [isHeldBack_bare]
  simp only [Site.bare, Node.bare_kind, Node.bare_children, indicesWhere_map_bare, isMovable_bare]

end MemberOrder

namespace DefaultArgument

theorem newDefault?_bare (scope : Scope) (parameter : Node) :
    newDefault? scope.bare parameter.bare = newDefault? scope parameter := by
  unfold newDefault?
  rw [Node.defaultValue?_bare, Node.typeChild?_bare]
  cases parameter.defaultValue? with
  | some existing => simp
  | none => cases parameter.typeChild? <;> simp

theorem eligible_bare (scope : Scope) (index : Nat) (parameters : List Node) :
    eligible scope.bare index (parameters.map Node.bare) = eligible scope index parameters := by
  induction parameters generalizing index with
  | nil => rfl
  | cons parameter rest ih =>
    rw [List.map_cons, eligible, eligible, newDefault?_bare, ih]

theorem applies_bare (site : Site) : applies site.bare = applies site := by
  have hcontainer : site.bare.container? = site.container?.map Decl.bare := by
    unfold Site.container? Site.bare
    cases site.isInnermost <;> simp
  unfold applies
  rw [hcontainer]
  cases site.container? <;> simp [Site.bare]

/-- A random default does not depend on positions, nor do the words that are drawn. -/
theorem find_bare (site : Site) :
    (find site.bare : Drawing G (Option DefaultArgument)) = find site := by
  unfold find
  rw [applies_bare]
  simp only [Site.bare, Node.parameters_bare, eligible_bare]

end DefaultArgument

/-- A change without the positions that it holds. -/
def Evolution.bare : Evolution → Evolution
  | shuffleMembers order => shuffleMembers order
  | synthesizeInitializers initializers => synthesizeInitializers initializers.bare
  | changeDefaultArgument change => changeDefaultArgument change

/-- A search without positions finds what a search finds, with the same words. -/
theorem EvolutionKind.find_bare (site : Site) (kind : EvolutionKind) :
    kind.find site.bare = Option.map Evolution.bare <$> (kind.find site : Drawing G _) := by
  cases kind with
  | shuffleMembers =>
    simp [find, MemberOrder.find_bare, Function.comp_def, Evolution.bare]
  | synthesizeInitializers =>
    simp only [find, Initializers.find_bare]
    rcases Initializers.find site with error | found
    · rfl
    · cases found <;> rfl
  | changeDefaultArgument =>
    simp [find, DefaultArgument.find_bare, Function.comp_def, Evolution.bare]

/-! ## Chains -/

theorem Evolution.prerequisites_bare (site : Site) (evolution : Evolution) :
    evolution.bare.prerequisites site.bare = (evolution.prerequisites site).map bare := by
  cases evolution with
  | shuffleMembers order =>
    have himplicit : site.bare.scope.hasImplicitInitializers =
        site.scope.hasImplicitInitializers := Scope.hasImplicitInitializers_bare site.scope
    simp only [bare, prerequisites, himplicit, Initializers.find_bare]
    split
    · rcases Initializers.find site with error | found
      · cases error <;> rfl
      · cases found <;> rfl
    · rfl
  | synthesizeInitializers initializers => rfl
  | changeDefaultArgument change => rfl

theorem Evolution.chain_bare (site : Site) (evolution : Evolution) :
    evolution.bare.chain site.bare = (evolution.chain site).map bare := by
  induction evolution using Evolution.chain.induct site with
  | case1 evolution ih =>
    rw [chain_eq, chain_eq, prerequisites_bare, List.flatMap_map, List.map_append, List.map_flatMap]
    congr 1
    refine List.flatMap_congr ?_
    intro needed hneeded
    exact ih ⟨needed, hneeded⟩

/-- An entry without positions: its label gives the path of its node. -/
def PlanEntry.bare (entry : PlanEntry) : PlanEntry :=
  ⟨locationLabel entry.file entry.path none, entry.file, entry.path, entry.evolution.bare⟩

/-- A candidate without positions. -/
def Candidate.bare (candidate : Candidate) : Candidate :=
  ⟨candidate.evolution.bare, candidate.node.bare, candidate.path⟩

theorem Candidate.entries_bare (file : String) (scope : Scope) (candidate : Candidate) :
    candidate.bare.entries file scope.bare = (candidate.entries file scope).map PlanEntry.bare := by
  have hchain := Evolution.chain_bare ⟨candidate.node, scope, candidate.node.kind.isDeclaration⟩
    candidate.evolution
  simp only [Site.bare] at hchain
  simp [entries, bare, hchain, PlanEntry.forNode, PlanEntry.bare]

/-! ## Surveys -/

/-- What is left of a declaration, without positions. -/
def Closing.bare (closing : Closing) : Closing :=
  ⟨closing.candidates.map Candidate.bare, closing.entries.map PlanEntry.bare⟩

/-- What a walk brings in, without positions. -/
def Harvest.bare (harvest : Harvest) : Harvest :=
  ⟨harvest.loose.map Candidate.bare, harvest.closings.map Closing.bare⟩

theorem Harvest.entries_bare (harvest : Harvest) :
    harvest.bare.entries = harvest.entries.map PlanEntry.bare := by
  simp [entries, bare, List.flatMap_map, List.map_flatMap, Closing.bare]

theorem Harvest.append_bare (first second : Harvest) :
    first.bare.append second.bare = (first.append second).bare := by
  simp [append, bare]

namespace Survey

variable (exclusions : Exclusions) (file : String)

theorem tryKind_bare (scope : Scope) (path : Path) (node : Node) (kind : EvolutionKind) :
    tryKind exclusions scope.bare path node.bare kind =
      List.map Candidate.bare <$>
        (tryKind exclusions scope path node kind : Drawing G (List Candidate)) := by
  funext words
  have hsite : (⟨node.bare, scope.bare, node.bare.kind.isDeclaration⟩ : Site) =
      Site.bare ⟨node, scope, node.kind.isDeclaration⟩ := by
    rw [Node.bare_kind]
    rfl
  rw [map_run, tryKind, tryKind, Scope.qualifiedName_bare, hsite, EvolutionKind.find_bare, map_run]
  by_cases hpermits : exclusions.permitsChain kind scope.qualifiedName = true
  · rw [if_pos hpermits, if_pos hpermits]
    rcases kind.find ⟨node, scope, node.kind.isDeclaration⟩ words
      with ⟨found, rest⟩ | ⟨cause, rest⟩
    · cases found <;> rfl
    · cases cause <;> rfl
  · rw [if_neg hpermits, if_neg hpermits]
    rfl

theorem tryKinds_bare (scope : Scope) (path : Path) (node : Node) (kinds : List EvolutionKind) :
    tryKinds exclusions scope.bare path node.bare kinds =
      List.map Candidate.bare <$>
        (tryKinds exclusions scope path node kinds : Drawing G (List Candidate)) := by
  induction kinds with
  | nil => simp [tryKinds]
  | cons kind kinds ih => simp [tryKinds, tryKind_bare, ih]

theorem choose_bare (scope : Scope) (candidates : List Candidate) :
    choose file scope.bare (candidates.map Candidate.bare) =
      List.map PlanEntry.bare <$> (choose file scope candidates : Drawing G Plan) := by
  unfold choose
  by_cases hempty : candidates.isEmpty = true
  · simp [hempty]
  · have hentries : ∀ found : Option Candidate,
        (found.map Candidate.bare).toList.flatMap (Candidate.entries file scope.bare) =
          (found.toList.flatMap (Candidate.entries file scope)).map PlanEntry.bare := by
      intro found
      cases found <;> simp [Candidate.entries_bare]
    simp [hempty, hentries]

mutual

/-- A survey of a tree without positions brings in the same without positions, and draws the same
words. -/
theorem survey_bare : (node : Node) → ∀ (scope : Scope) (path : Path),
    survey exclusions file scope.bare path node.bare =
      Harvest.bare <$> (survey exclusions file scope path node : Drawing G Harvest)
  | ⟨kind, text, position, children⟩, scope, path => by
    -- the scope around the children is the same one without positions, and so are the two parts of
    -- a survey that are made in it before and after the children
    have hinner := Scope.enter_bare scope ⟨kind, text, position, children⟩
    have hown := tryKinds_bare (G := G) exclusions
      (scope.enter ⟨kind, text, position, children⟩) path ⟨kind, text, position, children⟩
      EvolutionKind.all
    have hchoose := fun own below => choose_bare (G := G) file
      (scope.enter ⟨kind, text, position, children⟩) (own ++ below)
    rw [Node.bare_mk] at hinner hown
    simp only [List.map_append] at hchoose
    rw [Node.bare_mk, survey, survey, hinner, hown, surveyAll_bare children]
    by_cases hkind : kind.isDeclaration = true
    · simp [hkind, hchoose, Harvest.bare, Closing.bare]
    · simp [hkind, Harvest.bare]

theorem surveyAll_bare : (children : List Node) → ∀ (scope : Scope) (path : Path) (index : Nat),
    surveyAll exclusions file scope.bare path index (children.map Node.bare) =
      Harvest.bare <$> (surveyAll exclusions file scope path index children : Drawing G Harvest)
  | [], _, _, _ => rfl
  | child :: rest, scope, path, index => by
    rw [List.map_cons, surveyAll, surveyAll]
    simp [survey_bare child, surveyAll_bare rest, Harvest.append_bare]

end

end Survey

/-! ## Plans -/

/-- A file without positions. -/
def SourceFile.bare (source : SourceFile) : SourceFile :=
  { source with root := source.root.bare }

/-- Planning a file without positions gives the plan of the file without positions, or the same
error, and draws the same words. -/
theorem planFile_bare (config : PlannerConfig) (source : SourceFile) (words : G) :
    planFile config source.bare words =
      ((planFile config source words).1.map (List.map PlanEntry.bare),
        (planFile config source words).2) := by
  rw [planFile_eq_surveyFile, planFile_eq_surveyFile, surveyFile, surveyFile]
  simp only [SourceFile.bare, Node.bare_kind]
  by_cases hroot : source.root.kind = .decl .file
  · have hsurvey := Survey.survey_bare (G := G) config.exclusions source.path source.root
      { aliasBound := config.aliasBound } []
    have hscope : ({ aliasBound := config.aliasBound } : Scope).bare =
        { aliasBound := config.aliasBound } := rfl
    rw [hscope] at hsurvey
    simp only [if_pos hroot, hsurvey, map_run]
    rcases Survey.survey config.exclusions source.path { aliasBound := config.aliasBound } []
      source.root words with ⟨harvest, rest⟩ | ⟨cause, rest⟩
    · simp [Harvest.entries_bare, Except.map]
    · rfl
  · simp only [if_neg hroot]
    rfl

/-- The label of an entry is that of the node at its path. -/
theorem location_of_mem_planFile {config : PlannerConfig} {source : SourceFile} {words : G}
    {plan : Plan} (h : (planFile config source words).1 = .ok plan) {entry : PlanEntry}
    (hentry : entry ∈ plan) :
    ∃ node, source.root.nodeAt? entry.path = some node ∧
      entry.location = locationLabel entry.file entry.path node.position := by
  obtain ⟨blocks, hblocks, rfl⟩ := exists_blocks words h
  obtain ⟨block, hblock, hentry⟩ := List.mem_flatten.mp hentry
  obtain ⟨place, hdrawn⟩ := exists_isDrawn hblocks hblock
  cases hdrawn with
  | nothing => cases hentry
  | @change other evolution mem =>
    obtain ⟨needed, -, rfl⟩ := List.mem_map.mp hentry
    obtain ⟨path, hpath, hnode, -⟩ := Node.mem_places_iff.mp mem
    rw [List.nil_append] at hpath
    exact ⟨other.node, hpath ▸ hnode, rfl⟩

/-- Two entries, of two files, that are the same but for positions: those in the types of their
changes, and those of the nodes that their labels are for. -/
structure PlanEntry.Alike (first second : SourceFile) (entry other : PlanEntry) : Prop where
  /-- They are for files of the same name. -/
  file : entry.file = other.file
  /-- They are for nodes at the same path. -/
  path : entry.path = other.path
  /-- Their changes differ at most in the positions inside the types of initializers. -/
  evolution : entry.evolution.bare = other.evolution.bare
  /-- Each label is that of the node at the path of the entry, in its own file. -/
  location : ∃ node otherNode, first.root.nodeAt? entry.path = some node ∧
    second.root.nodeAt? other.path = some otherNode ∧
    entry.location = locationLabel entry.file entry.path node.position ∧
    other.location = locationLabel other.file other.path otherNode.position

/-- Two lists that are the same under a function are related element by element. -/
theorem forall₂_of_map_eq {α β : Type} {f : α → β} {r : α → α → Prop} {xs ys : List α}
    (h : xs.map f = ys.map f) (hstep : ∀ x ∈ xs, ∀ y ∈ ys, f x = f y → r x y) :
    List.Forall₂ r xs ys := by
  rw [List.forall₂_iff_get]
  refine ⟨by simpa using congrArg List.length h, fun i hx hy => ?_⟩
  apply hstep _ (List.get_mem xs _) _ (List.get_mem ys _)
  have hi : (xs.map f)[i]? = (ys.map f)[i]? := by rw [h]
  simpa [hx, hy] using hi

/-- Positions have no influence on what is planned: two files that are the same without positions
leave the same words, and have the same error or two plans that are alike entry by entry. -/
theorem planFile_positions (config : PlannerConfig) (first second : SourceFile) (words : G)
    (hpath : first.path = second.path) (hroot : first.root.bare = second.root.bare) :
    (planFile config first words).2 = (planFile config second words).2 ∧
      ((∃ error, (planFile config first words).1 = .error error ∧
        (planFile config second words).1 = .error error) ∨
      ∃ plan other, (planFile config first words).1 = .ok plan ∧
        (planFile config second words).1 = .ok other ∧
        List.Forall₂ (PlanEntry.Alike first second) plan other) := by
  -- both results are known from the one file that the two are without positions
  have hbare : first.bare = second.bare := by
    rw [SourceFile.bare, SourceFile.bare, hpath, hroot]
  have hplans : planFile config first.bare words = planFile config second.bare words := by
    rw [hbare]
  rw [planFile_bare, planFile_bare, Prod.mk.injEq] at hplans
  obtain ⟨hresults, hwords⟩ := hplans
  refine ⟨hwords, ?_⟩
  rcases hfirst : (planFile config first words).1 with error | plan
  · rcases hsecond : (planFile config second words).1 with other | other
    · rw [hfirst, hsecond] at hresults
      exact Or.inl ⟨error, rfl, congrArg Except.error (Except.error.inj hresults).symm⟩
    · rw [hfirst, hsecond] at hresults
      cases hresults
  · rcases hsecond : (planFile config second words).1 with other | other
    · rw [hfirst, hsecond] at hresults
      cases hresults
    · rw [hfirst, hsecond] at hresults
      refine Or.inr ⟨plan, other, rfl, rfl, forall₂_of_map_eq (Except.ok.inj hresults) ?_⟩
      intro entry hentry otherEntry hother hsame
      obtain ⟨node, hnode, hlabel⟩ := location_of_mem_planFile hfirst hentry
      obtain ⟨otherNode, hotherNode, hotherLabel⟩ := location_of_mem_planFile hsecond hother
      simp only [PlanEntry.bare, PlanEntry.mk.injEq] at hsame
      obtain ⟨-, hfile, hpath, hevolution⟩ := hsame
      exact ⟨hfile, hpath, hevolution, node, otherNode, hnode, hotherNode, hlabel, hotherLabel⟩

/-- A file with a struct that has two properties and relies on implicit initializers. The member
block and the type of one property may have positions. -/
def Sample.pairFile (block type : Option Position) : SourceFile :=
  ⟨"Pair", Sample.file [⟨.decl .structDecl, none, none,
    [Build.identifier "Pair", ⟨.memberBlock, none, block,
      [Sample.annotatedVar "x" ⟨.type .simple, some "Int", type, []⟩,
        Sample.typedVar "y" "Int"]⟩]⟩]⟩

/-- A plan for the file with a pair, with the label of the member block and the position of the
type. -/
def Sample.pairPlan (label : String) (type : Option Position) : Plan :=
  [⟨label, "Pair", [0, 1], .synthesizeInitializers
      ⟨[[⟨"x", ⟨.type .simple, some "Int", type, []⟩⟩, ⟨"y", Build.simpleType "Int"⟩]]⟩⟩,
    ⟨label, "Pair", [0, 1], .shuffleMembers ⟨[1, 0]⟩⟩]

/-- With and without positions, the members of the pair are put into the same order behind the same
initializer. The labels differ, and so do the positions of the type. -/
theorem planFile_positions_pairFile :
    (planFile {} (Sample.pairFile none none) (WordStream.ofSeed 7)).1 =
        .ok (Sample.pairPlan "Pair@0.1" none) ∧
      (planFile {} (Sample.pairFile (some ⟨2, 1⟩) (some ⟨3, 10⟩)) (WordStream.ofSeed 7)).1 =
        .ok (Sample.pairPlan "Pair:2:1" (some ⟨3, 10⟩)) ∧
      List.Forall₂
        (PlanEntry.Alike (Sample.pairFile none none)
          (Sample.pairFile (some ⟨2, 1⟩) (some ⟨3, 10⟩)))
        (Sample.pairPlan "Pair@0.1" none) (Sample.pairPlan "Pair:2:1" (some ⟨3, 10⟩)) := by
  have hfirst : (planFile {} (Sample.pairFile none none) (WordStream.ofSeed 7)).1 =
      .ok (Sample.pairPlan "Pair@0.1" none) := by
    decide +kernel
  have hsecond : (planFile {} (Sample.pairFile (some ⟨2, 1⟩) (some ⟨3, 10⟩))
      (WordStream.ofSeed 7)).1 = .ok (Sample.pairPlan "Pair:2:1" (some ⟨3, 10⟩)) := by
    decide +kernel
  refine ⟨hfirst, hsecond, ?_⟩
  obtain ⟨-, ⟨error, herror, -⟩ | ⟨plan, other, hplan, hother, halike⟩⟩ :=
    planFile_positions {} (Sample.pairFile none none)
      (Sample.pairFile (some ⟨2, 1⟩) (some ⟨3, 10⟩)) (WordStream.ofSeed 7) rfl rfl
  · rw [hfirst] at herror
    cases herror
  · rw [hfirst, Except.ok.injEq] at hplan
    rw [hsecond, Except.ok.injEq] at hother
    rwa [hplan, hother]

end SourceEvolution
