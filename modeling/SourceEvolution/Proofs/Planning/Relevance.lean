import SourceEvolution.Proofs.Planning.Permission

/-!
# What exclusions decide

Exclusions are asked about a name at every node of a file. This module says that nothing else about
them matters: two exclusions that give the same answers about the declarations of a file lead to the
same plan, and to the same words being drawn. One of them may be empty, and then the name is not
even computed.

* **Names** (`Node.scopeNames`): the qualified names of the declarations of a tree. Every node is in
  the scope of one of them (`Node.mem_scopeNames`), so these are all the names that are asked about.
* **Surveys** (`Survey.survey_congr`): where the answers are the same, the same searches are made,
  in the same order and with the same words.
* **Plans** (`planFile_relevance`).
-/

namespace SourceEvolution

variable {G : Type} [WordSource G]

/-! ## Names -/

namespace Node

/-- The qualified names of the declarations of a tree, in the order in which they are closed. -/
def scopeNames (root : Node) : List String :=
  (root.closingPlaces [] []).map fun place => (place.scope defaultAliasBound).qualifiedName

/-- A place below a node is in the declarations around the node, or in those of a declaration at or
below the node. -/
theorem exists_closingPlace_of_mem_places {node : Node} {start : Path} {met : List (Path × Decl)}
    {place : Place} (h : place ∈ node.places start met) :
    place.decls = met ∨ ∃ closing ∈ node.closingPlaces start met, closing.decls = place.decls := by
  induction node using inductionOn generalizing start met with
  | step node ih =>
    -- what is in the declarations at the node is in the node, if that is a declaration
    have here : place.decls = declsHere node start met →
        place.decls = met ∨
          ∃ closing ∈ node.closingPlaces start met, closing.decls = place.decls := by
      intro hdecls
      by_cases hkind : node.kind.isDeclaration = true
      · refine Or.inr ⟨node.placeHere start met, ?_, hdecls.symm⟩
        rw [closingPlaces_eq, if_pos hkind]
        exact List.mem_append_right _ List.mem_cons_self
      · rw [declsHere_of_not_isDeclaration (Bool.not_eq_true _ ▸ hkind)] at hdecls
        exact Or.inl hdecls
    rw [places_eq, List.mem_cons, mem_placesOf] at h
    rcases h with rfl | ⟨i, child, hi, h⟩
    · exact here rfl
    · rcases ih child (List.mem_of_getElem? hi) h with hdecls | ⟨closing, hclosing, hdecls⟩
      · exact here hdecls
      · refine Or.inr ⟨closing, ?_, hdecls⟩
        rw [closingPlaces_eq]
        exact List.mem_append_left _ (mem_closingPlacesOf.mpr ⟨i, child, hi, hclosing⟩)

/-- The name that is asked about at a place of a file is that of a declaration. -/
theorem mem_scopeNames {root : Node} (hroot : root.kind.isDeclaration = true) {place : Place}
    (h : place ∈ root.places [] []) (aliasBound : Nat) :
    (place.scope aliasBound).qualifiedName ∈ root.scopeNames := by
  have hclosing : ∃ closing ∈ root.closingPlaces [] [], closing.decls = place.decls := by
    rcases exists_closingPlace_of_mem_places h with hdecls | hclosing
    · -- the root itself is around every place
      obtain ⟨path, howner, -⟩ := owner?_of_mem_places_of_isDeclaration hroot h
      rw [Place.owner?, hdecls] at howner
      cases howner
    · exact hclosing
  obtain ⟨closing, hmem, hdecls⟩ := hclosing
  refine List.mem_map.mpr ⟨closing, hmem, ?_⟩
  unfold Place.scope
  rw [hdecls]
  rfl

end Node

/-! ## Surveys -/

/-- Two exclusions give the same answer about every kind, with all that it may need, for every name
of a list. -/
def Exclusions.AgreeOn (names : List String) (first second : Exclusions) : Prop :=
  ∀ name ∈ names, ∀ kind, first.permitsChain kind name = second.permitsChain kind name

namespace Survey

variable {first second : Exclusions} {file : String} {aliasBound : Nat}

theorem tryKinds_congr {scope : Scope}
    (h : ∀ kind, first.permitsChain kind scope.qualifiedName =
      second.permitsChain kind scope.qualifiedName)
    (path : Path) (node : Node) (kinds : List EvolutionKind) :
    (tryKinds first scope path node kinds : Drawing G (List Candidate)) =
      tryKinds second scope path node kinds := by
  induction kinds with
  | nil => rfl
  | cons kind kinds ih =>
    have hkind : (tryKind first scope path node kind : Drawing G (List Candidate)) =
        tryKind second scope path node kind := by
      unfold tryKind
      rw [h kind]
    rw [tryKinds, tryKinds, hkind, ih]

mutual

/-- A survey is the same computation for exclusions that give the same answers at every place. -/
theorem survey_congr : (node : Node) → ∀ (start : Path) (met : List (Path × Decl)),
    (∀ place ∈ node.places start met, ∀ kind,
      first.permitsChain kind (place.scope aliasBound).qualifiedName =
        second.permitsChain kind (place.scope aliasBound).qualifiedName) →
    (survey first file ⟨met.map Prod.snd, aliasBound⟩ start node : Drawing G Harvest) =
      survey second file ⟨met.map Prod.snd, aliasBound⟩ start node
  | ⟨kind, text, position, children⟩, start, met, h => by
    rw [Node.places_eq, List.forall_mem_cons] at h
    obtain ⟨hhere, hbelow⟩ := h
    have hown : (tryKinds first
        ⟨(Node.declsHere ⟨kind, text, position, children⟩ start met).map Prod.snd, aliasBound⟩ start
        ⟨kind, text, position, children⟩ EvolutionKind.all : Drawing G (List Candidate)) = _ :=
      tryKinds_congr hhere start _ _
    rw [survey, survey, Node.enter_declsHere _ start, hown, surveyAll_congr children 0 _ _ hbelow]
    rfl

/-- So is a survey of children. -/
theorem surveyAll_congr : (children : List Node) → ∀ (index : Nat) (start : Path)
    (met : List (Path × Decl)),
    (∀ place ∈ Node.placesOf start met index children, ∀ kind,
      first.permitsChain kind (place.scope aliasBound).qualifiedName =
        second.permitsChain kind (place.scope aliasBound).qualifiedName) →
    (surveyAll first file ⟨met.map Prod.snd, aliasBound⟩ start index children :
        Drawing G Harvest) =
      surveyAll second file ⟨met.map Prod.snd, aliasBound⟩ start index children
  | [], _, _, _, _ => rfl
  | child :: children, index, start, met, h => by
    rw [Node.placesOf, List.forall_mem_append] at h
    obtain ⟨hchild, hrest⟩ := h
    rw [surveyAll, surveyAll, survey_congr child _ _ hchild,
      surveyAll_congr children (index + 1) _ _ hrest]

end

end Survey

/-! ## Exclusions that match nothing -/

/-- An exclusion is for the declaration with a qualified name. -/
def Exclusion.Matches (name : String) : Exclusion → Prop
  | .all => True
  | .names listed => name ∈ listed

/-- A kind is permitted for a name exactly when there is no exclusion of the kind for it. -/
theorem Exclusions.permits_iff {exclusions : Exclusions} {kind : EvolutionKind} {name : String} :
    exclusions.permits kind name = true ↔
      ∀ exclusion ∈ exclusions.entry? kind, ¬ exclusion.Matches name := by
  unfold permits
  split
  · rename_i hnone
    simp [hnone]
  · rename_i hall
    simp [hall, Exclusion.Matches]
  · rename_i listed hlisted
    simp [hlisted, Exclusion.Matches]

/-- Exclusions that match no name of a list answer as if there were none. -/
theorem Exclusions.agreeOn_of_not_matches {exclusions empty : Exclusions} {names : List String}
    (h : ∀ kind, ∀ exclusion ∈ exclusions.entry? kind, ∀ name ∈ names, ¬ exclusion.Matches name)
    (hempty : empty.isEmpty = true) : exclusions.AgreeOn names empty := by
  intro name hname kind
  rw [permitsChain_of_isEmpty hempty]
  apply permitsChain_of_permits
  intro kind
  rw [permits_iff]
  intro exclusion hexclusion
  exact h kind exclusion hexclusion name hname

/-! ## Plans -/

/-- Exclusions that give the same answers about the declarations of a file lead to the same plan. -/
theorem planFile_eq_of_agreeOn (config : PlannerConfig) (source : SourceFile) (words : G)
    {first second : Exclusions} (h : first.AgreeOn source.root.scopeNames second) :
    planFile { config with exclusions := first } source words =
      planFile { config with exclusions := second } source words := by
  rw [planFile_eq_surveyFile, planFile_eq_surveyFile, surveyFile, surveyFile]
  by_cases hroot : source.root.kind = .decl .file
  · have hdecl : source.root.kind.isDeclaration = true := by
      rw [hroot]
      rfl
    have hsurvey : (Survey.survey first source.path ⟨[], config.aliasBound⟩ [] source.root :
          Drawing G Harvest) =
        Survey.survey second source.path ⟨[], config.aliasBound⟩ [] source.root := by
      apply Survey.survey_congr source.root [] []
      intro place hplace kind
      exact h _ (Node.mem_scopeNames hdecl hplace config.aliasBound) kind
    simp only [if_pos hroot, hsurvey]
  · simp only [if_neg hroot]

/-- The plan of a file, and what is left of the words, depends on the exclusions only through their
answers about the declarations of the file. So exclusions that match none of these do what empty
ones do, for which the name that is asked about is always the same and no declaration is looked at.
-/
theorem planFile_relevance (config : PlannerConfig) (source : SourceFile) (words : G) :
    (∀ first second : Exclusions, first.AgreeOn source.root.scopeNames second →
      planFile { config with exclusions := first } source words =
        planFile { config with exclusions := second } source words) ∧
    (∀ exclusions empty : Exclusions,
      (∀ kind, ∀ exclusion ∈ exclusions.entry? kind,
        ∀ name ∈ source.root.scopeNames, ¬ exclusion.Matches name) →
      empty.isEmpty = true →
      planFile { config with exclusions } source words =
        planFile { config with exclusions := empty } source words) ∧
    ∀ empty : Exclusions, empty.isEmpty = true → ∀ scope, Walk.ruleName empty scope = "" := by
  refine ⟨?_, ?_, ?_⟩
  · intro first second h
    exact planFile_eq_of_agreeOn config source words h
  · intro exclusions empty h hempty
    exact planFile_eq_of_agreeOn config source words (Exclusions.agreeOn_of_not_matches h hempty)
  · intro empty hempty scope
    unfold Walk.ruleName
    rw [if_pos hempty]

/-- Only the members of lines may not be moved. -/
def Sample.lineRules : Exclusions :=
  ({} : Exclusions).set .shuffleMembers (.names ["(file).Line"])

theorem scopeNames_pointFile :
    Sample.pointFile.root.scopeNames =
      ["(file).Point.x", "(file).Point.y", "(file).Point.move", "(file).Point", "(file)"] := by
  decide +kernel

/-- The file with a point has no line, so it makes no difference whether the members of lines may be
moved: neither by itself, nor where the function of the point may not be changed. -/
theorem planFile_relevance_pointFile :
    Sample.lineRules.isEmpty = false ∧
      planFile { exclusions := Sample.lineRules } Sample.pointFile (WordStream.ofSeed 7) =
        planFile {} Sample.pointFile (WordStream.ofSeed 7) ∧
      planFile Sample.guarded Sample.pointFile (WordStream.ofSeed 7) =
        planFile
          { exclusions := ({} : Exclusions).set .changeDefaultArgument
              (.names ["(file).Point.move"]) }
          Sample.pointFile (WordStream.ofSeed 7) := by
  obtain ⟨hagree, hempty, -⟩ := planFile_relevance {} Sample.pointFile (WordStream.ofSeed 7)
  refine ⟨rfl, hempty Sample.lineRules {} ?_ rfl, hagree Sample.guarded.exclusions _ ?_⟩
  · rw [scopeNames_pointFile]
    intro kind exclusion hexclusion
    cases kind <;> cases hexclusion
    simp [Exclusion.Matches]
  · intro name hname kind
    rw [scopeNames_pointFile] at hname
    cases kind <;> revert name <;> decide +kernel

end SourceEvolution
