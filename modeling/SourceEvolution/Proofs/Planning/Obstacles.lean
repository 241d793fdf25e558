import SourceEvolution.Proofs.Planning.Blocks
import SourceEvolution.Proofs.Planning.Discipline

/-!
# What the random words do not decide

The words decide which change is drawn, and every search takes some of them. Two walks through a
file with different words are soon out of step. This module says that all the same they fail
together or succeed together, and find the same at the same places.

* **Obstacles** (`Place.obstacle?`): the error that the searches at a place fail with, as the place
  alone decides it.
* **Failure** (`survey_failure?`, `planFile_eq_error_iff`): a walk fails with the first obstacle in
  its way, and succeeds if there is none. No words are needed to say so.
* **Frames** (`Walk.Closes`, `exists_closes_of_visit`): a walk that succeeds closes the frame of
  every declaration, and by then the frame holds what the territory of the declaration offers.
* **Agreement** (`planFile_agrees`): two walks with different words have the same error, or the same
  declarations put something into the plan, in the same order and out of frames that hold the same
  kinds for the same nodes.
-/

namespace SourceEvolution

variable {G H : Type} [WordSource G] [WordSource H]

/-! ## Obstacles -/

/-- The error that a search for a kind at a site fails with. That the kind does not apply there is
none. -/
def EvolutionKind.obstacle? (exclusions : Exclusions) (site : Site) (kind : EvolutionKind) :
    Option EvolutionError :=
  if exclusions.permitsChain kind site.scope.qualifiedName then
    match kind.verdict site with
    | .ok _ => none
    | .error .unsupported => none
    | .error cause => some cause
  else none

/-- The error of the first search at a place that fails. -/
def Place.obstacle? (exclusions : Exclusions) (aliasBound : Nat) (place : Place) :
    Option EvolutionError :=
  EvolutionKind.all.findSome? (EvolutionKind.obstacle? exclusions (place.site aliasBound))

/-- The error that a file cannot be planned for. -/
def planningError? (config : PlannerConfig) (source : SourceFile) : Option PlanningError :=
  if source.root.kind = .decl .file then
    ((source.root.places [] []).findSome?
      (Place.obstacle? config.exclusions config.aliasBound)).map fun cause =>
        .walk source.path (.evolution cause)
  else some (.invalidRoot source.path source.root.kind)

/-! ## Failure -/

/-- The error that a computation ends with. -/
def failure? {ε σ α : Type} : EStateM.Result ε σ α → Option ε
  | .ok _ _ => none
  | .error error _ => some error

/-- A sequence fails with its first step, or else with the rest. -/
theorem failure?_bind {ε σ α β : Type} {step : EStateM ε σ α} {next : α → EStateM ε σ β}
    {before : σ} {later : Option ε} (h : ∀ value after, failure? (next value after) = later) :
    failure? ((step >>= next) before) = (failure? (step before)).or later := by
  rcases hstep : step before with ⟨value, after⟩ | ⟨error, after⟩
  · rw [bind_of_ok hstep, h value after]
    rfl
  · rw [bind_of_error hstep]
    rfl

/-- A sequence whose rest cannot fail fails with its first step. -/
theorem failure?_bind_of_none {ε σ α β : Type} {step : EStateM ε σ α} {next : α → EStateM ε σ β}
    {before : σ} (h : ∀ value after, failure? (next value after) = none) :
    failure? ((step >>= next) before) = failure? (step before) :=
  (failure?_bind h).trans Option.or_none

namespace Survey

variable {exclusions : Exclusions} {file : String} {aliasBound : Nat}

theorem tryKind_failure? (scope : Scope) (path : Path) (node : Node) (kind : EvolutionKind)
    (words : G) :
    failure? (tryKind exclusions scope path node kind words) =
      kind.obstacle? exclusions ⟨node, scope, node.kind.isDeclaration⟩ := by
  unfold tryKind EvolutionKind.obstacle?
  by_cases hpermits : exclusions.permitsChain kind scope.qualifiedName = true
  · simp only [if_pos hpermits]
    rw [← EvolutionKind.outcome_eq_verdict _ words, EvolutionKind.outcome]
    rcases kind.find ⟨node, scope, node.kind.isDeclaration⟩ words
      with ⟨found, rest⟩ | ⟨cause, rest⟩
    · rfl
    · cases cause <;> rfl
  · simp only [if_neg hpermits]
    rfl

theorem tryKinds_failure? (scope : Scope) (path : Path) (node : Node) (kinds : List EvolutionKind)
    (words : G) :
    failure? (tryKinds exclusions scope path node kinds words) =
      kinds.findSome?
        (EvolutionKind.obstacle? exclusions ⟨node, scope, node.kind.isDeclaration⟩) := by
  induction kinds generalizing words with
  | nil => rfl
  | cons kind kinds ih =>
    rw [tryKinds, ← List.singleton_append, List.findSome?_append, List.findSome?_singleton,
      ← tryKind_failure? scope path node kind words]
    refine failure?_bind fun first between => ?_
    exact (failure?_bind_of_none fun _ _ => rfl).trans (ih between)

/-- One of the candidates can always be drawn. -/
theorem choose_failure? (scope : Scope) (candidates : List Candidate) (words : G) :
    failure? (choose file scope candidates words) = none := by
  unfold choose
  split
  · rfl
  · rfl

mutual

/-- A survey fails with the first obstacle of the subtree. -/
theorem survey_failure? : (node : Node) → ∀ (start : Path) (met : List (Path × Decl)) (words : G),
    failure? (survey exclusions file ⟨met.map Prod.snd, aliasBound⟩ start node words) =
      (node.places start met).findSome? (Place.obstacle? exclusions aliasBound)
  | ⟨kind, text, position, children⟩, start, met, words => by
    have hhere : failure? (tryKinds exclusions
        ⟨(Node.declsHere ⟨kind, text, position, children⟩ start met).map Prod.snd, aliasBound⟩
        start ⟨kind, text, position, children⟩ EvolutionKind.all words) =
        (Node.placeHere ⟨kind, text, position, children⟩ start met).obstacle? exclusions
          aliasBound :=
      tryKinds_failure? _ _ _ _ _
    rw [survey, Node.enter_declsHere _ start, Node.places_eq, ← List.singleton_append,
      List.findSome?_append, List.findSome?_singleton, ← hhere]
    refine failure?_bind fun own between => ?_
    -- closing the declaration, if it is one, adds no error
    refine (failure?_bind_of_none fun below left => ?_).trans
      (surveyAll_failure? children 0 start _ between)
    split
    · exact (failure?_bind_of_none fun _ _ => rfl).trans (choose_failure? _ _ left)
    · rfl

/-- A survey of children fails with the first obstacle of their subtrees. -/
theorem surveyAll_failure? : (children : List Node) → ∀ (index : Nat) (start : Path)
    (met : List (Path × Decl)) (words : G),
    failure? (surveyAll exclusions file ⟨met.map Prod.snd, aliasBound⟩ start index children words) =
      (Node.placesOf start met index children).findSome? (Place.obstacle? exclusions aliasBound)
  | [], _, _, _, _ => rfl
  | child :: children, index, start, met, words => by
    rw [surveyAll, Node.placesOf, List.findSome?_append,
      ← survey_failure? child (start.child index) met words]
    refine failure?_bind fun first between => ?_
    exact (failure?_bind_of_none fun _ _ => rfl).trans
      (surveyAll_failure? children (index + 1) start met between)

end

end Survey

/-- A file cannot be planned exactly when it has an error, whatever the words. -/
theorem planFile_eq_error_iff {config : PlannerConfig} {source : SourceFile} {words : G}
    {error : PlanningError} :
    (planFile config source words).1 = .error error ↔
      planningError? config source = some error := by
  rw [planFile_eq_surveyFile, surveyFile, planningError?]
  by_cases hroot : source.root.kind = .decl .file
  · have hfailure : failure? (Survey.survey config.exclusions source.path
        { aliasBound := config.aliasBound } [] source.root words) = _ :=
      Survey.survey_failure? source.root [] [] words
    rw [if_pos hroot, if_pos hroot, ← hfailure]
    rcases Survey.survey config.exclusions source.path { aliasBound := config.aliasBound } []
      source.root words with ⟨harvest, rest⟩ | ⟨cause, rest⟩
    · simp [failure?]
    · simp [failure?]
  · simp [if_neg hroot]

/-! ## Frames -/

namespace Walk

/-- The walk through a file closes the frame of the declaration at a path, and these are the
candidates in it. -/
inductive Closes (config : PlannerConfig) (source : SourceFile) (words : G) :
    Path → List Candidate → Prop where
  /-- It comes to the declaration, opens it, searches it and walks through its children. -/
  | intro {path : Path} {node : Node} {walk opened collected before : Walk G} {id : FrameId}
      {candidates : List Candidate}
      (comes : Comes config.exclusions source.path source.root (start config words) path node walk)
      (opening : openScope node walk = .ok (some id) opened)
      (collecting : collect config.exclusions path node opened = .ok () collected)
      (walking : visitAll config.exclusions source.path path 0 node.children collected =
        .ok () before)
      (closing : (before.frames.pop id).1 = .ok candidates) :
      Closes config source words path candidates

variable {config : PlannerConfig} {source : SourceFile} {words : G}

/-- A frame that is closed holds what the places of its declaration offer, by any words. -/
theorem Closes.labels (hroot : source.root.kind.isDeclaration = true) (others : H) {path : Path}
    {candidates : List Candidate} (h : Closes config source words path candidates) :
    candidates.map Candidate.label =
      ((source.root.places [] []).filter fun place => place.owner? == some path).flatMap
        (Place.offers config.exclusions config.aliasBound others) := by
  cases h with
  | intro comes opening collecting walking closing =>
    obtain ⟨met, hstands⟩ := comes.stands hroot
    obtain ⟨held, hpop, hlabels⟩ := hstands.frame_closes others opening collecting walking
    obtain rfl : held = candidates := Except.ok.inj (hpop.symm.trans closing)
    exact hlabels

theorem visit_eq (exclusions : Exclusions) (file : String) (path : Path) (node : Node) :
    (visit exclusions file path node : Step G Unit) =
      openScope node >>= fun id =>
        collect exclusions path node >>= fun _ =>
          visitAll exclusions file path 0 node.children >>= fun _ => closeScope file id := by
  cases node
  rw [visit]

/-- A walk through children that succeeds comes to each of them and succeeds there. -/
theorem exists_visit_of_visitAll {exclusions : Exclusions} {file : String} {path : Path}
    {children : List Node} {index : Nat} {walk after : Walk G}
    (h : visitAll exclusions file path index children walk = .ok () after) {i : Nat} {child : Node}
    (hi : children[i]? = some child) :
    ∃ before next, visitAll exclusions file path index (children.take i) walk = .ok () before ∧
      visit exclusions file (path.child (index + i)) child before = .ok () next := by
  induction children generalizing index walk i with
  | nil => cases hi
  | cons first rest ih =>
    rw [visitAll, bind_eq_ok_iff] at h
    obtain ⟨_, between, hfirst, hrest⟩ := h
    cases i with
    | zero =>
      obtain rfl : first = child := Option.some.inj hi
      exact ⟨walk, between, rfl, hfirst⟩
    | succ i =>
      obtain ⟨before, next, hbefore, hnext⟩ := ih hrest hi
      refine ⟨before, next, ?_, ?_⟩
      · rw [List.take_succ_cons, visitAll, bind_of_ok hfirst]
        exact hbefore
      · rw [show index + (i + 1) = index + 1 + i by omega]
        exact hnext

/-- A walk through a subtree that succeeds closes the frames of all declarations in it. -/
theorem exists_closes_of_visit {path : Path} {node : Node} {walk after : Walk G}
    (comes : Comes config.exclusions source.path source.root (start config words) path node walk)
    (h : visit config.exclusions source.path path node walk = .ok () after)
    {met : List (Path × Decl)} {place : Place} (hplace : place ∈ node.closingPlaces path met) :
    ∃ candidates, Closes config source words place.path candidates := by
  induction node using Node.inductionOn generalizing path walk after met with
  | step node ih =>
    rw [visit_eq, bind_eq_ok_iff] at h
    obtain ⟨id, opened, opening, h⟩ := h
    rw [bind_eq_ok_iff] at h
    obtain ⟨_, collected, collecting, h⟩ := h
    rw [bind_eq_ok_iff] at h
    obtain ⟨_, before, walking, h⟩ := h
    rw [Node.closingPlaces_eq, List.mem_append, Node.mem_closingPlacesOf] at hplace
    rcases hplace with ⟨i, child, hi, hplace⟩ | hplace
    · obtain ⟨between, next, hbetween, hvisit⟩ := exists_visit_of_visitAll walking hi
      rw [Nat.zero_add] at hvisit
      exact ih child (List.mem_of_getElem? hi) (.child comes opening collecting hbetween hi) hvisit
        hplace
    · split at hplace
      · rename_i hkind
        obtain rfl := List.mem_singleton.mp hplace
        obtain ⟨decl, hdecl, -⟩ := Decl.exists_of_isDeclaration hkind
        rw [openScope_of_some hdecl] at opening
        cases opening
        rw [closeScope, bind_eq_ok_iff] at h
        obtain ⟨candidates, closed, hclose, -⟩ := h
        refine ⟨candidates, .intro comes (openScope_of_some hdecl walk) collecting walking ?_⟩
        unfold closeFrame at hclose
        split at hclose
        · rename_i hpop
          cases hclose
          rw [hpop]
        · cases hclose
      · cases hplace

end Walk

/-! ## Agreement -/

section agreement

variable {config : PlannerConfig} {source : SourceFile}

/-- A file that is planned has a plan made of blocks, and its walk closes the frame of every
declaration. -/
theorem exists_blocks_of_no_error (words : G) (others : H)
    (h : planningError? config source = none) :
    ∃ blocks, (planFile config source words).1 = .ok blocks.flatten ∧
      List.Forall₂ (IsBlock config source others) (source.root.closingPlaces [] []) blocks ∧
      ∀ place ∈ source.root.closingPlaces [] [],
        ∃ candidates, Walk.Closes config source words place.path candidates := by
  rcases hplan : (planFile config source words).1 with error | plan
  · rw [planFile_eq_error_iff, h] at hplan
    cases hplan
  · obtain ⟨blocks, hblocks, rfl⟩ := exists_blocks others hplan
    have hmem := (List.forall₂_and_left _ _).mpr ⟨fun place hplace => hplace, hblocks⟩
    refine ⟨blocks, rfl, hmem.imp fun place block hblock => hblock.2.isBlock hblock.1, ?_⟩
    intro place hplace
    rw [planFile] at hplan
    split at hplan
    · split at hplan
      · rename_i hvisit
        exact Walk.exists_closes_of_visit Walk.Comes.root hvisit hplace
      · cases hplan
    · cases hplan

/-- The root of a file that is planned is a declaration. -/
theorem isDeclaration_of_no_error (h : planningError? config source = none) :
    source.root.kind.isDeclaration = true := by
  rw [planningError?] at h
  split at h
  · rename_i hroot
    rw [hroot]
    rfl
  · cases h

/-- Blocks of the same declarations are empty together. -/
theorem map_isEmpty_of_isBlock {others : H} {places : List Place} {blocks otherBlocks : List Plan}
    (h : List.Forall₂ (IsBlock config source others) places blocks)
    (hother : List.Forall₂ (IsBlock config source others) places otherBlocks) :
    blocks.map List.isEmpty = otherBlocks.map List.isEmpty := by
  induction h generalizing otherBlocks with
  | nil =>
    cases hother
    rfl
  | cons hblock _ ih =>
    cases hother with
    | cons hotherBlock hotherRest =>
      rw [List.map_cons, List.map_cons, ih hotherRest]
      congr 1
      rw [Bool.eq_iff_iff, List.isEmpty_iff, List.isEmpty_iff, hblock.empty, hotherBlock.empty]

end agreement

/-- Two walks through a file with different words fail with the same error, or both succeed. Then
the plans have blocks for the same declarations in the same order, and the frames that are closed
for a declaration hold the same kinds for the same nodes. -/
theorem planFile_agrees (config : PlannerConfig) (source : SourceFile) (words : G) (others : H) :
    (∃ error, (planFile config source words).1 = .error error ∧
      (planFile config source others).1 = .error error) ∨
    ∃ blocks otherBlocks,
      (planFile config source words).1 = .ok blocks.flatten ∧
      (planFile config source others).1 = .ok otherBlocks.flatten ∧
      List.Forall₂ (IsBlock config source others) (source.root.closingPlaces [] []) blocks ∧
      List.Forall₂ (IsBlock config source others) (source.root.closingPlaces [] []) otherBlocks ∧
      blocks.map List.isEmpty = otherBlocks.map List.isEmpty ∧
      ∀ place ∈ source.root.closingPlaces [] [],
        (∃ candidates, Walk.Closes config source words place.path candidates) ∧
        (∃ candidates, Walk.Closes config source others place.path candidates) ∧
        ∀ candidates otherCandidates, Walk.Closes config source words place.path candidates →
          Walk.Closes config source others place.path otherCandidates →
          candidates.map (fun candidate => (candidate.evolution.kind, candidate.path)) =
            otherCandidates.map (fun candidate => (candidate.evolution.kind, candidate.path)) := by
  rcases herror : planningError? config source with _ | error
  · obtain ⟨blocks, hplan, hblocks, hcloses⟩ := exists_blocks_of_no_error words others herror
    obtain ⟨otherBlocks, hotherPlan, hotherBlocks, hotherCloses⟩ :=
      exists_blocks_of_no_error others others herror
    refine Or.inr ⟨blocks, otherBlocks, hplan, hotherPlan, hblocks, hotherBlocks,
      map_isEmpty_of_isBlock hblocks hotherBlocks, ?_⟩
    intro place hplace
    refine ⟨hcloses place hplace, hotherCloses place hplace, ?_⟩
    intro candidates otherCandidates hcandidates hothers
    have hroot := isDeclaration_of_no_error herror
    have hlabels : candidates.map Candidate.label = otherCandidates.map Candidate.label :=
      (hcandidates.labels hroot others).trans (hothers.labels hroot others).symm
    have hpairs := congrArg (List.map fun label => (label.1, label.2.2)) hlabels
    rw [List.map_map, List.map_map] at hpairs
    exact hpairs
  · exact Or.inl ⟨error, planFile_eq_error_iff.mpr herror, planFile_eq_error_iff.mpr herror⟩

end SourceEvolution
