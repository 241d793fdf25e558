import Mathlib.Data.Prod.Basic
import SourceEvolution.Proofs.Planning.Survey
import SourceEvolution.Proofs.Scope.Meaning
import SourceEvolution.Tree.Sample

/-!
# A larger bound on aliases

The bound on aliases is part of every scope, and it is asked about deep inside a search. This module
says that where planning succeeds with a bound, it does the same with any larger one.

* **Resolution** (`Scope.resolve_withBound`): a type that is resolved stands for the same with a
  larger bound.
* **Searches** (`EvolutionKind.find_withBound`): a search that does not fail at a type comes out the
  same, word for word. Only a search for a default argument depends on the bound at all.
* **Plans** (`survey_withBound`, `planFile_of_le_aliasBound`): so does the survey of a tree, and
  with it the plan of a file and what is left of the words.
-/

namespace SourceEvolution

variable {G : Type} [WordSource G]

/-! ## Resolution -/

namespace Scope

/-- A type that is resolved stands for the same with a larger bound. -/
theorem resolve_withBound {scope : Scope} {bound : Nat} (hle : scope.aliasBound ≤ bound)
    {type : Node} {result : Resolved} (h : scope.resolve type = .ok result) :
    (scope.withBound bound).resolve type = .ok (result.withBound bound) := by
  obtain ⟨height, hheight, meaning⟩ := resolveWithin_sound h
  exact resolveWithin_of_denotes (meaning.withBound bound) bound (Nat.le_trans hheight hle)

theorem shapeOf_withBound {scope : Scope} {bound : Nat} (hle : scope.aliasBound ≤ bound)
    {type : Node} {shape : TypeShape} (h : scope.shapeOf type = .ok shape) :
    (scope.withBound bound).shapeOf type = .ok shape := by
  unfold shapeOf at h ⊢
  rcases hresolve : scope.resolve type with error | result
  · rw [hresolve] at h
    cases h
  · rw [hresolve] at h
    rw [resolve_withBound hle hresolve]
    cases result <;> exact h

end Scope

/-! ## Searches -/

namespace DefaultArgument

theorem newDefault?_withBound {scope : Scope} {bound : Nat} (hle : scope.aliasBound ≤ bound)
    {parameter : Node} {value : Option String} (h : newDefault? scope parameter = .ok value) :
    newDefault? (scope.withBound bound) parameter = .ok value := by
  unfold newDefault? at h ⊢
  split at h
  · exact h
  · rename_i type _ _
    rcases hshape : scope.shapeOf type with error | shape
    · rw [hshape] at h
      cases h
    · rw [hshape] at h
      rw [Scope.shapeOf_withBound hle hshape]
      exact h
  · exact h

theorem eligible_withBound {scope : Scope} {bound : Nat} (hle : scope.aliasBound ≤ bound)
    {parameters : List Node} {index : Nat} {choices : List DefaultArgument}
    (h : eligible scope index parameters = .ok choices) :
    eligible (scope.withBound bound) index parameters = .ok choices := by
  induction parameters generalizing index choices with
  | nil => exact h
  | cons parameter rest ih =>
    unfold eligible at h ⊢
    rcases hvalue : newDefault? scope parameter with error | value
    · rw [hvalue] at h
      cases h
    · rcases hlater : eligible scope (index + 1) rest with error | later
      · rw [hvalue, hlater] at h
        cases h
      · rw [hvalue, hlater] at h
        rw [newDefault?_withBound hle hvalue, ih hlater]
        exact h

end DefaultArgument

/-- The same site with another bound. -/
def Site.withBound (site : Site) (bound : Nat) : Site :=
  { site with scope := site.scope.withBound bound }

/-- A search that does not fail at a type comes out the same with a larger bound. -/
theorem EvolutionKind.find_withBound {site : Site} {bound : Nat}
    (hle : site.scope.aliasBound ≤ bound) {kind : EvolutionKind} {words : G}
    (h : ∀ cause, kind.outcome site words ≠ .error (.unresolved cause)) :
    kind.find (site.withBound bound) words = kind.find site words := by
  cases kind with
  | shuffleMembers => rfl
  | synthesizeInitializers => rfl
  | changeDefaultArgument =>
    simp only [outcome_eq_verdict, verdict] at h
    rw [find_changeDefaultArgument, find_changeDefaultArgument, DefaultArgument.find_run,
      DefaultArgument.find_run]
    have happlies : DefaultArgument.applies (site.withBound bound) =
        DefaultArgument.applies site := rfl
    rw [happlies]
    by_cases hsite : DefaultArgument.applies site = true
    · simp only [if_pos hsite] at h ⊢
      rcases heligible : DefaultArgument.eligible site.scope 0 site.node.parameters
        with cause | choices
      · rw [heligible] at h
        exact absurd rfl (h cause)
      · have hlarger : DefaultArgument.eligible (site.withBound bound).scope 0
            (site.withBound bound).node.parameters = .ok choices :=
          DefaultArgument.eligible_withBound hle heligible
        rw [hlarger]
    · simp only [if_neg hsite]

/-! ## Chains -/

/-- What has to be applied first does not depend on the bound. -/
theorem Evolution.chain_withBound (site : Site) (bound : Nat) (evolution : Evolution) :
    evolution.chain (site.withBound bound) = evolution.chain site := by
  induction evolution using Evolution.chain.induct site with
  | case1 evolution ih =>
    have hneeded : evolution.prerequisites (site.withBound bound) =
        evolution.prerequisites site := by
      cases evolution <;> rfl
    rw [chain_eq, chain_eq, hneeded]
    congr 1
    refine List.flatMap_congr ?_
    intro needed hmem
    exact ih ⟨needed, hmem⟩

theorem Candidate.entries_withBound (file : String) (scope : Scope) (bound : Nat)
    (candidate : Candidate) :
    candidate.entries file (scope.withBound bound) = candidate.entries file scope := by
  have hchain := Evolution.chain_withBound
    ⟨candidate.node, scope, candidate.node.kind.isDeclaration⟩ bound candidate.evolution
  exact congrArg (List.map (PlanEntry.forNode file candidate.path candidate.node)) hchain

/-! ## Plans -/

theorem Scope.aliasBound_enter (scope : Scope) (node : Node) :
    (scope.enter node).aliasBound = scope.aliasBound := by
  unfold Scope.enter
  split <;> rfl

theorem Scope.enter_withBound (scope : Scope) (bound : Nat) (node : Node) :
    (scope.withBound bound).enter node = (scope.enter node).withBound bound := by
  unfold Scope.enter
  split <;> rfl

namespace Survey

variable {exclusions : Exclusions} {file : String} {bound : Nat}

theorem tryKind_withBound {scope : Scope} (hle : scope.aliasBound ≤ bound) {path : Path}
    {node : Node} {kind : EvolutionKind} {words rest : G} {found : List Candidate}
    (h : tryKind exclusions scope path node kind words = .ok found rest) :
    tryKind exclusions (scope.withBound bound) path node kind words = .ok found rest := by
  unfold tryKind at h ⊢
  change (if exclusions.permitsChain kind scope.qualifiedName then _ else _) = _
  by_cases hpermits : exclusions.permitsChain kind scope.qualifiedName = true
  · rw [if_pos hpermits] at h ⊢
    have houtcome : ∀ cause, kind.outcome ⟨node, scope, node.kind.isDeclaration⟩ words ≠
        .error (.unresolved cause) := by
      intro cause hcause
      unfold EvolutionKind.outcome at hcause
      split at hcause
      · cases hcause
      · rename_i hfind
        cases hcause
        rw [hfind] at h
        cases h
    have hfind : kind.find ⟨node, scope.withBound bound, node.kind.isDeclaration⟩ words =
        kind.find ⟨node, scope, node.kind.isDeclaration⟩ words :=
      EvolutionKind.find_withBound hle houtcome
    rw [hfind]
    exact h
  · rw [if_neg hpermits] at h ⊢
    exact h

theorem tryKinds_withBound {scope : Scope} (hle : scope.aliasBound ≤ bound) {path : Path}
    {node : Node} {kinds : List EvolutionKind} {words rest : G} {found : List Candidate}
    (h : tryKinds exclusions scope path node kinds words = .ok found rest) :
    tryKinds exclusions (scope.withBound bound) path node kinds words = .ok found rest := by
  induction kinds generalizing words rest found with
  | nil => exact h
  | cons kind kinds ih =>
    rw [tryKinds, bind_eq_ok_iff] at h
    obtain ⟨first, between, hfirst, h⟩ := h
    rw [bind_eq_ok_iff] at h
    obtain ⟨later, left, hlater, h⟩ := h
    rw [tryKinds, bind_of_ok (tryKind_withBound hle hfirst), bind_of_ok (ih hlater)]
    exact h

theorem choose_withBound (file : String) (scope : Scope) (bound : Nat)
    (candidates : List Candidate) :
    (choose file (scope.withBound bound) candidates : Drawing G Plan) =
      choose file scope candidates := by
  have hentries : Candidate.entries file (scope.withBound bound) = Candidate.entries file scope :=
    funext (Candidate.entries_withBound file scope bound)
  rw [choose, choose, hentries]

mutual

/-- A survey that succeeds brings in the same, from the same words, with a larger bound. -/
theorem survey_withBound : (node : Node) → ∀ {scope : Scope} {path : Path} {words rest : G}
    {harvest : Harvest}, scope.aliasBound ≤ bound →
    survey exclusions file scope path node words = .ok harvest rest →
    survey exclusions file (scope.withBound bound) path node words = .ok harvest rest
  | ⟨kind, text, position, children⟩, scope, path, words, rest, harvest, hle, h => by
    have hinner : (scope.enter ⟨kind, text, position, children⟩).aliasBound ≤ bound := by
      rw [Scope.aliasBound_enter]
      exact hle
    rw [survey, bind_eq_ok_iff] at h
    obtain ⟨own, between, hown, h⟩ := h
    rw [bind_eq_ok_iff] at h
    obtain ⟨below, left, hbelow, h⟩ := h
    rw [survey, Scope.enter_withBound, bind_of_ok (tryKinds_withBound hinner hown),
      bind_of_ok (surveyAll_withBound children 0 hinner hbelow), choose_withBound]
    exact h

/-- A survey of children that succeeds brings in the same with a larger bound. -/
theorem surveyAll_withBound : (children : List Node) → ∀ (index : Nat) {scope : Scope}
    {path : Path} {words rest : G} {harvest : Harvest}, scope.aliasBound ≤ bound →
    surveyAll exclusions file scope path index children words = .ok harvest rest →
    surveyAll exclusions file (scope.withBound bound) path index children words = .ok harvest rest
  | [], index, scope, path, words, rest, harvest, _, h => h
  | child :: children, index, scope, path, words, rest, harvest, hle, h => by
    rw [surveyAll, bind_eq_ok_iff] at h
    obtain ⟨first, between, hfirst, h⟩ := h
    rw [bind_eq_ok_iff] at h
    obtain ⟨later, left, hlater, h⟩ := h
    rw [surveyAll, bind_of_ok (survey_withBound child hle hfirst),
      bind_of_ok (surveyAll_withBound children (index + 1) hle hlater)]
    exact h

end

end Survey

/-- A file that is planned with a bound on aliases gets the same plan with every larger bound, and
the same words are left. -/
theorem planFile_of_le_aliasBound (config : PlannerConfig) (source : SourceFile) (words rest : G)
    (plan : Plan) {bound larger : Nat} (hle : bound ≤ larger)
    (h : planFile { config with aliasBound := bound } source words = (.ok plan, rest)) :
    planFile { config with aliasBound := larger } source words = (.ok plan, rest) := by
  rw [planFile_eq_surveyFile, surveyFile] at h ⊢
  split at h
  · rename_i hroot
    split at h
    · rename_i harvest left hsurvey
      have hlarger : Survey.survey config.exclusions source.path { aliasBound := larger } []
          source.root words = .ok harvest left :=
        Survey.survey_withBound source.root hle hsurvey
      simp only [if_pos hroot, hlarger]
      exact h
    · cases h
  · cases h

/-- A file with three aliases in a row. -/
def Sample.chainFile : SourceFile :=
  ⟨"Chain", Sample.aliasChain 3⟩

/-- Members are nowhere moved. -/
def Sample.unmoved : PlannerConfig where
  exclusions := ({} : Exclusions).set .shuffleMembers .all

theorem planFile_chainFile :
    (planFile { Sample.unmoved with aliasBound := 3 } Sample.chainFile (WordStream.ofSeed 7)).1 =
      .ok [⟨"Chain@3", "Chain", [3], .changeDefaultArgument ⟨0, "0"⟩⟩] := by
  decide +kernel

/-- A bound of three is enough for three aliases in a row, and a larger one changes nothing. -/
theorem planFile_of_le_aliasBound_chainFile :
    planFile { Sample.unmoved with aliasBound := 7 } Sample.chainFile (WordStream.ofSeed 7) =
      (.ok [⟨"Chain@3", "Chain", [3], .changeDefaultArgument ⟨0, "0"⟩⟩],
        (planFile { Sample.unmoved with aliasBound := 3 } Sample.chainFile
          (WordStream.ofSeed 7)).2) :=
  planFile_of_le_aliasBound Sample.unmoved Sample.chainFile (WordStream.ofSeed 7) _ _
    (show 3 ≤ 7 by decide) (Prod.fst_eq_iff.mp planFile_chainFile)

/-- A bound of two is not. -/
example :
    (planFile { Sample.unmoved with aliasBound := 2 } Sample.chainFile (WordStream.ofSeed 7)).1 =
      .error (.walk "Chain" (.evolution (.unresolved (.aliasDepthExceeded "(file).A0" 2)))) := by
  decide +kernel

end SourceEvolution
