import SourceEvolution.Proofs.Replay.Planned

/-!
# Files that are planned together

Every file of a list is planned with a stream of its own, and the plans are put behind each other.
As long as the files have different names, what one of them gets is what it would get alone: its
plan does not depend on the other files, the entries of the combined plan that carry its name are
its plan, and replaying the combined plan on it is replaying that plan.

* **Labels** (`file_of_mem_contribution`): what a file adds to the combined plan carries its name.
* **Separation** (`entriesFor_combinedPlan`, `planFiles_separate`): and nothing else carries it.
-/

namespace SourceEvolution

variable {config : PlannerConfig} {sources : List SourceFile} {source : SourceFile}

/-- What planning a file adds to the combined plan: nothing, if it fails. -/
def contribution (config : PlannerConfig) (source : SourceFile) : Plan :=
  (planSeeded config source).toOption.getD []

theorem combinedPlan_eq_flatMap (config : PlannerConfig) (sources : List SourceFile) :
    combinedPlan config sources = sources.flatMap (contribution config) := by
  rw [combinedPlan, planFiles, List.flatMap_map]
  rfl

/-- A file adds only entries that carry its name. -/
theorem file_of_mem_contribution {entry : PlanEntry} (h : entry ∈ contribution config source) :
    entry.file = source.path := by
  rw [contribution] at h
  rcases hresult : planSeeded config source with error | plan
  · rw [hresult] at h
    exact absurd h List.not_mem_nil
  · rw [hresult] at h
    exact (exists_place_of_mem_planFile hresult h).1

/-- The entries of the combined plan that carry the name of a file are those that the file adds. -/
theorem entriesFor_combinedPlan (config : PlannerConfig)
    (hpaths : (sources.map SourceFile.path).Nodup) (hsource : source ∈ sources) :
    (combinedPlan config sources).entriesFor source.path = contribution config source := by
  have hown : (contribution config source).filter (fun entry => entry.file == source.path) =
      contribution config source := by
    rw [List.filter_eq_self]
    intro entry hentry
    rw [file_of_mem_contribution hentry, beq_self_eq_true]
  rw [combinedPlan_eq_flatMap, Plan.entriesFor, List.filter_flatMap]
  refine (Node.flatMap_eq_of_key SourceFile.path hpaths hsource ?_).trans hown
  intro other hother hne
  rw [List.filter_eq_nil_iff]
  intro entry hentry hfile
  rw [file_of_mem_contribution hentry, beq_iff_eq] at hfile
  exact hne hfile

/-- Files with different names that are planned together do not influence each other. What comes
of a file is the same in every list of files that it stands in. If it can be planned, the entries of
the combined plan that carry its name are its plan, and replaying the combined plan on the file is
replaying that plan; otherwise the combined plan has no entry for the file and leaves it as it is.
-/
theorem planFiles_separate (config : PlannerConfig) {sources : List SourceFile}
    (hpaths : (sources.map SourceFile.path).Nodup) {source : SourceFile}
    (hsource : source ∈ sources) :
    (∀ (others : List SourceFile) (index : Nat), others[index]? = some source →
      (planFiles config others)[index]? = some (planSeeded config source)) ∧
    match planSeeded config source with
    | .ok plan =>
      (combinedPlan config sources).entriesFor source.path = plan ∧
        replay source (combinedPlan config sources) = replay source plan
    | .error _ =>
      (combinedPlan config sources).entriesFor source.path = [] ∧
        replay source (combinedPlan config sources) = .ok source := by
  have hentries := entriesFor_combinedPlan config hpaths hsource
  constructor
  · intro others index hindex
    rw [planFiles, List.getElem?_map, hindex, Option.map_some]
  · split
    · rename_i plan hplan
      have hplanned : contribution config source = plan := by
        rw [contribution, hplan]
        rfl
      rw [hplanned] at hentries
      refine ⟨hentries, ?_⟩
      rw [replay, replay, hentries, entriesFor_of_planFile hplan]
    · rename_i error hfailed
      have hnothing : contribution config source = [] := by
        rw [contribution, hfailed]
        rfl
      rw [hnothing] at hentries
      refine ⟨hentries, ?_⟩
      rw [replay, hentries]
      rfl

/-- A file that cannot be planned, since its root is no source file. -/
def Sample.strayFile : SourceFile :=
  ⟨"Stray", .leaf .expr "1"⟩

/-- The file with a point and a file that cannot be planned, planned together: the first gets its
plan, which is not empty, and the second stays as it is. -/
theorem planFiles_separate_strayFile :
    ([Sample.pointFile, Sample.strayFile].map SourceFile.path).Nodup ∧
    (∃ plan, planSeeded {} Sample.pointFile = .ok plan ∧ plan ≠ [] ∧
      (combinedPlan {} [Sample.pointFile, Sample.strayFile]).entriesFor "Point" = plan) ∧
    replay Sample.strayFile (combinedPlan {} [Sample.pointFile, Sample.strayFile]) =
      .ok Sample.strayFile := by
  have hpaths : ([Sample.pointFile, Sample.strayFile].map SourceFile.path).Nodup := by decide
  have hpoint := (planFiles_separate {} hpaths (List.mem_cons_self)).2
  have hstray := (planFiles_separate {} hpaths (List.mem_cons_of_mem _ List.mem_cons_self)).2
  have hplanned : contribution {} Sample.pointFile ≠ [] := by decide +kernel
  refine ⟨hpaths, ?_, hstray.2⟩
  rw [contribution] at hplanned
  rcases hresult : planSeeded {} Sample.pointFile with error | plan
  · rw [hresult] at hplanned
    exact absurd rfl hplanned
  · rw [hresult] at hplanned hpoint
    exact ⟨plan, rfl, hplanned, hpoint.1⟩

end SourceEvolution
