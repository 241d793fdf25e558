import SourceEvolution.Proofs.Planning.Harvest
import SourceEvolution.Tree.Sample

/-!
# The blocks of a plan

The plan of a file is made of blocks, one for each declaration in the order in which they are
closed. This module says what a block is made of and how the paths of a plan lie to each other.

* **Drawing** (`IsDrawn`, `exists_blocks`): a block is empty because nothing is offered where its
  declaration is the nearest one, or it is a change that suits one of these places, behind what has
  to be applied first.
* **Order** (`pairwise_blocks`, `pairwise_entries`): no path of a block is at or above a path of a
  later block. So a plan goes through a tree from below, and it comes to the same node twice only to
  write initializers out and then to move the members.
* **Shape** (`IsBlock`, `planFile_blocks`): the two together, in terms of the entries.
-/

namespace SourceEvolution

variable {G H : Type} [WordSource G] [WordSource H]

/-- What is put into the plan for a change at a place: the change behind what has to be applied
first. -/
def Place.entries (file : String) (aliasBound : Nat) (evolution : Evolution) (place : Place) :
    Plan :=
  (evolution.chain (place.site aliasBound)).map (PlanEntry.forNode file place.path place.node)

theorem Place.path_of_mem_entries {file : String} {aliasBound : Nat} {evolution : Evolution}
    {place : Place} {entry : PlanEntry} (h : entry ∈ place.entries file aliasBound evolution) :
    entry.path = place.path ∧ entry.file = file := by
  obtain ⟨needed, -, rfl⟩ := List.mem_map.mp h
  exact ⟨rfl, rfl⟩

/-! ## Drawing -/

/-- A block is one that may be drawn when the declaration at a place is closed. -/
inductive IsDrawn (config : PlannerConfig) (source : SourceFile) (others : H) (place : Place) :
    Plan → Prop where
  /-- Nothing is offered. -/
  | nothing (none : ∀ other ∈ source.root.places [] [], other.owner? = some place.path →
      other.offers config.exclusions config.aliasBound others = []) :
      IsDrawn config source others place []
  /-- A change is offered at a place that the declaration owns. -/
  | change {other : Place} {evolution : Evolution} (mem : other ∈ source.root.places [] [])
      (owner : other.owner? = some place.path) (decls : other.decls = place.decls)
      (suits : evolution.Suits (other.site config.aliasBound))
      (offered : isOffered config.exclusions (other.site config.aliasBound) others
        evolution.kind = true) :
      IsDrawn config source others place (other.entries source.path config.aliasBound evolution)

/-- What a declaration puts into the plan when it is closed is drawn. -/
theorem Closing.Fits.isDrawn {config : PlannerConfig} {source : SourceFile} {others : H}
    {place : Place} {closing : Closing} (hplace : place ∈ source.root.closingPlaces [] [])
    (h : closing.Fits config.exclusions source.path config.aliasBound others place) :
    IsDrawn config source others place closing.entries := by
  have hterritory := Node.territory_eq_filter (Node.above_nil []) hplace
  rcases h.entries with ⟨hempty, hentries⟩ | ⟨candidate, hcandidate, hentries⟩
  · rw [hentries]
    refine IsDrawn.nothing ?_
    intro other hother howner
    have hlabels := h.labels
    rw [hempty, ← hterritory] at hlabels
    refine List.flatMap_eq_nil_iff.mp hlabels.symm other (List.mem_filter.mpr ⟨hother, ?_⟩)
    rw [howner, beq_self_eq_true]
  · obtain ⟨other, hother, hpath, hnode, hoffered⟩ := exists_place_of_labels h.labels hcandidate
    have hdecls := Node.decls_of_mem_territory hplace hother
    have hscope : place.scope config.aliasBound = other.scope config.aliasBound := by
      rw [Place.scope, Place.scope, hdecls]
    have hsuits := h.suits candidate hcandidate
    have hentries : closing.entries =
        other.entries source.path config.aliasBound candidate.evolution := by
      rw [hentries, Candidate.entries, Place.entries, hscope, ← hpath, ← hnode]
      rfl
    rw [Candidate.Suits, hscope, ← hnode] at hsuits
    rw [← hterritory, List.mem_filter, beq_iff_eq] at hother
    rw [hentries]
    exact IsDrawn.change hother.1 hother.2 hdecls hsuits hoffered

/-- The plan of a file is made of blocks that are drawn, one for each declaration. -/
theorem exists_blocks {config : PlannerConfig} {source : SourceFile} {words : G} {plan : Plan}
    (others : H) (h : (planFile config source words).1 = .ok plan) :
    ∃ blocks, List.Forall₂ (IsDrawn config source others) (source.root.closingPlaces [] []) blocks ∧
      plan = blocks.flatten := by
  rw [planFile_eq_surveyFile, surveyFile] at h
  split at h
  · split at h
    · rename_i harvest rest hsurvey
      obtain rfl : harvest.entries = plan := Except.ok.inj h
      have hfits := (survey_fits others source.root (Node.above_nil []) hsurvey).closings
      refine ⟨harvest.closings.map Closing.entries, ?_, ?_⟩
      · rw [List.forall₂_map_right_iff]
        have hmem := (List.forall₂_and_left _ _).mpr ⟨fun place hplace => hplace, hfits⟩
        exact hmem.imp fun place closing hclosing => hclosing.2.isDrawn hclosing.1
      · rw [Harvest.entries, List.flatMap_def]
    · cases h
  · cases h

/-! ## Order -/

/-- A relation between the elements of a list passes to the elements that belong to them. -/
theorem pairwise_of_forall₂ {α β : Type} {belongs : α → β → Prop} {r : α → α → Prop}
    {s : β → β → Prop} {xs : List α} {ys : List β} (h : List.Forall₂ belongs xs ys)
    (hstep : ∀ x y x' y', belongs x y → belongs x' y' → r x x' → s y y')
    (hpairwise : xs.Pairwise r) : ys.Pairwise s := by
  induction h with
  | nil => exact List.Pairwise.nil
  | @cons x y xs ys hfirst hrest ih =>
    rw [List.pairwise_cons] at hpairwise ⊢
    refine ⟨?_, ih hpairwise.2⟩
    intro y' hy'
    obtain ⟨i, hi, rfl⟩ := List.getElem_of_mem hy'
    have hi' : i < xs.length := hrest.length_eq ▸ hi
    exact hstep x y _ _ hfirst (List.forall₂_iff_get.mp hrest |>.2 i hi' hi)
      (hpairwise.1 _ (List.getElem_mem hi'))

section order

variable {config : PlannerConfig} {source : SourceFile} {others : H} {place : Place} {block : Plan}

/-- Every block of a plan is drawn for a declaration. -/
theorem exists_isDrawn {blocks : List Plan}
    (h : List.Forall₂ (IsDrawn config source others) (source.root.closingPlaces [] []) blocks)
    (hblock : block ∈ blocks) : ∃ place, IsDrawn config source others place block := by
  obtain ⟨i, hi, rfl⟩ := List.getElem_of_mem hblock
  exact ⟨_, (List.forall₂_iff_get.mp h).2 i (h.length_eq ▸ hi) hi⟩

/-- The entries of a block are for places that its declaration owns. -/
theorem IsDrawn.exists_place (h : IsDrawn config source others place block) {entry : PlanEntry}
    (hentry : entry ∈ block) :
    ∃ other ∈ source.root.places [] [], other.path = entry.path ∧
      other.owner? = some place.path := by
  cases h with
  | nothing => cases hentry
  | change mem owner =>
    exact ⟨_, mem, (Place.path_of_mem_entries hentry).1.symm, owner⟩

/-- No path of a block is at or above a path of the block of a declaration that is closed later. -/
theorem IsDrawn.not_prefix_later {later : Place} {laterBlock : Plan}
    (h : IsDrawn config source others place block)
    (hlater : IsDrawn config source others later laterBlock) (horder : ¬ place.path <+: later.path)
    {entry laterEntry : PlanEntry} (hentry : entry ∈ block)
    (hlaterEntry : laterEntry ∈ laterBlock) :
    ¬ entry.path <+: laterEntry.path := by
  obtain ⟨upper, hupper, hupperPath, hupperOwner⟩ := h.exists_place hentry
  obtain ⟨lower, hlower, hlowerPath, hlowerOwner⟩ := hlater.exists_place hlaterEntry
  rw [← hupperPath, ← hlowerPath]
  intro hextends
  exact horder (Node.owner?_mono hupper hlower hextends hupperOwner hlowerOwner)

/-- No path of a block is at or above a path of a later block. -/
theorem pairwise_blocks {blocks : List Plan}
    (h : List.Forall₂ (IsDrawn config source others) (source.root.closingPlaces [] []) blocks) :
    blocks.Pairwise fun first second =>
      ∀ earlier ∈ first, ∀ later ∈ second, ¬ earlier.path <+: later.path := by
  refine pairwise_of_forall₂ h ?_ Node.pairwise_closingPlaces
  intro place block laterPlace laterBlock hblock hlater horder earlier hearlier later hlaterMem
  exact hblock.not_prefix_later hlater horder hearlier hlaterMem

/-- A block is empty, a single entry, or a pair for the same node. -/
theorem IsDrawn.form (h : IsDrawn config source others place block) :
    block = [] ∨ (∃ entry, block = [entry]) ∨
      ∃ first second, block = [first, second] ∧ first.path = second.path ∧
        first.evolution.kind = .synthesizeInitializers ∧
        second.evolution.kind = .shuffleMembers := by
  cases h with
  | nothing => exact Or.inl rfl
  | change mem owner decls suits =>
    rcases Evolution.chain_of_suits suits with ⟨hchain, -⟩ | ⟨initializers, order, -, -, -, hchain⟩
    · rw [Place.entries, hchain]
      exact Or.inr (Or.inl ⟨_, rfl⟩)
    · rw [Place.entries, hchain]
      exact Or.inr (Or.inr ⟨_, _, rfl, rfl, rfl, rfl⟩)

/-- The entries of a plan never go from a node to one below it, and they come to the same node
twice only within a block. -/
theorem pairwise_entries {blocks : List Plan}
    (h : List.Forall₂ (IsDrawn config source others) (source.root.closingPlaces [] []) blocks) :
    blocks.flatten.Pairwise fun earlier later => earlier.path <+: later.path →
      earlier.path = later.path ∧ [earlier, later] ∈ blocks := by
  rw [List.pairwise_flatten]
  refine ⟨?_, ?_⟩
  · intro block hblock
    obtain ⟨place, hdrawn⟩ := exists_isDrawn h hblock
    rcases hdrawn.form with rfl | ⟨entry, rfl⟩ | ⟨first, second, rfl, hpath, -⟩
    · exact List.Pairwise.nil
    · exact List.pairwise_singleton _ _
    · exact List.pairwise_pair.mpr fun _ => ⟨hpath, hblock⟩
  · refine (pairwise_blocks h).imp ?_
    intro first second hnot earlier hearlier later hlater hextends
    exact absurd hextends (hnot earlier hearlier later hlater)

end order

/-! ## Shape -/

/-- What is promised of the block of the declaration at a place. -/
structure IsBlock (config : PlannerConfig) (source : SourceFile) (others : H) (place : Place)
    (block : Plan) : Prop where
  /-- It is empty exactly when no permitted kind of change is found where the declaration is the
  nearest one. -/
  empty : block = [] ↔
    ∀ other ∈ source.root.places [] [], other.owner? = some place.path → ∀ kind,
      config.exclusions.permitsChain kind (other.scope config.aliasBound).qualifiedName = true →
        kind.isFound (other.site config.aliasBound) others = false
  /-- It is empty, a single entry, or the entries that write initializers out and then move the
  members of the same block. -/
  form : block = [] ∨ (∃ entry, block = [entry]) ∨
    ∃ first second, block = [first, second] ∧ first.path = second.path ∧
      first.evolution.kind = .synthesizeInitializers ∧ second.evolution.kind = .shuffleMembers
  /-- Every entry is for a node whose nearest declaration is this one. -/
  addressed : ∀ entry ∈ block, entry.file = source.path ∧
    ∃ other ∈ source.root.places [] [], other.path = entry.path ∧ other.owner? = some place.path
  /-- Members are moved behind their initializers exactly in a struct without an initializer. -/
  paired : ∀ entry ∈ block, entry.evolution.kind = .shuffleMembers →
    ((∃ first, block = [first, entry]) ↔
      ∃ decl : Decl, decl.node = place.node ∧ decl.kind = .structDecl ∧
        decl.hasExplicitInitializer = false)
  /-- The initializers are those found before anything is moved. -/
  written : ∀ first second, block = [first, second] →
    ∃ other ∈ source.root.places [] [], other.path = first.path ∧
      ∃ initializers, Initializers.find (other.site config.aliasBound) = .ok (some initializers) ∧
        first.evolution = .synthesizeInitializers initializers

section shape

variable {config : PlannerConfig} {source : SourceFile} {others : H} {place : Place} {block : Plan}

omit [WordSource G] in
/-- A place offers nothing exactly when no permitted kind of change is found there. -/
theorem Place.offers_eq_nil_iff {exclusions : Exclusions} {aliasBound : Nat} {other : Place} :
    other.offers exclusions aliasBound others = [] ↔ ∀ kind,
      exclusions.permitsChain kind (other.scope aliasBound).qualifiedName = true →
        kind.isFound (other.site aliasBound) others = false := by
  have hall : ∀ kind : EvolutionKind, kind ∈ EvolutionKind.all := by
    intro kind
    cases kind <;> decide
  rw [Place.offers, List.map_eq_nil_iff, List.filter_eq_nil_iff]
  simp only [isOffered, Bool.and_eq_true, not_and, Bool.not_eq_true, hall, forall_const]
  rfl

/-- The implicit initializers of the scope of a place are those of the declaration that owns it. -/
theorem hasImplicitInitializers_iff (hplace : place ∈ source.root.closingPlaces [] [])
    {other : Place} (hdecls : other.decls = place.decls) (aliasBound : Nat) :
    (other.scope aliasBound).hasImplicitInitializers = true ↔
      ∃ decl : Decl, decl.node = place.node ∧ decl.kind = .structDecl ∧
        decl.hasExplicitInitializer = false := by
  obtain ⟨hmem, hkind⟩ := Node.mem_closingPlaces_iff.mp hplace
  obtain ⟨above, hhere⟩ := Node.exists_eq_placeHere hmem
  obtain ⟨decl, hdecl, hnode⟩ := Decl.exists_of_isDeclaration hkind
  have hscope : (other.scope aliasBound).innermost? = some decl := by
    rw [Place.scope, hdecls, hhere, Node.placeHere, Node.declsHere_of_ofNode? hdecl]
    rfl
  rw [Scope.hasImplicitInitializers, hscope, Option.any_some, Decl.hasImplicitInitializers,
    Bool.and_eq_true, beq_iff_eq, Bool.not_eq_true']
  constructor
  · rintro ⟨hstruct, hexplicit⟩
    exact ⟨decl, hnode, hstruct, hexplicit⟩
  · rintro ⟨decl', hnode', hstruct, hexplicit⟩
    obtain rfl : decl' = decl := Decl.ext_node (hnode'.trans hnode.symm)
    exact ⟨hstruct, hexplicit⟩

/-- A change in a block stands alone, or moves the members of a struct behind its initializers. -/
theorem entries_of_suits (hplace : place ∈ source.root.closingPlaces [] []) {other : Place}
    (hdecls : other.decls = place.decls) {file : String} {aliasBound : Nat} {evolution : Evolution}
    (hsuits : evolution.Suits (other.site aliasBound)) :
    (other.entries file aliasBound evolution =
        [PlanEntry.forNode file other.path other.node evolution] ∧
      (evolution.kind = .shuffleMembers → ¬ ∃ decl : Decl, decl.node = place.node ∧
        decl.kind = .structDecl ∧ decl.hasExplicitInitializer = false)) ∨
    ∃ initializers order,
      other.entries file aliasBound evolution =
        [PlanEntry.forNode file other.path other.node (.synthesizeInitializers initializers),
          PlanEntry.forNode file other.path other.node (.shuffleMembers order)] ∧
      Initializers.find (other.site aliasBound) = .ok (some initializers) ∧
      ∃ decl : Decl, decl.node = place.node ∧ decl.kind = .structDecl ∧
        decl.hasExplicitInitializer = false := by
  have himplicit := hasImplicitInitializers_iff hplace hdecls aliasBound
  rcases Evolution.chain_of_suits hsuits with
    ⟨hchain, hkind⟩ | ⟨initializers, order, -, hscope, hfind, hchain⟩
  · refine Or.inl ⟨?_, fun hshuffle => ?_⟩
    · rw [Place.entries, hchain]
      rfl
    · rw [← himplicit, Bool.not_eq_true]
      exact hkind hshuffle
  · refine Or.inr ⟨initializers, order, ?_, hfind, himplicit.mp hscope⟩
    rw [Place.entries, hchain]
    rfl

/-- A block that is drawn for a declaration keeps what is promised. -/
theorem IsDrawn.isBlock (hplace : place ∈ source.root.closingPlaces [] [])
    (h : IsDrawn config source others place block) : IsBlock config source others place block where
  empty := by
    cases h with
    | nothing none =>
      simp only [true_iff]
      intro other hother howner
      exact Place.offers_eq_nil_iff.mp (none other hother howner)
    | @change other evolution mem owner decls suits offered =>
      rw [isOffered, Bool.and_eq_true] at offered
      constructor
      · intro hempty
        rw [Place.entries, Evolution.chain_eq, List.map_eq_nil_iff] at hempty
        exact absurd hempty (List.append_ne_nil_of_right_ne_nil _ (List.cons_ne_nil _ _))
      · intro hnone
        have := hnone other mem owner evolution.kind offered.1
        rw [offered.2] at this
        cases this
  form := h.form
  addressed := by
    intro entry hentry
    refine ⟨?_, h.exists_place hentry⟩
    cases h with
    | nothing => cases hentry
    | change => exact (Place.path_of_mem_entries hentry).2
  paired := by
    intro entry hentry hkind
    cases h with
    | nothing => cases hentry
    | change mem owner decls suits offered =>
      rcases entries_of_suits hplace decls suits with
        ⟨hentries, hnot⟩ | ⟨initializers, order, hentries, -, hstruct⟩
      · rw [hentries] at hentry ⊢
        obtain rfl := List.mem_singleton.mp hentry
        refine iff_of_false ?_ (hnot hkind)
        rintro ⟨first, hpair⟩
        cases hpair
      · rw [hentries] at hentry ⊢
        refine iff_of_true ?_ hstruct
        rcases List.mem_pair.mp hentry with rfl | rfl
        · cases hkind
        · exact ⟨_, rfl⟩
  written := by
    intro first second hpair
    cases h with
    | nothing => cases hpair
    | change mem owner decls suits offered =>
      rcases entries_of_suits hplace decls suits with
        ⟨hentries, -⟩ | ⟨initializers, order, hentries, hfind, -⟩
      · rw [hentries] at hpair
        cases hpair
      · rw [hentries] at hpair
        cases hpair
        exact ⟨_, mem, rfl, initializers, hfind, rfl⟩

end shape

/-- The plan of a file is made of one block for each declaration, the inner and earlier ones first.
No path of a block is at or above a path of a later block, so the paths never go down from one entry
to a later one, and the same path comes twice only within a block of two. -/
theorem planFile_blocks (config : PlannerConfig) (source : SourceFile) (words : G) (others : H)
    {plan : Plan} (h : (planFile config source words).1 = .ok plan) :
    ∃ blocks, List.Forall₂ (IsBlock config source others) (source.root.closingPlaces [] []) blocks ∧
      plan = blocks.flatten ∧
      (blocks.Pairwise fun first second =>
        ∀ earlier ∈ first, ∀ later ∈ second, ¬ earlier.path <+: later.path) ∧
      plan.Pairwise fun earlier later => earlier.path <+: later.path →
        earlier.path = later.path ∧ [earlier, later] ∈ blocks := by
  obtain ⟨blocks, hblocks, rfl⟩ := exists_blocks others h
  refine ⟨blocks, ?_, rfl, pairwise_blocks hblocks, pairwise_entries hblocks⟩
  have hmem := (List.forall₂_and_left _ _).mpr ⟨fun place hplace => hplace, hblocks⟩
  exact hmem.imp fun place block hblock => hblock.2.isBlock hblock.1

/-- A file with a struct that has two properties, a function and no initializer. -/
def Sample.pointFile : SourceFile :=
  ⟨"Point", Sample.file [((Sketch.named .structDecl "Point").extended
    [Sample.storedVar "x" "1", Sample.storedVar "y" "2", Sample.function "move"
      [Sample.paramWithDefault "by" (Build.simpleType "Int") "1"]]).toNode]⟩

/-- A plan for the file with a point: the function is given another default, and then the members of
the struct are moved behind its initializer. -/
def Sample.pointPlan : Plan :=
  [⟨"Point@0.1.2", "Point", [0, 1, 2], .changeDefaultArgument ⟨0, "\x7b 1 \x7d()"⟩⟩,
    ⟨"Point@0.1", "Point", [0, 1], .synthesizeInitializers ⟨[[]]⟩⟩,
    ⟨"Point@0.1", "Point", [0, 1], .shuffleMembers ⟨[1, 2, 0]⟩⟩]

theorem planFile_pointFile :
    (planFile {} Sample.pointFile (WordStream.ofSeed 7)).1 = .ok Sample.pointPlan := by
  decide +kernel

/-- The last two entries of the plan for the file with a point are a block. -/
theorem planFile_blocks_pointFile :
    (planFile {} Sample.pointFile (WordStream.ofSeed 7)).1 = .ok Sample.pointPlan ∧
      ∃ blocks, List.Forall₂ (IsBlock {} Sample.pointFile (WordStream.ofSeed 0))
        (Sample.pointFile.root.closingPlaces [] []) blocks ∧
      Sample.pointPlan = blocks.flatten ∧ Sample.pointPlan.tail ∈ blocks := by
  obtain ⟨blocks, hblocks, hplan, -, hpaths⟩ := planFile_blocks {} Sample.pointFile
    (WordStream.ofSeed 7) (WordStream.ofSeed 0) planFile_pointFile
  have hpair := List.pairwise_pair.mp (List.pairwise_cons.mp hpaths).2
  exact ⟨planFile_pointFile, blocks, hblocks, hplan, (hpair List.prefix_rfl).2⟩

end SourceEvolution
