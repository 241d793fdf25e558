import Mathlib.Data.List.Forall2
import SourceEvolution.Proofs.Planning.Survey

/-!
# What the survey brings in

The survey hands candidates upward until they reach the declaration that they belong to. This module
says which candidates those are, and what is put into the plan for them, by looking at the tree
only.

* **Offers** (`Place.offers`): the kinds that are permitted at a place and for which a search there
  finds a change. Which words are drawn does not matter, so the offers are stated over a stream of
  words of their own.
* **Harvests** (`Harvest.Fits`): the candidates that a subtree leaves to the declaration around it
  are the offers of the places which that declaration owns, in the order of the places.
* **Closings** (`Closing.Fits`): the frame of a declaration holds the offers of its territory, and
  the plan gets nothing if it is empty, and otherwise one of its candidates behind what has to be
  applied first.
* **The survey** (`survey_fits`): every harvest fits, with one closing for each declaration in the
  order of `Node.closingPlaces`.
-/

namespace SourceEvolution

variable {G H : Type} [WordSource G] [WordSource H]

/-- What a candidate is for: its kind, its node and the path of the node. -/
def Candidate.label (candidate : Candidate) : EvolutionKind × Node × Path :=
  (candidate.evolution.kind, candidate.node, candidate.path)

/-- The candidate belongs to a scope: its change has been found at its node there. -/
def Candidate.Suits (scope : Scope) (candidate : Candidate) : Prop :=
  candidate.evolution.Suits ⟨candidate.node, scope, candidate.node.kind.isDeclaration⟩

/-- Whether a kind is permitted at a site and a search for it there finds a change. -/
def isOffered (exclusions : Exclusions) (site : Site) (others : H) (kind : EvolutionKind) : Bool :=
  exclusions.permitsChain kind site.scope.qualifiedName && kind.isFound site others

/-- The changes that a place offers, by their kinds in the order in which they are tried. -/
def Place.offers (exclusions : Exclusions) (aliasBound : Nat) (others : H) (place : Place) :
    List (EvolutionKind × Node × Path) :=
  (EvolutionKind.all.filter (isOffered exclusions (place.site aliasBound) others)).map fun kind =>
    (kind, place.node, place.path)

/-- A candidate among those that some places offer is offered at one of them. -/
theorem exists_place_of_labels {exclusions : Exclusions} {aliasBound : Nat} {others : H}
    {places : List Place} {candidates : List Candidate}
    (h : candidates.map Candidate.label =
      places.flatMap (Place.offers exclusions aliasBound others))
    {candidate : Candidate} (hcandidate : candidate ∈ candidates) :
    ∃ place ∈ places, place.path = candidate.path ∧ place.node = candidate.node ∧
      isOffered exclusions (place.site aliasBound) others candidate.evolution.kind = true := by
  have hlabel := List.mem_map_of_mem (f := Candidate.label) hcandidate
  rw [h, List.mem_flatMap] at hlabel
  obtain ⟨place, hplace, hoffer⟩ := hlabel
  obtain ⟨kind, hkind, heq⟩ := List.mem_map.mp hoffer
  rw [Candidate.label, Prod.mk.injEq, Prod.mk.injEq] at heq
  obtain ⟨rfl, hnode, hpath⟩ := heq
  exact ⟨place, hplace, hpath, hnode, (List.mem_filter.mp hkind).2⟩

/-! ## One node -/

/-- Trying a kind gives a candidate exactly where the kind is offered. -/
theorem Survey.tryKind_labels {exclusions : Exclusions} {scope : Scope} {path : Path} {node : Node}
    {kind : EvolutionKind} {words rest : G} {found : List Candidate}
    (h : Survey.tryKind exclusions scope path node kind words = .ok found rest) (others : H) :
    found.map Candidate.label =
        ([kind].filter (isOffered exclusions ⟨node, scope, node.kind.isDeclaration⟩ others)).map
          (fun kind => (kind, node, path)) ∧
      ∀ candidate ∈ found, candidate.Suits scope := by
  have hfound :=
    EvolutionKind.isFound_congr ⟨node, scope, node.kind.isDeclaration⟩ words others kind
  simp only [EvolutionKind.isFound, EvolutionKind.outcome] at hfound
  rw [Survey.tryKind] at h
  by_cases hpermits : exclusions.permitsChain kind scope.qualifiedName = true
  · rw [if_pos hpermits] at h
    rcases hfind : kind.find ⟨node, scope, node.kind.isDeclaration⟩ words
      with ⟨change, left⟩ | ⟨cause, left⟩
    · simp only [hfind] at h hfound
      cases h
      cases change with
      | none => simp [isOffered, EvolutionKind.isFound, EvolutionKind.outcome, ← hfound]
      | some evolution =>
        obtain ⟨hsuits, hkind⟩ := Evolution.suits_of_find hfind
        refine ⟨?_, ?_⟩
        · simp [isOffered, EvolutionKind.isFound, EvolutionKind.outcome, ← hfound, hpermits,
            Candidate.label, hkind]
        · intro candidate hcandidate
          obtain rfl : candidate = ⟨evolution, node, path⟩ := by simpa using hcandidate
          exact hsuits
    · simp only [hfind] at h hfound
      cases cause with
      | unsupported =>
        cases h
        simp [isOffered, EvolutionKind.isFound, EvolutionKind.outcome, ← hfound]
      | unresolved cause => cases h
  · rw [if_neg hpermits] at h
    cases h
    simp [isOffered, hpermits]

/-- Trying several kinds gives a candidate for each that is offered. -/
theorem Survey.tryKinds_labels {exclusions : Exclusions} {scope : Scope} {path : Path} {node : Node}
    {kinds : List EvolutionKind} {words rest : G} {found : List Candidate}
    (h : Survey.tryKinds exclusions scope path node kinds words = .ok found rest) (others : H) :
    found.map Candidate.label =
        (kinds.filter (isOffered exclusions ⟨node, scope, node.kind.isDeclaration⟩ others)).map
          (fun kind => (kind, node, path)) ∧
      ∀ candidate ∈ found, candidate.Suits scope := by
  induction kinds generalizing words found with
  | nil =>
    cases h
    exact ⟨rfl, fun _ h => absurd h List.not_mem_nil⟩
  | cons kind kinds ih =>
    rw [Survey.tryKinds, bind_eq_ok_iff] at h
    obtain ⟨first, between, hfirst, h⟩ := h
    rw [bind_eq_ok_iff] at h
    obtain ⟨later, left, hlater, h⟩ := h
    cases h
    obtain ⟨hfirstLabels, hfirstSuits⟩ := tryKind_labels hfirst others
    obtain ⟨hlaterLabels, hlaterSuits⟩ := ih hlater
    refine ⟨?_, ?_⟩
    · rw [List.map_append, hfirstLabels, hlaterLabels, ← List.map_append, ← List.filter_append,
        List.singleton_append]
    · intro candidate hcandidate
      rcases List.mem_append.mp hcandidate with h | h
      · exact hfirstSuits candidate h
      · exact hlaterSuits candidate h

/-- What is put into the plan is nothing for no candidates, and otherwise one of them behind what
has to be applied first. -/
theorem Survey.choose_entries {file : String} {scope : Scope} {candidates : List Candidate}
    {words rest : G} {entries : Plan}
    (h : Survey.choose file scope candidates words = .ok entries rest) :
    (candidates = [] ∧ entries = []) ∨
      ∃ candidate ∈ candidates, entries = candidate.entries file scope := by
  rw [Survey.choose] at h
  by_cases hempty : candidates.isEmpty = true
  · rw [if_pos hempty] at h
    cases h
    exact Or.inl ⟨List.isEmpty_iff.mp hempty, rfl⟩
  · rw [if_neg hempty, bind_eq_ok_iff] at h
    obtain ⟨index, left, hdraw, h⟩ := h
    have hpos : 0 < candidates.length := by
      rwa [List.isEmpty_iff, ← ne_eq, ← List.length_pos_iff] at hempty
    have hindex : index < candidates.length := by
      change EStateM.Result.ok (WordSource.below candidates.length words).1
        (WordSource.below candidates.length words).2 = _ at hdraw
      cases hdraw
      exact WordSource.below_lt hpos words
    rw [List.getElem?_eq_getElem hindex] at h
    cases h
    refine Or.inr ⟨candidates[index], List.getElem_mem hindex, ?_⟩
    rw [Option.toList_some, List.flatMap_singleton]

/-! ## Harvests and closings -/

section fits

variable (exclusions : Exclusions) (file : String) (aliasBound : Nat) (others : H)

/-- A closing is that of the declaration at a place. -/
structure Closing.Fits (place : Place) (closing : Closing) : Prop where
  /-- The frame held what the territory of the declaration offers. -/
  labels : closing.candidates.map Candidate.label =
    place.territory.flatMap (Place.offers exclusions aliasBound others)
  /-- Each candidate was found in the scope of the declaration. -/
  suits : ∀ candidate ∈ closing.candidates, candidate.Suits (place.scope aliasBound)
  /-- The plan got nothing, or one of the candidates behind what has to be applied first. -/
  entries : (closing.candidates = [] ∧ closing.entries = []) ∨
    ∃ candidate ∈ closing.candidates,
      closing.entries = candidate.entries file (place.scope aliasBound)

/-- A harvest is that of a part of a tree, below the declarations `met`. -/
structure Harvest.Fits (met : List (Path × Decl)) (places closers : List Place)
    (harvest : Harvest) : Prop where
  /-- What is left to the innermost declaration is what the places that it owns offer. -/
  labels : harvest.loose.map Candidate.label =
    (places.filter fun place => place.owner? == met.head?.map Prod.fst).flatMap
      (Place.offers exclusions aliasBound others)
  /-- Each candidate was found in the scope of the innermost declaration. -/
  suits : ∀ candidate ∈ harvest.loose, candidate.Suits ⟨met.map Prod.snd, aliasBound⟩
  /-- There is one closing for each declaration. -/
  closings : List.Forall₂ (Closing.Fits exclusions file aliasBound others) closers harvest.closings

variable {exclusions file aliasBound others} {met : List (Path × Decl)}

theorem Harvest.Fits.append {places morePlaces closers moreClosers : List Place}
    {first second : Harvest}
    (hfirst : first.Fits exclusions file aliasBound others met places closers)
    (hsecond : second.Fits exclusions file aliasBound others met morePlaces moreClosers) :
    (first.append second).Fits exclusions file aliasBound others met (places ++ morePlaces)
      (closers ++ moreClosers) where
  labels := by
    rw [Harvest.append, List.map_append, hfirst.labels, hsecond.labels, List.filter_append,
      List.flatMap_append]
  suits := by
    intro candidate hcandidate
    rcases List.mem_append.mp hcandidate with h | h
    · exact hfirst.suits candidate h
    · exact hsecond.suits candidate h
  closings := List.rel_append hfirst.closings hsecond.closings

/-- The frame of a declaration holds what its territory offers: what is found at its node, and then
what its children leave to it. -/
theorem frame_labels {node : Node} {decl : Decl} (hdecl : Decl.ofNode? node = some decl)
    {start : Path} {own : List Candidate} {words rest : G} {below : Harvest} {closers : List Place}
    (hown : Survey.tryKinds exclusions ⟨(node.declsHere start met).map Prod.snd, aliasBound⟩ start
      node EvolutionKind.all words = .ok own rest)
    (hbelow : below.Fits exclusions file aliasBound others (node.declsHere start met)
      (Node.placesOf start (node.declsHere start met) 0 node.children) closers) :
    (own ++ below.loose).map Candidate.label =
      (node.placeHere start met).territory.flatMap (Place.offers exclusions aliasBound others) := by
  have hhead : (node.declsHere start met).head?.map Prod.fst = some start := by
    rw [Node.declsHere_of_ofNode? hdecl]
    rfl
  rw [Node.territory_placeHere hdecl, List.flatMap_cons, List.map_append,
    (Survey.tryKinds_labels hown others).1, hbelow.labels, hhead]
  rfl

variable (others)

mutual

/-- The survey of a subtree brings in what the tree says. -/
theorem survey_fits : (node : Node) → ∀ {start : Path} {met : List (Path × Decl)} {words rest : G}
    {harvest : Harvest}, Node.Above start met →
    Survey.survey exclusions file ⟨met.map Prod.snd, aliasBound⟩ start node words =
      .ok harvest rest →
    harvest.Fits exclusions file aliasBound others met (node.places start met)
      (node.closingPlaces start met)
  | ⟨kind, text, position, children⟩, start, met, words, rest, harvest, hmet, h => by
    rw [Survey.survey, Node.enter_declsHere _ start, bind_eq_ok_iff] at h
    obtain ⟨own, between, hown, h⟩ := h
    rw [bind_eq_ok_iff] at h
    obtain ⟨below, left, hbelow, h⟩ := h
    obtain ⟨hownLabels, hownSuits⟩ := Survey.tryKinds_labels hown others
    have hfits := surveyAll_fits children 0
      (fun index => hmet.declsHere ⟨kind, text, position, children⟩ index) hbelow
    rcases hdecl : Decl.ofNode? ⟨kind, text, position, children⟩ with _ | decl
    · -- what is found here and below goes on to the declaration around the node
      have hkind : kind.isDeclaration = false := Decl.ofNode?_eq_none_iff.mp hdecl
      have hhere : Node.declsHere ⟨kind, text, position, children⟩ start met = met :=
        Node.declsHere_of_not_isDeclaration hkind
      rw [hhere] at hownLabels hownSuits hfits
      simp only [hkind, Bool.false_eq_true, if_false] at h
      cases h
      rw [Node.places_eq, Node.closingPlaces_eq, hhere, if_neg (by simp [hkind]), List.append_nil]
      refine ⟨?_, ?_, hfits.closings⟩
      · rw [List.filter_cons_of_pos (by simp [Node.placeHere, Place.owner?, hhere]),
          List.flatMap_cons, List.map_append, hownLabels, hfits.labels]
        simp only [Place.offers, Place.site, Place.scope, Node.placeHere, hhere]
      · intro candidate hcandidate
        rcases List.mem_append.mp hcandidate with h | h
        · exact hownSuits candidate h
        · exact hfits.suits candidate h
    · -- the declaration is closed: its frame holds what is found here and below
      have hkind : kind.isDeclaration = true := Decl.isDeclaration_of_ofNode? hdecl
      simp only [hkind, if_true] at h
      rw [bind_eq_ok_iff] at h
      obtain ⟨entries, last, hchoose, h⟩ := h
      cases h
      refine ⟨?_, fun _ h => absurd h List.not_mem_nil, ?_⟩
      · rw [Node.filter_owner?_eq_nil hmet hkind]
        rfl
      · rw [Node.closingPlaces_eq, if_pos hkind]
        refine List.rel_append hfits.closings (List.Forall₂.cons ⟨?_, ?_, ?_⟩ List.Forall₂.nil)
        · exact frame_labels hdecl hown hfits
        · intro candidate hcandidate
          rcases List.mem_append.mp hcandidate with h | h
          · exact hownSuits candidate h
          · exact hfits.suits candidate h
        · exact Survey.choose_entries hchoose

/-- The survey of the children of a node brings in what the tree says. -/
theorem surveyAll_fits : (children : List Node) → ∀ (index : Nat) {start : Path}
    {met : List (Path × Decl)} {words rest : G} {harvest : Harvest},
    (∀ index, Node.Above (start.child index) met) →
    Survey.surveyAll exclusions file ⟨met.map Prod.snd, aliasBound⟩ start index children words =
      .ok harvest rest →
    harvest.Fits exclusions file aliasBound others met (Node.placesOf start met index children)
      (Node.closingPlacesOf start met index children)
  | [], index, start, met, words, rest, harvest, _, h => by
    cases h
    exact ⟨rfl, fun _ h => absurd h List.not_mem_nil, List.Forall₂.nil⟩
  | child :: children, index, start, met, words, rest, harvest, hmet, h => by
    rw [Survey.surveyAll, bind_eq_ok_iff] at h
    obtain ⟨first, between, hfirst, h⟩ := h
    rw [bind_eq_ok_iff] at h
    obtain ⟨later, left, hlater, h⟩ := h
    cases h
    rw [Node.placesOf, Node.closingPlacesOf]
    exact (survey_fits child (hmet index) hfirst).append
      (surveyAll_fits children (index + 1) hmet hlater)

end

end fits

end SourceEvolution
