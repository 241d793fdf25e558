import Mathlib.Data.List.Basic
import SourceEvolution.Scope.Basic

/-!
# Places in a tree

A place is a node together with the path that leads to it and the declarations around it. This
module lists the places of a tree and says how they lie to each other.

* **Places.** `Node.places` lists every node before the nodes below it, `Node.closingPlaces` lists
  the declarations after those inside them. `Place.owner?` is the path of the nearest declaration,
  the node itself counted.
* **Membership** (`mem_places_iff`): the places of a tree are the pairs of a path and the node that
  it leads to, with `Node.declsAlong` as the declarations.
* **Territories** (`territory_eq_filter`): the places that a declaration owns are found by looking
  at its own subtree only.
* **Order** (`pairwise_closingPlaces`): a declaration is closed after every declaration below it, so
  a closed one is never above, or the same as, one that is closed later.
* **Enclosing declarations** (`container?_eq_some_iff`): the nearest declaration around a place is
  found by its path.
-/

namespace SourceEvolution

/-! ## Declarations as nodes -/

/-- The declaration that a node is has that node. -/
theorem Decl.ofNode?_eq_some_iff {node : Node} {decl : Decl} :
    Decl.ofNode? node = some decl ↔ decl.node = node := by
  unfold Decl.ofNode?
  constructor
  · intro h
    split at h
    · cases h
      rfl
    · cases h
  · rintro rfl
    split
    · exact congrArg some (Decl.ext_node rfl)
    · rename_i h
      exact absurd decl.kind_eq (h _)

/-- A node is no declaration exactly when its kind opens no scope. -/
theorem Decl.ofNode?_eq_none_iff {node : Node} :
    Decl.ofNode? node = none ↔ node.kind.isDeclaration = false := by
  unfold Decl.ofNode? NodeKind.isDeclaration
  split <;> simp_all

/-- A node whose kind opens a scope is a declaration. -/
theorem Decl.exists_of_isDeclaration {node : Node} (h : node.kind.isDeclaration = true) :
    ∃ decl, Decl.ofNode? node = some decl ∧ decl.node = node := by
  rcases hd : Decl.ofNode? node with _ | decl
  · rw [Decl.ofNode?_eq_none_iff, h] at hd
    cases hd
  · exact ⟨decl, rfl, Decl.ofNode?_eq_some_iff.mp hd⟩

/-- The kind of a node that is a declaration opens a scope. -/
theorem Decl.isDeclaration_of_ofNode? {node : Node} {decl : Decl}
    (h : Decl.ofNode? node = some decl) : node.kind.isDeclaration = true := by
  rw [← Bool.not_eq_false]
  intro hkind
  rw [Decl.ofNode?_eq_none_iff.mpr hkind] at h
  cases h

/-! ## Induction on trees -/

namespace Node

mutual

/-- What holds of a node whenever it holds of its children holds of every node. -/
theorem inductionOn {motive : Node → Prop}
    (step : ∀ node : Node, (∀ child ∈ node.children, motive child) → motive node) :
    (node : Node) → motive node
  | ⟨kind, text, position, children⟩ =>
    step ⟨kind, text, position, children⟩ (inductionOnList step children)

/-- What holds of a node whenever it holds of its children holds of every node of a list. -/
theorem inductionOnList {motive : Node → Prop}
    (step : ∀ node : Node, (∀ child ∈ node.children, motive child) → motive node) :
    (nodes : List Node) → ∀ node ∈ nodes, motive node
  | [] => fun _ h => absurd h List.not_mem_nil
  | first :: rest =>
    List.forall_mem_cons.mpr ⟨inductionOn step first, inductionOnList step rest⟩

end

end Node

/-! ## Places -/

/-- A node of a tree, where it stands. -/
structure Place where
  /-- The path that leads to the node. -/
  path : Path
  /-- The node. -/
  node : Node
  /-- The declarations around the node, itself included, the innermost first, each with its path. -/
  decls : List (Path × Decl)

namespace Place

/-- The path of the nearest declaration, the node itself counted. -/
def owner? (place : Place) : Option Path :=
  place.decls.head?.map Prod.fst

/-- The scope at a place. -/
def scope (place : Place) (aliasBound : Nat) : Scope where
  chain := place.decls.map Prod.snd
  aliasBound := aliasBound

/-- A place as a site. -/
def site (place : Place) (aliasBound : Nat) : Site where
  node := place.node
  scope := place.scope aliasBound
  isInnermost := place.node.kind.isDeclaration

end Place

namespace Node

mutual

/-- The places of a tree, a node before the nodes below it. `start` is the path of the node itself,
and `met` are the declarations around it. -/
def places (start : Path) (met : List (Path × Decl)) : Node → List Place
  | ⟨kind, text, position, children⟩ =>
    ⟨start, ⟨kind, text, position, children⟩,
        declsHere ⟨kind, text, position, children⟩ start met⟩ ::
      placesOf start (declsHere ⟨kind, text, position, children⟩ start met) 0 children

/-- The places below the node at a path, in the children from an index on. -/
def placesOf (start : Path) (met : List (Path × Decl)) (index : Nat) : List Node → List Place
  | [] => []
  | child :: rest =>
    child.places (start.child index) met ++ placesOf start met (index + 1) rest

end

mutual

/-- The declarations of a tree in the order in which they are closed, so that a declaration comes
after those inside it. -/
def closingPlaces (start : Path) (met : List (Path × Decl)) : Node → List Place
  | ⟨kind, text, position, children⟩ =>
    closingPlacesOf start (declsHere ⟨kind, text, position, children⟩ start met) 0 children ++
      if kind.isDeclaration then
        [⟨start, ⟨kind, text, position, children⟩,
          declsHere ⟨kind, text, position, children⟩ start met⟩]
      else []

/-- The declarations below the node at a path, in the children from an index on. -/
def closingPlacesOf (start : Path) (met : List (Path × Decl)) (index : Nat) :
    List Node → List Place
  | [] => []
  | child :: rest =>
    child.closingPlaces (start.child index) met ++ closingPlacesOf start met (index + 1) rest

end

/-- The place of a node itself. -/
def placeHere (node : Node) (start : Path) (met : List (Path × Decl)) : Place :=
  ⟨start, node, declsHere node start met⟩

variable {start : Path} {met : List (Path × Decl)} {node : Node}

theorem places_eq (node : Node) (start : Path) (met : List (Path × Decl)) :
    node.places start met =
      node.placeHere start met :: placesOf start (declsHere node start met) 0 node.children := by
  cases node
  rw [places]
  rfl

theorem closingPlaces_eq (node : Node) (start : Path) (met : List (Path × Decl)) :
    node.closingPlaces start met =
      closingPlacesOf start (declsHere node start met) 0 node.children ++
        if node.kind.isDeclaration then [node.placeHere start met] else [] := by
  cases node
  rw [closingPlaces]
  rfl

/-- A declaration counts itself among the declarations around it. -/
theorem declsHere_of_ofNode? {decl : Decl} (h : Decl.ofNode? node = some decl) :
    declsHere node start met = (start, decl) :: met := by
  simp only [declsHere, h]

/-- A node that is no declaration adds nothing to the declarations around it. -/
theorem declsHere_of_not_isDeclaration (h : node.kind.isDeclaration = false) :
    declsHere node start met = met := by
  simp only [declsHere, Decl.ofNode?_eq_none_iff.mpr h]

/-- The declarations at a node are the node, if it is one, and those around it. -/
theorem mem_declsHere {decl : Path × Decl} :
    decl ∈ declsHere node start met ↔ decl.1 = start ∧ decl.2.node = node ∨ decl ∈ met := by
  rcases hdecl : Decl.ofNode? node with _ | here
  · have hnot : decl.2.node ≠ node := by
      rintro rfl
      rw [Decl.ofNode?_eq_some_iff.mpr rfl] at hdecl
      cases hdecl
    simp [declsHere, hdecl, hnot]
  · obtain rfl := Decl.ofNode?_eq_some_iff.mp hdecl
    rw [declsHere_of_ofNode? hdecl, List.mem_cons, Prod.ext_iff]
    refine or_congr_left (and_congr_right fun _ => ⟨congrArg Decl.node, Decl.ext_node⟩)

/-- Entering a node adds it to the declarations of a scope if it is one. -/
theorem enter_declsHere (node : Node) (start : Path) (met : List (Path × Decl)) (aliasBound : Nat) :
    (Scope.mk (met.map Prod.snd) aliasBound).enter node =
      ⟨(declsHere node start met).map Prod.snd, aliasBound⟩ := by
  unfold Scope.enter declsHere
  split
  · rfl
  · rfl

/-! ## Membership -/

theorem placesOf_eq_flatMap (start : Path) (met : List (Path × Decl)) (index : Nat)
    (children : List Node) :
    placesOf start met index children =
      (children.zipIdx index).flatMap fun child => child.1.places (start.child child.2) met := by
  induction children generalizing index with
  | nil => rfl
  | cons first rest ih => rw [placesOf, List.zipIdx_cons, List.flatMap_cons, ih]

theorem closingPlacesOf_eq_flatMap (start : Path) (met : List (Path × Decl)) (index : Nat)
    (children : List Node) :
    closingPlacesOf start met index children =
      (children.zipIdx index).flatMap fun child =>
        child.1.closingPlaces (start.child child.2) met := by
  induction children generalizing index with
  | nil => rfl
  | cons first rest ih => rw [closingPlacesOf, List.zipIdx_cons, List.flatMap_cons, ih]

/-- What is gathered from numbered children is gathered from one of them. -/
theorem mem_flatMap_zipIdx {α : Type} {children : List Node} {gather : Node × Nat → List α}
    {x : α} :
    x ∈ children.zipIdx.flatMap gather ↔
      ∃ i child, children[i]? = some child ∧ x ∈ gather (child, i) := by
  rw [List.mem_flatMap]
  constructor
  · rintro ⟨⟨child, i⟩, hi, hx⟩
    exact ⟨i, child, List.mk_mem_zipIdx_iff_getElem?.mp hi, hx⟩
  · rintro ⟨i, child, hi, hx⟩
    exact ⟨(child, i), List.mk_mem_zipIdx_iff_getElem?.mpr hi, hx⟩

/-- The places below a node are those of its children. -/
theorem mem_placesOf {children : List Node} {place : Place} :
    place ∈ placesOf start met 0 children ↔
      ∃ i child, children[i]? = some child ∧ place ∈ places (start.child i) met child := by
  rw [placesOf_eq_flatMap, mem_flatMap_zipIdx]

/-- The declarations below a node are those of its children. -/
theorem mem_closingPlacesOf {children : List Node} {place : Place} :
    place ∈ closingPlacesOf start met 0 children ↔
      ∃ i child, children[i]? = some child ∧ place ∈ closingPlaces (start.child i) met child := by
  rw [closingPlacesOf_eq_flatMap, mem_flatMap_zipIdx]

/-- The declarations of a tree are the places whose node opens a scope. -/
theorem mem_closingPlaces_iff {place : Place} :
    place ∈ node.closingPlaces start met ↔
      place ∈ node.places start met ∧ place.node.kind.isDeclaration = true := by
  induction node using inductionOn generalizing start met with
  | step node ih =>
    rw [closingPlaces_eq, places_eq, List.mem_append, List.mem_cons, mem_closingPlacesOf,
      mem_placesOf]
    constructor
    · rintro (⟨i, child, hi, h⟩ | h)
      · rw [ih child (List.mem_of_getElem? hi)] at h
        exact ⟨Or.inr ⟨i, child, hi, h.1⟩, h.2⟩
      · split at h
        · obtain rfl := List.mem_singleton.mp h
          exact ⟨Or.inl rfl, by assumption⟩
        · cases h
    · rintro ⟨rfl | ⟨i, child, hi, h⟩, hd⟩
      · have hd : node.kind.isDeclaration = true := hd
        rw [if_pos hd]
        exact Or.inr (List.mem_singleton.mpr rfl)
      · exact Or.inl ⟨i, child, hi, (ih child (List.mem_of_getElem? hi)).mpr ⟨h, hd⟩⟩

theorem nodeAt?_cons (node : Node) (index : Nat) (rest : Path) :
    node.nodeAt? (index :: rest) = (node.child? index).bind fun child => child.nodeAt? rest :=
  rfl

/-- The places of a tree are the paths that lead somewhere, with the node that they lead to and the
declarations on the way. -/
theorem mem_places_iff {place : Place} :
    place ∈ node.places start met ↔
      ∃ rest, place.path = start ++ rest ∧ node.nodeAt? rest = some place.node ∧
        place.decls = node.declsAlong start met rest := by
  induction node using inductionOn generalizing start met with
  | step node ih =>
    rw [places_eq, List.mem_cons, mem_placesOf]
    constructor
    · rintro (rfl | ⟨i, child, hi, h⟩)
      · exact ⟨[], (List.append_nil start).symm, rfl, rfl⟩
      · rw [ih child (List.mem_of_getElem? hi)] at h
        obtain ⟨rest, hpath, hnode, hdecls⟩ := h
        refine ⟨i :: rest, ?_, ?_, ?_⟩
        · rw [hpath, Path.child, List.append_assoc, List.singleton_append]
        · simpa [nodeAt?_cons, child?, hi] using hnode
        · simpa [declsAlong, child?, hi] using hdecls
    · rintro ⟨rest, hpath, hnode, hdecls⟩
      cases rest with
      | nil =>
        refine Or.inl ?_
        obtain ⟨path, here, decls⟩ := place
        obtain rfl : node = here := Option.some.inj hnode
        obtain rfl : path = start := by simpa using hpath
        obtain rfl : decls = declsHere node path met := hdecls
        rfl
      | cons i rest =>
        rw [nodeAt?_cons] at hnode
        obtain ⟨child, hi, hnode⟩ := Option.bind_eq_some_iff.mp hnode
        refine Or.inr ⟨i, child, hi, ?_⟩
        rw [ih child (List.mem_of_getElem? hi)]
        refine ⟨rest, ?_, hnode, ?_⟩
        · rw [hpath, Path.child, List.append_assoc, List.singleton_append]
        · rw [hdecls, declsAlong, hi]

/-- The places of a tree are told apart by their paths. -/
theorem eq_of_mem_places {place other : Place} (hplace : place ∈ node.places start met)
    (hother : other ∈ node.places start met) (hpath : place.path = other.path) : place = other := by
  obtain ⟨rest, hrest, hnode, hdecls⟩ := mem_places_iff.mp hplace
  obtain ⟨otherRest, hotherRest, hotherNode, hotherDecls⟩ := mem_places_iff.mp hother
  obtain rfl : rest = otherRest :=
    List.append_cancel_left (hrest.symm.trans (hpath.trans hotherRest))
  obtain ⟨path, here, decls⟩ := place
  obtain ⟨otherPath, otherHere, otherDecls⟩ := other
  cases hpath
  cases hdecls.trans hotherDecls.symm
  cases hnode.symm.trans hotherNode
  rfl

/-- The path of a place below a node extends the path of the node. -/
theorem path_of_mem_places {place : Place} (h : place ∈ node.places start met) :
    start <+: place.path := by
  obtain ⟨rest, hpath, -⟩ := mem_places_iff.mp h
  exact ⟨rest, hpath.symm⟩

/-! ## Owners -/

/-- The declarations of a list stand at shorter paths. -/
def Above (start : Path) (met : List (Path × Decl)) : Prop :=
  ∀ decl ∈ met, decl.1.length < start.length

/-- The declarations at a node stand above its children. -/
theorem Above.declsHere (h : Above start met) (node : Node) (index : Nat) :
    Above (start.child index) (declsHere node start met) := by
  have hmet : Above (start.child index) met := by
    intro decl hdecl
    have := h decl hdecl
    simp only [Path.child, List.length_append, List.length_singleton]
    omega
  unfold Node.declsHere
  split
  · intro decl hdecl
    rcases List.mem_cons.mp hdecl with rfl | hdecl
    · simp [Path.child]
    · exact hmet decl hdecl
  · exact hmet

theorem above_nil (start : Path) : Above start [] :=
  fun _ h => absurd h List.not_mem_nil

/-- The declarations around a place below a node are those around the node, or the nearest of them
is at or below the node. -/
theorem decls_of_mem_places {place : Place} (h : place ∈ node.places start met) :
    place.decls = met ∨ ∃ path, place.owner? = some path ∧ start <+: path := by
  induction node using inductionOn generalizing start met with
  | step node ih =>
    -- the declarations at the node itself start with the node, or are those above it
    have here : declsHere node start met = met ∨
        (declsHere node start met).head?.map Prod.fst = some start := by
      unfold declsHere
      split
      · exact Or.inr rfl
      · exact Or.inl rfl
    rw [places_eq, List.mem_cons, mem_placesOf] at h
    rcases h with rfl | ⟨i, child, hi, h⟩
    · rcases here with here | here
      · exact Or.inl here
      · exact Or.inr ⟨start, here, List.prefix_rfl⟩
    · rcases ih child (List.mem_of_getElem? hi) h with hdecls | ⟨path, howner, hpath⟩
      · rcases here with here | here
        · exact Or.inl (hdecls.trans here)
        · refine Or.inr ⟨start, ?_, List.prefix_rfl⟩
          rw [Place.owner?, hdecls, here]
      · exact Or.inr ⟨path, howner, (List.prefix_append start [i]).trans hpath⟩

/-- A place below a node is owned by the declaration around the node, or by one at or below it. -/
theorem owner?_of_mem_places {place : Place} (h : place ∈ node.places start met) :
    place.owner? = met.head?.map Prod.fst ∨ ∃ path, place.owner? = some path ∧ start <+: path := by
  rcases decls_of_mem_places h with hdecls | howner
  · refine Or.inl ?_
    rw [Place.owner?, hdecls]
  · exact Or.inr howner

/-- A place inside a declaration is owned by that declaration or by one below it. -/
theorem owner?_of_mem_places_of_isDeclaration (hd : node.kind.isDeclaration = true) {place : Place}
    (h : place ∈ node.places start met) : ∃ path, place.owner? = some path ∧ start <+: path := by
  obtain ⟨decl, hdecl, -⟩ := Decl.exists_of_isDeclaration hd
  rw [places_eq, declsHere_of_ofNode? hdecl, List.mem_cons, mem_placesOf] at h
  rcases h with rfl | ⟨i, child, -, h⟩
  · exact ⟨start, by simp [Place.owner?, placeHere, declsHere_of_ofNode? hdecl], List.prefix_rfl⟩
  · rcases owner?_of_mem_places h with howner | ⟨path, howner, hpath⟩
    · exact ⟨start, howner, List.prefix_rfl⟩
    · exact ⟨path, howner, (List.prefix_append start [i]).trans hpath⟩

/-- Nothing inside a declaration is owned by the declaration around it. -/
theorem filter_owner?_eq_nil (hmet : Above start met) (hd : node.kind.isDeclaration = true) :
    (node.places start met).filter (fun place => place.owner? == met.head?.map Prod.fst) = [] := by
  rw [List.filter_eq_nil_iff]
  intro place hplace howner
  obtain ⟨path, hpath, hextends⟩ := owner?_of_mem_places_of_isDeclaration hd hplace
  rw [beq_iff_eq, hpath] at howner
  obtain ⟨decl, hdecl, rfl⟩ := Option.map_eq_some_iff.mp howner.symm
  have := hmet decl (List.mem_of_mem_head? hdecl)
  have := hextends.length_le
  omega

end Node

/-! ## Territories -/

/-- The places that a declaration owns, as its own subtree shows them. -/
def Place.territory (place : Place) : List Place :=
  (place.node.places place.path place.decls.tail).filter fun other =>
    other.owner? == some place.path

namespace Node

variable {start : Path} {met : List (Path × Decl)} {node : Node}

/-- The territory of a declaration is the declaration and what it owns below its children. -/
theorem territory_placeHere {decl : Decl} (h : Decl.ofNode? node = some decl) :
    (node.placeHere start met).territory =
      node.placeHere start met ::
        (placesOf start (declsHere node start met) 0 node.children).filter fun place =>
          place.owner? == some start := by
  simp only [Place.territory, placeHere, declsHere_of_ofNode? h, List.tail_cons]
  have hown : (node.placeHere start met).owner? = some start := by
    simp [placeHere, Place.owner?, declsHere_of_ofNode? h]
  rw [places_eq, List.filter_cons_of_pos (by simp [hown])]
  simp only [placeHere, declsHere_of_ofNode? h]

/-- The paths of two children extend to a common path only if the children are the same. -/
theorem eq_of_prefix_child {i j : Nat} {path : Path} (hi : start.child i <+: path)
    (hj : start.child j <+: path) : i = j := by
  have h := List.prefix_of_prefix_length_le hi hj (by simp [Path.child])
  simpa [Path.child] using h.eq_of_length (by simp [Path.child])

theorem length_lt_of_prefix_child {i : Nat} {path : Path} (h : start.child i <+: path) :
    start.length < path.length := by
  have := h.length_le
  simp only [Path.child, List.length_append, List.length_singleton] at this
  omega

/-- A place of a tree is the place of its node, below some declarations. -/
theorem exists_eq_placeHere {place : Place} (h : place ∈ node.places start met) :
    ∃ above, place = place.node.placeHere place.path above := by
  induction node using inductionOn generalizing start met with
  | step node ih =>
    rw [places_eq, List.mem_cons, mem_placesOf] at h
    rcases h with rfl | ⟨i, child, hi, h⟩
    · exact ⟨met, rfl⟩
    · exact ih child (List.mem_of_getElem? hi) h

/-- All places that a declaration owns lie in the same declarations. -/
theorem decls_of_mem_territory {place other : Place} (h : place ∈ node.closingPlaces start met)
    (hother : other ∈ place.territory) : other.decls = place.decls := by
  obtain ⟨hplace, hkind⟩ := mem_closingPlaces_iff.mp h
  obtain ⟨above, hhere⟩ := exists_eq_placeHere hplace
  obtain ⟨decl, hdecl, -⟩ := Decl.exists_of_isDeclaration hkind
  rw [hhere, territory_placeHere hdecl, List.mem_cons] at hother
  rcases hother with rfl | hother
  · rw [← hhere]
  · obtain ⟨hmem, howner⟩ := List.mem_filter.mp hother
    obtain ⟨i, child, -, hmem⟩ := mem_placesOf.mp hmem
    rcases decls_of_mem_places hmem with hdecls | ⟨path, hpath, hextends⟩
    · rw [hdecls, hhere, placeHere]
    · -- an owner below a child is not the declaration itself
      rw [beq_iff_eq, hpath] at howner
      cases howner
      exact absurd (length_lt_of_prefix_child hextends) (Nat.lt_irrefl _)

/-- When only one element of a list contributes, what is gathered is its contribution. The elements
are told apart by a key. -/
theorem flatMap_eq_of_key {α β γ : Type} (key : α → β) {items : List α} {gather : α → List γ}
    (hkeys : (items.map key).Nodup) {item : α} (hitem : item ∈ items)
    (hothers : ∀ other ∈ items, key other ≠ key item → gather other = []) :
    items.flatMap gather = gather item := by
  induction items with
  | nil => cases hitem
  | cons first rest ih =>
    rw [List.map_cons, List.nodup_cons] at hkeys
    rw [List.flatMap_cons]
    rcases List.mem_cons.mp hitem with rfl | hrest
    · have hnil : rest.flatMap gather = [] := by
        rw [List.flatMap_eq_nil_iff]
        intro other hother
        refine hothers other (List.mem_cons_of_mem _ hother) fun heq => hkeys.1 ?_
        exact heq ▸ List.mem_map_of_mem hother
      rw [hnil, List.append_nil]
    · have hfirst : gather first = [] := by
        refine hothers first List.mem_cons_self fun heq => hkeys.1 ?_
        exact heq ▸ List.mem_map_of_mem hrest
      rw [hfirst, List.nil_append]
      exact ih hkeys.2 hrest fun other hother => hothers other (List.mem_cons_of_mem _ hother)

/-- The places that a declaration owns are found in its own subtree. -/
theorem territory_eq_filter (hmet : Above start met) {place : Place}
    (h : place ∈ node.closingPlaces start met) :
    (node.places start met).filter (fun other => other.owner? == some place.path) =
      place.territory := by
  induction node using inductionOn generalizing start met with
  | step node ih =>
    rw [closingPlaces_eq, List.mem_append, mem_closingPlacesOf] at h
    rcases h with ⟨i, child, hi, h⟩ | h
    · -- the declaration is below a child, and nothing outside that child is its own
      have hpath : start.child i <+: place.path :=
        path_of_mem_places (mem_closingPlaces_iff.mp h).1
      have hlong := length_lt_of_prefix_child hpath
      have houter : ∀ path, (declsHere node start met).head?.map Prod.fst = some path →
          path ≠ place.path := by
        rintro path hhead rfl
        obtain ⟨decl, hdecl, hdeclPath⟩ := Option.map_eq_some_iff.mp hhead
        have := hmet.declsHere node i decl (List.mem_of_mem_head? hdecl)
        rw [hdeclPath] at this
        simp only [Path.child, List.length_append, List.length_singleton] at this
        omega
      have hhere : ((node.placeHere start met).owner? == some place.path) = false := by
        rw [beq_eq_false_iff_ne]
        intro howner
        exact houter _ howner rfl
      rw [places_eq, List.filter_cons_of_neg (by simp [hhere]), placesOf_eq_flatMap,
        List.filter_flatMap, ← ih child (List.mem_of_getElem? hi) (hmet.declsHere node i) h]
      refine flatMap_eq_of_key Prod.snd ?_ (List.mk_mem_zipIdx_iff_getElem?.mpr hi) ?_
      · rw [List.zipIdx_map_snd]
        exact List.nodup_range'
      · rintro ⟨other, j⟩ - hj
        rw [List.filter_eq_nil_iff]
        intro inner hinner howner
        rw [beq_iff_eq] at howner
        rcases owner?_of_mem_places hinner with hup | ⟨path, hdown, hextends⟩
        · exact houter _ (hup.symm.trans howner) rfl
        · rw [howner] at hdown
          cases hdown
          exact hj (eq_of_prefix_child hextends hpath)
    · split at h
      · rename_i hd
        obtain rfl := List.mem_singleton.mp h
        obtain ⟨decl, hdecl, -⟩ := Decl.exists_of_isDeclaration hd
        simp only [Place.territory, placeHere, declsHere_of_ofNode? hdecl, List.tail_cons]
      · cases h

/-! ## Ancestors -/

/-- Going down adds declarations and drops none. -/
theorem suffix_declsAlong (node : Node) (start : Path) (met : List (Path × Decl)) (path : Path) :
    met <:+ node.declsAlong start met path := by
  have here : ∀ (node : Node) (start : Path) (met : List (Path × Decl)),
      met <:+ declsHere node start met := by
    intro node start met
    unfold declsHere
    split
    · exact List.suffix_cons _ _
    · exact List.suffix_rfl
  induction path generalizing node start met with
  | nil => exact here node start met
  | cons index rest ih =>
    rw [declsAlong]
    split
    · exact (here node start met).trans (ih _ _ _)
    · exact here node start met

/-- The declarations around a node are also around the nodes below it. -/
theorem declsAlong_suffix_append (node : Node) (start : Path) (met : List (Path × Decl))
    (path rest : Path) :
    node.declsAlong start met path <:+ node.declsAlong start met (path ++ rest) := by
  induction path generalizing node start met with
  | nil =>
    rw [List.nil_append]
    cases rest with
    | nil => exact List.suffix_rfl
    | cons index rest =>
      simp only [declsAlong]
      split
      · exact suffix_declsAlong _ _ _ _
      · exact List.suffix_rfl
  | cons index path ih =>
    simp only [List.cons_append, declsAlong]
    split
    · exact ih _ _ _
    · exact List.suffix_rfl

theorem nodeAt?_append (node : Node) (path rest : Path) :
    node.nodeAt? (path ++ rest) = (node.nodeAt? path).bind fun inner => inner.nodeAt? rest := by
  induction path generalizing node with
  | nil => rfl
  | cons index path ih =>
    rw [List.cons_append, nodeAt?_cons, nodeAt?_cons, Option.bind_assoc]
    exact congrArg _ (funext fun child => ih child)

/-- The declarations met on the way down a path are nodes on the way. -/
theorem nodeAt?_of_mem_declsAlong {path : Path} {decl : Path × Decl}
    (h : decl ∈ node.declsAlong start met path) :
    decl ∈ met ∨ ∃ rest, decl.1 = start ++ rest ∧ node.nodeAt? rest = some decl.2.node := by
  have here : ∀ (node : Node) (start : Path) (met : List (Path × Decl)),
      decl ∈ declsHere node start met →
        decl ∈ met ∨ ∃ rest, decl.1 = start ++ rest ∧ node.nodeAt? rest = some decl.2.node := by
    intro node start met h
    rcases hdecl : Decl.ofNode? node with _ | inner
    · rw [declsHere, hdecl] at h
      exact Or.inl h
    · rw [declsHere_of_ofNode? hdecl, List.mem_cons] at h
      rcases h with rfl | h
      · refine Or.inr ⟨[], (List.append_nil start).symm, ?_⟩
        rw [Decl.ofNode?_eq_some_iff.mp hdecl]
        rfl
      · exact Or.inl h
  induction path generalizing node start met with
  | nil => exact here node start met h
  | cons index path ih =>
    rw [declsAlong] at h
    split at h
    · rename_i child hchild
      rcases ih h with h | ⟨rest, hpath, hnode⟩
      · exact here node start met h
      · refine Or.inr ⟨index :: rest, ?_, ?_⟩
        · rw [hpath, Path.child, List.append_assoc, List.singleton_append]
        · rw [nodeAt?_cons, hchild, Option.bind_some, hnode]
    · exact here node start met h

/-- The declarations around a place stand at their paths. -/
theorem nodeAt?_of_mem_decls {root : Node} {place : Place} (h : place ∈ root.places [] [])
    {decl : Path × Decl} (hdecl : decl ∈ place.decls) :
    root.nodeAt? decl.1 = some decl.2.node := by
  obtain ⟨rest, -, -, hdecls⟩ := mem_places_iff.mp h
  rw [hdecls] at hdecl
  rcases nodeAt?_of_mem_declsAlong hdecl with h | ⟨rest, hpath, hnode⟩
  · cases h
  · rw [hpath]
    exact hnode

/-- The declarations of a list lie on the way to a node, each above the one before it. -/
structure OnTheWay (start : Path) (met : List (Path × Decl)) : Prop where
  /-- They are nested. -/
  nested : met.Pairwise fun inner outer => outer.1 <+: inner.1
  /-- They are at or above the node. -/
  above : ∀ decl ∈ met, decl.1 <+: start

/-- The declarations at a node lie on the way to it. -/
theorem OnTheWay.declsHere (h : OnTheWay start met) (node : Node) :
    OnTheWay start (declsHere node start met) := by
  unfold Node.declsHere
  split
  · refine ⟨List.pairwise_cons.mpr ⟨h.above, h.nested⟩, ?_⟩
    intro decl hdecl
    rcases List.mem_cons.mp hdecl with rfl | hdecl
    · exact List.prefix_rfl
    · exact h.above decl hdecl
  · exact h

/-- The declarations met on the way down a path are nested. -/
theorem OnTheWay.nested_declsAlong (h : OnTheWay start met) (node : Node) (path : Path) :
    (node.declsAlong start met path).Pairwise fun inner outer => outer.1 <+: inner.1 := by
  induction path generalizing node start met with
  | nil => exact (h.declsHere node).nested
  | cons index rest ih =>
    rw [declsAlong]
    split
    · refine ih ⟨(h.declsHere node).nested, ?_⟩ _
      intro decl hdecl
      exact ((h.declsHere node).above decl hdecl).trans (List.prefix_append start [index])
    · exact (h.declsHere node).nested

/-- The owner of a place is at or above the owner of every place below it. -/
theorem owner?_mono {root : Node} {upper lower : Place} (hupper : upper ∈ root.places [] [])
    (hlower : lower ∈ root.places [] []) (hextends : upper.path <+: lower.path)
    {outer inner : Path} (houter : upper.owner? = some outer)
    (hinner : lower.owner? = some inner) : outer <+: inner := by
  obtain ⟨rest, hrest⟩ := hextends
  obtain ⟨_, rfl, -, hupperDecls⟩ := mem_places_iff.mp hupper
  obtain ⟨_, rfl, -, hlowerDecls⟩ := mem_places_iff.mp hlower
  have hsuffix : upper.decls <:+ lower.decls := by
    rw [hupperDecls, hlowerDecls, ← hrest]
    exact declsAlong_suffix_append root [] [] _ rest
  have hway : OnTheWay [] ([] : List (Path × Decl)) :=
    ⟨List.Pairwise.nil, fun _ h => absurd h List.not_mem_nil⟩
  have hnested := hway.nested_declsAlong root lower.path
  rw [← hlowerDecls] at hnested
  obtain ⟨upperDecl, hupperHead, rfl⟩ := Option.map_eq_some_iff.mp houter
  obtain ⟨lowerDecl, hlowerHead, rfl⟩ := Option.map_eq_some_iff.mp hinner
  obtain ⟨others, hothers⟩ := List.head?_eq_some_iff.mp hlowerHead
  have hmem : upperDecl ∈ lower.decls := hsuffix.subset (List.mem_of_mem_head? hupperHead)
  rw [hothers] at hnested hmem
  rcases List.mem_cons.mp hmem with rfl | hmem
  · exact List.prefix_rfl
  · exact (List.pairwise_cons.mp hnested).1 upperDecl hmem

/-- The declarations above a place are those that stand on the way to it, each above the one before
it in the list. `rest` is the way from the node down to the place. -/
theorem exists_above {place : Place} (h : place ∈ node.places start met)
    (hway : OnTheWay start met) (habove : Above start met) :
    ∃ above rest, place.path = start ++ rest ∧ place = place.node.placeHere place.path above ∧
      OnTheWay place.path above ∧ Above place.path above ∧
      ∀ decl, decl ∈ above ↔ decl ∈ met ∨ ∃ way, way <+: rest ∧ way ≠ rest ∧
        decl.1 = start ++ way ∧ node.nodeAt? way = some decl.2.node := by
  induction node using inductionOn generalizing start met with
  | step node ih =>
    rw [places_eq, List.mem_cons, mem_placesOf] at h
    rcases h with rfl | ⟨i, child, hi, h⟩
    · refine ⟨met, [], (List.append_nil start).symm, rfl, hway, habove, fun decl => ?_⟩
      refine ⟨Or.inl, ?_⟩
      rintro (hmet | ⟨way, hupper, hne, -⟩)
      · exact hmet
      · exact absurd (List.prefix_nil.mp hupper) hne
    · have hchildWay : OnTheWay (start.child i) (declsHere node start met) :=
        ⟨(hway.declsHere node).nested, fun decl hdecl =>
          ((hway.declsHere node).above decl hdecl).trans (List.prefix_append start [i])⟩
      obtain ⟨above, rest, hpath, hplace, haboveWay, haboveShort, hmem⟩ :=
        ih child (List.mem_of_getElem? hi) h hchildWay (habove.declsHere node i)
      refine ⟨above, i :: rest, ?_, hplace, haboveWay, haboveShort, fun decl => ?_⟩
      · rw [hpath, Path.child, List.append_assoc, List.singleton_append]
      · rw [hmem, mem_declsHere]
        constructor
        · rintro ((⟨hpath, hnode⟩ | hmet) | ⟨way, hupper, hne, hway, hnode⟩)
          · refine Or.inr ⟨[], List.nil_prefix, List.cons_ne_nil i rest |>.symm, ?_, ?_⟩
            · rw [hpath, List.append_nil]
            · rw [hnode]
              rfl
          · exact Or.inl hmet
          · refine Or.inr ⟨i :: way, List.cons_prefix_cons.mpr ⟨rfl, hupper⟩, ?_, ?_, ?_⟩
            · exact fun heq => hne (List.cons.inj heq).2
            · rw [hway, Path.child, List.append_assoc, List.singleton_append]
            · rw [nodeAt?_cons, child?, hi, Option.bind_some, hnode]
        · rintro (hmet | ⟨way, hupper, hne, hway, hnode⟩)
          · exact Or.inl (Or.inr hmet)
          · cases way with
            | nil =>
              refine Or.inl (Or.inl ⟨?_, (Option.some.inj hnode).symm⟩)
              rw [hway, List.append_nil]
            | cons j way =>
              obtain ⟨rfl, hrest⟩ := List.cons_prefix_cons.mp hupper
              rw [nodeAt?_cons, child?, hi, Option.bind_some] at hnode
              refine Or.inr ⟨way, hrest, fun heq => hne (congrArg _ heq), ?_, hnode⟩
              rw [hway, Path.child, List.append_assoc, List.singleton_append]

end Node

/-! ## Enclosing declarations -/

/-- A declaration stands around the node at a path, which is not itself counted. -/
def Node.Encloses (root : Node) (path outer : Path) (decl : Decl) : Prop :=
  outer <+: path ∧ outer ≠ path ∧ root.nodeAt? outer = some decl.node

/-- A declaration is the nearest of those around the node at a path: every other one is above it. -/
def Node.NearestAround (root : Node) (path : Path) (decl : Decl) : Prop :=
  ∃ outer, root.Encloses path outer decl ∧
    ∀ other around, root.Encloses path other around → other <+: outer

section container

variable {node : Node} {start : Path} {met : List (Path × Decl)} {aliasBound : Nat}

/-- The declaration that a place stands in is the innermost of those above its node. -/
theorem container?_placeHere :
    ((node.placeHere start met).site aliasBound).container? = (met.map Prod.snd).head? := by
  rcases hdecl : Decl.ofNode? node with _ | decl
  · have hkind := Decl.ofNode?_eq_none_iff.mp hdecl
    simp [Site.container?, Place.site, Place.scope, Node.placeHere, hkind, Scope.innermost?,
      Node.declsHere_of_not_isDeclaration hkind]
  · have hkind := Decl.isDeclaration_of_ofNode? hdecl
    simp [Site.container?, Place.site, Place.scope, Node.placeHere, hkind, Scope.enclosing?,
      Node.declsHere_of_ofNode? hdecl]

/-- The innermost declaration around a member block is the one that it stands in. -/
theorem innermost?_placeHere (hkind : node.kind = .memberBlock) :
    ((node.placeHere start met).site aliasBound).scope.innermost? = (met.map Prod.snd).head? := by
  have hdecl : node.kind.isDeclaration = false := by
    rw [hkind]
    rfl
  simp [Place.site, Place.scope, Node.placeHere, Scope.innermost?,
    Node.declsHere_of_not_isDeclaration hdecl]

/-- The declaration that a place of a tree stands in is the nearest one around it. -/
theorem container?_eq_some_iff {root : Node} {place : Place} (h : place ∈ root.places [] [])
    {decl : Decl} :
    (place.site aliasBound).container? = some decl ↔ root.NearestAround place.path decl := by
  have hway : Node.OnTheWay [] ([] : List (Path × Decl)) :=
    ⟨List.Pairwise.nil, fun _ h => absurd h List.not_mem_nil⟩
  obtain ⟨above, rest, hpath, hplace, ⟨hnested, -⟩, -, hmem⟩ :=
    Node.exists_above h hway (Node.above_nil [])
  have hencloses : ∀ outer around,
      (outer, around) ∈ above ↔ root.Encloses place.path outer around := by
    intro outer around
    rw [List.nil_append] at hpath
    rw [hmem, hpath, Node.Encloses]
    constructor
    · rintro (hnil | ⟨way, hupper, hne, rfl, hnode⟩)
      · cases hnil
      · exact ⟨hupper, hne, hnode⟩
    · rintro ⟨hupper, hne, hnode⟩
      exact Or.inr ⟨outer, hupper, hne, rfl, hnode⟩
  rw [hplace, container?_placeHere, List.head?_map, Option.map_eq_some_iff]
  change _ ↔ root.NearestAround place.path decl
  constructor
  · rintro ⟨⟨outer, around⟩, hhead, rfl⟩
    refine ⟨outer, (hencloses _ _).mp (List.mem_of_mem_head? hhead), fun other inner hother => ?_⟩
    obtain ⟨others, rfl⟩ := List.head?_eq_some_iff.mp hhead
    rcases List.mem_cons.mp ((hencloses _ _).mpr hother) with heq | hlater
    · cases heq
      exact List.prefix_rfl
    · exact (List.pairwise_cons.mp hnested).1 _ hlater
  · rintro ⟨outer, houter, hnearest⟩
    have hin := (hencloses _ _).mpr houter
    cases above with
    | nil => cases hin
    | cons first others =>
      refine ⟨first, rfl, ?_⟩
      rcases List.mem_cons.mp hin with rfl | hlater
      · rfl
      · -- both paths extend each other, so they lead to the same node
        have hfirst := (hencloses first.1 first.2).mp List.mem_cons_self
        have hupper := (List.pairwise_cons.mp hnested).1 _ hlater
        have heq : outer = first.1 :=
          hupper.eq_of_length_le (hnearest _ _ hfirst).length_le
        refine Decl.ext_node (Option.some.inj ?_)
        rw [← hfirst.2.2, ← heq, houter.2.2]

end container

namespace Node

variable {start : Path} {met : List (Path × Decl)} {node : Node}

/-! ## The order of closing -/

/-- A declaration is never above, or the same as, one that is closed after it. -/
theorem pairwise_closingPlaces :
    (node.closingPlaces start met).Pairwise fun earlier later => ¬ earlier.path <+: later.path := by
  induction node using inductionOn generalizing start met with
  | step node ih =>
    rw [closingPlaces_eq, List.pairwise_append]
    refine ⟨?_, ?_, ?_⟩
    · rw [closingPlacesOf_eq_flatMap, List.pairwise_flatMap]
      refine ⟨?_, ?_⟩
      · rintro ⟨child, i⟩ hchild
        exact ih child (List.fst_mem_of_mem_zipIdx hchild)
      · have hnumbers : (node.children.zipIdx.map Prod.snd).Pairwise (· ≠ ·) := by
          rw [List.zipIdx_map_snd]
          exact List.nodup_range'
        refine (List.pairwise_map.mp hnumbers).imp ?_
        rintro ⟨first, i⟩ ⟨second, j⟩ hij earlier hearlier later hlater hextends
        have hi := path_of_mem_places (mem_closingPlaces_iff.mp hearlier).1
        have hj := path_of_mem_places (mem_closingPlaces_iff.mp hlater).1
        exact hij (eq_of_prefix_child (hi.trans hextends) hj)
    · split
      · exact List.pairwise_singleton _ _
      · exact List.Pairwise.nil
    · intro earlier hearlier later hlater hextends
      obtain ⟨i, child, -, hearlier⟩ := mem_closingPlacesOf.mp hearlier
      have hi := path_of_mem_places (mem_closingPlaces_iff.mp hearlier).1
      split at hlater
      · obtain rfl := List.mem_singleton.mp hlater
        have := length_lt_of_prefix_child (hi.trans hextends)
        exact absurd this (Nat.lt_irrefl _)
      · cases hlater

end Node

end SourceEvolution
