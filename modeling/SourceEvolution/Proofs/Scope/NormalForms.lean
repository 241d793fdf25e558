import SourceEvolution.Proofs.Scope.Meaning

/-!
# Normal forms of resolution

What resolution ends in cannot be resolved any further. A scope that starts out as declarations of a
tree, each below the one around it, stays of that form however far lookups lead: outward to where a
name is found, inward to a member, and outward again to the place of an alias.

* **Nesting** (`Node.Nests`, `Scope.NestedIn`): declarations of a tree that lie properly below each
  other. The scope of every path of a tree is of this kind (`nestedIn_scopeAt`).
* **Lookups** (`NestedIn.lookup?`, `NestedIn.lookupDirect?`, `NestedIn.pop`): what the steps of
  resolution keep, and from them what resolution keeps (`Denotes.nestedIn`).
* **Normal forms** (`Resolved.IsNormal`, `Denotes.isNormal`): what a type denotes is a declaration
  that is not to be followed, or a type for which nothing is found in its scope. Such a type
  denotes itself, and no more aliases are met on the way to that than before.
* **Resolution** (`resolve_normal`): all of this for `Scope.resolve`.
-/

namespace SourceEvolution

/-! ## Nesting -/

/-- A path leads properly below another one. -/
def Path.IsBelow (inner outer : Path) : Prop :=
  ∃ way, way ≠ [] ∧ inner = outer ++ way

theorem Path.IsBelow.append {inner outer : Path} (h : inner.IsBelow outer) (rest : Path) :
    Path.IsBelow (inner ++ rest) outer := by
  obtain ⟨way, hway, rfl⟩ := h
  exact ⟨way ++ rest, List.append_ne_nil_of_left_ne_nil hway rest, List.append_assoc ..⟩

namespace Node

/-- Declarations stand in a tree at their paths, and each is properly below all that follow it. -/
structure Nests (root : Node) (decls : List (Path × Decl)) : Prop where
  /-- Each stands at its path. -/
  stands : ∀ decl ∈ decls, root.nodeAt? decl.1 = some decl.2.node
  /-- Each is properly below those that follow. -/
  nested : decls.Pairwise fun inner outer => inner.1.IsBelow outer.1

variable {root : Node} {decls : List (Path × Decl)}

theorem nests_nil (root : Node) : root.Nests [] :=
  ⟨fun _ h => absurd h List.not_mem_nil, List.Pairwise.nil⟩

theorem Nests.of_suffix {inner : List (Path × Decl)} (h : root.Nests inner)
    (hsuffix : decls <:+ inner) : root.Nests decls :=
  ⟨fun decl hdecl => h.stands decl (hsuffix.subset hdecl), h.nested.sublist hsuffix.sublist⟩

theorem Nests.cons (h : root.Nests decls) {path : Path} {decl : Decl}
    (hdecl : root.nodeAt? path = some decl.node)
    (hbelow : ∀ outer ∈ decls, path.IsBelow outer.1) : root.Nests ((path, decl) :: decls) :=
  ⟨List.forall_mem_cons.mpr ⟨hdecl, h.stands⟩, List.pairwise_cons.mpr ⟨hbelow, h.nested⟩⟩

/-- The declarations at a node are nested if those around it are. -/
theorem Nests.declsHere (h : root.Nests decls) {node : Node} {start : Path}
    (hnode : root.nodeAt? start = some node)
    (hbelow : ∀ outer ∈ decls, start.IsBelow outer.1) :
    root.Nests (declsHere node start decls) := by
  unfold Node.declsHere
  split
  · rename_i decl hdecl
    apply h.cons _ hbelow
    rw [hnode, Decl.ofNode?_eq_some_iff.mp hdecl]
  · exact h

/-- The declarations met on the way down a path are nested. -/
theorem Nests.declsAlong (h : root.Nests decls) {node : Node} {start : Path}
    (hnode : root.nodeAt? start = some node) (hbelow : ∀ outer ∈ decls, start.IsBelow outer.1)
    (path : Path) : root.Nests (node.declsAlong start decls path) := by
  induction path generalizing node start decls with
  | nil => exact h.declsHere hnode hbelow
  | cons index rest ih =>
    unfold Node.declsAlong
    split
    · rename_i child hchild
      apply ih (h.declsHere hnode hbelow)
      · rw [Path.child, nodeAt?_append, hnode, Option.bind_some, nodeAt?_cons, hchild]
        rfl
      · -- the node itself is right above its child, and the others are above the node
        intro outer houter
        rcases mem_declsHere.mp houter with ⟨hpath, -⟩ | houter
        · exact ⟨[index], List.cons_ne_nil _ _, by rw [hpath, Path.child]⟩
        · exact (hbelow outer houter).append [index]
    · exact h.declsHere hnode hbelow

end Node

/-- A node is one of a tree. -/
def Node.Holds (root node : Node) : Prop :=
  ∃ path, root.nodeAt? path = some node

namespace Node

theorem nodeAt?_singleton {node child : Node} {index : Nat}
    (h : node.children[index]? = some child) : node.nodeAt? [index] = some child := by
  rw [nodeAt?_cons, child?, h]
  rfl

/-- The children of a node of a tree are nodes of the tree. -/
theorem Holds.of_mem_children {root node child : Node} (h : root.Holds node)
    (hchild : child ∈ node.children) : root.Holds child := by
  obtain ⟨path, hnode⟩ := h
  obtain ⟨index, hindex⟩ := List.getElem?_of_mem hchild
  refine ⟨path ++ [index], ?_⟩
  rw [nodeAt?_append, hnode, Option.bind_some, nodeAt?_singleton hindex]

end Node

namespace Decl

theorem mem_ofNodes {nodes : List Node} {decl : Decl} :
    decl ∈ ofNodes nodes ↔ decl.node ∈ nodes := by
  unfold ofNodes
  rw [List.mem_filterMap]
  constructor
  · rintro ⟨node, hnode, hdecl⟩
    rwa [ofNode?_eq_some_iff.mp hdecl]
  · intro h
    exact ⟨decl.node, h, ofNode?_eq_some_iff.mpr rfl⟩

/-- A member of a declaration stands properly below it. -/
theorem exists_way_of_mem_members {decl member : Decl} (h : member ∈ decl.members) :
    ∃ way, way ≠ [] ∧ decl.node.nodeAt? way = some member.node := by
  -- a file holds its members directly, the others hold them in a member block
  have hchild : member.node ∈ decl.node.children ∨
      ∃ block, decl.node.memberBlock? = some block ∧ member.node ∈ block.children := by
    rcases hblock : decl.node.memberBlock? with _ | block <;> cases hkind : decl.kind <;>
      simp_all [members, mem_ofNodes]
  rcases hchild with hchild | ⟨block, hblock, hchild⟩
  · obtain ⟨index, hindex⟩ := List.getElem?_of_mem hchild
    exact ⟨[index], List.cons_ne_nil _ _, Node.nodeAt?_singleton hindex⟩
  · obtain ⟨blockIndex, hblockIndex⟩ :=
      List.getElem?_of_mem (List.mem_of_find?_eq_some hblock)
    obtain ⟨index, hindex⟩ := List.getElem?_of_mem hchild
    refine ⟨[blockIndex] ++ [index], by simp, ?_⟩
    rw [Node.nodeAt?_append, Node.nodeAt?_singleton hblockIndex, Option.bind_some,
      Node.nodeAt?_singleton hindex]

end Decl

/-- What is found among the members of the innermost declaration is nested in all of them. -/
theorem Node.Nests.exists_member {root : Node} {path : Path} {decl found : Decl}
    {outer : List (Path × Decl)} (h : root.Nests ((path, decl) :: outer)) {name : String}
    (hfound : (decl.lookup name).head? = some found) :
    ∃ inner, root.Nests ((inner, found) :: (path, decl) :: outer) := by
  have hmember : found ∈ decl.members := List.mem_of_mem_filter (List.mem_of_mem_head? hfound)
  obtain ⟨way, hway, hnode⟩ := Decl.exists_way_of_mem_members hmember
  obtain ⟨hdecl, -⟩ := List.forall_mem_cons.mp h.stands
  obtain ⟨hbelow, -⟩ := List.pairwise_cons.mp h.nested
  refine ⟨path ++ way, h.cons ?_ ?_⟩
  · rw [Node.nodeAt?_append, hdecl, Option.bind_some, hnode]
  · intro around haround
    rcases List.mem_cons.mp haround with rfl | haround
    · exact ⟨way, hway, rfl⟩
    · exact (hbelow around haround).append way

/-- The scope that a result is to be read in. -/
def Resolved.scope : Resolved → Scope
  | declaration scope => scope
  | unresolved _ scope => scope

namespace Scope

/-- The declarations of a scope are nested in each other in a tree. -/
def NestedIn (scope : Scope) (root : Node) : Prop :=
  ∃ decls, decls.map Prod.snd = scope.chain ∧ root.Nests decls

/-- The scope of every path of a tree is nested in it. -/
theorem nestedIn_scopeAt (root : Node) (path : Path) (aliasBound : Nat) :
    (root.scopeAt path aliasBound).NestedIn root :=
  ⟨_, rfl, (Node.nests_nil root).declsAlong rfl (fun _ h => absurd h List.not_mem_nil) path⟩

/-! ## Lookups -/

/-- Looking a name up outward finds a member of a declaration on the way. -/
theorem exists_nests_of_lookupChain? {root : Node} {name : String} {decls : List (Path × Decl)}
    (h : root.Nests decls) {chain : List Decl}
    (hchain : lookupChain? name (decls.map Prod.snd) = some chain) :
    ∃ found, found.map Prod.snd = chain ∧ root.Nests found := by
  induction decls with
  | nil => cases hchain
  | cons decl outer ih =>
    obtain ⟨path, decl⟩ := decl
    rw [List.map_cons, lookupChain?] at hchain
    split at hchain
    · rename_i found hfound
      cases hchain
      obtain ⟨inner, hinner⟩ := h.exists_member hfound
      exact ⟨_, rfl, hinner⟩
    · exact ih (h.of_suffix (List.suffix_cons _ _)) hchain

variable {root : Node} {scope found : Scope} {name : String}

theorem NestedIn.lookup? (h : scope.NestedIn root) (hfound : scope.lookup? name = some found) :
    found.NestedIn root := by
  obtain ⟨decls, hdecls, hnests⟩ := h
  obtain ⟨chain, hchain, rfl⟩ := Option.map_eq_some_iff.mp hfound
  rw [← hdecls] at hchain
  exact exists_nests_of_lookupChain? hnests hchain

theorem NestedIn.lookupDirect? (h : scope.NestedIn root)
    (hfound : scope.lookupDirect? name = some found) : found.NestedIn root := by
  obtain ⟨decls, hdecls, hnests⟩ := h
  rw [lookupDirect?_eq, innermost?, ← hdecls] at hfound
  obtain ⟨member, hmember, rfl⟩ := Option.map_eq_some_iff.mp hfound
  obtain ⟨decl, hdecl, hhead⟩ := Option.bind_eq_some_iff.mp hmember
  cases decls with
  | nil => cases hdecl
  | cons first outer =>
    obtain rfl : first.2 = decl := Option.some.inj hdecl
    obtain ⟨inner, hinner⟩ := hnests.exists_member hhead
    refine ⟨_, ?_, hinner⟩
    show member :: (first :: outer).map Prod.snd = member :: scope.chain
    rw [hdecls]

theorem NestedIn.pop (h : scope.NestedIn root) : scope.pop.NestedIn root := by
  obtain ⟨decls, hdecls, hnests⟩ := h
  refine ⟨decls.tail, ?_, hnests.of_suffix (List.tail_suffix decls)⟩
  rw [List.map_tail, hdecls]
  rfl

/-- The target of an alias that a scope ends in. -/
theorem aliasTarget?_eq_some_iff {target : Node} :
    scope.aliasTarget? = some target ↔
      ∃ decl, scope.innermost? = some decl ∧ decl.kind = .typeAlias ∧
        decl.target? = some target := by
  unfold aliasTarget?
  rcases scope.innermost? with _ | decl
  · simp
  · by_cases hkind : decl.kind = .typeAlias <;> simp [hkind]

/-- The target of an alias in a tree is a node of the tree. -/
theorem NestedIn.holds_target (h : scope.NestedIn root) {target : Node}
    (htarget : scope.aliasTarget? = some target) : root.Holds target := by
  obtain ⟨decls, hdecls, hnests⟩ := h
  obtain ⟨decl, hdecl, -, htarget⟩ := aliasTarget?_eq_some_iff.mp htarget
  rw [innermost?, ← hdecls, List.head?_map] at hdecl
  obtain ⟨first, hfirst, rfl⟩ := Option.map_eq_some_iff.mp hdecl
  have hfirst : root.Holds first.2.node := ⟨_, hnests.stands _ (List.mem_of_mem_head? hfirst)⟩
  exact hfirst.of_mem_children (List.mem_of_find?_eq_some htarget)

mutual

/-- What looking a type up leads to is nested in the tree. -/
theorem Finds.nestedIn : ∀ {scope : Scope} {type : Node} {found : Option Scope} {height : Nat},
    Finds scope type found height → scope.NestedIn root →
      ∀ inner, found = some inner → inner.NestedIn root
  | _, _, _, _, .name _ _ _ _, hscope, _, hfound => hscope.lookup? hfound
  | _, _, _, _, .member _ _ _ known, hscope, _, hfound =>
    (known.nestedIn hscope).lookupDirect? hfound
  | _, _, _, _, .stray _ _ _ _, _, _, hfound => by cases hfound
  | _, _, _, _, .other _, _, _, hfound => by cases hfound

/-- What a type stands for is to be read in a scope that is nested in the tree. -/
theorem Denotes.nestedIn : ∀ {scope : Scope} {type : Node} {result : Resolved} {height : Nat},
    Denotes scope type result height → scope.NestedIn root → result.scope.NestedIn root
  | _, _, _, _, .missing _, hscope => hscope
  | _, _, _, _, .declared lookup _, hscope => lookup.nestedIn hscope _ rfl
  | _, _, _, _, .followed lookup _ meaning, hscope =>
    meaning.nestedIn (lookup.nestedIn hscope _ rfl).pop

end

/-- A type that is left over is a node of the tree if the type that was resolved is one. -/
theorem Denotes.holds {root : Node} : ∀ {scope : Scope} {type : Node} {result : Resolved}
    {height : Nat}, Denotes scope type result height → scope.NestedIn root → root.Holds type →
      ∀ left inner, result = .unresolved left inner → root.Holds left
  | _, _, _, _, .missing _, _, htype, _, _, hresult => by
    cases hresult
    exact htype
  | _, _, _, _, .declared _ _, _, _, _, _, hresult => by cases hresult
  | _, _, _, _, .followed lookup isAlias meaning, hscope, _, left, inner, hresult => by
    have hfound := lookup.nestedIn hscope _ rfl
    exact meaning.holds hfound.pop (hfound.holds_target isAlias) left inner hresult

/-! ## Normal forms -/

theorem lookupChain?_ne_nil {outer chain : List Decl}
    (h : lookupChain? name outer = some chain) : chain ≠ [] := by
  induction outer with
  | nil => cases h
  | cons decl outer ih =>
    rw [lookupChain?] at h
    split at h
    · cases h
      exact List.cons_ne_nil _ _
    · exact ih h

/-- What looking a type up leads to is a declaration. -/
theorem Finds.exists_innermost {scope : Scope} {type : Node} {found : Option Scope} {height : Nat}
    (h : Finds scope type found height) {inner : Scope} (hfound : found = some inner) :
    ∃ decl, inner.innermost? = some decl := by
  have hchain : inner.chain ≠ [] := by
    cases h with
    | name =>
      obtain ⟨chain, hchain, rfl⟩ := Option.map_eq_some_iff.mp hfound
      exact lookupChain?_ne_nil hchain
    | member =>
      rw [lookupDirect?_eq] at hfound
      obtain ⟨decl, -, rfl⟩ := Option.map_eq_some_iff.mp hfound
      exact List.cons_ne_nil _ _
    | stray => cases hfound
    | other => cases hfound
  exact ⟨_, List.head?_eq_some_head hchain⟩

end Scope

/-- What cannot be resolved any further: a declaration that is no alias with a target, or a type for
which nothing is found, below aliases that are nested no deeper than given. -/
def Resolved.IsNormal (bound : Nat) : Resolved → Prop
  | declaration scope =>
    ∃ decl, scope.innermost? = some decl ∧ (decl.kind = .typeAlias → decl.target? = none)
  | unresolved type scope => ∃ height ≤ bound, scope.Finds type none height

theorem Resolved.IsNormal.mono {result : Resolved} {bound larger : Nat} (h : result.IsNormal bound)
    (hle : bound ≤ larger) : result.IsNormal larger := by
  cases result with
  | declaration scope => exact h
  | unresolved type scope =>
    obtain ⟨height, hheight, lookup⟩ := h
    exact ⟨height, Nat.le_trans hheight hle, lookup⟩

namespace Scope

/-- A declaration that is found and is not to be followed is no alias with a target. -/
theorem Finds.isNormal_declaration {scope found : Scope} {type : Node} {height : Nat}
    (h : Finds scope type (some found) height) (hfollow : found.aliasTarget? = none) (bound : Nat) :
    (Resolved.declaration found).IsNormal bound := by
  obtain ⟨decl, hdecl⟩ := h.exists_innermost rfl
  refine ⟨decl, hdecl, ?_⟩
  intro hkind
  rcases htarget : decl.target? with _ | target
  · rfl
  · rw [aliasTarget?_eq_some_iff.mpr ⟨decl, hdecl, hkind, htarget⟩] at hfollow
    cases hfollow

/-- What a type denotes cannot be resolved any further. -/
theorem Denotes.isNormal {scope : Scope} {type : Node} {result : Resolved} {height : Nat}
    (h : Denotes scope type result height) : result.IsNormal height := by
  induction height using Nat.strongRecOn generalizing scope type with
  | ind height ih =>
    cases h with
    | missing lookup => exact ⟨height, Nat.le_refl height, lookup⟩
    | declared lookup notAlias => exact lookup.isNormal_declaration notAlias height
    | @followed _ _ _ _ _ above below _ _ meaning =>
      -- the target of an alias has fewer aliases above what it denotes
      have hlt : below < max above (below + 1) := Nat.le_max_right above (below + 1)
      exact (ih below hlt meaning).mono (Nat.le_of_lt hlt)

/-- What a type denotes has the bound of the scope that the type is read in. -/
theorem Denotes.aliasBound_eq {scope : Scope} {type : Node} {result : Resolved} {height : Nat}
    (h : Denotes scope type result height) : result.scope.aliasBound = scope.aliasBound := by
  have hsame := (h.unique _ _ (h.withBound scope.aliasBound)).1
  rw [hsame]
  cases result <;> rfl

/-! ## Resolution -/

/-- Resolution ends in normal forms. For every scope that is nested in a tree, every type of the
tree and every bound that suffices, the scope of the result is nested in the tree and has the same
bound. If the result is a declaration, it is no alias with a target. If it is a type, that is a node
of the tree, and resolving it in the scope of the result gives the same result again. -/
theorem resolve_normal {root : Node} {scope : Scope} {type : Node} {result : Resolved}
    (hscope : scope.NestedIn root) (htype : root.Holds type)
    (h : scope.resolve type = .ok result) :
    result.scope.NestedIn root ∧ result.scope.aliasBound = scope.aliasBound ∧
    (∀ found, result = .declaration found → ∃ decl, found.innermost? = some decl ∧
      (decl.kind = .typeAlias → decl.target? = none)) ∧
    ∀ left inner, result = .unresolved left inner → root.Holds left ∧
      inner.resolve left = .ok (.unresolved left inner) := by
  obtain ⟨height, hheight, meaning⟩ := resolveWithin_sound h
  have hbound := meaning.aliasBound_eq
  have hnormal := meaning.isNormal.mono hheight
  refine ⟨meaning.nestedIn hscope, hbound, ?_, ?_⟩
  · rintro found rfl
    exact hnormal
  · rintro left inner rfl
    obtain ⟨below, hbelow, lookup⟩ := hnormal
    refine ⟨meaning.holds hscope htype left inner rfl, ?_⟩
    apply resolveWithin_of_denotes (.missing lookup)
    rwa [← hbound] at hbelow

end Scope

/-- A file with an alias of an array, and a function in a struct that takes the alias. -/
def Sample.shelfFile : Node :=
  Sample.file [Sample.typeAlias "Names" (Build.arrayType (Build.simpleType "String")),
    ((Sketch.named .structDecl "Shelf").extended
      [Sample.function "put" [Sample.param "names" "Names"]]).toNode]

/-- In the function the alias is resolved to the array, with a bound that is just enough. The array
is to be read in the scope of the file, where it is resolved to itself. -/
theorem Scope.resolve_normal_shelfFile :
    (Sample.shelfFile.scopeAt [1, 1, 0] 1).NestedIn Sample.shelfFile ∧
    Sample.shelfFile.nodeAt? [1, 1, 0, 1, 0, 1] = some (Build.simpleType "Names") ∧
    ∃ inner, (Sample.shelfFile.scopeAt [1, 1, 0] 1).resolve (Build.simpleType "Names") =
        .ok (.unresolved (Build.arrayType (Build.simpleType "String")) inner) ∧
      inner.NestedIn Sample.shelfFile ∧ inner.depth = 1 ∧
      inner.resolve (Build.arrayType (Build.simpleType "String")) =
        .ok (.unresolved (Build.arrayType (Build.simpleType "String")) inner) := by
  have hscope := nestedIn_scopeAt Sample.shelfFile [1, 1, 0] 1
  have htype : Sample.shelfFile.nodeAt? [1, 1, 0, 1, 0, 1] = some (Build.simpleType "Names") := by
    decide
  have hresolve : (Sample.shelfFile.scopeAt [1, 1, 0] 1).resolve (Build.simpleType "Names") =
      .ok (.unresolved (Build.arrayType (Build.simpleType "String"))
        (Sample.shelfFile.scopeAt [] 1)) := by
    decide +kernel
  obtain ⟨hnested, -, -, hleft⟩ := resolve_normal hscope ⟨_, htype⟩ hresolve
  exact ⟨hscope, htype, _, hresolve, hnested, by decide, (hleft _ _ rfl).2⟩

end SourceEvolution
