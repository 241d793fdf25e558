import SourceEvolution.Proofs.Change.Application
import SourceEvolution.Proofs.Change.Eligibility

/-!
# What a new default does to a declaration

A new default is for a parameter that is given by its number. Applying it turns the number into two
indices, that of the first parameter clause and that of the parameter inside it. This module says
which indices these are and what becomes of the declaration, whatever else its children are.

* **Parameters** (`setDefault_eq`, `DefaultArgument.TakesDefault`): the new default stands where the
  first one stood, or at the end. So of two new defaults the second is all that is left.
* **Numbers** (`getElem?_indicesOf_iff`, `DefaultArgument.Locates`): the parameter with a number is
  the one that has so many parameters before it.
* **Declarations** (`DefaultArgument.Updates`, `DefaultArgument.applyTo?_lawful`): one parameter is
  changed, and neither the other parameters nor their numbers. So two parameters can be changed in
  either order.
-/

namespace SourceEvolution

/-! ## Parameters -/

namespace DefaultArgument

/-- Whether a child of a parameter is a default. -/
def isDefault (child : Node) : Bool := child.kind == .defaultArgument

/-- Where the first default of a parameter stands. A parameter without one has it at its end. -/
def defaultIndex (parameter : Node) : Nat := parameter.children.findIdx isDefault

/-- A parameter has the default with a text, and is otherwise as before. -/
structure TakesDefault (value : String) (parameter after : Node) : Prop where
  /-- The kind stays. -/
  kind : after.kind = parameter.kind
  /-- So does the text. -/
  text : after.text = parameter.text
  /-- So does the position. -/
  position : after.position = parameter.position
  /-- The default stands where the first one stood. -/
  index : defaultIndex after = defaultIndex parameter
  /-- All that stands beside the first default stays. -/
  others : after.children.eraseP isDefault = parameter.children.eraseP isDefault
  /-- The default is an expression with the text. -/
  value : ∃ expr, after.defaultValue? = some expr ∧ expr.kind = .expr ∧ expr.text = some value

section parameters

variable (parameter : Node) (value : String)

/-- What stands before the first default of a parameter is no default. -/
theorem isDefault_of_mem_take {child : Node}
    (h : child ∈ parameter.children.take (defaultIndex parameter)) : isDefault child = false := by
  obtain ⟨i, hi, rfl⟩ := List.getElem_of_mem h
  rw [List.length_take] at hi
  rw [List.getElem_take]
  exact List.not_of_lt_findIdx (Nat.lt_of_lt_of_le hi (Nat.min_le_left _ _))

/-- The new default takes the place of the first one, or comes last. -/
theorem setDefault_eq :
    setDefault parameter value = parameter.withChildren
      (parameter.children.take (defaultIndex parameter) ++
        .branch .defaultArgument [.leaf .expr value] ::
          parameter.children.drop (defaultIndex parameter + 1)) := by
  rcases hfirst : indexOf? .defaultArgument parameter.children with _ | index
  · have hindex : defaultIndex parameter = parameter.children.length :=
      List.findIdx?_eq_none_iff_findIdx_eq.mp hfirst
    rw [hindex, List.take_length, List.drop_eq_nil_of_le (Nat.le_succ _)]
    simp only [setDefault, hfirst]
    rfl
  · obtain ⟨hlt, hindex⟩ := List.findIdx?_eq_some_iff_findIdx_eq.mp hfirst
    have hindex : defaultIndex parameter = index := hindex
    rw [hindex]
    simp only [setDefault, hfirst]
    rw [List.set_eq_take_append_cons_drop, if_pos hlt]
    rfl

theorem length_take_defaultIndex :
    (parameter.children.take (defaultIndex parameter)).length = defaultIndex parameter :=
  List.length_take_of_le List.findIdx_le_length

theorem defaultIndex_setDefault :
    defaultIndex (setDefault parameter value) = defaultIndex parameter := by
  have hbefore :=
    List.findIdx_eq_length_of_false fun child => @isDefault_of_mem_take parameter child
  rw [setDefault_eq, defaultIndex, Node.withChildren, List.findIdx_append, hbefore,
    length_take_defaultIndex, if_neg (Nat.lt_irrefl _), List.findIdx_cons]
  exact Nat.zero_add _

/-- Of two new defaults the second is all that is left. -/
theorem setDefault_setDefault (other : String) :
    setDefault (setDefault parameter value) other = setDefault parameter other := by
  have hlength := length_take_defaultIndex parameter
  have hbehind : ∀ (new : Node) (behind : List Node),
      (parameter.children.take (defaultIndex parameter) ++ new :: behind).drop
        (defaultIndex parameter + 1) = behind := by
    intro new behind
    rw [List.append_cons, List.drop_left']
    rw [List.length_append, hlength, List.length_singleton]
  rw [setDefault_eq (setDefault parameter value), defaultIndex_setDefault,
    setDefault_eq parameter value, setDefault_eq parameter other]
  simp only [Node.withChildren, List.take_left' hlength, hbehind]

/-- What a parameter has beside its first default is what stands before and behind that. -/
theorem eraseP_isDefault :
    parameter.children.eraseP isDefault =
      parameter.children.take (defaultIndex parameter) ++
        parameter.children.drop (defaultIndex parameter + 1) := by
  rw [← List.eraseIdx_eq_take_drop_succ, List.eraseP_eq_eraseIdx]
  rcases hfirst : parameter.children.findIdx? isDefault with _ | index
  · have hindex : defaultIndex parameter = parameter.children.length :=
      List.findIdx?_eq_none_iff_findIdx_eq.mp hfirst
    rw [hindex, List.eraseIdx_of_length_le (Nat.le_refl _)]
  · have hindex : defaultIndex parameter = index :=
      (List.findIdx?_eq_some_iff_findIdx_eq.mp hfirst).2
    rw [hindex]

theorem takesDefault_setDefault : TakesDefault value parameter (setDefault parameter value) := by
  have hbefore := fun child => @isDefault_of_mem_take parameter child
  refine ⟨?_, ?_, ?_, defaultIndex_setDefault parameter value, ?_, .leaf .expr value, ?_, rfl, rfl⟩
  · rw [setDefault_eq, Node.withChildren]
  · rw [setDefault_eq, Node.withChildren]
  · rw [setDefault_eq, Node.withChildren]
  · rw [setDefault_eq, eraseP_isDefault parameter, Node.withChildren, List.eraseP_append_right,
      List.eraseP_cons_of_pos rfl]
    simpa using hbefore
  · have hnone : (parameter.children.take (defaultIndex parameter)).find? isDefault = none := by
      simpa using hbefore
    have hfirst : (setDefault parameter value).firstOf? .defaultArgument =
        some (.branch .defaultArgument [.leaf .expr value]) := by
      rw [setDefault_eq]
      change List.find? isDefault (_ ++ _ :: _) = _
      rw [List.find?_append, hnone, Option.none_or, List.find?_cons_of_pos rfl]
    rw [Node.defaultValue?, hfirst]
    rfl

end parameters

/-! ## Numbers -/

theorem indicesOf_cons (kind : NodeKind) (first : Node) (rest : List Node) :
    indicesOf kind (first :: rest) =
      (if first.kind = kind then [0] else []) ++ (indicesOf kind rest).map (· + 1) := by
  have hrest : ((rest.zipIdx 1).filter fun child => child.1.kind == kind).map Prod.snd =
      (indicesOf kind rest).map (· + 1) := by
    rw [List.zipIdx_succ, List.filter_map, List.map_map, indicesOf, List.map_map]
    rfl
  rw [indicesOf, List.zipIdx_cons, Nat.zero_add, List.filter_cons]
  by_cases hkind : first.kind = kind
  · simp [hkind, hrest]
  · simp [hkind, hrest]

/-- The index with a number is that of the child that has so many children of its kind before it. -/
theorem getElem?_indicesOf_iff {kind : NodeKind} {children : List Node} {number index : Nat} :
    (indicesOf kind children)[number]? = some index ↔
      ∃ child, children[index]? = some child ∧ child.kind = kind ∧
        (children.take index).countP (fun child => child.kind == kind) = number := by
  induction children generalizing number index with
  | nil => simp [indicesOf]
  | cons first rest ih =>
    rw [indicesOf_cons]
    by_cases hkind : first.kind = kind
    · cases number with
      | zero => cases index <;> simp [hkind]
      | succ number => cases index <;> simp [hkind, ih]
    · cases index with
      | zero => simp [hkind]
      | succ index => simp [hkind, ih]

theorem indexOf?_eq_some_iff {kind : NodeKind} {children : List Node} {index : Nat} :
    indexOf? kind children = some index ↔
      ∃ child, children[index]? = some child ∧ child.kind = kind ∧
        ∀ earlier ∈ children.take index, earlier.kind ≠ kind := by
  rw [indexOf?, List.findIdx?_eq_some_iff_getElem]
  constructor
  · rintro ⟨hlt, hkind, hbefore⟩
    refine ⟨children[index], List.getElem?_eq_getElem hlt, beq_iff_eq.mp hkind, ?_⟩
    intro earlier hearlier
    obtain ⟨i, hi, rfl⟩ := List.mem_take_iff_getElem.mp hearlier
    simpa using hbefore i (Nat.lt_of_lt_of_le hi (Nat.min_le_left _ _))
  · rintro ⟨child, hchild, rfl, hbefore⟩
    obtain ⟨hlt, rfl⟩ := List.getElem?_eq_some_iff.mp hchild
    refine ⟨hlt, beq_self_eq_true _, fun i hi => ?_⟩
    have hmem : children[i] ∈ children.take index :=
      List.mem_take_iff_getElem.mpr ⟨i, Nat.lt_min.mpr ⟨hi, Nat.lt_trans hi hlt⟩, rfl⟩
    simpa using hbefore _ hmem

/-- Where a declaration has the parameter with a number: in the first parameter clause among its
children, behind so many other parameters. -/
structure Locates (node : Node) (number clauseIndex : Nat) (clause : Node) (index : Nat)
    (parameter : Node) : Prop where
  /-- The declaration is one whose parameters can have defaults. -/
  carrier : node.kind ∈ carriers
  /-- The clause is a child of the declaration. -/
  clause_at : node.children[clauseIndex]? = some clause
  /-- It is a parameter clause. -/
  clause_kind : clause.kind = .parameterClause
  /-- There is none before it. -/
  clause_first : ∀ child ∈ node.children.take clauseIndex, child.kind ≠ .parameterClause
  /-- The parameter is a child of the clause. -/
  parameter_at : clause.children[index]? = some parameter
  /-- It is a parameter. -/
  parameter_kind : parameter.kind = .parameter
  /-- There are so many before it. -/
  number_eq : (clause.children.take index).countP (fun child => child.kind == .parameter) = number

section locates

variable {node clause parameter : Node} {number clauseIndex index : Nat}

theorem locates_iff :
    Locates node number clauseIndex clause index parameter ↔
      node.kind.hasParameters = true ∧
        indexOf? .parameterClause node.children = some clauseIndex ∧
        node.children[clauseIndex]? = some clause ∧
        (indicesOf .parameter clause.children)[number]? = some index ∧
        clause.children[index]? = some parameter := by
  rw [indexOf?_eq_some_iff, getElem?_indicesOf_iff]
  constructor
  · intro h
    exact ⟨mem_carriers.mp h.carrier, ⟨clause, h.clause_at, h.clause_kind, h.clause_first⟩,
      h.clause_at, ⟨parameter, h.parameter_at, h.parameter_kind, h.number_eq⟩, h.parameter_at⟩
  · rintro ⟨hcarrier, ⟨first, hfirst, hclauseKind, hbefore⟩, hclause,
      ⟨child, hchild, hkind, hnumber⟩, hparameter⟩
    obtain rfl : first = clause := Option.some.inj (hfirst.symm.trans hclause)
    obtain rfl : child = parameter := Option.some.inj (hchild.symm.trans hparameter)
    exact ⟨mem_carriers.mpr hcarrier, hclause, hclauseKind, hbefore, hparameter, hkind, hnumber⟩

/-- All parameters of a declaration are in one clause. -/
theorem Locates.clause_unique (h : Locates node number clauseIndex clause index parameter)
    {other secondIndex otherIndex : Nat} {second otherParameter : Node}
    (hother : Locates node other secondIndex second otherIndex otherParameter) :
    secondIndex = clauseIndex ∧ second = clause := by
  obtain ⟨-, hindex, hclause, -⟩ := locates_iff.mp h
  obtain ⟨-, hsecondIndex, hsecond, -⟩ := locates_iff.mp hother
  obtain rfl : secondIndex = clauseIndex := Option.some.inj (hsecondIndex.symm.trans hindex)
  exact ⟨rfl, Option.some.inj (hsecond.symm.trans hclause)⟩

theorem Locates.parameters_eq (h : Locates node number clauseIndex clause index parameter) :
    node.parameters = clause.allOf .parameter := by
  obtain ⟨-, hindex, hclause, -⟩ := locates_iff.mp h
  obtain ⟨first, hfirst, -, hfirstOf⟩ := firstOf?_of_indexOf? hindex
  obtain rfl : first = clause := Option.some.inj (hfirst.symm.trans hclause)
  rw [Node.parameters, hfirstOf]

/-- The parameter with a number is there exactly if the first parameter clause has more parameters
than the number says. -/
theorem exists_locates_iff :
    (∃ clauseIndex clause index parameter,
        Locates node number clauseIndex clause index parameter) ↔
      node.kind ∈ carriers ∧ ∃ clause, node.firstOf? .parameterClause = some clause ∧
        number < (clause.allOf .parameter).length := by
  constructor
  · rintro ⟨clauseIndex, clause, index, parameter, h⟩
    obtain ⟨-, hindex, hclause, hnumber, -⟩ := locates_iff.mp h
    obtain ⟨first, hfirst, -, hfirstOf⟩ := firstOf?_of_indexOf? hindex
    obtain rfl : first = clause := Option.some.inj (hfirst.symm.trans hclause)
    refine ⟨h.carrier, first, hfirstOf, ?_⟩
    rw [← length_indicesOf_children]
    exact (List.getElem?_eq_some_iff.mp hnumber).1
  · rintro ⟨hcarrier, clause, hfirst, hlt⟩
    rcases hindex : indexOf? .parameterClause node.children with _ | clauseIndex
    · rw [firstOf?_eq_none hindex] at hfirst
      cases hfirst
    · obtain ⟨child, hchild, -, hchildFirst⟩ := firstOf?_of_indexOf? hindex
      obtain rfl : child = clause := Option.some.inj (hchildFirst.symm.trans hfirst)
      rw [← length_indicesOf_children] at hlt
      have hnumber := List.getElem?_eq_getElem hlt
      obtain ⟨parameter, hparameter, -⟩ := mem_indicesOf.mp (List.getElem_mem hlt)
      exact ⟨clauseIndex, child, _, parameter,
        locates_iff.mpr ⟨mem_carriers.mp hcarrier, hindex, hchild, hnumber, hparameter⟩⟩

end locates

/-! ## Declarations -/

/-- Replacing a child that has a property by another one that has it replaces it among those that
have it. -/
theorem filter_set {p : Node → Bool} {nodes : List Node} {index : Nat} {old new : Node}
    (hold : nodes[index]? = some old) (hpold : p old = true) (hpnew : p new = true) :
    (nodes.filter p)[(nodes.take index).countP p]? = some old ∧
      (nodes.set index new).filter p = (nodes.filter p).set ((nodes.take index).countP p) new := by
  obtain ⟨hlt, hget⟩ := List.getElem?_eq_some_iff.mp hold
  have hsplit : nodes.filter p =
      (nodes.take index).filter p ++ old :: (nodes.drop (index + 1)).filter p := by
    conv_lhs => rw [← List.take_append_drop index nodes, List.drop_eq_getElem_cons hlt, hget]
    rw [List.filter_append, List.filter_cons_of_pos hpold]
  rw [hsplit, List.countP_eq_length_filter]
  constructor
  · rw [List.getElem?_append_right (Nat.le_refl _), Nat.sub_self, List.getElem?_cons_zero]
  · rw [List.set_eq_take_append_cons_drop, if_pos hlt, List.filter_append,
      List.filter_cons_of_pos hpnew, List.set_append_right _ _ (Nat.le_refl _), Nat.sub_self,
      List.set_cons_zero]

/-- A declaration with a parameter in one of its clauses replaced. -/
def replaceParameter (node : Node) (clauseIndex : Nat) (clause : Node) (index : Nat)
    (parameter : Node) : Node :=
  node.withChildren (node.children.set clauseIndex
    (clause.withChildren (clause.children.set index parameter)))

theorem applyTo?_eq_some_iff_locates {change : DefaultArgument} {node after : Node} :
    change.applyTo? node = some after ↔
      ∃ clauseIndex clause index parameter,
        Locates node change.index clauseIndex clause index parameter ∧
        after = replaceParameter node clauseIndex clause index
          (setDefault parameter change.value) := by
  simp only [applyTo?_eq_some_iff, locates_iff, and_assoc, replaceParameter]

theorem applyTo?_of_locates {change : DefaultArgument} {node clause parameter : Node}
    {clauseIndex index : Nat} (h : Locates node change.index clauseIndex clause index parameter) :
    change.applyTo? node = some
      (replaceParameter node clauseIndex clause index (setDefault parameter change.value)) :=
  applyTo?_eq_some_iff_locates.mpr ⟨clauseIndex, clause, index, parameter, h, rfl⟩

theorem accepts_iff {change : DefaultArgument} {node : Node} :
    change.accepts node = true ↔
      node.kind ∈ carriers ∧ ∃ clause, node.firstOf? .parameterClause = some clause ∧
        change.index < (clause.allOf .parameter).length := by
  rw [← exists_locates_iff, accepts, Option.isSome_iff_exists]
  constructor
  · rintro ⟨after, h⟩
    obtain ⟨clauseIndex, clause, index, parameter, hlocates, -⟩ :=
      applyTo?_eq_some_iff_locates.mp h
    exact ⟨clauseIndex, clause, index, parameter, hlocates⟩
  · rintro ⟨clauseIndex, clause, index, parameter, hlocates⟩
    exact ⟨_, applyTo?_of_locates hlocates⟩

/-- A change is accepted by a declaration that has a parameter with its number. -/
theorem accepts_iff_lt_length {change : DefaultArgument} {node : Node} :
    change.accepts node = true ↔
      node.kind ∈ carriers ∧ change.index < node.parameters.length := by
  rw [accepts_iff, Node.parameters]
  rcases node.firstOf? .parameterClause with _ | clause <;> simp

section replace

variable {node clause parameter new : Node} {number clauseIndex index : Nat}

/-- After a parameter has been replaced, each parameter is found by its number at its index. -/
theorem Locates.replace (h : Locates node number clauseIndex clause index parameter)
    (hnew : new.kind = .parameter) {other otherIndex : Nat} {second found : Node}
    (hother : Locates node other clauseIndex clause otherIndex second)
    (hfound : (clause.children.set index new)[otherIndex]? = some found) :
    Locates (replaceParameter node clauseIndex clause index new) other clauseIndex
      (clause.withChildren (clause.children.set index new)) otherIndex found where
  carrier := h.carrier
  clause_at := List.getElem?_set_self (List.getElem?_eq_some_iff.mp h.clause_at).1
  clause_kind := h.clause_kind
  clause_first := by
    rw [replaceParameter, Node.withChildren, List.take_set_of_le (Nat.le_refl _)]
    exact h.clause_first
  parameter_at := hfound
  parameter_kind := by
    rw [List.getElem?_set] at hfound
    split at hfound
    · split at hfound <;> cases hfound
      exact hnew
    · rw [hother.parameter_at] at hfound
      cases hfound
      exact hother.parameter_kind
  number_eq := by
    -- what is before a parameter is counted by its kind, and kinds do not change
    have hkinds :
        (clause.children.set index new).map Node.kind = clause.children.map Node.kind := by
      obtain ⟨hlt, rfl⟩ := List.getElem?_eq_some_iff.mp h.parameter_at
      have hkind : new.kind = clause.children[index].kind := hnew.trans h.parameter_kind.symm
      rw [List.map_set, hkind, ← List.map_set, List.set_getElem_self]
    have hcount : ∀ children : List Node,
        (children.take otherIndex).countP (fun child => child.kind == .parameter) =
          ((children.map Node.kind).take otherIndex).countP (· == .parameter) := by
      intro children
      rw [← List.map_take, List.countP_map]
      rfl
    have hnumber := hother.number_eq
    rw [hcount] at hnumber
    rw [Node.withChildren, hcount, hkinds]
    exact hnumber

theorem Locates.parameters_replace (h : Locates node number clauseIndex clause index parameter)
    (hnew : new.kind = .parameter) :
    node.parameters[number]? = some parameter ∧
      (replaceParameter node clauseIndex clause index new).parameters =
        node.parameters.set number new := by
  have hlt := (List.getElem?_eq_some_iff.mp h.parameter_at).1
  have hafter := h.replace hnew h (List.getElem?_set_self hlt)
  rw [h.parameters_eq, hafter.parameters_eq, ← h.number_eq]
  exact filter_set h.parameter_at (beq_iff_eq.mpr h.parameter_kind) (beq_iff_eq.mpr hnew)

end replace

/-- Two nodes differ in no more than the child at an index. -/
structure DiffersAt (index : Nat) (node after : Node) : Prop where
  /-- The kind stays. -/
  kind : after.kind = node.kind
  /-- So does the text. -/
  text : after.text = node.text
  /-- So does the position. -/
  position : after.position = node.position
  /-- There are as many children. -/
  length : after.children.length = node.children.length
  /-- All other children stay where they are. -/
  others : ∀ i ≠ index, after.children[i]? = node.children[i]?

theorem differsAt_set (index : Nat) (node child : Node) :
    DiffersAt index node (node.withChildren (node.children.set index child)) :=
  ⟨rfl, rfl, rfl, List.length_set, fun _ hne => List.getElem?_set_ne hne.symm⟩

/-- A declaration has another default for the parameter with a number, and is otherwise as before.
Its parameters are the same but for this one. -/
inductive Updates (change : DefaultArgument) (node after : Node) : Prop where
  | intro {clauseIndex index : Nat} {clause parameter newClause newParameter : Node}
      (located : Locates node change.index clauseIndex clause index parameter)
      (declaration : DiffersAt clauseIndex node after)
      (clause_at : after.children[clauseIndex]? = some newClause)
      (inClause : DiffersAt index clause newClause)
      (parameter_at : newClause.children[index]? = some newParameter)
      (inParameter : TakesDefault change.value parameter newParameter)
      (number : node.parameters[change.index]? = some parameter)
      (parameters : after.parameters = node.parameters.set change.index newParameter) :
      Updates change node after

theorem updates_of_applyTo? {change : DefaultArgument} {node after : Node}
    (h : change.applyTo? node = some after) : change.Updates node after := by
  obtain ⟨clauseIndex, clause, index, parameter, hlocates, rfl⟩ :=
    applyTo?_eq_some_iff_locates.mp h
  have htakes := takesDefault_setDefault parameter change.value
  obtain ⟨hnumber, hparameters⟩ :=
    hlocates.parameters_replace (htakes.kind.trans hlocates.parameter_kind)
  exact .intro hlocates (differsAt_set _ _ _)
    (List.getElem?_set_self (List.getElem?_eq_some_iff.mp hlocates.clause_at).1)
    (differsAt_set _ _ _)
    (List.getElem?_set_self (List.getElem?_eq_some_iff.mp hlocates.parameter_at).1)
    htakes hnumber hparameters

/-- A change leaves every other change possible that was, and none that was not. -/
theorem accepts_of_applyTo? {change : DefaultArgument} {node after : Node}
    (h : change.applyTo? node = some after) (other : DefaultArgument) :
    other.accepts after = other.accepts node := by
  obtain @⟨_, _, _, _, _, _, -, hdeclaration, -, -, -, -, -, hparameters⟩ := updates_of_applyTo? h
  rw [Bool.eq_iff_iff, accepts_iff_lt_length, accepts_iff_lt_length, hdeclaration.kind, hparameters,
    List.length_set]

section laws

variable {node : Node} {first second : DefaultArgument}

/-- Two changes, one after the other. -/
theorem bind_applyTo?_of_locates {clause parameter other found : Node}
    {clauseIndex index otherIndex : Nat}
    (hfirst : Locates node first.index clauseIndex clause index parameter)
    (hsecond : Locates node second.index clauseIndex clause otherIndex other)
    (hfound : (clause.children.set index (setDefault parameter first.value))[otherIndex]? =
      some found) :
    (first.applyTo? node).bind second.applyTo? =
      some (node.withChildren (node.children.set clauseIndex (clause.withChildren
        ((clause.children.set index (setDefault parameter first.value)).set otherIndex
          (setDefault found second.value))))) := by
  have hkind : (setDefault parameter first.value).kind = .parameter :=
    (takesDefault_setDefault parameter first.value).kind.trans hfirst.parameter_kind
  rw [applyTo?_of_locates hfirst, Option.bind_some,
    applyTo?_of_locates (hfirst.replace hkind hsecond hfound)]
  simp only [replaceParameter, Node.withChildren, List.set_set]

/-- A change that is not accepted is not accepted after another one either. -/
theorem bind_applyTo?_eq_none (h : second.applyTo? node = none) :
    (first.applyTo? node).bind second.applyTo? = none := by
  refine Option.bind_eq_none_iff.mpr fun after hafter => ?_
  have hsame := accepts_of_applyTo? hafter second
  rw [accepts, accepts, h] at hsame
  simpa using hsame

/-- Of two changes of one parameter the second is all that is left. -/
theorem bind_applyTo?_same (hindex : second.index = first.index) :
    (first.applyTo? node).bind second.applyTo? = second.applyTo? node := by
  rcases happlied : first.applyTo? node with _ | after
  · have hsame : second.accepts node = first.accepts node := by
      rw [Bool.eq_iff_iff, accepts_iff, accepts_iff, hindex]
    rw [accepts, accepts, happlied] at hsame
    have hnone : second.applyTo? node = none := by simpa using hsame
    rw [hnone, Option.bind_none]
  · obtain ⟨clauseIndex, clause, index, parameter, hlocates, -⟩ :=
      applyTo?_eq_some_iff_locates.mp happlied
    have hsecond : Locates node second.index clauseIndex clause index parameter := hindex ▸ hlocates
    have hlt := (List.getElem?_eq_some_iff.mp hlocates.parameter_at).1
    rw [← happlied, bind_applyTo?_of_locates hlocates hsecond (List.getElem?_set_self hlt),
      applyTo?_of_locates hsecond, List.set_set, setDefault_setDefault]
    rfl

/-- Changes of two parameters can be made in either order. -/
theorem bind_applyTo?_comm (hne : second.index ≠ first.index) :
    (first.applyTo? node).bind second.applyTo? = (second.applyTo? node).bind first.applyTo? := by
  rcases hfirst : first.applyTo? node with _ | afterFirst
  · rw [bind_applyTo?_eq_none hfirst, Option.bind_none]
  rcases hsecond : second.applyTo? node with _ | afterSecond
  · rw [← hfirst, bind_applyTo?_eq_none hsecond, Option.bind_none]
  obtain ⟨clauseIndex, clause, index, parameter, hlocates, -⟩ :=
    applyTo?_eq_some_iff_locates.mp hfirst
  obtain ⟨_, _, otherIndex, other, hother, -⟩ := applyTo?_eq_some_iff_locates.mp hsecond
  obtain ⟨rfl, rfl⟩ := hlocates.clause_unique hother
  have hindices : index ≠ otherIndex := by
    rintro rfl
    exact hne (hother.number_eq.symm.trans hlocates.number_eq)
  rw [← hfirst, ← hsecond,
    bind_applyTo?_of_locates hlocates hother
      ((List.getElem?_set_ne hindices).trans hother.parameter_at),
    bind_applyTo?_of_locates hother hlocates
      ((List.getElem?_set_ne hindices.symm).trans hlocates.parameter_at),
    List.set_comm _ _ hindices]

end laws

/-- What a new default does to a node, for every change and every node. It is accepted exactly by a
function, an initializer or a subscript whose first parameter clause has the parameter, and then it
can be applied. The parameter has the new default, and all else stays, so the changes that are
accepted are the same as before. Of two changes of one parameter the second is all that is left, and
changes of two parameters can be made in either order. -/
theorem applyTo?_lawful (change : DefaultArgument) (node : Node) :
    (change.accepts node = true ↔
      node.kind ∈ carriers ∧ ∃ clause, node.firstOf? .parameterClause = some clause ∧
        change.index < (clause.allOf .parameter).length) ∧
    (change.accepts node = true ↔ ∃ after, change.applyTo? node = some after) ∧
    (∀ after, change.applyTo? node = some after →
      change.Updates node after ∧
        ∀ other : DefaultArgument, other.accepts after = other.accepts node) ∧
    (∀ other : DefaultArgument, other.index = change.index →
      (change.applyTo? node).bind other.applyTo? = other.applyTo? node) ∧
    ∀ other : DefaultArgument, other.index ≠ change.index →
      (change.applyTo? node).bind other.applyTo? = (other.applyTo? node).bind change.applyTo? := by
  refine ⟨accepts_iff, Option.isSome_iff_exists, ?_, fun other => ?_, fun other => ?_⟩
  · intro after h
    exact ⟨updates_of_applyTo? h, accepts_of_applyTo? h⟩
  · exact bind_applyTo?_same
  · exact bind_applyTo?_comm

end DefaultArgument

/-- A function with two parameter clauses. In the first one something else stands before each of the
parameters, and the second parameter has a default. -/
def Sample.curriedFunction : Node :=
  .branch (.decl .function) [Build.identifier "scale",
    Build.parameterClause [.leaf .other "(", Sample.param "factor" "Int", .leaf .other ",",
      Sample.paramWithDefault "offset" (Build.simpleType "Int") "0"],
    Build.parameterClause [Sample.param "value" "Int"]]

/-- The defaults of the two parameters in the first clause can be changed, in either order, and that
of the third one cannot, since it is in another clause. -/
theorem DefaultArgument.applyTo?_lawful_curriedFunction :
    (∃ after, applyTo? ⟨1, "1"⟩ Sample.curriedFunction = some after ∧
      Updates ⟨1, "1"⟩ Sample.curriedFunction after ∧ accepts ⟨0, "2"⟩ after = true) ∧
    accepts ⟨2, "3"⟩ Sample.curriedFunction = false ∧
    (applyTo? ⟨1, "1"⟩ Sample.curriedFunction).bind (applyTo? ⟨1, "4"⟩) =
      applyTo? ⟨1, "4"⟩ Sample.curriedFunction ∧
    (applyTo? ⟨1, "1"⟩ Sample.curriedFunction).bind (applyTo? ⟨0, "2"⟩) =
      (applyTo? ⟨0, "2"⟩ Sample.curriedFunction).bind (applyTo? ⟨1, "1"⟩) := by
  obtain ⟨-, hdefined, hupdates, hsame, hcomm⟩ := applyTo?_lawful ⟨1, "1"⟩ Sample.curriedFunction
  obtain ⟨after, hafter⟩ := hdefined.mp (by decide)
  obtain ⟨hupdated, haccepts⟩ := hupdates after hafter
  refine ⟨⟨after, hafter, hupdated, ?_⟩, ?_, hsame ⟨1, "4"⟩ rfl, hcomm ⟨0, "2"⟩ (by decide)⟩
  · rw [haccepts]
    decide
  · decide

end SourceEvolution
