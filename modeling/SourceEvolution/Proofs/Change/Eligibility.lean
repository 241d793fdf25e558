import Mathlib.Data.List.Perm.Subperm
import SourceEvolution.Proofs.Change.Findings
import SourceEvolution.Proofs.Tree.Places
import SourceEvolution.Random.ChaCha
import SourceEvolution.Tree.Sample

/-!
# Which defaults can be changed

A search for a new default goes through the parameters of a declaration. This module says what it
finds, at every place of a tree and for all words.

* **Parameters** (`DefaultArgument.Renews`, `DefaultArgument.Fails`): the new default of a
  parameter, and why there is no telling whether it can have one.
* **Lists** (`DefaultArgument.eligible_eq_error_iff`,
  `DefaultArgument.eligible_of_forall_not_fails`): the first parameter that fails decides, and
  otherwise the choices are the new defaults of the parameters, numbered by them and in their order.
* **Draws** (`WordSource.exists_words_below`): every number below a bound is drawn from some words.
* **Places** (`DefaultArgument.find_chooses`): a search is out of place, or fails as its first
  parameter that fails, or takes one of its choices, and each choice is taken with some words.
-/

namespace SourceEvolution

/-! ## Parameters -/

theorem TypeShape.literal?_eq_none_iff {shape : TypeShape} :
    shape.literal? = none ↔ shape = .named := by
  cases shape <;> simp [literal?]

namespace DefaultArgument

variable {scope : Scope} {parameter : Node}

/-- A parameter is given a new default. An expression that it has is evaluated inside a closure
instead, unless it is a literal that stands for the place of the call. Without one, it is given the
literal of its type, once that is resolved. A named type has none. -/
inductive Renews (scope : Scope) (parameter : Node) : String → Prop where
  /-- There is an expression already. -/
  | wrapped {existing : Node} (default : parameter.defaultValue? = some existing)
      (plain : trimmed (existing.text.getD "") ∉ callSiteLiterals) :
      Renews scope parameter ("\x7b " ++ trimmed (existing.text.getD "") ++ " \x7d()")
  /-- There is none, and the type is not the name of something else. -/
  | literal {type left : Node} {around : Scope} {value : String}
      (default : parameter.defaultValue? = none) (first : parameter.typeChild? = some type)
      (resolved : scope.resolve type = .ok (.unresolved left around))
      (known : TypeShape.ofNode left ≠ .named)
      (shape : (TypeShape.ofNode left).literal? = some value) : Renews scope parameter value

/-- A parameter has no default, and its type cannot be resolved. -/
def Fails (scope : Scope) (parameter : Node) (cause : ResolveError) : Prop :=
  parameter.defaultValue? = none ∧
    ∃ type, parameter.typeChild? = some type ∧ scope.resolve type = .error cause

/-- The new default of a parameter is looked for in the one way that is open to it. -/
theorem newDefault?_of_wrapped {existing : Node}
    (h : parameter.defaultValue? = some existing) :
    newDefault? scope parameter = .ok (wrapped? (existing.text.getD "")) := by
  simp only [newDefault?, h]

theorem newDefault?_of_literal {type : Node} (hnone : parameter.defaultValue? = none)
    (htype : parameter.typeChild? = some type) :
    newDefault? scope parameter =
      match scope.resolve type with
      | .error cause => .error cause
      | .ok (.declaration _) => .ok none
      | .ok (.unresolved left _) => .ok (TypeShape.ofNode left).literal? := by
  simp only [newDefault?, hnone, htype, Scope.shapeOf]
  rcases scope.resolve type with cause | result
  · rfl
  · cases result <;> rfl

theorem newDefault?_of_neither (hnone : parameter.defaultValue? = none)
    (htype : parameter.typeChild? = none) : newDefault? scope parameter = .ok none := by
  simp only [newDefault?, hnone, htype]

theorem newDefault?_eq_error_iff {cause : ResolveError} :
    newDefault? scope parameter = .error cause ↔ Fails scope parameter cause := by
  rcases hdefault : parameter.defaultValue? with _ | existing
  · rcases htype : parameter.typeChild? with _ | type
    · simp [newDefault?_of_neither hdefault htype, Fails, htype]
    · rw [newDefault?_of_literal hdefault htype]
      simp only [Fails, hdefault, htype, true_and, Option.some.injEq, exists_eq_left']
      rcases scope.resolve type with error | result
      · simp
      · cases result <;> simp
  · simp [newDefault?_of_wrapped hdefault, Fails, hdefault]

theorem newDefault?_eq_some_iff {value : String} :
    newDefault? scope parameter = .ok (some value) ↔ Renews scope parameter value := by
  constructor
  · intro h
    rcases hdefault : parameter.defaultValue? with _ | existing
    · rcases htype : parameter.typeChild? with _ | type
      · rw [newDefault?_of_neither hdefault htype] at h
        cases h
      · rw [newDefault?_of_literal hdefault htype] at h
        rcases hresolved : scope.resolve type with cause | result
        · rw [hresolved] at h
          cases h
        · cases result with
          | declaration found =>
            rw [hresolved] at h
            cases h
          | unresolved left around =>
            rw [hresolved] at h
            have hshape : (TypeShape.ofNode left).literal? = some value := Except.ok.inj h
            refine .literal hdefault htype hresolved ?_ hshape
            intro hnamed
            rw [TypeShape.literal?_eq_none_iff.mpr hnamed] at hshape
            cases hshape
    · rw [newDefault?_of_wrapped hdefault, wrapped?, isCallSiteLiteral] at h
      split at h
      · cases h
      · rename_i hplain
        cases h
        exact .wrapped hdefault (by simpa using hplain)
  · intro h
    cases h with
    | @wrapped existing default plain =>
      have hplain : isCallSiteLiteral (existing.text.getD "") = false := by
        simpa [isCallSiteLiteral] using plain
      rw [newDefault?_of_wrapped default, wrapped?, hplain]
      rfl
    | literal default first resolved known shape =>
      rw [newDefault?_of_literal default first, resolved]
      exact congrArg Except.ok shape

/-! ## Lists -/

/-- The first parameter of a list that fails, and how. -/
def FailsFirst (scope : Scope) (parameters : List Node) (cause : ResolveError) : Prop :=
  ∃ (i : Nat) (parameter : Node), parameters[i]? = some parameter ∧ Fails scope parameter cause ∧
    ∀ j < i, ∀ earlier, parameters[j]? = some earlier → ∀ other, ¬ Fails scope earlier other

theorem failsFirst_cons {rest : List Node} {cause : ResolveError} :
    FailsFirst scope (parameter :: rest) cause ↔
      Fails scope parameter cause ∨
        (∀ other, ¬ Fails scope parameter other) ∧ FailsFirst scope rest cause := by
  constructor
  · rintro ⟨i, failing, hfailing, hfails, hearlier⟩
    cases i with
    | zero =>
      obtain rfl : parameter = failing := Option.some.inj hfailing
      exact Or.inl hfails
    | succ i =>
      refine Or.inr ⟨hearlier 0 (Nat.succ_pos i) parameter rfl, i, failing, hfailing, hfails, ?_⟩
      exact fun j hj earlier hj' => hearlier (j + 1) (Nat.succ_lt_succ hj) earlier hj'
  · rintro (hfails | ⟨hnot, i, failing, hfailing, hfails, hearlier⟩)
    · exact ⟨0, parameter, rfl, hfails, fun j hj => absurd hj (Nat.not_lt_zero j)⟩
    · refine ⟨i + 1, failing, hfailing, hfails, fun j hj earlier hj' => ?_⟩
      cases j with
      | zero =>
        obtain rfl : parameter = earlier := Option.some.inj hj'
        exact hnot
      | succ j => exact hearlier j (Nat.lt_of_succ_lt_succ hj) earlier hj'

/-- The choices for a list of parameters, from those for its first one and for the others. -/
theorem eligible_cons {index : Nat} {rest : List Node} :
    eligible scope index (parameter :: rest) =
      match newDefault? scope parameter with
      | .error cause => .error cause
      | .ok value? =>
        match eligible scope (index + 1) rest with
        | .error cause => .error cause
        | .ok later => .ok ((value?.map fun value => ⟨index, value⟩).toList ++ later) := by
  rw [eligible]
  rcases newDefault? scope parameter with cause | value?
  · rfl
  · rcases eligible scope (index + 1) rest with cause | later <;> rfl

/-- A search fails exactly as the first parameter that fails. -/
theorem eligible_eq_error_iff {index : Nat} {parameters : List Node} {cause : ResolveError} :
    eligible scope index parameters = .error cause ↔ FailsFirst scope parameters cause := by
  induction parameters generalizing index with
  | nil => simp [eligible, FailsFirst]
  | cons parameter rest ih =>
    rw [eligible_cons, failsFirst_cons, ← newDefault?_eq_error_iff]
    simp only [← newDefault?_eq_error_iff]
    rcases newDefault? scope parameter with error | value?
    · simp
    · simp only [← @ih (index + 1)]
      rcases eligible scope (index + 1) rest with error | later <;> simp

/-- If no parameter fails, the choices are the new defaults of the parameters, numbered from `index`
on and in increasing order. -/
theorem eligible_of_forall_not_fails {index : Nat} {parameters : List Node}
    (h : ∀ parameter ∈ parameters, ∀ cause, ¬ Fails scope parameter cause) :
    ∃ choices, eligible scope index parameters = .ok choices ∧
      choices.Pairwise (fun first later => first.index < later.index) ∧
      ∀ change : DefaultArgument, change ∈ choices ↔
        ∃ (i : Nat) (parameter : Node), change.index = index + i ∧
          parameters[i]? = some parameter ∧ Renews scope parameter change.value := by
  induction parameters generalizing index with
  | nil => exact ⟨[], rfl, List.Pairwise.nil, by simp⟩
  | cons parameter rest ih =>
    obtain ⟨hfirst, hrest⟩ := List.forall_mem_cons.mp h
    obtain ⟨later, hlater, hpairwise, hmem⟩ := @ih (index + 1) hrest
    obtain ⟨value?, hvalue⟩ : ∃ value?, newDefault? scope parameter = .ok value? := by
      rcases hdefault : newDefault? scope parameter with cause | value?
      · exact absurd (newDefault?_eq_error_iff.mp hdefault) (hfirst cause)
      · exact ⟨value?, rfl⟩
    have hhead : ∀ change : DefaultArgument,
        change ∈ (value?.map fun value => (⟨index, value⟩ : DefaultArgument)).toList ↔
          change.index = index ∧ Renews scope parameter change.value := by
      intro change
      rw [Option.mem_toList, Option.map_eq_some_iff, ← newDefault?_eq_some_iff,
        hvalue]
      constructor
      · rintro ⟨value, rfl, rfl⟩
        exact ⟨rfl, rfl⟩
      · rintro ⟨rfl, hsome⟩
        exact ⟨change.value, Except.ok.inj hsome, rfl⟩
    refine ⟨_, by rw [eligible_cons, hvalue, hlater], ?_, fun change => ?_⟩
    · refine List.pairwise_append.mpr ⟨?_, hpairwise, fun first hfirst other hother => ?_⟩
      · cases value? <;> simp
      · obtain ⟨i, _, hindex, -⟩ := (hmem other).mp hother
        have hindex' := ((hhead first).mp hfirst).1
        omega
    · rw [List.mem_append, hhead, hmem]
      constructor
      · rintro (⟨hindex, hrenews⟩ | ⟨i, later, hindex, hparameter, hrenews⟩)
        · exact ⟨0, parameter, hindex, rfl, hrenews⟩
        · exact ⟨i + 1, later, by omega, hparameter, hrenews⟩
      · rintro ⟨i, renewed, hindex, hparameter, hrenews⟩
        cases i with
        | zero =>
          obtain rfl : parameter = renewed := Option.some.inj hparameter
          exact Or.inl ⟨hindex, hrenews⟩
        | succ i => exact Or.inr ⟨i, renewed, by omega, hparameter, hrenews⟩

end DefaultArgument

/-! ## Draws -/

/-- Every number below a bound is drawn from some words, if the bound is no larger than the number
of words. The word that is scaled to the number exactly or just above it does, with none to
carry. -/
theorem WordSource.exists_words_below {n i : Nat} (hi : i < n) (hn : n ≤ UInt32.size) :
    ∃ first second : UInt32, ∀ (G : Type) [WordSource G] (g : G), (next g).1 = first →
      (next (next g).2).1 = second → (below n g).1 = i := by
  have hpos : 0 < n := Nat.zero_lt_of_lt hi
  -- the word is the quotient of `i * 2 ^ 32` and `n`, rounded up
  obtain ⟨u, hlow, hhigh⟩ : ∃ u, i * UInt32.size ≤ u * n ∧ u * n < i * UInt32.size + n := by
    refine ⟨(i * UInt32.size + (n - 1)) / n, ?_, ?_⟩
    · have := Nat.lt_div_mul_add hpos (a := i * UInt32.size + (n - 1))
      omega
    · have := Nat.div_mul_le_self (i * UInt32.size + (n - 1)) n
      omega
  have hu : u < UInt32.size := by
    have hlt : u * n < UInt32.size * n := by
      calc u * n < i * UInt32.size + n := hhigh
        _ ≤ i * UInt32.size + UInt32.size := Nat.add_le_add_left hn _
        _ = (i + 1) * UInt32.size := (Nat.succ_mul i _).symm
        _ ≤ n * UInt32.size := Nat.mul_le_mul_right _ hi
        _ = UInt32.size * n := Nat.mul_comm _ _
    exact Nat.lt_of_mul_lt_mul_right hlt
  have hscaled : u * n / UInt32.size = i := by
    refine Nat.div_eq_of_lt_le hlow ?_
    rw [Nat.succ_mul]
    omega
  refine ⟨UInt32.ofNat u, 0, fun G _ g hfirst hsecond => ?_⟩
  have hword : (next g).1.toNat = u := by
    rw [hfirst]
    exact UInt32.toNat_ofNat_of_lt' hu
  have hcarry : ¬ UInt32.size ≤ u * n % UInt32.size := by
    exact Nat.not_le.mpr (Nat.mod_lt _ (by decide))
  simp only [below, hword, hscaled]
  split
  · rw [hsecond]
    simp only [UInt32.toNat_zero, Nat.zero_mul, Nat.zero_div, Nat.add_zero, if_neg hcarry]
  · rfl

/-! ## Places -/

namespace DefaultArgument

/-- The kinds of nodes whose parameters can have defaults. -/
def carriers : List NodeKind := [.decl .function, .decl .initializer, .decl .subscript]

theorem mem_carriers {kind : NodeKind} : kind ∈ carriers ↔ kind.hasParameters = true := by
  cases kind with
  | decl kind => cases kind <;> decide
  | type kind => cases kind <;> decide
  | _ => decide

theorem applies_iff {root : Node} {place : Place} (hplace : place ∈ root.places [] [])
    {aliasBound : Nat} :
    applies (place.site aliasBound) = true ↔
      place.node.kind ∈ carriers ∧
        ∀ decl, root.NearestAround place.path decl → decl.kind ≠ .protocolDecl := by
  simp only [← @container?_eq_some_iff aliasBound _ _ hplace]
  rw [applies, Bool.and_eq_true, mem_carriers, Bool.not_eq_true', Option.any_eq_false]
  simp [Place.site]

/-- The new defaults that a place has to choose from: those of its parameters, each once, in the
order of the parameters. -/
structure Offers (scope : Scope) (parameters : List Node) (choices : List DefaultArgument) :
    Prop where
  /-- They are in the order of the parameters. -/
  ordered : choices.Pairwise fun first later => first.index < later.index
  /-- They are the new defaults of the parameters that they are numbered by. -/
  mem_iff : ∀ change, change ∈ choices ↔
    ∃ parameter, parameters[change.index]? = some parameter ∧ Renews scope parameter change.value

/-- There are no more choices than parameters. -/
theorem Offers.length_le {scope : Scope} {parameters : List Node} {choices : List DefaultArgument}
    (h : Offers scope parameters choices) : choices.length ≤ parameters.length := by
  have hnodup : (choices.map index).Nodup :=
    List.pairwise_map.mpr (h.ordered.imp Nat.ne_of_lt)
  have hsubset : choices.map index ⊆ List.range parameters.length := by
    intro i hi
    obtain ⟨change, hchange, rfl⟩ := List.mem_map.mp hi
    obtain ⟨parameter, hparameter, -⟩ := (h.mem_iff change).mp hchange
    exact List.mem_range.mpr (List.getElem?_eq_some_iff.mp hparameter).1
  simpa using (hnodup.subperm hsubset).length_le

theorem offers_of_eligible {scope : Scope} {parameters : List Node}
    (h : ∀ parameter ∈ parameters, ∀ cause, ¬ Fails scope parameter cause) :
    ∃ choices, eligible scope 0 parameters = .ok choices ∧ Offers scope parameters choices := by
  obtain ⟨choices, heligible, hordered, hmem⟩ := @eligible_of_forall_not_fails scope 0 parameters h
  refine ⟨choices, heligible, hordered, fun change => ?_⟩
  rw [hmem]
  constructor
  · rintro ⟨i, parameter, hindex, hparameter, hrenews⟩
    rw [Nat.zero_add] at hindex
    exact ⟨parameter, hindex ▸ hparameter, hrenews⟩
  · rintro ⟨parameter, hparameter, hrenews⟩
    exact ⟨_, parameter, (Nat.zero_add _).symm, hparameter, hrenews⟩

section find

variable {G : Type} [WordSource G] {site : Site}

/-- A search among choices takes the one at the number that is drawn. -/
theorem find_of_eligible (happlies : applies site = true) {choices : List DefaultArgument}
    (h : eligible site.scope 0 site.node.parameters = .ok choices) (words : G) :
    find site words =
      if choices = [] then .error .unsupported words
      else .ok choices[(WordSource.below choices.length words).1]?
        (WordSource.below choices.length words).2 := by
  rw [find_run, if_pos happlies, h]
  cases choices with
  | nil => rfl
  | cons choice choices =>
    rw [if_neg (List.cons_ne_nil _ _)]
    rfl

theorem find_eq_unresolved_iff (happlies : applies site = true) (words : G) {cause : ResolveError} :
    find site words = .error (.unresolved cause) words ↔
      FailsFirst site.scope site.node.parameters cause := by
  rw [← @eligible_eq_error_iff _ 0]
  rcases heligible : eligible site.scope 0 site.node.parameters with error | choices
  · rw [find_run, if_pos happlies, heligible]
    simp
  · rw [find_of_eligible happlies heligible]
    split <;> simp

end find

/-- What a search for a new default finds at a place of a tree, for all words. It is out of place at
a node that has no parameters with defaults, and at a requirement of a protocol, whatever its
parameters are. Elsewhere it fails exactly as the first parameter whose type cannot be resolved. If
there is none, it chooses among the new defaults of the parameters: without any, it is out of place,
and else it takes the one at the number that is drawn. Each of them is found with some words. -/
theorem find_chooses {G : Type} [WordSource G] {root : Node} {place : Place}
    (hplace : place ∈ root.places [] []) (hfew : place.node.parameters.length < UInt32.size)
    (aliasBound : Nat) (words : G) :
    (place.node.kind ∉ carriers ∨
        (∃ decl, root.NearestAround place.path decl ∧ decl.kind = .protocolDecl) →
      find (place.site aliasBound) words = .error .unsupported words) ∧
    (place.node.kind ∈ carriers →
      (∀ decl, root.NearestAround place.path decl → decl.kind ≠ .protocolDecl) →
      (∀ cause, find (place.site aliasBound) words = .error (.unresolved cause) words ↔
        FailsFirst (place.scope aliasBound) place.node.parameters cause) ∧
      ((∀ parameter ∈ place.node.parameters, ∀ cause,
          ¬ Fails (place.scope aliasBound) parameter cause) →
        ∃ choices, Offers (place.scope aliasBound) place.node.parameters choices ∧
          (choices = [] → find (place.site aliasBound) words = .error .unsupported words) ∧
          (choices ≠ [] → ∃ i rest, WordSource.below choices.length words = (i, rest) ∧
            i < choices.length ∧ find (place.site aliasBound) words = .ok choices[i]? rest) ∧
          ∀ change ∈ choices, ∃ first second : UInt32, ∀ (H : Type) [WordSource H] (others : H),
            (WordSource.next others).1 = first →
            (WordSource.next (WordSource.next others).2).1 = second →
            ∃ rest, find (place.site aliasBound) others = .ok (some change) rest)) := by
  refine ⟨fun hout => ?_, fun hcarrier haround => ?_⟩
  · have hnot : ¬ applies (place.site aliasBound) = true := by
      rw [applies_iff hplace]
      rintro ⟨hcarrier, haround⟩
      rcases hout with hkind | ⟨decl, hdecl, hprotocol⟩
      · exact hkind hcarrier
      · exact haround decl hdecl hprotocol
    rw [find_run, if_neg hnot]
  · have happlies : applies (place.site aliasBound) = true :=
      (applies_iff hplace).mpr ⟨hcarrier, haround⟩
    refine ⟨fun cause => find_eq_unresolved_iff happlies words, fun hresolved => ?_⟩
    obtain ⟨choices, heligible, hoffers⟩ := offers_of_eligible hresolved
    have hfind : ∀ (H : Type) [WordSource H] (others : H), find (place.site aliasBound) others =
        if choices = [] then .error .unsupported others
        else .ok choices[(WordSource.below choices.length others).1]?
          (WordSource.below choices.length others).2 :=
      fun H _ others => find_of_eligible happlies heligible others
    refine ⟨choices, hoffers, fun hnil => ?_, fun hsome => ?_, fun change hchange => ?_⟩
    · rw [hfind, if_pos hnil]
    · refine ⟨(WordSource.below choices.length words).1, (WordSource.below choices.length words).2,
        rfl, WordSource.below_lt (List.length_pos_of_ne_nil hsome) words, ?_⟩
      rw [hfind, if_neg hsome]
    · obtain ⟨i, hi, rfl⟩ := List.getElem_of_mem hchange
      obtain ⟨first, second, hwords⟩ := WordSource.exists_words_below hi
        (Nat.le_of_lt (Nat.lt_of_le_of_lt hoffers.length_le hfew))
      refine ⟨first, second, fun H _ others hfirst hsecond => ?_⟩
      refine ⟨(WordSource.below choices.length others).2, ?_⟩
      rw [hfind, if_neg (List.ne_nil_of_mem hchange), hwords H others hfirst hsecond,
        List.getElem?_eq_getElem hi]

end DefaultArgument

/-- A file with a function whose first parameter has an alias of a standard type, whose second one
has a literal for the place of the call as its default, whose third one has another default, and
whose last one has a type that nothing is known of. -/
def Sample.countFile : Node :=
  Sample.file [Sample.typeAlias "Count" (Build.simpleType "Int"),
    Sample.function "add" [Sample.param "amount" "Count",
      Sample.paramWithDefault "line" (Build.simpleType "Int") "#line",
      Sample.paramWithDefault "step" (Build.simpleType "Int") " 42 ",
      Sample.param "target" "Counter"]]

/-- The third parameter of the function is given a new default with some words. -/
theorem DefaultArgument.find_chooses_countFile :
    ∃ place ∈ Sample.countFile.places [] [], place.path = [1] ∧
      place.node.parameters.length < UInt32.size ∧ place.node.kind ∈ carriers ∧
      (∀ decl, Sample.countFile.NearestAround place.path decl → decl.kind ≠ .protocolDecl) ∧
      (∀ parameter ∈ place.node.parameters, ∀ cause,
        ¬ Fails (place.scope defaultAliasBound) parameter cause) ∧
      ∃ first second : UInt32, ∀ (H : Type) [WordSource H] (others : H),
        (WordSource.next others).1 = first →
        (WordSource.next (WordSource.next others).2).1 = second →
        ∃ rest, find (place.site defaultAliasBound) others =
          .ok (some ⟨2, "\x7b 42 \x7d()"⟩) rest := by
  obtain ⟨place, hplace, hpath, hfew, happlies, hdefaults, hstep⟩ :
      ∃ place ∈ Sample.countFile.places [] [], place.path = [1] ∧
        place.node.parameters.length < UInt32.size ∧
        applies (place.site defaultAliasBound) = true ∧
        place.node.parameters.map (newDefault? (place.scope defaultAliasBound)) =
          [.ok (some "0"), .ok none, .ok (some "\x7b 42 \x7d()"), .ok none] ∧
        ∃ parameter, place.node.parameters[2]? = some parameter ∧
          newDefault? (place.scope defaultAliasBound) parameter = .ok (some "\x7b 42 \x7d()") :=
    ⟨_, List.mem_of_getElem? (i := 4) rfl, rfl, by decide, by decide, by decide, _, rfl, by decide⟩
  obtain ⟨hcarrier, haround⟩ := (applies_iff hplace).mp happlies
  have hresolved : ∀ parameter ∈ place.node.parameters, ∀ cause,
      ¬ Fails (place.scope defaultAliasBound) parameter cause := by
    intro parameter hparameter cause hfails
    have hmem := List.mem_map_of_mem (f := newDefault? (place.scope defaultAliasBound)) hparameter
    rw [hdefaults, newDefault?_eq_error_iff.mpr hfails] at hmem
    simp at hmem
  obtain ⟨parameter, hparameter, hvalue⟩ := hstep
  obtain ⟨choices, hoffers, -, -, hfound⟩ :=
    ((find_chooses hplace hfew defaultAliasBound (WordStream.ofSeed 0)).2 hcarrier haround).2
      hresolved
  refine ⟨place, hplace, hpath, hfew, hcarrier, haround, hresolved, ?_⟩
  refine hfound _ ((hoffers.mem_iff _).mpr ⟨parameter, hparameter, ?_⟩)
  exact newDefault?_eq_some_iff.mp hvalue

end SourceEvolution
