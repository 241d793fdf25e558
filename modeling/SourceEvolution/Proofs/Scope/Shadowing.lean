import SourceEvolution.Proofs.Scope.NormalForms

/-!
# Shadowed names

A type of the standard library is known by its name alone, and a file may declare something else
under that name. The type is looked up first, so a plain name that the file declares is never taken
for the standard one. A name behind that of the standard module is another matter: when nothing is
found for it, it is classified as it is written, although the file may declare the name that stands
for the module.

* **Names** (`TypeShape.standardNames`, `Node.IsStandardName`, `Node.IsStandardMember`): how types
  of the standard library are written, and which nodes are classified as such
  (`TypeShape.ofNode_ne_named_iff`).
* **Meaning** (`Scope.IsStandard`, `Scope.ShadowsModule`): a type is one of the standard library
  where it is read, or the name of the standard module in front of it has another meaning there. For
  types that nothing is found for, these are the two reasons to be classified as standard
  (`Finds.ofNode_ne_named_iff`).
* **Shadowing** (`Scope.shapeOf_ne_named_iff`, `Scope.shapeOf_standard`): only types of the standard
  library are classified as such, exactly unless the name of the standard module is shadowed. The
  file `Sample.moduleFile` shadows it.
-/

namespace SourceEvolution

/-! ## Names -/

namespace TypeShape

/-- The names of the standard library that have a shape. -/
def standardNames : List String :=
  ["Array", "ContiguousArray", "ArraySlice", "Set", "Dictionary", "String", "Substring",
    "Int", "Int8", "Int16", "Int32", "Int64", "UInt", "UInt8", "UInt16", "UInt32", "UInt64",
    "Float", "Double", "Float16", "Float80", "Optional", "ImplicitlyUnwrappedOptional"]

theorem ofStandardName_ne_named_iff {name : String} :
    ofStandardName name ≠ .named ↔ name ∈ standardNames := by
  constructor
  · intro h
    by_contra hname
    apply h
    simp_all [standardNames, ofStandardName]
  · have hall : ∀ name ∈ standardNames, ofStandardName name ≠ .named := by decide
    exact hall name

end TypeShape

namespace Node

/-- A type with a notation of its own: an array, a dictionary or an optional, implicitly unwrapped
or not. -/
def IsNotated (type : Node) : Prop :=
  type.kind = .type .array ∨ type.kind = .type .dictionary ∨ type.kind = .type .optional ∨
    type.kind = .type .implicitlyUnwrapped

/-- A type is a name, perhaps with arguments, and that is one of the standard library. -/
def IsStandardName (type : Node) (name : String) : Prop :=
  type.kind = .type .simple ∧ type.text = some name ∧ name ∈ TypeShape.standardNames

/-- A type is a name of the standard library behind the plain name of the standard module. -/
def IsStandardMember (type : Node) : Prop :=
  type.kind = .type .member ∧
    ∃ name base arguments, type.text = some name ∧ name ∈ TypeShape.standardNames ∧
      type.children = base :: arguments ∧
      base.kind = .type .simple ∧ base.text = some "Swift" ∧ base.children = []

end Node

theorem TypeShape.isStandardModule_iff {base : Node} :
    isStandardModule base = true ↔
      base.kind = .type .simple ∧ base.text = some "Swift" ∧ base.children = [] := by
  simp [isStandardModule, and_assoc]

/-- The types that are not classified as named, by how they are written. -/
theorem TypeShape.ofNode_ne_named_iff {type : Node} :
    ofNode type ≠ .named ↔
      type.IsNotated ∨ (∃ name, type.IsStandardName name) ∨ type.IsStandardMember := by
  obtain ⟨kind, text, position, children⟩ := type
  unfold Node.IsNotated Node.IsStandardName Node.IsStandardMember ofNode
  dsimp only
  split
  · simp
  · simp
  · simp
  · simp
  · simp [ofStandardName_ne_named_iff]
  · rename_i name base arguments
    by_cases hbase : isStandardModule base = true
    · simp [hbase, ofStandardName_ne_named_iff, isStandardModule_iff.mp hbase]
    · rw [if_neg hbase]
      simp_all [isStandardModule_iff]
  · -- a name or a member that lacks its text or its base is no type of the standard library
    grind

/-! ## Meaning -/

namespace Scope

/-- A type is one of the standard library where it is read: it has a notation of its own, or no
declaration gives its name, or that of the standard module in front of it, another meaning. -/
inductive IsStandard (scope : Scope) (type : Node) : Prop where
  /-- A notation cannot be shadowed. -/
  | notated (notated : type.IsNotated) : IsStandard scope type
  /-- Nothing is found for a plain name. -/
  | named {name : String} (standard : type.IsStandardName name)
      (unshadowed : scope.lookup? name = none) : IsStandard scope type
  /-- Nothing is found for the standard module. -/
  | qualified (standard : type.IsStandardMember) (unshadowed : scope.lookup? "Swift" = none) :
      IsStandard scope type

/-- A type is written as one of the standard library, but what stands for the standard module is a
declaration of the file. -/
def ShadowsModule (scope : Scope) (type : Node) : Prop :=
  type.IsStandardMember ∧ ∃ found, scope.lookup? "Swift" = some found

variable {scope : Scope} {type : Node}

/-- The two exclude each other. -/
theorem IsStandard.not_shadowsModule (h : scope.IsStandard type) : ¬ scope.ShadowsModule type := by
  rintro ⟨⟨hmember, -⟩, found, hfound⟩
  cases h with
  | notated hnotated => simp [Node.IsNotated, hmember] at hnotated
  | named hname => simp [Node.IsStandardName, hmember] at hname
  | qualified _ hnone =>
    rw [hnone] at hfound
    cases hfound

/-- Where nothing is found for a plain name, its lookup has failed. -/
theorem Finds.lookup?_eq_none {height : Nat} (h : Finds scope type none height) {name : String}
    (hkind : type.kind = .type .simple) (htext : type.text = some name) :
    scope.lookup? name = none := by
  obtain ⟨kind, text, position, children⟩ := type
  obtain rfl : kind = .type .simple := hkind
  obtain rfl : text = some name := htext
  exact (h.unique _ _ (.name scope name position children)).1.symm

/-- A type for which nothing is found is classified as one of the standard library if it is one,
and also if the name of the standard module is shadowed. -/
theorem Finds.ofNode_ne_named_iff {height : Nat} (h : Finds scope type none height) :
    TypeShape.ofNode type ≠ .named ↔ scope.IsStandard type ∨ scope.ShadowsModule type := by
  rw [TypeShape.ofNode_ne_named_iff]
  constructor
  · rintro (hnotated | ⟨name, hname⟩ | hmember)
    · exact .inl (.notated hnotated)
    · exact .inl (.named hname (h.lookup?_eq_none hname.1 hname.2.1))
    · -- the lookup of the member says nothing about the module, so both cases remain
      rcases hmodule : scope.lookup? "Swift" with _ | found
      · exact .inl (.qualified hmember hmodule)
      · exact .inr ⟨hmember, found, hmodule⟩
  · rintro (hstandard | ⟨hmember, -⟩)
    · cases hstandard with
      | notated hnotated => exact .inl hnotated
      | named hname => exact .inr (.inl ⟨_, hname⟩)
      | qualified hmember => exact .inr (.inr hmember)
    · exact .inr (.inr hmember)

/-! ## Shadowing -/

/-- The shape of a type is that of what is left over, if anything is. -/
theorem shapeOf_eq_ok_iff {shape : TypeShape} :
    scope.shapeOf type = .ok shape ↔
      (∃ found, scope.resolve type = .ok (.declaration found) ∧ shape = .named) ∨
        ∃ left inner, scope.resolve type = .ok (.unresolved left inner) ∧
          shape = TypeShape.ofNode left := by
  unfold shapeOf
  rcases scope.resolve type with error | found | ⟨left, inner⟩
  · simp [bind, Except.bind]
  · simp [bind, Except.bind, pure, Except.pure, eq_comm]
  · simp [bind, Except.bind, pure, Except.pure, eq_comm]

/-- What is left over of a type is classified as one of the standard library if it is one, and also
if the name of the standard module is shadowed. -/
theorem ofNode_ne_named_iff_of_resolve {left : Node} {inner : Scope}
    (h : scope.resolve type = .ok (.unresolved left inner)) :
    TypeShape.ofNode left ≠ .named ↔ inner.IsStandard left ∨ inner.ShadowsModule left := by
  obtain ⟨height, -, meaning⟩ := resolveWithin_sound h
  obtain ⟨below, -, lookup⟩ := meaning.isNormal
  exact lookup.ofNode_ne_named_iff

/-- A type has another shape than a named one exactly if resolution leaves a type over that is
classified as one of the standard library, for one of the two reasons. -/
theorem shapeOf_ne_named_iff {shape : TypeShape} (h : scope.shapeOf type = .ok shape) :
    shape ≠ .named ↔ ∃ left inner, scope.resolve type = .ok (.unresolved left inner) ∧
      (inner.IsStandard left ∨ inner.ShadowsModule left) := by
  rcases shapeOf_eq_ok_iff.mp h with ⟨found, hfound, rfl⟩ | ⟨left, inner, hleft, rfl⟩
  · simp [hfound]
  · rw [ofNode_ne_named_iff_of_resolve hleft]
    simp [hleft]

/-- Which types have a shape. For every scope and every type, the shape is another one than that of
a named type exactly if resolution leaves a type over that is one of the standard library where it
is to be read, or one that is written behind the name of the standard module where a declaration
has that name. So only types of the standard library have such a shape, exactly unless the name of
the standard module is shadowed where the type that is left over is to be read. -/
theorem shapeOf_standard (scope : Scope) (type : Node) :
    (∀ shape, scope.shapeOf type = .ok shape → (shape ≠ .named ↔
      ∃ left inner, scope.resolve type = .ok (.unresolved left inner) ∧
        (inner.IsStandard left ∨ inner.ShadowsModule left))) ∧
    ((∀ shape, scope.shapeOf type = .ok shape → shape ≠ .named →
        ∃ left inner, scope.resolve type = .ok (.unresolved left inner) ∧ inner.IsStandard left) ↔
      ∀ left inner, scope.resolve type = .ok (.unresolved left inner) →
        ¬ inner.ShadowsModule left) := by
  refine ⟨fun _ => shapeOf_ne_named_iff, ?_, ?_⟩
  · intro honly left inner hleft hshadowed
    have hne := (ofNode_ne_named_iff_of_resolve hleft).mpr (.inr hshadowed)
    have hok := shapeOf_eq_ok_iff.mpr (.inr ⟨left, inner, hleft, rfl⟩)
    obtain ⟨_, _, hother, hstandard⟩ := honly _ hok hne
    rw [hleft] at hother
    cases hother
    exact hstandard.not_shadowsModule hshadowed
  · intro hnone shape h hne
    obtain ⟨left, inner, hleft, hstandard | hshadowed⟩ := (shapeOf_ne_named_iff h).mp hne
    · exact ⟨left, inner, hleft, hstandard⟩
    · exact absurd hshadowed (hnone left inner hleft)

end Scope

/-- A file that declares a struct with the name of the standard module, and in an extension of it a
struct with the name of a standard integer. -/
def Sample.moduleFile : Node :=
  Sample.file [(Sketch.named .structDecl "Swift").toNode,
    (Sketch.extended { kind := .extensionDecl, head := Build.simpleType "Swift" }
      [(Sketch.named .structDecl "Int").toNode]).toNode]

/-- There the base of `Swift.Int` is the struct, which has no such member itself, and still the type
is taken for the standard integer. -/
theorem Scope.shapeOf_moduleFile :
    (Sample.moduleFile.scopeAt [] 32).resolve (Build.simpleType "Swift") =
      .ok (.declaration (Sample.moduleFile.scopeAt [0] 32)) ∧
    (Sample.moduleFile.scopeAt [] 32).shapeOf
      (Build.memberType (Build.simpleType "Swift") "Int") = .ok .integer ∧
    ¬ ∃ left inner, (Sample.moduleFile.scopeAt [] 32).resolve
        (Build.memberType (Build.simpleType "Swift") "Int") = .ok (.unresolved left inner) ∧
      inner.IsStandard left := by
  have hleft : (Sample.moduleFile.scopeAt [] 32).resolve
      (Build.memberType (Build.simpleType "Swift") "Int") =
        .ok (.unresolved (Build.memberType (Build.simpleType "Swift") "Int")
          (Sample.moduleFile.scopeAt [] 32)) := by
    decide +kernel
  have hmodule : (Sample.moduleFile.scopeAt [] 32).lookup? "Swift" =
      some (Sample.moduleFile.scopeAt [0] 32) := by
    decide +kernel
  refine ⟨by decide +kernel, by decide +kernel, ?_⟩
  rintro ⟨left, inner, hother, hstandard⟩
  rw [hleft] at hother
  cases hother
  apply hstandard.not_shadowsModule
  refine ⟨⟨rfl, "Int", Build.simpleType "Swift", [], rfl, ?_, rfl, rfl, rfl, rfl⟩, _, hmodule⟩
  decide

end SourceEvolution
