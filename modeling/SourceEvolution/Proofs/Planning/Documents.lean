import SourceEvolution.Planning.Plan
import SourceEvolution.Proofs.Json.Formats
import SourceEvolution.Proofs.Tree.Places

/-!
# Trees, evolutions and plans as documents

Every value is read from both of its texts, and whatever is read from a text, however that is
written, is read from its own texts again.

* **Trees** (`Node.isFormat`), by induction on the tree: `Node.parts_of_ofJson?` says what a node is
  read from, whether it is written as an object or as an array.
* **Evolutions** (`Evolution.isFormat`): an evolution is held back before it is read, which changes
  nothing that has been written.
* **Plans** (`Plan.isFormat`): the indices are those that fit into 64 bits.
* **Documents** (`documents_roundTrip`).
-/

namespace SourceEvolution

open Json (IsFormat)

/-! ## Positions -/

theorem Position.isFormat : IsFormat Position.toJson Position.ofJson? fun _ => True := by
  have hpair : IsFormat Position.toJson Position.ofJson? fun _ => True ∧ True :=
    Json.isFormat_word32.pair Json.isFormat_word32 (by decide) Position.mk Position.line
      Position.column (fun _ => rfl) (fun _ _ => rfl) fun _ _ => rfl
  simpa only [and_self] using hpair

/-! ## Nodes -/

namespace Node

theorem listOfJson?_eq_mapM (items : List Json) : listOfJson? items = items.mapM ofJson? := by
  induction items with
  | nil => rfl
  | cons item rest ih =>
    rw [listOfJson?, ih, List.mapM_cons]

/-- The fields that a node is written with. -/
def documentFields (node : Node) : List (String × Json) :=
  [("kind", node.kind.toJson)] ++
    (node.text.map fun text => ("text", Json.string text)).toList ++
    (node.position.map fun position => ("position", position.toJson)).toList ++
    (if node.children.isEmpty then [] else [("children", .array (node.children.map toJson))])

theorem toJson_eq (node : Node) : node.toJson = .object node.documentFields := by
  cases node
  rw [toJson, listToJson_eq_map, documentFields]

/-- What holds of everything that a node is written with. -/
theorem forall_mem_documentFields {node : Node} {motive : Json → Prop}
    (kind : motive node.kind.toJson)
    (text : ∀ text ∈ node.text, motive (.string text))
    (position : ∀ position ∈ node.position, motive position.toJson)
    (children : node.children ≠ [] → motive (.array (node.children.map toJson))) :
    ∀ field ∈ node.documentFields, motive field.2 := by
  intro field hfield
  simp only [documentFields, List.mem_append, List.mem_singleton, Option.mem_toList,
    Option.map_eq_some_iff] at hfield
  rcases hfield with ((rfl | ⟨found, hfound, rfl⟩) | ⟨found, hfound, rfl⟩) | hfield
  · exact kind
  · exact text found hfound
  · exact position found hfound
  · split at hfield
    · exact absurd hfield List.not_mem_nil
    · rename_i hchildren
      cases List.mem_singleton.mp hfield
      exact children (by simpa using hchildren)

theorem field?_documentFields (node : Node) :
    Json.field? node.documentFields "kind" = some (some node.kind.toJson) ∧
      Json.field? node.documentFields "text" = some (node.text.map .string) ∧
      Json.field? node.documentFields "position" = some (node.position.map Position.toJson) := by
  obtain ⟨kind, text, position, children⟩ := node
  cases text <;> cases position <;> cases children <;> exact ⟨rfl, rfl, rfl⟩

theorem childFields_documentFields (node : Node) :
    childFields node.documentFields =
      if node.children = [] then [] else [(node.children.map toJson).mapM ofJson?] := by
  obtain ⟨kind, text, position, children⟩ := node
  cases text <;> cases position <;> cases children <;>
    simp [documentFields, childFields, childrenOfJson?, listOfJson?_eq_mapM]

/-- A node is put together exactly from what its fields are read as. -/
theorem assemble?_eq_some_iff {kind text position : Option Json}
    {children : List (Option (List Node))} {node : Node} :
    assemble? kind text position children = some node ↔
      kind.bind NodeKind.ofJson? = some node.kind ∧
        Json.optional? Json.string? text = some node.text ∧
        Json.optional? Position.ofJson? position = some node.position ∧
        (children = [] ∧ node.children = [] ∨ children = [some node.children]) := by
  obtain ⟨nodeKind, nodeText, nodePosition, nodeChildren⟩ := node
  unfold assemble?
  constructor
  · intro h
    obtain ⟨foundKind, hkind, h⟩ := Option.bind_eq_some_iff.mp h
    obtain ⟨foundText, htext, h⟩ := Option.bind_eq_some_iff.mp h
    obtain ⟨foundPosition, hposition, h⟩ := Option.bind_eq_some_iff.mp h
    split at h
    · cases h
      exact ⟨hkind, htext, hposition, Or.inl ⟨rfl, rfl⟩⟩
    · obtain ⟨foundChildren, hchildren, h⟩ := Option.bind_eq_some_iff.mp h
      cases h
      exact ⟨hkind, htext, hposition, Or.inr (by rw [hchildren])⟩
    · cases h
  · rintro ⟨hkind, htext, hposition, ⟨rfl, hempty⟩ | rfl⟩
    · obtain rfl : nodeChildren = [] := hempty
      rw [hkind, htext, hposition]
      rfl
    · rw [hkind, htext, hposition]
      rfl

/-- A node is read from the fields that it is written with. -/
theorem ofJson?_toJson (node : Node) : ofJson? node.toJson = some node := by
  induction node using inductionOn with
  | step node ih =>
    have htext := Json.optional?_map
      (fun text => Json.isFormat_string.undoes text trivial) rfl node.text
    have hposition := Json.optional?_map
      (fun position => Position.isFormat.undoes position trivial) rfl node.position
    have hchildren : (node.children.map toJson).mapM ofJson? = some node.children :=
      mapM_map_eq_some ih
    obtain ⟨hkindField, htextField, hpositionField⟩ := node.field?_documentFields
    rw [toJson_eq, ofJson?, hkindField, htextField, hpositionField, childFields_documentFields,
      hchildren]
    refine assemble?_eq_some_iff.mpr ⟨node.kind.ofName?_name, htext, hposition, ?_⟩
    by_cases hempty : node.children = []
    · exact Or.inl ⟨if_pos hempty, hempty⟩
    · exact Or.inr (if_neg hempty)

/-- What is given for the children is read from the fields of that name. -/
theorem exists_of_mem_childFields {fields : List (String × Json)} {given : Option (List Node)}
    (h : given ∈ childFields fields) : ∃ field ∈ fields, childrenOfJson? field.2 = given := by
  induction fields with
  | nil =>
    rw [childFields] at h
    exact absurd h List.not_mem_nil
  | cons field rest ih =>
    have hrest : given ∈ childFields rest →
        ∃ other ∈ field :: rest, childrenOfJson? other.2 = given := by
      intro hmem
      obtain ⟨other, hother, hgiven⟩ := ih hmem
      exact ⟨other, List.mem_cons_of_mem _ hother, hgiven⟩
    rw [childFields] at h
    split at h
    · rcases List.mem_cons.mp h with hgiven | hmem
      · exact ⟨field, List.mem_cons_self, hgiven.symm⟩
      · exact hrest hmem
    · exact hrest h

/-- A node is put together from proper parts of what it is read from, whether that is an object or
an array. -/
theorem exists_assemble?_of_ofJson? {json : Json} {node : Node} (h : ofJson? json = some node) :
    ∃ kind text position children, assemble? kind text position children = some node ∧
      (∀ part : Json, kind = some part ∨ position = some part → part.NestedIn json) ∧
      ∀ given ∈ children, ∃ part : Json, part.NestedIn json ∧ childrenOfJson? part = given := by
  unfold ofJson? at h
  split at h
  · rename_i fields
    obtain ⟨kind, hkind, h⟩ := Option.bind_eq_some_iff.mp h
    obtain ⟨text, -, h⟩ := Option.bind_eq_some_iff.mp h
    obtain ⟨position, hposition, h⟩ := Option.bind_eq_some_iff.mp h
    refine ⟨kind, text, position, childFields fields, h, ?_, ?_⟩
    · rintro part (rfl | rfl)
      · exact Json.nestedIn_of_field? hkind
      · exact Json.nestedIn_of_field? hposition
    · intro given hgiven
      obtain ⟨field, hfield, hread⟩ := exists_of_mem_childFields hgiven
      exact ⟨field.2, Json.nestedIn_object hfield, hread⟩
  case h_6 => cases h
  -- an array gives the first fields in their fixed order
  all_goals
    refine ⟨_, _, _, _, h, ?_, ?_⟩
    · rintro part (hpart | hpart)
      all_goals cases hpart
      all_goals exact Json.nestedIn_array (by simp)
    · intro given hgiven
      first
        | exact absurd hgiven List.not_mem_nil
        | exact ⟨_, Json.nestedIn_array (by simp), (List.mem_singleton.mp hgiven).symm⟩

/-- What a node is read from: its position and its children are read from proper parts. -/
theorem parts_of_ofJson? {json : Json} {node : Node} (h : ofJson? json = some node) :
    0 < json.depth ∧
      (∀ position ∈ node.position, ∃ part : Json, part.NestedIn json ∧
        Position.ofJson? part = some position) ∧
      (node.children ≠ [] → ∃ items, (Json.array items).NestedIn json ∧
        items.mapM ofJson? = some node.children) := by
  obtain ⟨kind, text, position, children, hassemble, hparts, hgiven⟩ :=
    exists_assemble?_of_ofJson? h
  obtain ⟨hkind, -, hposition, hchildren⟩ := assemble?_eq_some_iff.mp hassemble
  refine ⟨?_, ?_, ?_⟩
  · obtain ⟨part, hpart, -⟩ := Option.bind_eq_some_iff.mp hkind
    exact Nat.zero_lt_of_lt (hparts part (Or.inl hpart)).depth_lt
  · intro found hfound
    rw [Option.mem_def.mp hfound] at hposition
    obtain ⟨part, hpart, hread⟩ := Json.exists_of_optional? hposition
    exact ⟨part, hparts part (Or.inr hpart), hread⟩
  · intro hne
    rcases hchildren with ⟨-, hempty⟩ | rfl
    · exact absurd hempty hne
    · obtain ⟨part, hnested, hread⟩ := hgiven _ List.mem_cons_self
      unfold childrenOfJson? at hread
      split at hread
      · rename_i items
        exact ⟨items, hnested, by rw [← listOfJson?_eq_mapM, hread]⟩
      · cases hread

/-- A node is written no more deeply nested than what it is read from. -/
theorem depth_toJson_le {json : Json} {node : Node} (h : ofJson? json = some node) :
    node.toJson.depth ≤ json.depth := by
  induction node using inductionOn generalizing json with
  | step node ih =>
    obtain ⟨hpos, hposition, hchildren⟩ := parts_of_ofJson? h
    rw [toJson_eq]
    refine Json.depth_object_le hpos
      (forall_mem_documentFields (motive := fun part => part.depth < json.depth) ?_ ?_ ?_ ?_)
    · exact hpos
    · exact fun _ _ => hpos
    · intro position hmem
      obtain ⟨part, hnested, hread⟩ := hposition position hmem
      exact Nat.lt_of_le_of_lt (Position.isFormat.bounded part position hread).2 hnested.depth_lt
    · intro hne
      obtain ⟨items, hnested, hread⟩ := hchildren hne
      refine Nat.lt_of_le_of_lt ?_ hnested.depth_lt
      exact Json.depth_array_map_le hread fun child hchild item hitem => ih child hchild hitem

/-- What holds of strings and positions, and of arrays and objects whenever it holds of their parts,
holds of everything that nodes are written as. -/
theorem forall_toJson {motive : Json → Prop} (string : ∀ text, motive (.string text))
    (position : ∀ position : Position, motive position.toJson)
    (array : ∀ items, (∀ item ∈ items, motive item) → motive (.array items))
    (object : ∀ fields, (∀ field ∈ fields, motive field.2) →
      (∀ name, fields ≠ [(name, .object [])]) → motive (.object fields)) (node : Node) :
    motive node.toJson := by
  induction node using inductionOn with
  | step node ih =>
    rw [toJson_eq]
    refine object _ (forall_mem_documentFields (string _) (fun _ _ => string _)
      (fun found _ => position found) fun _ => array _ fun item hitem => ?_) ?_
    · obtain ⟨child, hchild, rfl⟩ := List.mem_map.mp hitem
      exact ih child hchild
    · -- the first field is the kind, which is a string
      intro name heq
      cases heq

theorem isFormat : IsFormat toJson ofJson? fun _ => True where
  plain node _ := forall_toJson .string (fun position => Position.isFormat.plain position trivial)
    (fun _ => .array) (fun _ h _ => .object h) node
  kept node _ := forall_toJson Json.isKept_string
    (fun position => Position.isFormat.kept position trivial) (fun _ => Json.isKept_array)
    (fun _ => Json.isKept_object) node
  undoes node _ := ofJson?_toJson node
  bounded _ _ h := ⟨trivial, depth_toJson_le h⟩

end Node

theorem SourceFile.isFormat : IsFormat SourceFile.toJson SourceFile.ofJson? fun _ => True := by
  have hpair : IsFormat SourceFile.toJson SourceFile.ofJson? fun _ => True ∧ True :=
    Json.isFormat_string.pair Node.isFormat (by decide) SourceFile.mk SourceFile.path
      SourceFile.root (fun _ => rfl) (fun _ _ => rfl) fun _ _ => rfl
  simpa only [and_self] using hpair

/-! ## Evolutions -/

theorem InitializerParameter.isFormat :
    IsFormat InitializerParameter.toJson InitializerParameter.ofJson? fun _ => True := by
  have hpair : IsFormat InitializerParameter.toJson InitializerParameter.ofJson?
      fun _ => True ∧ True :=
    Json.isFormat_string.pair Node.isFormat (by decide) InitializerParameter.mk
      InitializerParameter.name InitializerParameter.type (fun _ => rfl) (fun _ _ => rfl)
      fun _ _ => rfl
  simpa only [and_self] using hpair

theorem Signature.isFormat : IsFormat Signature.toJson Signature.ofJson? fun _ => True := by
  have hlist : IsFormat Signature.toJson Signature.ofJson? fun signature => ∀ _ ∈ signature, True :=
    InitializerParameter.isFormat.list
  simpa only [implies_true] using hlist

namespace Evolution

/-- The indices of an evolution fit into 64 bits. -/
def IndicesFit : Evolution → Prop
  | shuffleMembers order => ∀ index ∈ order.mapping, index < Decimal.wordBound
  | synthesizeInitializers _ => True
  | changeDefaultArgument change => change.index < Decimal.wordBound

/-- What an evolution is written with, apart from its kind. -/
def payloadFields : Evolution → List (String × Json)
  | shuffleMembers order => [("mapping", .array (order.mapping.map .natural))]
  | synthesizeInitializers initializers =>
    [("inits", .array (initializers.signatures.map Signature.toJson))]
  | changeDefaultArgument change =>
    [("index", .natural change.index), ("value", .string change.value)]

theorem toJson_eq (evolution : Evolution) :
    evolution.toJson =
      .object (("kind", .string evolution.kind.name) :: evolution.payloadFields) := by
  cases evolution <;> rfl

/-- What an evolution is read from, once its kind is known. -/
theorem bounded_of_payload? {kind : EvolutionKind} {json : Json} {evolution : Evolution}
    (h : payload? kind json = some evolution) :
    0 < json.depth ∧ evolution.IndicesFit ∧
      ∀ field ∈ evolution.payloadFields, field.2.depth < json.depth := by
  cases kind with
  | shuffleMembers =>
    rw [payload?] at h
    split at h
    · rename_i hrecord
      obtain ⟨items, hitems, h⟩ := Option.bind_eq_some_iff.mp h
      obtain ⟨mapping, hmapping, h⟩ := Option.bind_eq_some_iff.mp h
      cases h
      obtain ⟨hfits, hdepth⟩ := Json.isFormat_natural.list.bounded_of_record? hrecord (by simp)
        (Option.bind_eq_some_iff.mpr ⟨items, hitems, hmapping⟩)
      exact ⟨Nat.zero_lt_of_lt hdepth, hfits, List.forall_mem_singleton.mpr hdepth⟩
    · cases h
  | synthesizeInitializers =>
    rw [payload?] at h
    split at h
    · rename_i hrecord
      obtain ⟨items, hitems, h⟩ := Option.bind_eq_some_iff.mp h
      obtain ⟨signatures, hsignatures, h⟩ := Option.bind_eq_some_iff.mp h
      cases h
      obtain ⟨-, hdepth⟩ := Signature.isFormat.list.bounded_of_record? hrecord (by simp)
        (Option.bind_eq_some_iff.mpr ⟨items, hitems, hsignatures⟩)
      exact ⟨Nat.zero_lt_of_lt hdepth, trivial, List.forall_mem_singleton.mpr hdepth⟩
    · cases h
  | changeDefaultArgument =>
    rw [payload?] at h
    split at h
    · rename_i hrecord
      obtain ⟨index, hindex, h⟩ := Option.bind_eq_some_iff.mp h
      obtain ⟨value, hvalue, h⟩ := Option.bind_eq_some_iff.mp h
      cases h
      obtain ⟨hfits, hdepth⟩ := Json.isFormat_natural.bounded_of_record? hrecord (by simp) hindex
      obtain ⟨-, hother⟩ := Json.isFormat_string.bounded_of_record? hrecord (by simp) hvalue
      exact ⟨Nat.zero_lt_of_lt hdepth, hfits,
        List.forall_mem_cons.mpr ⟨hdepth, List.forall_mem_singleton.mpr hother⟩⟩
    · cases h

/-- An evolution that has been held back is read from what is left of it without its kind. -/
theorem exists_payload?_of_ofHeld? {json : Json} {evolution : Evolution}
    (h : ofHeld? json = some evolution) :
    ∃ kind part, payload? kind part = some evolution ∧ part.depth ≤ json.depth := by
  unfold ofHeld? at h
  split at h
  · split at h
    · obtain ⟨name, -, h⟩ := Option.bind_eq_some_iff.mp h
      obtain ⟨kind, -, h⟩ := Option.bind_eq_some_iff.mp h
      exact ⟨kind, _, h, Nat.le_refl _⟩
    · cases h
  · rename_i first items
    obtain ⟨name, -, h⟩ := Option.bind_eq_some_iff.mp h
    obtain ⟨kind, -, h⟩ := Option.bind_eq_some_iff.mp h
    refine ⟨kind, .array items, h, Json.depth_array_le ?_ fun item hitem => ?_⟩
    · exact Nat.zero_lt_of_lt (Json.depth_lt_of_mem_array List.mem_cons_self)
    · exact Json.depth_lt_of_mem_array (List.mem_cons_of_mem first hitem)
  · cases h

/-- What holds of everything that an evolution is written with. -/
theorem forall_mem_payloadFields {evolution : Evolution} {motive : Json → Prop}
    (h : evolution.IndicesFit) (string : ∀ text, motive (.string text))
    (natural : ∀ n < Decimal.wordBound, motive (.natural n))
    (signature : ∀ signature : Signature, motive signature.toJson)
    (array : ∀ items, (∀ item ∈ items, motive item) → motive (.array items)) :
    ∀ field ∈ evolution.payloadFields, motive field.2 := by
  cases evolution with
  | shuffleMembers order =>
    refine List.forall_mem_singleton.mpr (array _ fun item hitem => ?_)
    obtain ⟨index, hindex, rfl⟩ := List.mem_map.mp hitem
    exact natural index (h index hindex)
  | synthesizeInitializers initializers =>
    refine List.forall_mem_singleton.mpr (array _ fun item hitem => ?_)
    obtain ⟨written, -, rfl⟩ := List.mem_map.mp hitem
    exact signature written
  | changeDefaultArgument change =>
    exact List.forall_mem_cons.mpr ⟨natural _ h, List.forall_mem_singleton.mpr (string _)⟩

/-- An evolution is read from what is written with its kind. -/
theorem payload?_payloadFields (evolution : Evolution) (h : evolution.IndicesFit) (name : String) :
    payload? evolution.kind (.object (("kind", .string name) :: evolution.payloadFields)) =
      some evolution := by
  cases evolution with
  | shuffleMembers order =>
    have hread := Json.isFormat_natural.list.undoes order.mapping h
    exact Option.bind_eq_some_iff.mpr ⟨order.mapping, hread, rfl⟩
  | synthesizeInitializers initializers =>
    have hread := Signature.isFormat.list.undoes initializers.signatures fun _ _ => trivial
    exact Option.bind_eq_some_iff.mpr ⟨initializers.signatures, hread, rfl⟩
  | changeDefaultArgument change =>
    have hread := Json.isFormat_natural.undoes change.index h
    exact Option.bind_eq_some_iff.mpr
      ⟨change.index, hread, Option.bind_eq_some_iff.mpr ⟨change.value, rfl, rfl⟩⟩

theorem isKept_toJson (evolution : Evolution) (h : evolution.IndicesFit) :
    evolution.toJson.IsKept := by
  rw [toJson_eq]
  refine Json.isKept_object (List.forall_mem_cons.mpr ⟨Json.isKept_string _,
    forall_mem_payloadFields h Json.isKept_string (fun _ => Json.isKept_natural)
      (fun signature => Signature.isFormat.kept signature trivial) fun _ => Json.isKept_array⟩) ?_
  intro name heq
  cases heq

theorem isFormat : IsFormat toJson ofJson? IndicesFit where
  plain evolution h := by
    rw [toJson_eq]
    exact .object (List.forall_mem_cons.mpr ⟨.string _, forall_mem_payloadFields h .string
      (fun n _ => .natural n) (fun signature => Signature.isFormat.plain signature trivial)
      fun _ => .array⟩)
  kept := isKept_toJson
  undoes evolution h := by
    have hkind : Json.field? (("kind", .string evolution.kind.name) :: evolution.payloadFields)
        "kind" = some (some (.string evolution.kind.name)) := by
      cases evolution <;> rfl
    rw [ofJson?, (isKept_toJson evolution h).held?_eq, Option.bind_some, toJson_eq, ofHeld?, hkind]
    change (EvolutionKind.ofName? evolution.kind.name).bind _ = _
    rw [evolution.kind.ofName?_name]
    exact payload?_payloadFields evolution h _
  bounded json evolution h := by
    obtain ⟨held, hheld, h⟩ := Option.bind_eq_some_iff.mp h
    obtain ⟨kind, part, hpayload, hpart⟩ := exists_payload?_of_ofHeld? h
    obtain ⟨hpos, hfits, hfields⟩ := bounded_of_payload? hpayload
    have hsettled : held.depth ≤ json.depth := by
      unfold Json.held? at hheld
      split at hheld
      · cases hheld
        exact json.depth_settled_le
      · cases hheld
    refine ⟨hfits, Nat.le_trans ?_ (Nat.le_trans hpart hsettled)⟩
    rw [toJson_eq]
    exact Json.depth_object_le hpos (List.forall_mem_cons.mpr ⟨hpos, hfields⟩)

end Evolution

/-! ## Plans -/

theorem Path.isFormat :
    IsFormat Path.toJson Path.ofJson? fun path => ∀ index ∈ path, index < Decimal.wordBound :=
  Json.isFormat_natural.list

namespace PlanEntry

/-- The indices of an entry fit into 64 bits. -/
structure IndicesFit (entry : PlanEntry) : Prop where
  /-- Those of its path. -/
  path : ∀ index ∈ entry.path, index < Decimal.wordBound
  /-- Those of its evolution. -/
  evolution : entry.evolution.IndicesFit

/-- What holds of everything that an entry is written with. -/
theorem forall_mem_fields {entry : PlanEntry} {motive : Json → Prop}
    (string : ∀ text, motive (.string text)) (path : motive entry.path.toJson)
    (evolution : motive entry.evolution.toJson) :
    ∀ field ∈ [("location", .string entry.location), ("file", .string entry.file),
      ("path", entry.path.toJson), ("evolution", entry.evolution.toJson)], motive field.2 :=
  List.forall_mem_cons.mpr ⟨string _, List.forall_mem_cons.mpr ⟨string _,
    List.forall_mem_cons.mpr ⟨path, List.forall_mem_singleton.mpr evolution⟩⟩⟩

theorem isFormat : IsFormat toJson ofJson? IndicesFit where
  plain entry h := .object (forall_mem_fields .string (Path.isFormat.plain _ h.path)
    (Evolution.isFormat.plain _ h.evolution))
  kept entry h := by
    refine Json.isKept_object (forall_mem_fields Json.isKept_string
      (Path.isFormat.kept _ h.path) (Evolution.isFormat.kept _ h.evolution)) ?_
    intro name heq
    cases heq
  undoes entry h := by
    have hpath := Path.isFormat.undoes entry.path h.path
    have hevolution := Evolution.isFormat.undoes entry.evolution h.evolution
    exact Option.bind_eq_some_iff.mpr ⟨entry.path, hpath,
      Option.bind_eq_some_iff.mpr ⟨entry.evolution, hevolution, rfl⟩⟩
  bounded json entry h := by
    rw [ofJson?] at h
    split at h
    · rename_i hrecord
      obtain ⟨location, -, h⟩ := Option.bind_eq_some_iff.mp h
      obtain ⟨file, -, h⟩ := Option.bind_eq_some_iff.mp h
      obtain ⟨path, hpath, h⟩ := Option.bind_eq_some_iff.mp h
      obtain ⟨evolution, hevolution, h⟩ := Option.bind_eq_some_iff.mp h
      cases h
      obtain ⟨hpathFits, hpathDepth⟩ := Path.isFormat.bounded_of_record? hrecord (by simp) hpath
      obtain ⟨hevolutionFits, hevolutionDepth⟩ :=
        Evolution.isFormat.bounded_of_record? hrecord (by simp) hevolution
      have hpos := Nat.zero_lt_of_lt hpathDepth
      exact ⟨⟨hpathFits, hevolutionFits⟩, Json.depth_object_le hpos
        (forall_mem_fields (motive := fun part => part.depth < json.depth) (fun _ => hpos)
          hpathDepth hevolutionDepth)⟩
    · cases h

end PlanEntry

namespace Plan

/-- The indices of a plan fit into 64 bits. -/
def IndicesFit (plan : Plan) : Prop :=
  ∀ entry ∈ plan, entry.IndicesFit

theorem isFormat : IsFormat toJson ofJson? IndicesFit :=
  PlanEntry.isFormat.list

end Plan

/-! ## Documents -/

/-- Nodes, source files, evolutions and plans make the round trip through both of their texts: a
value whose texts are not nested too deeply, and whose indices fit into 64 bits, is read from them;
and whatever text a value is read from, its own texts are not nested too deeply and the value is
read from them again. -/
theorem documents_roundTrip :
    Json.RoundTrips Node.toJson Node.ofJson? (fun _ => True) ∧
      Json.RoundTrips SourceFile.toJson SourceFile.ofJson? (fun _ => True) ∧
      Json.RoundTrips Evolution.toJson Evolution.ofJson? Evolution.IndicesFit ∧
      Json.RoundTrips Plan.toJson Plan.ofJson? Plan.IndicesFit :=
  ⟨Node.isFormat.roundTrips, SourceFile.isFormat.roundTrips, Evolution.isFormat.roundTrips,
    Plan.isFormat.roundTrips⟩

end SourceEvolution
