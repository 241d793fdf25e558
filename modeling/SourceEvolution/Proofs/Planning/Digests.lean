import SourceEvolution.Planning.Plan
import SourceEvolution.Proofs.Planning.Documents

/-!
# What a digest identifies

The digest of a tree or of a plan is the hash of the bytes of its compact text. This module says
that the bytes tell values apart, however deeply these are nested, so that two values with one
digest are the same value unless the hash itself collides.

* **Texts** (`Json.compact_inj`): a value is read back from its compact text by a reader that allows
  for enough containers. The bound that documents are held to plays no part.
* **Writing** (`Json.TellsApart`): different values are written differently. For trees this follows
  from reading them back; for plans it is shown field by field, since only indices that fit into 64
  bits are read back.
* **Bytes** (`Digest.textBytes_inj`): different texts have different bytes.
* **Digests** (`compact_identifies`).
-/

namespace SourceEvolution

namespace Json

/-! ## Texts -/

/-- Values that are made of nothing but what documents are written with have different compact
texts. -/
theorem compact_inj {first second : Json} (hfirst : first.IsPlain) (hsecond : second.IsPlain) :
    first.compact = second.compact ↔ first = second := by
  constructor
  · intro h
    have hread := parseWithin?_compact hfirst (Nat.le_max_left first.depth second.depth)
    have hother := parseWithin?_compact hsecond (Nat.le_max_right first.depth second.depth)
    rw [h] at hread
    exact Option.some.inj (hread.symm.trans hother)
  · intro h
    rw [h]

/-! ## Writing -/

/-- A way of writing values as JSON tells them apart, and its texts can be read. -/
structure TellsApart {α : Type} (write : α → Json) : Prop where
  /-- A value is written with nothing but what can be written as a text. -/
  plain : ∀ value, (write value).IsPlain
  /-- Different values are written differently. -/
  injective : Function.Injective write

theorem tellsApart_natural : TellsApart natural where
  plain := .natural
  injective _ _ h := natural.inj h

/-- What can be read back is told apart. -/
theorem IsFormat.tellsApart {α : Type} {write : α → Json} {read : Json → Option α}
    (format : IsFormat write read fun _ => True) : TellsApart write where
  plain value := format.plain value trivial
  injective := by
    intro first second h
    have hfirst := format.undoes first trivial
    rw [h, format.undoes second trivial] at hfirst
    exact (Option.some.inj hfirst).symm

/-- Lists are told apart by what their elements are written as. -/
theorem TellsApart.list {α : Type} {write : α → Json} (h : TellsApart write) :
    TellsApart fun values : List α => array (values.map write) where
  plain values := by
    refine .array fun item hitem => ?_
    obtain ⟨value, -, rfl⟩ := List.mem_map.mp hitem
    exact h.plain value
  injective := by
    intro first second hwritten
    exact List.map_injective_iff.mpr h.injective (array.inj hwritten)

theorem TellsApart.compact_inj {α : Type} {write : α → Json} (h : TellsApart write)
    (first second : α) : (write first).compact = (write second).compact ↔ first = second := by
  rw [Json.compact_inj (h.plain first) (h.plain second)]
  exact h.injective.eq_iff

end Json

/-! ## Plans -/

namespace Evolution

theorem isPlain_toJson (evolution : Evolution) : evolution.toJson.IsPlain := by
  have hfields : ∀ field ∈ evolution.payloadFields, field.2.IsPlain := by
    cases evolution with
    | shuffleMembers order =>
      exact List.forall_mem_singleton.mpr (Json.tellsApart_natural.list.plain order.mapping)
    | synthesizeInitializers initializers =>
      exact List.forall_mem_singleton.mpr
        (Signature.isFormat.tellsApart.list.plain initializers.signatures)
    | changeDefaultArgument change =>
      exact List.forall_mem_cons.mpr
        ⟨.natural change.index, List.forall_mem_singleton.mpr (.string change.value)⟩
  rw [toJson_eq]
  exact .object (List.forall_mem_cons.mpr ⟨.string evolution.kind.name, hfields⟩)

/-- The names of the fields tell the kinds of evolution apart, and what stands in the fields tells
apart the evolutions of one kind. -/
theorem tellsApart : Json.TellsApart toJson where
  plain := isPlain_toJson
  injective := by
    intro first second h
    have hfields : first.payloadFields = second.payloadFields := by
      rw [toJson_eq, toJson_eq] at h
      exact (List.cons.inj (Json.object.inj h)).2
    cases first <;> cases second <;>
      simp only [payloadFields, List.cons.injEq, Prod.mk.injEq, Json.natural.injEq,
        Json.string.injEq, and_true, true_and, String.reduceEq, false_and, reduceCtorEq] at hfields
    case shuffleMembers.shuffleMembers order other =>
      have hmapping := Json.tellsApart_natural.list.injective hfields
      exact congrArg shuffleMembers (congrArg MemberOrder.mk hmapping)
    case synthesizeInitializers.synthesizeInitializers initializers other =>
      have hsignatures := Signature.isFormat.tellsApart.list.injective hfields
      exact congrArg synthesizeInitializers (congrArg Initializers.mk hsignatures)
    case changeDefaultArgument.changeDefaultArgument change other =>
      obtain ⟨hindex, hvalue⟩ := hfields
      exact congrArg changeDefaultArgument (congrArg₂ DefaultArgument.mk hindex hvalue)

end Evolution

theorem PlanEntry.tellsApart : Json.TellsApart PlanEntry.toJson where
  plain entry := .object (PlanEntry.forall_mem_fields .string
    (Json.tellsApart_natural.list.plain entry.path) entry.evolution.isPlain_toJson)
  injective := by
    intro first second h
    have hfields := Json.object.inj h
    simp only [List.cons.injEq, Prod.mk.injEq, true_and, and_true, Json.string.injEq] at hfields
    obtain ⟨hlocation, hfile, hpath, hevolution⟩ := hfields
    have hpath := Json.tellsApart_natural.list.injective hpath
    have hevolution := Evolution.tellsApart.injective hevolution
    obtain ⟨location, file, path, evolution⟩ := first
    simp only at hlocation hfile hpath hevolution
    rw [hlocation, hfile, hpath, hevolution]

theorem Plan.tellsApart : Json.TellsApart Plan.toJson :=
  PlanEntry.tellsApart.list

/-! ## Bytes -/

/-- The loop that lists the bytes from an index on puts them behind what it has already. -/
theorem listBytes_loop (bytes : ByteArray) (index : Nat) (found : List UInt8) :
    ByteArray.toList.loop bytes index found =
      found.reverse ++ bytes.data.toList.drop index := by
  induction index, found using ByteArray.toList.loop.induct bytes with
  | case1 index found hlt ih =>
    have hlength : index < bytes.data.toList.length := hlt
    rw [ByteArray.toList.loop, if_pos hlt, ih, List.drop_eq_getElem_cons hlength]
    simp [ByteArray.get!, hlt]
  | case2 index found hge =>
    have hlength : bytes.data.toList.length ≤ index := Nat.not_lt.mp hge
    rw [ByteArray.toList.loop, if_neg hge, List.drop_of_length_le hlength, List.append_nil]

namespace Digest

theorem textBytes_eq (text : String) : textBytes text = text.toByteArray.data.toList := by
  unfold textBytes ByteArray.toList
  rw [listBytes_loop]
  rfl

/-- Different texts have different bytes. -/
theorem textBytes_inj {first second : String} :
    textBytes first = textBytes second ↔ first = second := by
  rw [textBytes_eq, textBytes_eq, Array.toList_inj]
  constructor
  · intro h
    exact String.toByteArray_inj.mp (ByteArray.ext h)
  · intro h
    rw [h]

/-! ## Digests -/

/-- Two different lists of bytes have the same hash. -/
def Collide (first second : List UInt8) : Prop :=
  first ≠ second ∧ Blake3.hash first = Blake3.hash second

/-- The bytes that the digest of a value is computed from. -/
def bytesOf (json : Json) : List UInt8 :=
  textBytes json.compact

theorem ofJson_eq_iff (first second : Json) :
    ofJson first = ofJson second ↔ Blake3.hash (bytesOf first) = Blake3.hash (bytesOf second) :=
  ⟨fun h => Digest.mk.inj h, fun h => congrArg Digest.mk h⟩

/-- Two values that are told apart have the same digest only if they are the same, or else their
bytes collide. -/
theorem ofJson_inj_or_collide {α : Type} {write : α → Json} (h : Json.TellsApart write)
    (first second : α) :
    ofJson (write first) = ofJson (write second) ↔
      first = second ∨ Collide (bytesOf (write first)) (bytesOf (write second)) := by
  have hbytes : bytesOf (write first) = bytesOf (write second) ↔ first = second := by
    rw [bytesOf, bytesOf, textBytes_inj, h.compact_inj]
  rw [ofJson_eq_iff, Collide, ne_eq, hbytes]
  by_cases heq : first = second
  · simp [heq]
  · simp [heq]

end Digest

/-- The compact texts of two trees, and of two plans, are the same only for the same value. So two
trees, or two plans, with one digest are the same value, or two different lists of bytes have the
same hash, namely those of the two texts. -/
theorem compact_identifies :
    (∀ first second : Node, first.toJson.compact = second.toJson.compact ↔ first = second) ∧
    (∀ first second : Plan, first.toJson.compact = second.toJson.compact ↔ first = second) ∧
    (∀ first second : Node, Digest.ofJson first.toJson = Digest.ofJson second.toJson ↔
      first = second ∨
        Digest.Collide (Digest.bytesOf first.toJson) (Digest.bytesOf second.toJson)) ∧
    (∀ first second : Plan, first.digest = second.digest ↔
      first = second ∨
        Digest.Collide (Digest.bytesOf first.toJson) (Digest.bytesOf second.toJson)) := by
  have hnode := Node.isFormat.tellsApart
  exact ⟨hnode.compact_inj, Plan.tellsApart.compact_inj, Digest.ofJson_inj_or_collide hnode,
    Digest.ofJson_inj_or_collide Plan.tellsApart⟩

end SourceEvolution
