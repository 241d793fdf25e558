import Mathlib.Data.List.TakeWhile
import SourceEvolution.Json.Held
import SourceEvolution.Json.Record
import SourceEvolution.Proofs.Json.Reading

/-!
# Formats

A format is a way of writing values as JSON together with a way of reading them. Reading is more
lenient than writing: a record may be an array, its fields may come in any order, and what is not
known is passed over. So two things are asked of a format: reading undoes writing, and a value is
never written more deeply nested than anything that it can be read from.

* **Parts** (`Json.NestedIn`, `nestedIn_of_record?`): what is given for a field of a record is a
  proper part of it.
* **Held values** (`Json.IsKept`, `depth_settled_le`): holding a value back leaves what is written
  as it is, and never nests anything more deeply.
* **Formats** (`Json.IsFormat`), with the formats of strings, numbers, lists and records of two
  fields.
* **Documents** (`Json.RoundTrips`, `IsFormat.roundTrips`): what a format says of texts.
-/

namespace SourceEvolution

namespace Json

/-! ## Parts -/

/-- A value is a proper part of another one, as far as both measures tell. -/
structure NestedIn (part whole : Json) : Prop where
  /-- It is nested less deeply. -/
  depth_lt : part.depth < whole.depth
  /-- It has fewer parts. -/
  size_lt : part.size < whole.size

theorem depth_array_le {items : List Json} {n : Nat} (hpos : 0 < n)
    (h : ∀ item ∈ items, item.depth < n) : (array items).depth ≤ n := by
  obtain ⟨m, rfl⟩ := Nat.exists_eq_add_one.mpr hpos
  exact depth_array_le_iff.mpr fun item hitem => Nat.le_of_lt_succ (h item hitem)

theorem depth_object_le {fields : List (String × Json)} {n : Nat} (hpos : 0 < n)
    (h : ∀ field ∈ fields, field.2.depth < n) : (object fields).depth ≤ n := by
  obtain ⟨m, rfl⟩ := Nat.exists_eq_add_one.mpr hpos
  exact depth_object_le_iff.mpr fun field hfield => Nat.le_of_lt_succ (h field hfield)

theorem nestedIn_array {items : List Json} {item : Json} (h : item ∈ items) :
    item.NestedIn (array items) := by
  refine ⟨depth_lt_of_mem_array h, ?_⟩
  rw [size]
  exact Nat.lt_succ_of_le (size_le_sizeOfItems h)

theorem nestedIn_object {fields : List (String × Json)} {field : String × Json}
    (h : field ∈ fields) : field.2.NestedIn (object fields) := by
  refine ⟨depth_lt_of_mem_object h, ?_⟩
  rw [size_object]
  exact Nat.lt_succ_of_le (size_le_sizeOfItems (List.mem_map_of_mem h))

theorem nestedIn_of_field? {fields : List (String × Json)} {name : String} {part : Json}
    (h : field? fields name = some (some part)) : part.NestedIn (object fields) := by
  unfold field? at h
  split at h
  · cases h
  · rename_i field hfield
    cases h
    have hmem : field ∈ fields.filter fun field => field.1 == name := by
      rw [hfield]
      exact List.mem_singleton_self field
    exact nestedIn_object (List.mem_of_mem_filter hmem)
  · cases h

/-- What is given for a field of a record is a proper part of the record. -/
theorem nestedIn_of_record? {names : List String} {json part : Json} {given : List (Option Json)}
    (h : json.record? names = some given) (hpart : some part ∈ given) : part.NestedIn json := by
  unfold record? at h
  split at h
  · rename_i fields
    obtain ⟨name, -, hname⟩ := exists_of_mem_mapM h hpart
    exact nestedIn_of_field? hname
  · rename_i items
    split at h
    · cases h
      rcases List.mem_append.mp hpart with hitem | hmissing
      · obtain ⟨item, hitem, heq⟩ := List.mem_map.mp hitem
        cases heq
        exact nestedIn_array hitem
      · cases List.eq_of_mem_replicate hmissing
    · cases h
  · cases h

/-! ## Fields that may be left out -/

/-- A value is read from what it is written as, where there is one. -/
theorem optional?_map {α : Type} {write : α → Json} {read : Json → Option α}
    (h : ∀ value, read (write value) = some value) (hnull : read .null = none) (value? : Option α) :
    optional? read (value?.map write) = some value? := by
  cases value? with
  | none => rfl
  | some value =>
    rw [Option.map_some, optional?, nullable?, h value, Option.map_some]
    intro heq
    have hvalue := h value
    rw [heq, hnull] at hvalue
    cases hvalue

/-- A value that is there is read from what is given for it. -/
theorem exists_of_optional? {α : Type} {read : Json → Option α} {given : Option Json} {value : α}
    (h : optional? read given = some (some value)) :
    ∃ part, given = some part ∧ read part = some value := by
  cases given with
  | none => cases h
  | some part =>
    rw [optional?] at h
    unfold nullable? at h
    split at h
    · cases h
    · obtain ⟨found, hfound, heq⟩ := Option.map_eq_some_iff.mp h
      cases heq
      exact ⟨part, rfl, hfound⟩

/-! ## Held values -/

theorem areSound_eq_all (items : List Json) : areSound items = items.all isSound := by
  induction items with
  | nil => rfl
  | cons item rest ih => rw [areSound, ih, List.all_cons]

theorem areSoundFields_eq_all (fields : List (String × Json)) :
    areSoundFields fields = fields.all fun field => field.2.isSound := by
  induction fields with
  | nil => rfl
  | cons field rest ih => rw [areSoundFields, ih, List.all_cons]

theorem settledItems_eq_map (items : List Json) : settledItems items = items.map settled := by
  induction items with
  | nil => rfl
  | cons item rest ih => rw [settledItems, ih, List.map_cons]

theorem settledFields_eq_map (fields : List (String × Json)) :
    settledFields fields = fields.map fun field => (field.1, field.2.settled) := by
  induction fields with
  | nil => rfl
  | cons field rest ih => rw [settledFields, ih, List.map_cons]

/-- An object is settled field by field, unless it has nothing but a field with an empty object. -/
theorem settled_object_cases (fields : List (String × Json)) :
    (∃ name, fields = [(name, object [])]) ∨
      (object fields).settled = object (settledFields fields) := by
  by_cases h : ∃ name, fields = [(name, object [])]
  · exact Or.inl h
  · refine Or.inr ?_
    rw [settled]
    exact fun name hname => h ⟨name, hname⟩

/-- Holding a value back leaves it as it is. -/
structure IsKept (json : Json) : Prop where
  isSound_eq : json.isSound = true
  settled_eq : json.settled = json

theorem IsKept.held?_eq {json : Json} (h : json.IsKept) : json.held? = some json := by
  rw [held?, if_pos h.isSound_eq, h.settled_eq]

theorem isKept_string (value : String) : (string value).IsKept :=
  ⟨rfl, rfl⟩

theorem isKept_array {items : List Json} (h : ∀ item ∈ items, item.IsKept) :
    (array items).IsKept := by
  constructor
  · rw [isSound, areSound_eq_all, List.all_eq_true]
    exact fun item hitem => (h item hitem).isSound_eq
  · have hsame : ∀ item ∈ items, item.settled = item := fun item hitem => (h item hitem).settled_eq
    rw [settled, settledItems_eq_map, List.map_congr_left hsame, List.map_id']

theorem isKept_object {fields : List (String × Json)} (h : ∀ field ∈ fields, field.2.IsKept)
    (hfields : ∀ name, fields ≠ [(name, object [])]) : (object fields).IsKept := by
  constructor
  · rw [isSound, areSoundFields_eq_all, List.all_eq_true]
    exact fun field hfield => (h field hfield).isSound_eq
  · have hsame : ∀ field ∈ fields, (field.1, field.2.settled) = field := by
      intro field hfield
      rw [(h field hfield).settled_eq]
    rcases settled_object_cases fields with ⟨name, hname⟩ | hsettled
    · exact absurd hname (hfields name)
    · rw [hsettled, settledFields_eq_map, List.map_congr_left hsame, List.map_id']

end Json

/-! ## Numbers -/

namespace Numeral

/-- All digits of a number that fits in a word are kept. -/
theorem fill_eq {cs : List Char} {n : Nat}
    (h : cs.foldl (fun v c => 10 * v + Decimal.digitValue c) n < Decimal.wordBound) :
    fill n cs = (cs.foldl (fun v c => 10 * v + Decimal.digitValue c) n, []) := by
  have hgrows : ∀ (cs : List Char) (n : Nat),
      n ≤ cs.foldl (fun v c => 10 * v + Decimal.digitValue c) n := by
    intro cs
    induction cs with
    | nil => exact fun n => Nat.le_refl n
    | cons c rest ih =>
      intro n
      exact Nat.le_trans (by omega) (ih (10 * n + Decimal.digitValue c))
  induction cs generalizing n with
  | nil => rfl
  | cons c rest ih =>
    rw [List.foldl_cons] at h ⊢
    rw [fill, if_pos (Nat.lt_of_le_of_lt (hgrows rest _) h), ih h]

theorem ofChars_digits {n : Nat} (h : n < Decimal.wordBound) :
    Scaled.ofChars (Decimal.digits n) = ⟨n, 0⟩ := by
  have hall : ∀ c ∈ Decimal.digits n, c.isDigit = true :=
    List.all_eq_true.mp (Decimal.all_isDigit_digits n)
  have hsign : dropSign ['-'] (Decimal.digits n) = Decimal.digits n := by
    obtain ⟨d, hd, rest, hdigits, -⟩ := Token.exists_digits_eq n
    have hne : Decimal.digitChar d ≠ '-' := by
      intro heq
      have hdigit := Decimal.isDigit_digitChar hd
      rw [heq] at hdigit
      cases hdigit
    rw [hdigits, dropSign, if_neg (by simpa using hne)]
  have hfill : fill 0 (Decimal.digits n) = (n, []) := by
    have hvalue := Decimal.value_digits n
    rw [Decimal.value] at hvalue
    rw [fill_eq (by rw [hvalue]; exact h), hvalue]
  have htake : (Decimal.digits n).takeWhile Char.isDigit = Decimal.digits n :=
    List.takeWhile_eq_self_iff.mpr hall
  have hdrop : (Decimal.digits n).dropWhile Char.isDigit = [] :=
    List.dropWhile_eq_nil_iff.mpr hall
  simp [Scaled.ofChars, hsign, htake, hdrop, hfill, fraction, fill, shift]

/-- Rounding adds at most a unit in the last place. -/
theorem nearest_le (n : Nat) : nearest n ≤ n + 1 <<< (n.log2 + 1 - 53) := by
  have hbelow : ∀ unit : Nat, n / unit * unit ≤ n := fun unit => Nat.div_mul_le_self n unit
  rw [nearest]
  split
  · rw [Nat.add_mul, Nat.one_mul]
    exact Nat.add_le_add_right (hbelow _) _
  · exact Nat.le_trans (hbelow _) (Nat.le_add_right _ _)

/-- A number that fits in a word is finite in floating point. -/
theorem isInRange_digits {n : Nat} (h : n < Decimal.wordBound) :
    isInRange (Decimal.digits n) = true := by
  have hfinite : n ≠ 0 → nearest n * nearest (Nat.pow 10 0) < overflowBound := by
    intro hn
    have hbits : n.log2 < 64 := (Nat.log2_lt hn).mpr h
    have hunit : 1 <<< (n.log2 + 1 - 53) ≤ 1 <<< 64 := by
      rw [Nat.one_shiftLeft, Nat.one_shiftLeft]
      exact Nat.pow_le_pow_right (by decide) (by omega)
    have hone : nearest (Nat.pow 10 0) = 1 := by decide
    have hbound : Decimal.wordBound + 1 <<< 64 < overflowBound := by decide +kernel
    rw [hone, Nat.mul_one]
    calc nearest n ≤ n + 1 <<< (n.log2 + 1 - 53) := nearest_le n
      _ ≤ Decimal.wordBound + 1 <<< 64 := Nat.add_le_add (Nat.le_of_lt h) hunit
      _ < overflowBound := hbound
  rw [isInRange, ofChars_digits h, Scaled.isFinite]
  by_cases hn : n = 0
  · rw [hn]
    rfl
  · rw [Bool.or_eq_true, Bool.and_eq_true]
    exact Or.inr ⟨rfl, decide_eq_true (hfinite hn)⟩

end Numeral

namespace Json

theorem isKept_natural {n : Nat} (h : n < Decimal.wordBound) : (natural n).IsKept :=
  ⟨Numeral.isInRange_digits h, rfl⟩

mutual

/-- Settling a value does not nest it more deeply. -/
theorem depth_settled_le : (json : Json) → json.settled.depth ≤ json.depth
  | object fields => by
    have hfields := depth_settledFields_le fields
    rcases settled_object_cases fields with ⟨name, rfl⟩ | hsettled
    · exact Nat.le_succ 1
    · rw [hsettled, depth, depth]
      exact Nat.add_le_add_right hfields 1
  | array items => by
    have hitems := depth_settledItems_le items
    rw [settled, depth, depth]
    exact Nat.add_le_add_right hitems 1
  | null => Nat.le_refl _
  | bool _ => Nat.le_refl _
  | natural _ => Nat.le_refl _
  | number _ => Nat.le_refl _
  | string _ => Nat.le_refl _
  | broken => Nat.le_refl _

theorem depth_settledItems_le : (items : List Json) →
    depthOfItems (settledItems items) ≤ depthOfItems items
  | [] => Nat.le_refl _
  | item :: rest => by
    have hitem := depth_settled_le item
    have hrest := depth_settledItems_le rest
    rw [settledItems, depthOfItems, depthOfItems]
    omega

theorem depth_settledFields_le : (fields : List (String × Json)) →
    depthOfFields (settledFields fields) ≤ depthOfFields fields
  | [] => Nat.le_refl _
  | (name, value) :: rest => by
    have hvalue := depth_settled_le value
    have hrest := depth_settledFields_le rest
    rw [settledFields, depthOfFields, depthOfFields]
    omega

end

/-! ## Formats -/

/-- A way of writing values and a way of reading them belong together, for the values that fit. -/
structure IsFormat {α : Type} (write : α → Json) (read : Json → Option α) (Fits : α → Prop) :
    Prop where
  /-- A value is written with nothing but what can be written as a text. -/
  plain : ∀ value, Fits value → (write value).IsPlain
  /-- It may be held back. -/
  kept : ∀ value, Fits value → (write value).IsKept
  /-- Reading undoes writing. -/
  undoes : ∀ value, Fits value → read (write value) = some value
  /-- Whatever is read fits, and is written no more deeply nested than what it was read from. -/
  bounded : ∀ json value, read json = some value → Fits value ∧ (write value).depth ≤ json.depth

theorem isFormat_string : IsFormat string string? fun _ => True where
  plain value _ := .string value
  kept value _ := isKept_string value
  undoes _ _ := rfl
  bounded _ _ _ := ⟨trivial, Nat.zero_le _⟩

theorem isFormat_natural : IsFormat natural word? (· < Decimal.wordBound) where
  plain value _ := .natural value
  kept _ h := isKept_natural h
  undoes _ h := if_pos h
  bounded json value h := by
    refine ⟨?_, Nat.zero_le _⟩
    unfold word? at h
    split at h
    · split at h
      · cases h
        assumption
      · cases h
    · cases h

theorem isFormat_word32 : IsFormat (fun value => natural value.toNat) word32? fun _ => True where
  plain value _ := .natural value.toNat
  kept value _ := by
    have hsize : UInt32.size < Decimal.wordBound := by decide
    exact isKept_natural (Nat.lt_trans value.toNat_lt_size hsize)
  undoes value _ := by
    rw [word32?, if_pos value.toNat_lt_size, UInt32.ofNat_toNat]
  bounded _ _ _ := ⟨trivial, Nat.zero_le _⟩

section combinations

variable {α β γ : Type} {write : α → Json} {read : Json → Option α} {Fits : α → Prop}
  {writeOther : β → Json} {readOther : Json → Option β} {FitsOther : β → Prop}

/-- What is read one by one is written no more deeply nested, if each of it is. -/
theorem depth_array_map_le {items : List Json} {values : List α}
    (hread : items.mapM read = some values)
    (h : ∀ value ∈ values, ∀ item, read item = some value → (write value).depth ≤ item.depth) :
    (array (values.map write)).depth ≤ (array items).depth := by
  have hpos : 0 < (array items).depth := by
    rw [depth]
    exact Nat.succ_pos _
  refine depth_array_le hpos fun written hwritten => ?_
  obtain ⟨value, hvalue, rfl⟩ := List.mem_map.mp hwritten
  obtain ⟨item, hitem, hread⟩ := exists_of_mem_mapM hread hvalue
  exact Nat.lt_of_le_of_lt (h value hvalue item hread) (depth_lt_of_mem_array hitem)

/-- Several values as the array of what each is written as. -/
theorem IsFormat.list (format : IsFormat write read Fits) :
    IsFormat (fun values => array (values.map write))
      (fun json => json.array?.bind fun items => items.mapM read)
      fun values => ∀ value ∈ values, Fits value where
  plain values h := by
    refine .array fun item hitem => ?_
    obtain ⟨value, hvalue, rfl⟩ := List.mem_map.mp hitem
    exact format.plain value (h value hvalue)
  kept values h := by
    refine isKept_array fun item hitem => ?_
    obtain ⟨value, hvalue, rfl⟩ := List.mem_map.mp hitem
    exact format.kept value (h value hvalue)
  undoes values h := mapM_map_eq_some fun value hvalue => format.undoes value (h value hvalue)
  bounded json values h := by
    obtain ⟨items, hitems, hread⟩ := Option.bind_eq_some_iff.mp h
    unfold array? at hitems
    split at hitems
    · cases hitems
      constructor
      · intro value hvalue
        obtain ⟨item, -, hread⟩ := exists_of_mem_mapM hread hvalue
        exact (format.bounded item value hread).1
      · exact depth_array_map_le hread fun value _ item hread => (format.bounded item value hread).2
    · cases hitems

/-- What is read from a field of a record fits, and is nested less deeply than the record. -/
theorem IsFormat.bounded_of_record? (format : IsFormat write read Fits) {names : List String}
    {json part : Json} {given : List (Option Json)} {value : α}
    (hrecord : json.record? names = some given) (hpart : some part ∈ given)
    (hread : read part = some value) : Fits value ∧ (write value).depth < json.depth := by
  obtain ⟨hfits, hdepth⟩ := format.bounded part value hread
  exact ⟨hfits, Nat.lt_of_le_of_lt hdepth (nestedIn_of_record? hrecord hpart).depth_lt⟩

/-- The fields of a record of two are found by their names. -/
theorem record?_pair {first second : String} (hne : first ≠ second) (x y : Json) :
    (object [(first, x), (second, y)]).record? [first, second] = some [some x, some y] := by
  have hfirst : (first == second) = false := beq_eq_false_iff_ne.mpr hne
  have hsecond : (second == first) = false := beq_eq_false_iff_ne.mpr hne.symm
  simp [record?, field?, List.filter, hfirst, hsecond]

/-- A record of two fields. -/
theorem IsFormat.pair (format : IsFormat write read Fits)
    (formatOther : IsFormat writeOther readOther FitsOther) {first second : String}
    (hne : first ≠ second) (make : α → β → γ) (left : γ → α) (right : γ → β)
    (hmake : ∀ value, make (left value) (right value) = value)
    (hleft : ∀ x y, left (make x y) = x) (hright : ∀ x y, right (make x y) = y) :
    IsFormat
      (fun value => object [(first, write (left value)), (second, writeOther (right value))])
      (fun json =>
        match json.record? [first, second] with
        | some [some x, some y] => do return make (← read x) (← readOther y)
        | _ => none)
      fun value => Fits (left value) ∧ FitsOther (right value) where
  plain value h := by
    refine .object (List.forall_mem_cons.mpr ⟨?_, List.forall_mem_singleton.mpr ?_⟩)
    · exact format.plain _ h.1
    · exact formatOther.plain _ h.2
  kept value h := by
    refine isKept_object (List.forall_mem_cons.mpr ⟨?_, List.forall_mem_singleton.mpr ?_⟩) (by simp)
    · exact format.kept _ h.1
    · exact formatOther.kept _ h.2
  undoes value h := by
    rw [record?_pair hne]
    change (read _).bind (fun x => (readOther _).bind fun y => some (make x y)) = _
    rw [format.undoes _ h.1, formatOther.undoes _ h.2, Option.bind_some, Option.bind_some, hmake]
  bounded json value h := by
    split at h
    · rename_i x y hrecord
      obtain ⟨u, hu, h⟩ := Option.bind_eq_some_iff.mp h
      obtain ⟨v, hv, h⟩ := Option.bind_eq_some_iff.mp h
      cases h
      obtain ⟨hfits, hdepth⟩ := format.bounded_of_record? hrecord (by simp) hu
      obtain ⟨hfitsOther, hdepthOther⟩ := formatOther.bounded_of_record? hrecord (by simp) hv
      rw [hleft, hright]
      exact ⟨⟨hfits, hfitsOther⟩, depth_object_le (Nat.zero_lt_of_lt hdepth)
        (List.forall_mem_cons.mpr ⟨hdepth, List.forall_mem_singleton.mpr hdepthOther⟩)⟩
    · cases h

end combinations

/-! ## Documents -/

/-- Reading undoes writing for the texts of values, and everything that any text is read as is read
from its own texts again. -/
structure RoundTrips {α : Type} (write : α → Json) (read : Json → Option α) (Fits : α → Prop) :
    Prop where
  /-- A value is read from its compact text. -/
  compact : ∀ value, Fits value → (write value).depth ≤ nestingLimit →
    (parse? (write value).compact).bind read = some value
  /-- A value is read from its pretty text. -/
  pretty : ∀ value, Fits value → (write value).depth ≤ nestingLimit →
    (parse? (write value).pretty).bind read = some value
  /-- Whatever text a value is read from, its own texts are nested no more deeply than is allowed,
  and it is read from both of them. -/
  closed : ∀ text value, (parse? text).bind read = some value →
    Fits value ∧ (write value).depth ≤ nestingLimit ∧
      (parse? (write value).compact).bind read = some value ∧
      (parse? (write value).pretty).bind read = some value

/-- The documents of a format make the round trip. -/
theorem IsFormat.roundTrips {α : Type} {write : α → Json} {read : Json → Option α}
    {Fits : α → Prop} (format : IsFormat write read Fits) : RoundTrips write read Fits := by
  have hcompact : ∀ value, Fits value → (write value).depth ≤ nestingLimit →
      (parse? (write value).compact).bind read = some value := by
    intro value hfits hdepth
    rw [parse?, parseWithin?_compact (format.plain value hfits) hdepth]
    exact format.undoes value hfits
  have hpretty : ∀ value, Fits value → (write value).depth ≤ nestingLimit →
      (parse? (write value).pretty).bind read = some value := by
    intro value hfits hdepth
    rw [parse?, parseWithin?_pretty (format.plain value hfits) hdepth]
    exact format.undoes value hfits
  refine ⟨hcompact, hpretty, ?_⟩
  intro text value h
  obtain ⟨json, hjson, hread⟩ := Option.bind_eq_some_iff.mp h
  obtain ⟨hfits, hdepth⟩ := format.bounded json value hread
  have hlimit := Nat.le_trans hdepth (bounds_of_parseWithin? hjson).1
  exact ⟨hfits, hlimit, hcompact value hfits hlimit, hpretty value hfits hlimit⟩

end Json

end SourceEvolution
