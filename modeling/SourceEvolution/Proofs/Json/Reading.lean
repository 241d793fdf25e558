import SourceEvolution.Proofs.Json.Scanning

/-!
# Reading what has been written

A value is read back from its tokens as long as its containers are not nested more deeply than the
reader allows; and whatever a text is read as, its containers are nested no more deeply than that.

* **Measures** (`Json.depth`, `Json.size`): how many containers of a value stand in one another, and
  how many parts it has.
* **Moves** (`Reader.moves_of_step`): everything that a token can do to a reader.
* **Reading back** (`ofTokens?_tokens`), by induction on the value: the tokens of a value complete
  it in the containers that are open.
* **Bounds** (`bounds_of_parseWithin?`): a value that stands inside `n` containers has a depth of at
  most `limit - n`, and each token adds at most one part. Both are kept by every move.
* **Texts** (`parseWithin?_compact`, `parseWithin?_pretty`): reading undoes both ways of writing.
-/

namespace SourceEvolution

namespace Json

/-! ## Measures -/

mutual

/-- How many containers of a value stand in one another at most. -/
def depth : Json → Nat
  | array items => depthOfItems items + 1
  | object fields => depthOfFields fields + 1
  | _ => 0

/-- The largest depth among the items of an array. -/
def depthOfItems : List Json → Nat
  | [] => 0
  | item :: rest => max item.depth (depthOfItems rest)

/-- The largest depth among the fields of an object. -/
def depthOfFields : List (String × Json) → Nat
  | [] => 0
  | (_, value) :: rest => max value.depth (depthOfFields rest)

end

mutual

/-- The number of parts of a value, itself included. -/
def size : Json → Nat
  | array items => sizeOfItems items + 1
  | object fields => sizeOfFields fields + 1
  | _ => 1

/-- The number of parts of the items of an array. -/
def sizeOfItems : List Json → Nat
  | [] => 0
  | item :: rest => item.size + sizeOfItems rest

/-- The number of parts of the fields of an object. -/
def sizeOfFields : List (String × Json) → Nat
  | [] => 0
  | (_, value) :: rest => value.size + sizeOfFields rest

end

theorem depth_array_le_iff {items : List Json} {n : Nat} :
    (array items).depth ≤ n + 1 ↔ ∀ item ∈ items, item.depth ≤ n := by
  rw [depth, Nat.add_le_add_iff_right]
  induction items with
  | nil => simp [depthOfItems]
  | cons item rest ih => rw [depthOfItems, Nat.max_le, ih, List.forall_mem_cons]

theorem depth_object_le_iff {fields : List (String × Json)} {n : Nat} :
    (object fields).depth ≤ n + 1 ↔ ∀ field ∈ fields, field.2.depth ≤ n := by
  rw [depth, Nat.add_le_add_iff_right]
  induction fields with
  | nil => simp [depthOfFields]
  | cons field rest ih => rw [depthOfFields, Nat.max_le, ih, List.forall_mem_cons]

theorem depth_lt_of_mem_array {items : List Json} {item : Json} (h : item ∈ items) :
    item.depth < (array items).depth := by
  have hdepth : (array items).depth ≤ depthOfItems items + 1 :=
    Nat.le_of_eq (by rw [depth])
  rw [depth]
  exact Nat.lt_succ_of_le (depth_array_le_iff.mp hdepth item h)

theorem depth_lt_of_mem_object {fields : List (String × Json)} {field : String × Json}
    (h : field ∈ fields) : field.2.depth < (object fields).depth := by
  have hdepth : (object fields).depth ≤ depthOfFields fields + 1 :=
    Nat.le_of_eq (by rw [depth])
  rw [depth]
  exact Nat.lt_succ_of_le (depth_object_le_iff.mp hdepth field h)

theorem sizeOfItems_append (first second : List Json) :
    sizeOfItems (first ++ second) = sizeOfItems first + sizeOfItems second := by
  induction first with
  | nil => rw [List.nil_append, sizeOfItems, Nat.zero_add]
  | cons item rest ih => rw [List.cons_append, sizeOfItems, sizeOfItems, ih, Nat.add_assoc]

theorem sizeOfItems_reverse (items : List Json) :
    sizeOfItems items.reverse = sizeOfItems items := by
  induction items with
  | nil => rfl
  | cons item rest ih =>
    rw [List.reverse_cons, sizeOfItems_append, ih, sizeOfItems, sizeOfItems, sizeOfItems,
      Nat.add_zero, Nat.add_comm]

theorem size_le_sizeOfItems {items : List Json} {item : Json} (h : item ∈ items) :
    item.size ≤ sizeOfItems items := by
  obtain ⟨before, after, rfl⟩ := List.append_of_mem h
  rw [sizeOfItems_append, sizeOfItems]
  omega

theorem size_object (fields : List (String × Json)) :
    (object fields).size = sizeOfItems (fields.map Prod.snd) + 1 := by
  rw [size]
  congr 1
  induction fields with
  | nil => rfl
  | cons field rest ih => rw [sizeOfFields, ih, List.map_cons, sizeOfItems]

theorem size_pos (json : Json) : 0 < json.size := by
  cases json <;> simp [size]

end Json

/-! ## Moves -/

namespace Reader

/-- What one token can do to a reader. -/
inductive Moves (limit : Nat) : Reader → Reader → Prop where
  | scalar {containers : List OpenContainer} {json : Json} (depth_eq : json.depth = 0)
    (size_eq : json.size = 1) : Moves limit (.value containers) (.complete json containers)
  | openArray {containers : List OpenContainer} :
    Moves limit (.value containers) (.firstItem containers)
  | openObject {containers : List OpenContainer} :
    Moves limit (.value containers) (.firstField containers)
  | noItems {containers : List OpenContainer} :
    Moves limit (.firstItem containers) (close limit (.array []) containers)
  | firstItem {containers : List OpenContainer} {after : Reader}
    (move : Moves limit (.value (.array [] :: containers)) after) :
    Moves limit (.firstItem containers) after
  | noFields {containers : List OpenContainer} :
    Moves limit (.firstField containers) (close limit (.object []) containers)
  | firstName {containers : List OpenContainer} {name : Option String} :
    Moves limit (.firstField containers) (.colon name [] containers)
  | nextName {containers : List OpenContainer} {name : Option String}
    {fields : List (Option String × Json)} :
    Moves limit (.field fields containers) (.colon name fields containers)
  | fieldValue {containers : List OpenContainer} {name : Option String}
    {fields : List (Option String × Json)} :
    Moves limit (.colon name fields containers) (.value (.object fields name :: containers))
  | nextItem {containers : List OpenContainer} {json : Json} {items : List Json} :
    Moves limit (.complete json (.array items :: containers))
      (.value (.array (json :: items) :: containers))
  | closeArray {containers : List OpenContainer} {json : Json} {items : List Json} :
    Moves limit (.complete json (.array items :: containers))
      (close limit (.array (json :: items).reverse) containers)
  | nextField {containers : List OpenContainer} {json : Json} {name : Option String}
    {fields : List (Option String × Json)} :
    Moves limit (.complete json (.object fields name :: containers))
      (.field ((name, json) :: fields) containers)
  | closeObject {containers : List OpenContainer} {json : Json} {name : Option String}
    {fields : List (Option String × Json)} :
    Moves limit (.complete json (.object fields name :: containers))
      (close limit (objectOf ((name, json) :: fields)) containers)

section moves

variable {limit : Nat} {containers : List OpenContainer} {token : Token} {reader after : Reader}

theorem moves_of_startValue (h : startValue containers token = some after) :
    Moves limit (.value containers) after := by
  cases token <;> simp only [startValue, Option.some.injEq, reduceCtorEq] at h <;> subst h
  case openArray => exact .openArray
  case openObject => exact .openObject
  all_goals exact .scalar rfl rfl

theorem exists_colon_of_startField {fields : List (Option String × Json)}
    (h : startField fields containers token = some after) :
    ∃ name, after = .colon name fields containers := by
  cases token <;> simp only [startField, Option.some.injEq, reduceCtorEq] at h <;> subst h
  all_goals exact ⟨_, rfl⟩

theorem moves_of_afterValue {json : Json}
    (h : afterValue limit json containers token = some after) :
    Moves limit (.complete json containers) after := by
  unfold afterValue at h
  split at h <;> cases h
  · exact .nextItem
  · exact .closeArray
  · exact .nextField
  · exact .closeObject

/-- A token does to a reader only what a move does. -/
theorem moves_of_step (h : step limit reader token = some after) : Moves limit reader after := by
  unfold step at h
  split at h
  · exact moves_of_startValue h
  · cases h
    exact .noItems
  · exact .firstItem (moves_of_startValue h)
  · cases h
    exact .noFields
  · obtain ⟨name, rfl⟩ := exists_colon_of_startField h
    exact .firstName
  · obtain ⟨name, rfl⟩ := exists_colon_of_startField h
    exact .nextName
  · cases h
    exact .fieldValue
  · exact moves_of_afterValue h
  · cases h

end moves

/-! ## Bounds -/

end Reader

/-- The values that an open container holds already. -/
def OpenContainer.held : OpenContainer → List Json
  | array items => items
  | object fields _ => fields.map Prod.snd

namespace Reader

/-- The object with the given fields has their values, unless a name is missing. -/
theorem objectOf_cases (fields : List (Option String × Json)) :
    objectOf fields = .broken ∨
      ∃ named, objectOf fields = .object named ∧
        named.map Prod.snd = (fields.map Prod.snd).reverse := by
  have hvalues : ∀ (fields : List (Option String × Json)) (named : List (String × Json)),
      (fields.mapM fun field => field.1.map fun name => (name, field.2)) = some named →
        named.map Prod.snd = fields.map Prod.snd := by
    intro fields named h
    rw [← List.forall₂_eq_eq_eq, List.forall₂_map_left_iff, List.forall₂_map_right_iff]
    refine (forall₂_of_mapM h).flip.imp ?_
    intro named field hfield
    obtain ⟨name, -, rfl⟩ := Option.map_eq_some_iff.mp hfield
    rfl
  unfold objectOf
  split
  · rename_i named hnamed
    exact Or.inr ⟨named, rfl, by rw [hvalues _ _ hnamed, List.map_reverse]⟩
  · exact Or.inl rfl

/-- Values inside a number of containers are nested no more deeply than is left of a limit. -/
def HeldWithin (limit count : Nat) (values : List Json) : Prop :=
  ∀ json ∈ values, json.depth ≤ limit - count

/-- Every open container holds values that are nested no more deeply than is left of a limit. -/
def ContainersWithin (limit : Nat) : List OpenContainer → Prop
  | [] => True
  | container :: rest =>
    HeldWithin limit (rest.length + 1) container.held ∧ ContainersWithin limit rest

/-- Everything that has been read is nested no more deeply than is left of a limit. -/
def Within (limit : Nat) : Reader → Prop
  | value containers => ContainersWithin limit containers
  | firstItem containers => ContainersWithin limit containers
  | firstField containers => ContainersWithin limit containers
  | field fields containers =>
    HeldWithin limit (containers.length + 1) (fields.map Prod.snd) ∧
      ContainersWithin limit containers
  | colon _ fields containers =>
    HeldWithin limit (containers.length + 1) (fields.map Prod.snd) ∧
      ContainersWithin limit containers
  | complete json containers =>
    HeldWithin limit containers.length [json] ∧ ContainersWithin limit containers

section bounds

variable {limit : Nat} {containers : List OpenContainer} {reader after : Reader}

theorem heldWithin_nil (limit count : Nat) : HeldWithin limit count [] :=
  fun _ h => absurd h List.not_mem_nil

theorem HeldWithin.cons {count : Nat} {json : Json} {values : List Json}
    (hjson : HeldWithin limit count [json]) (hvalues : HeldWithin limit count values) :
    HeldWithin limit count (json :: values) :=
  List.forall_mem_cons.mpr ⟨hjson json List.mem_cons_self, hvalues⟩

/-- A container is nested one more deeply than what it holds, and stands inside one container less.
-/
theorem within_close {json : Json} {values : List Json}
    (hjson : ∀ n, (∀ value ∈ values, value.depth ≤ n) → json.depth ≤ n + 1)
    (hvalues : HeldWithin limit (containers.length + 1) values)
    (hcontainers : ContainersWithin limit containers) :
    (close limit json containers).Within limit := by
  refine ⟨?_, hcontainers⟩
  intro found hfound
  rw [List.mem_singleton.mp hfound, isShorter_eq]
  by_cases hshort : containers.length < limit
  · have hdepth := hjson _ hvalues
    rw [if_pos (decide_eq_true hshort)]
    omega
  · rw [if_neg (by simpa using hshort)]
    exact Nat.zero_le _

theorem depth_objectOf_le {fields : List (Option String × Json)} {n : Nat}
    (h : ∀ value ∈ fields.map Prod.snd, value.depth ≤ n) : (objectOf fields).depth ≤ n + 1 := by
  rcases objectOf_cases fields with hbroken | ⟨named, hnamed, hvalues⟩
  · rw [hbroken]
    exact Nat.zero_le _
  · rw [hnamed, Json.depth_object_le_iff]
    intro field hfield
    have hmem := List.mem_map_of_mem (f := Prod.snd) hfield
    rw [hvalues, List.mem_reverse] at hmem
    exact h _ hmem

/-- A move keeps everything within the limit. -/
theorem Moves.within (move : Moves limit reader after) (h : reader.Within limit) :
    after.Within limit := by
  induction move with
  | scalar depth_eq size_eq =>
    refine ⟨?_, h⟩
    intro json hjson
    rw [List.mem_singleton.mp hjson, depth_eq]
    exact Nat.zero_le _
  | openArray => exact h
  | openObject => exact h
  | noItems =>
    exact within_close (fun n hn => Json.depth_array_le_iff.mpr hn) (heldWithin_nil _ _) h
  | firstItem move ih => exact ih ⟨heldWithin_nil _ _, h⟩
  | noFields =>
    refine within_close (fun n _ => ?_) (heldWithin_nil _ _) h
    exact Json.depth_object_le_iff.mpr fun _ hfield => absurd hfield List.not_mem_nil
  | firstName => exact ⟨heldWithin_nil _ _, h⟩
  | nextName => exact h
  | fieldValue => exact h
  | nextItem => exact ⟨h.1.cons h.2.1, h.2.2⟩
  | closeArray =>
    refine within_close (fun n hn => ?_) (h.1.cons h.2.1) h.2.2
    exact Json.depth_array_le_iff.mpr fun item hitem => hn item (List.mem_reverse.mp hitem)
  | nextField => exact ⟨h.1.cons h.2.1, h.2.2⟩
  | closeObject => exact within_close (fun n hn => depth_objectOf_le hn) (h.1.cons h.2.1) h.2.2

/-! ## Parts -/

/-- The number of parts of what the open containers hold, each container itself counted. -/
def partsOfContainers : List OpenContainer → Nat
  | [] => 0
  | container :: rest => Json.sizeOfItems container.held + 1 + partsOfContainers rest

/-- The number of parts of what has been read so far. -/
def parts : Reader → Nat
  | value containers => partsOfContainers containers
  | firstItem containers => partsOfContainers containers + 1
  | firstField containers => partsOfContainers containers + 1
  | field fields containers =>
    Json.sizeOfItems (fields.map Prod.snd) + 1 + partsOfContainers containers
  | colon _ fields containers =>
    Json.sizeOfItems (fields.map Prod.snd) + 1 + partsOfContainers containers
  | complete json containers => json.size + partsOfContainers containers

theorem parts_close_le {json : Json} {count : Nat} (h : json.size ≤ count + 1) :
    (close limit json containers).parts ≤ count + 1 + partsOfContainers containers := by
  have hpart : (if isShorter limit containers then json else .broken).size ≤ count + 1 := by
    split
    · exact h
    · exact Nat.le_add_left 1 count
  exact Nat.add_le_add_right hpart _

theorem size_objectOf_le (fields : List (Option String × Json)) :
    (objectOf fields).size ≤ Json.sizeOfItems (fields.map Prod.snd) + 1 := by
  rcases objectOf_cases fields with hbroken | ⟨named, hnamed, hvalues⟩
  · rw [hbroken]
    exact Nat.le_add_left 1 _
  · refine Nat.le_of_eq ?_
    rw [hnamed, Json.size_object, hvalues, Json.sizeOfItems_reverse]

/-- A move adds at most one part. -/
theorem Moves.parts_le (move : Moves limit reader after) : after.parts ≤ reader.parts + 1 := by
  induction move with
  | scalar depth_eq size_eq =>
    simp only [parts, size_eq]
    omega
  | openArray => exact Nat.le_refl _
  | openObject => exact Nat.le_refl _
  | @noItems containers =>
    have hclose := @parts_close_le limit containers (.array []) 0 (Nat.le_refl 1)
    simp only [parts] at hclose ⊢
    omega
  | firstItem move ih =>
    have hnothing : Json.sizeOfItems [] = 0 := rfl
    simp only [parts, partsOfContainers, OpenContainer.held, hnothing] at ih ⊢
    omega
  | @noFields containers =>
    have hclose := @parts_close_le limit containers (.object []) 0 (Nat.le_refl 1)
    simp only [parts] at hclose ⊢
    omega
  | firstName =>
    have hnothing : Json.sizeOfItems [] = 0 := rfl
    simp only [parts, List.map_nil, hnothing]
    omega
  | nextName => exact Nat.le_succ _
  | fieldValue =>
    simp only [parts, partsOfContainers, OpenContainer.held]
    omega
  | nextItem =>
    simp only [parts, partsOfContainers, OpenContainer.held, Json.sizeOfItems]
    omega
  | @closeArray containers json items =>
    have hsize : (Json.array (json :: items).reverse).size ≤
        Json.sizeOfItems (json :: items) + 1 := by
      refine Nat.le_of_eq ?_
      rw [Json.size, Json.sizeOfItems_reverse]
    have hclose := @parts_close_le limit containers _ _ hsize
    simp only [parts, partsOfContainers, OpenContainer.held, Json.sizeOfItems] at hclose ⊢
    omega
  | nextField =>
    simp only [parts, partsOfContainers, OpenContainer.held, List.map_cons, Json.sizeOfItems]
    omega
  | @closeObject containers json name fields =>
    have hclose := @parts_close_le limit containers _ _
      (size_objectOf_le ((name, json) :: fields))
    simp only [parts, partsOfContainers, OpenContainer.held, List.map_cons, Json.sizeOfItems]
      at hclose ⊢
    omega

/-! ## Runs -/

/-- What every move keeps holds of everything that is read. -/
theorem within_of_foldlM {tokens : List Token} (h : reader.Within limit)
    (hrun : tokens.foldlM (step limit) reader = some after) :
    after.Within limit ∧ after.parts ≤ reader.parts + tokens.length := by
  induction tokens generalizing reader with
  | nil =>
    cases hrun
    exact ⟨h, Nat.le_refl _⟩
  | cons token tokens ih =>
    rw [List.foldlM_cons, Option.bind_eq_bind, Option.bind_eq_some_iff] at hrun
    obtain ⟨next, hnext, hrun⟩ := hrun
    have hmove := moves_of_step hnext
    have hparts := hmove.parts_le
    obtain ⟨hwithin, hcount⟩ := ih (hmove.within h) hrun
    rw [List.length_cons]
    exact ⟨hwithin, by omega⟩

end bounds

end Reader

namespace Json

/-- What tokens are read as is nested no more deeply than the limit, and has no more parts than
there are tokens. -/
theorem bounds_of_ofTokens? {limit : Nat} {tokens : List Token} {json : Json}
    (h : ofTokens? limit tokens = some json) : json.depth ≤ limit ∧ json.size ≤ tokens.length := by
  obtain ⟨reader, hrun, hresult⟩ := Option.bind_eq_some_iff.mp h
  have hstart : (Reader.value []).Within limit := trivial
  obtain ⟨hwithin, hparts⟩ := Reader.within_of_foldlM hstart hrun
  unfold Reader.result? at hresult
  split at hresult
  · cases hresult
    have hempty : Reader.partsOfContainers [] = 0 := rfl
    simp only [Reader.parts, hempty] at hparts
    exact ⟨hwithin.1 json List.mem_cons_self, by omega⟩
  · cases hresult

/-- A text has at least as many characters as tokens. -/
theorem length_le_of_scan {cs : List Char} {tokens : List Token} (h : Token.scan cs = some tokens) :
    tokens.length ≤ cs.length := by
  fun_induction Token.scan cs generalizing tokens with
  | case1 =>
    cases h
    exact Nat.le_refl _
  | case2 c cs hspace ih => exact Nat.le_succ_of_le (ih h)
  | case3 => cases h
  | case4 c cs hspace token rest htoken ih =>
    obtain ⟨more, hmore, rfl⟩ := Option.map_eq_some_iff.mp h
    have hshorter := Token.length_lt_of_scanToken htoken
    have hlength := ih hmore
    simp only [List.length_cons] at hshorter ⊢
    omega

/-- What a text is read as is nested no more deeply than the limit, and has no more parts than the
text has characters. -/
theorem bounds_of_parseWithin? {limit : Nat} {text : String} {json : Json}
    (h : parseWithin? limit text = some json) :
    json.depth ≤ limit ∧ json.size ≤ text.toList.length := by
  obtain ⟨tokens, hscan, htokens⟩ := Option.bind_eq_some_iff.mp h
  obtain ⟨hdepth, hsize⟩ := bounds_of_ofTokens? htokens
  exact ⟨hdepth, Nat.le_trans hsize (length_le_of_scan hscan)⟩

/-! ## Reading back -/

/-- Tokens complete a value in the containers that are open. -/
def Completes (limit : Nat) (containers : List OpenContainer) (tokens : List Token) (json : Json) :
    Prop :=
  ∀ rest : List Token, (tokens ++ rest).foldlM (Reader.step limit) (.value containers) =
    rest.foldlM (Reader.step limit) (.complete json containers)

section back

variable {limit : Nat} {containers : List OpenContainer}

/-- The value of a container that is closed while fewer than the limit are open around it. -/
theorem close_of_lt {json : Json} (h : containers.length < limit) :
    Reader.close limit json containers = .complete json containers := by
  rw [Reader.close, Reader.isShorter_eq, if_pos (decide_eq_true h)]

/-- The tokens of a value do not start with the end of an array. -/
theorem exists_tokens_eq (json : Json) :
    ∃ first rest, json.tokens = first :: rest ∧ first ≠ .closeArray := by
  cases json <;> rw [tokens] <;> exact ⟨_, _, rfl, by simp⟩

/-- The first item of an array is read like any other. -/
theorem foldlM_firstItem {first : Token} (h : first ≠ .closeArray) (rest : List Token) :
    (first :: rest).foldlM (Reader.step limit) (.firstItem containers) =
      (first :: rest).foldlM (Reader.step limit) (.value (.array [] :: containers)) := by
  rw [List.foldlM_cons, List.foldlM_cons]
  congr 1
  cases first <;> first | rfl | exact absurd rfl h

/-- Items with commas between them complete an array, behind the items that it has already. -/
theorem foldlM_items (hlimit : containers.length < limit) (item : Json) (more done : List Json)
    (h : ∀ other ∈ item :: more, ∀ held,
      Completes limit (.array held :: containers) other.tokens other) (rest : List Token) :
    (List.intercalate [.comma] ((item :: more).map tokens) ++ .closeArray :: rest).foldlM
        (Reader.step limit) (.value (.array done :: containers)) =
      rest.foldlM (Reader.step limit)
        (.complete (.array (done.reverse ++ item :: more)) containers) := by
  induction more generalizing item done with
  | nil =>
    rw [List.map_cons, List.map_nil, List.intercalate_singleton,
      h item List.mem_cons_self done, List.foldlM_cons]
    change (rest.foldlM _ (Reader.close limit (.array (item :: done).reverse) containers)) = _
    rw [close_of_lt hlimit, List.reverse_cons]
  | cons second more ih =>
    have hsecond : ∀ other ∈ second :: more, ∀ held,
        Completes limit (.array held :: containers) other.tokens other :=
      fun other hother => h other (List.mem_cons_of_mem item hother)
    rw [List.map_cons, List.map_cons, List.intercalate_cons_cons, List.append_assoc,
      List.append_assoc, h item List.mem_cons_self done, List.singleton_append, List.foldlM_cons]
    change List.foldlM (Reader.step limit) (.value (.array (item :: done) :: containers)) _ = _
    rw [← List.map_cons, ih second (item :: done) hsecond, List.reverse_cons, List.append_assoc,
      List.singleton_append]

/-- The array of items is completed by their tokens. -/
theorem completes_array {items : List Json} (hlimit : containers.length < limit)
    (h : ∀ item ∈ items, ∀ held, Completes limit (.array held :: containers) item.tokens item) :
    Completes limit containers (array items).tokens (array items) := by
  intro rest
  rw [tokens, itemTokens_eq_map, List.cons_append, List.append_assoc, List.singleton_append,
    List.foldlM_cons]
  change List.foldlM (Reader.step limit) (.firstItem containers) _ = _
  cases items with
  | nil =>
    change List.foldlM (Reader.step limit) (Reader.close limit (.array []) containers) rest = _
    rw [close_of_lt hlimit]
  | cons item more =>
    obtain ⟨first, others, hfirst, hne⟩ := exists_tokens_eq item
    obtain ⟨inner, hinner⟩ : ∃ inner,
        List.intercalate [.comma] ((item :: more).map tokens) = first :: inner := by
      cases more with
      | nil =>
        refine ⟨others, ?_⟩
        rw [List.map_cons, List.map_nil, List.intercalate_singleton, hfirst]
      | cons second more =>
        refine ⟨others ++ [.comma] ++ List.intercalate [.comma] ((second :: more).map tokens), ?_⟩
        rw [List.map_cons, List.map_cons, List.intercalate_cons_cons, hfirst]
        rfl
    have hitems := foldlM_items hlimit item more [] h rest
    rw [hinner, List.cons_append] at hitems ⊢
    rw [foldlM_firstItem hne, hitems]
    rfl

/-- Fields that all have a name, as the reader holds them. -/
def named (fields : List (String × Json)) : List (Option String × Json) :=
  fields.map fun field => (some field.1, field.2)

theorem objectOf_named (fields : List (String × Json)) :
    Reader.objectOf (named fields) = .object fields.reverse := by
  have hall : ((named fields.reverse).mapM fun field => field.1.map fun name => (name, field.2)) =
      some fields.reverse :=
    mapM_map_eq_some fun _ _ => rfl
  rw [Reader.objectOf, named, ← List.map_reverse, ← named, hall]

/-- A field is read where a name may stand. -/
theorem foldlM_field {reader : Reader} {held : List (Option String × Json)}
    (hname : ∀ name, Reader.step limit reader (.string name) =
      some (.colon (some name) held containers)) {field : String × Json}
    (h : Completes limit (.object held (some field.1) :: containers) field.2.tokens field.2)
    (rest : List Token) :
    (fieldToken field ++ rest).foldlM (Reader.step limit) reader =
      rest.foldlM (Reader.step limit)
        (.complete field.2 (.object held (some field.1) :: containers)) := by
  rw [fieldToken, List.cons_append, List.cons_append, List.foldlM_cons, hname]
  exact h rest

/-- Fields with commas between them complete an object, behind the fields that it has already. -/
theorem foldlM_fields (hlimit : containers.length < limit) (field : String × Json)
    (more done : List (String × Json))
    (h : ∀ other ∈ field :: more, ∀ held name,
      Completes limit (.object held name :: containers) other.2.tokens other.2)
    {reader : Reader} (hname : ∀ name, Reader.step limit reader (.string name) =
      some (.colon (some name) (named done) containers)) (rest : List Token) :
    (List.intercalate [.comma] ((field :: more).map fieldToken) ++ .closeObject :: rest).foldlM
        (Reader.step limit) reader =
      rest.foldlM (Reader.step limit)
        (.complete (.object (done.reverse ++ field :: more)) containers) := by
  induction more generalizing field done reader with
  | nil =>
    rw [List.map_cons, List.map_nil, List.intercalate_singleton,
      foldlM_field hname (h field List.mem_cons_self _ _), List.foldlM_cons]
    change List.foldlM _ (Reader.close limit (Reader.objectOf (named (field :: done))) containers)
      rest = _
    rw [close_of_lt hlimit, objectOf_named, List.reverse_cons]
  | cons second more ih =>
    have hsecond : ∀ other ∈ second :: more, ∀ held name,
        Completes limit (.object held name :: containers) other.2.tokens other.2 :=
      fun other hother => h other (List.mem_cons_of_mem field hother)
    rw [List.map_cons, List.map_cons, List.intercalate_cons_cons, List.append_assoc,
      List.append_assoc, foldlM_field hname (h field List.mem_cons_self _ _),
      List.singleton_append, List.foldlM_cons]
    change List.foldlM (Reader.step limit) (.field (named (field :: done)) containers) _ = _
    rw [← List.map_cons, ih second (field :: done) hsecond fun _ => rfl, List.reverse_cons,
      List.append_assoc, List.singleton_append]

/-- The object of fields is completed by their tokens. -/
theorem completes_object {fields : List (String × Json)} (hlimit : containers.length < limit)
    (h : ∀ field ∈ fields, ∀ held name,
      Completes limit (.object held name :: containers) field.2.tokens field.2) :
    Completes limit containers (object fields).tokens (object fields) := by
  intro rest
  rw [tokens, fieldTokens_eq_map, List.cons_append, List.append_assoc, List.singleton_append,
    List.foldlM_cons]
  change List.foldlM (Reader.step limit) (.firstField containers) _ = _
  cases fields with
  | nil =>
    change List.foldlM (Reader.step limit) (Reader.close limit (.object []) containers) rest = _
    rw [close_of_lt hlimit]
  | cons field more => exact foldlM_fields hlimit field more [] h (fun _ => rfl) rest

/-- The tokens of a value complete it, as long as it is not nested too deeply for the containers
that are open. -/
theorem completes_tokens {json : Json} (h : json.IsPlain)
    (hdepth : json.depth + containers.length ≤ limit) :
    Completes limit containers json.tokens json := by
  induction h generalizing containers with
  | null => exact fun rest => rfl
  | bool value => exact fun rest => rfl
  | natural value => exact fun rest => rfl
  | string value => exact fun rest => rfl
  | @array items _ ih =>
    have hpos : 0 < (array items).depth := by
      rw [depth]
      exact Nat.succ_pos _
    refine completes_array (by omega) fun item hitem held => ih item hitem ?_
    have hitemDepth := depth_lt_of_mem_array hitem
    rw [List.length_cons]
    omega
  | @object fields _ ih =>
    have hpos : 0 < (object fields).depth := by
      rw [depth]
      exact Nat.succ_pos _
    refine completes_object (by omega) fun field hfield held name => ih field hfield ?_
    have hfieldDepth := depth_lt_of_mem_object hfield
    rw [List.length_cons]
    omega

end back

/-- A value is read back from its tokens. -/
theorem ofTokens?_tokens {limit : Nat} {json : Json} (h : json.IsPlain)
    (hdepth : json.depth ≤ limit) : ofTokens? limit json.tokens = some json := by
  have hread := @completes_tokens limit [] json h hdepth []
  rw [List.append_nil] at hread
  rw [ofTokens?, hread]
  rfl

/-! ## Texts -/

/-- A value is read back from its compact text. -/
theorem parseWithin?_compact {limit : Nat} {json : Json} (h : json.IsPlain)
    (hdepth : json.depth ≤ limit) : parseWithin? limit json.compact = some json := by
  rw [parseWithin?, compact, String.toList_ofList, scan_of_spells (spells_compactChars h),
    Option.bind_some, ofTokens?_tokens h hdepth]

/-- A value is read back from its pretty text. -/
theorem parseWithin?_pretty {limit : Nat} {json : Json} (h : json.IsPlain)
    (hdepth : json.depth ≤ limit) : parseWithin? limit json.pretty = some json := by
  rw [parseWithin?, pretty, String.toList_ofList, scan_of_spells (spells_prettyAt h 0),
    Option.bind_some, ofTokens?_tokens h hdepth]

end Json

end SourceEvolution
