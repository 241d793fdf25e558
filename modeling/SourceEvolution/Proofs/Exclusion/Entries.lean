import Mathlib.Data.List.Forall2
import Mathlib.Data.List.Induction
import Mathlib.Data.List.Pairwise
import Mathlib.Data.List.Perm.Basic
import SourceEvolution.Exclusion.Basic

/-!
# Documents of exclusions, entry by entry

The entries of a document are checked one after the other, and the first one that is wrong is
reported. If none is wrong, the exclusions say for every kind what its entry says. An entry without
names excludes its kind everywhere, and so does one with an empty list of names; a kind without an
entry is not excluded at all.

* **Sets of names** (`NameSet.ofList_congr`): equal sets for lists with the same names.
* **Entries** (`ExclusionEntry.AreValid`, `ExclusionEntry.IsWrong`): what is asked of the entries,
  and what can be wrong with one of them. Either all is well, or there is a first wrong entry
  (`ExclusionEntry.areValid_or_exists_isWrong`).
* **Reading** (`Exclusions.listed`, `Exclusions.addEntry_of_isFor`,
  `Exclusions.addEntry_of_isWrong`): what one more entry adds, and so what all of them amount to
  (`Exclusions.ofEntries_eq_ok_iff`, `Exclusions.ofEntries_eq_error_iff`).
* **Meaning** (`Exclusions.permits_listed_iff`, `Exclusions.listed_eq_of_rearranges`,
  `Exclusions.ofEntries_exact`).
-/

namespace SourceEvolution

/-! ## Sets of names -/

namespace NameSet

theorem mem_insert {name other : String} {names : NameSet} :
    other ∈ insert name names ↔ other = name ∨ other ∈ names := by
  induction names with
  | nil => simp [insert]
  | cons first rest ih =>
    unfold insert
    split_ifs with hlt heq
    · simp
    · simp [heq]
    · simp [ih, or_left_comm]

theorem mem_ofList {name : String} {names : List String} : name ∈ ofList names ↔ name ∈ names := by
  induction names with
  | nil => simp [ofList]
  | cons first rest ih =>
    show name ∈ insert first (ofList rest) ↔ _
    rw [mem_insert, ih, List.mem_cons]

/-- One more name leaves the names in increasing order. -/
theorem pairwise_insert {names : NameSet} (name : String) (h : names.Pairwise (· < ·)) :
    (insert name names).Pairwise (· < ·) := by
  induction names with
  | nil => simp [insert]
  | cons first rest ih =>
    obtain ⟨hfirst, hrest⟩ := List.pairwise_cons.mp h
    unfold insert
    split_ifs with hlt heq
    · apply List.Pairwise.cons _ h
      intro other hother
      rcases List.mem_cons.mp hother with rfl | hother
      · exact hlt
      · exact String.lt_trans hlt (hfirst other hother)
    · exact h
    · apply List.Pairwise.cons _ (ih hrest)
      intro other hother
      rcases mem_insert.mp hother with rfl | hother
      · by_contra hnot
        exact heq (String.le_antisymm (String.not_lt.mp hnot) (String.not_lt.mp hlt))
      · exact hfirst other hother

theorem pairwise_ofList (names : List String) : (ofList names).Pairwise (· < ·) := by
  induction names with
  | nil => exact List.Pairwise.nil
  | cons first rest ih => exact pairwise_insert first ih

theorem nodup_ofList (names : List String) : (ofList names).Nodup := by
  apply (pairwise_ofList names).imp
  intro name other hlt heq
  exact String.lt_irrefl name (heq ▸ hlt)

/-- The set of the names of a list depends only on which names these are. -/
theorem ofList_congr {names others : List String} (h : ∀ name, name ∈ names ↔ name ∈ others) :
    ofList names = ofList others := by
  have hperm : (ofList names).Perm (ofList others) := by
    rw [List.perm_ext_iff_of_nodup (nodup_ofList names) (nodup_ofList others)]
    intro name
    rw [mem_ofList, mem_ofList, h]
  apply hperm.eq_of_pairwise _ (pairwise_ofList names) (pairwise_ofList others)
  intro name other _ _ hlt hgt
  exact absurd hgt (String.lt_asymm hlt)

end NameSet

/-! ## Entries -/

namespace ExclusionEntry

/-- An entry is for a kind: it carries its name. -/
def IsFor (entry : ExclusionEntry) (kind : EvolutionKind) : Prop :=
  entry.1 = kind.name

/-- Two entries are for one kind. -/
def Repeats (entry other : ExclusionEntry) : Prop :=
  ∃ kind, entry.IsFor kind ∧ other.IsFor kind

/-- What is asked of the entries of a document. -/
structure AreValid (entries : List ExclusionEntry) : Prop where
  /-- Every entry is for a kind. -/
  known : ∀ entry ∈ entries, ∃ kind, entry.IsFor kind
  /-- No kind occurs twice. -/
  once : entries.Pairwise fun entry later => ¬ entry.Repeats later

/-- What can be wrong with an entry that stands behind others. -/
inductive IsWrong (earlier : List ExclusionEntry) (entry : ExclusionEntry) : ExclusionError → Prop
  /-- The entry is for no kind at all. -/
  | unknown (unknown : ∀ kind, ¬ entry.IsFor kind) : IsWrong earlier entry (.unknownKind entry.1)
  /-- Its kind has an entry already. -/
  | repeated {kind : EvolutionKind} (isFor : entry.IsFor kind)
      (again : ∃ other ∈ earlier, other.IsFor kind) : IsWrong earlier entry (.duplicateKind kind)

variable {entry other : ExclusionEntry} {entries earlier : List ExclusionEntry}
  {kind : EvolutionKind}

theorem isFor_iff_ofName? : entry.IsFor kind ↔ EvolutionKind.ofName? entry.1 = some kind := by
  constructor
  · intro h
    rw [h, EvolutionKind.ofName?_name]
  · intro h
    unfold EvolutionKind.ofName? at h
    have hname := List.find?_some h
    exact (beq_iff_eq.mp hname).symm

/-- An entry is for one kind only. -/
theorem IsFor.unique {another : EvolutionKind} (h : entry.IsFor kind) (h' : entry.IsFor another) :
    kind = another := by
  rw [isFor_iff_ofName?] at h h'
  exact Option.some.inj (h.symm.trans h')

theorem Repeats.symm (h : entry.Repeats other) : other.Repeats entry := by
  obtain ⟨kind, hentry, hother⟩ := h
  exact ⟨kind, hother, hentry⟩

instance : Std.Symm fun entry later : ExclusionEntry => ¬ entry.Repeats later where
  symm _ _ h hrepeats := h hrepeats.symm

/-- Of valid entries only one is for a kind. -/
theorem AreValid.unique (h : AreValid entries) (hentry : entry ∈ entries) (hother : other ∈ entries)
    (hfor : entry.IsFor kind) (hfor' : other.IsFor kind) : entry = other := by
  by_contra hne
  exact h.once.forall hentry hother hne ⟨kind, hfor, hfor'⟩

theorem areValid_nil : AreValid [] :=
  ⟨fun _ hentry => absurd hentry List.not_mem_nil, List.Pairwise.nil⟩

/-- Entries are valid if all but the last are and the last is for a kind that has none among
them. -/
theorem areValid_concat_iff :
    AreValid (earlier ++ [entry]) ↔
      AreValid earlier ∧ ∃ kind, entry.IsFor kind ∧ ∀ other ∈ earlier, ¬ other.IsFor kind := by
  constructor
  · intro h
    obtain ⟨honce, -, hlast⟩ := List.pairwise_append.mp h.once
    obtain ⟨kind, hfor⟩ := h.known entry (List.mem_append_right _ List.mem_cons_self)
    refine ⟨⟨?_, honce⟩, kind, hfor, ?_⟩
    · intro other hother
      exact h.known other (List.mem_append_left _ hother)
    · intro other hother hagain
      exact hlast other hother entry List.mem_cons_self ⟨kind, hagain, hfor⟩
  · rintro ⟨hvalid, kind, hfor, hnew⟩
    refine ⟨?_, List.pairwise_append.mpr ⟨hvalid.once, List.pairwise_singleton _ _, ?_⟩⟩
    · intro other hother
      rcases List.mem_append.mp hother with hother | hother
      · exact hvalid.known other hother
      · exact ⟨kind, List.mem_singleton.mp hother ▸ hfor⟩
    · rintro other hother last hlast ⟨among, hamong, hagain⟩
      obtain rfl := List.mem_singleton.mp hlast
      obtain rfl := hfor.unique hagain
      exact hnew other hother hamong

/-- An entry behind others is for a new kind, or something is wrong with it. -/
theorem isFor_or_isWrong (earlier : List ExclusionEntry) (entry : ExclusionEntry) :
    (∃ kind, entry.IsFor kind ∧ ∀ other ∈ earlier, ¬ other.IsFor kind) ∨
      ∃ error, IsWrong earlier entry error := by
  by_cases hknown : ∃ kind, entry.IsFor kind
  · obtain ⟨kind, hfor⟩ := hknown
    by_cases hagain : ∃ other ∈ earlier, other.IsFor kind
    · exact .inr ⟨_, .repeated hfor hagain⟩
    · push Not at hagain
      exact .inl ⟨kind, hfor, hagain⟩
  · push Not at hknown
    exact .inr ⟨_, .unknown hknown⟩

/-- Entries are valid, or there is a first one that something is wrong with. -/
theorem areValid_or_exists_isWrong (entries : List ExclusionEntry) :
    AreValid entries ∨ ∃ earlier entry later error, entries = earlier ++ entry :: later ∧
      AreValid earlier ∧ IsWrong earlier entry error := by
  induction entries using List.reverseRecOn with
  | nil => exact .inl areValid_nil
  | append_singleton entries entry ih =>
    rcases ih with hvalid | ⟨earlier, first, later, error, rfl, hvalid, hwrong⟩
    · rcases isFor_or_isWrong entries entry with ⟨kind, hfor, hnew⟩ | ⟨error, hwrong⟩
      · exact .inl (areValid_concat_iff.mpr ⟨hvalid, kind, hfor, hnew⟩)
      · exact .inr ⟨entries, entry, [], error, rfl, hvalid, hwrong⟩
    · exact .inr ⟨earlier, first, later ++ [entry], error, by simp, hvalid, hwrong⟩

end ExclusionEntry

open ExclusionEntry

/-! ## Reading -/

namespace Exclusions

variable {entry : ExclusionEntry} {entries earlier : List ExclusionEntry} {kind : EvolutionKind}
  {error : ExclusionError}

/-- What entries amount to: for every kind, that which its first entry says. -/
def listed (entries : List ExclusionEntry) : Exclusions where
  entry? kind :=
    (entries.find? fun entry => entry.1 == kind.name).map fun entry =>
      exclusionOf (entry.2.getD [])

/-- A kind without an entry has none among the exclusions either. -/
theorem entry?_listed_eq_none_iff :
    entry? (listed entries) kind = none ↔ ∀ entry ∈ entries, ¬ entry.IsFor kind := by
  simp [listed, IsFor]

/-- One more entry for a new kind is added to what is listed. -/
theorem listed_concat (hfor : entry.IsFor kind) (hnew : ∀ other ∈ earlier, ¬ other.IsFor kind) :
    listed (earlier ++ [entry]) = (listed earlier).set kind (exclusionOf (entry.2.getD [])) := by
  unfold listed set
  congr 1
  funext other
  rw [List.find?_append]
  by_cases hother : other = kind
  · subst hother
    have hnone : (earlier.find? fun entry => entry.1 == other.name) = none := by
      simpa [IsFor] using hnew
    simp [hnone, show entry.1 = other.name from hfor]
  · have hne : entry.1 ≠ other.name := fun h => hother (IsFor.unique h hfor)
    simp [hother, hne]

/-- An entry for a new kind is added. -/
theorem addEntry_of_isFor (hfor : entry.IsFor kind)
    (hnew : ∀ other ∈ earlier, ¬ other.IsFor kind) :
    (listed earlier).addEntry entry = .ok (listed (earlier ++ [entry])) := by
  unfold addEntry
  rw [isFor_iff_ofName?.mp hfor, listed_concat hfor hnew]
  simp [entry?_listed_eq_none_iff.mpr hnew]

/-- A wrong entry is reported. -/
theorem addEntry_of_isWrong (h : IsWrong earlier entry error) :
    (listed earlier).addEntry entry = .error error := by
  unfold addEntry
  cases h with
  | unknown hunknown =>
    have hnone : EvolutionKind.ofName? entry.1 = none := by
      rw [Option.eq_none_iff_forall_ne_some]
      intro kind hkind
      exact hunknown kind (isFor_iff_ofName?.mpr hkind)
    rw [hnone]
  | repeated hfor hagain =>
    rename_i kind
    have hsome : entry? (listed earlier) kind ≠ none := by
      rw [Ne, entry?_listed_eq_none_iff]
      push Not
      exact hagain
    rw [isFor_iff_ofName?.mp hfor]
    simp [Option.isSome_iff_ne_none, hsome]

/-- Valid entries are read to their end. -/
theorem ofEntries_of_areValid (h : AreValid entries) :
    ofEntries entries = .ok (listed entries) := by
  induction entries using List.reverseRecOn with
  | nil => rfl
  | append_singleton entries entry ih =>
    obtain ⟨hvalid, kind, hfor, hnew⟩ := areValid_concat_iff.mp h
    unfold ofEntries at ih ⊢
    rw [List.foldlM_append, ih hvalid]
    show (entry :: []).foldlM addEntry (listed entries) = _
    rw [List.foldlM_cons, addEntry_of_isFor hfor hnew]
    rfl

/-- A wrong entry behind valid ones is reported, whatever comes behind it. -/
theorem ofEntries_of_isWrong (hvalid : AreValid earlier) (h : IsWrong earlier entry error)
    (later : List ExclusionEntry) : ofEntries (earlier ++ entry :: later) = .error error := by
  have hearlier := ofEntries_of_areValid hvalid
  unfold ofEntries at hearlier ⊢
  rw [List.foldlM_append, hearlier]
  show (entry :: later).foldlM addEntry (listed earlier) = _
  rw [List.foldlM_cons, addEntry_of_isWrong h]
  rfl

/-- Entries can be read exactly if they are valid. -/
theorem ofEntries_eq_ok_iff {exclusions : Exclusions} :
    ofEntries entries = .ok exclusions ↔ AreValid entries ∧ exclusions = listed entries := by
  constructor
  · intro h
    rcases areValid_or_exists_isWrong entries with
      hvalid | ⟨earlier, entry, later, error, rfl, hvalid, hwrong⟩
    · rw [ofEntries_of_areValid hvalid] at h
      cases h
      exact ⟨hvalid, rfl⟩
    · rw [ofEntries_of_isWrong hvalid hwrong] at h
      cases h
  · rintro ⟨hvalid, rfl⟩
    exact ofEntries_of_areValid hvalid

/-- The error that is reported is that of the first wrong entry. -/
theorem ofEntries_eq_error_iff :
    ofEntries entries = .error error ↔
      ∃ earlier entry later, entries = earlier ++ entry :: later ∧ AreValid earlier ∧
        IsWrong earlier entry error := by
  constructor
  · intro h
    rcases areValid_or_exists_isWrong entries with
      hvalid | ⟨earlier, entry, later, first, rfl, hvalid, hwrong⟩
    · rw [ofEntries_of_areValid hvalid] at h
      cases h
    · rw [ofEntries_of_isWrong hvalid hwrong] at h
      cases h
      exact ⟨earlier, entry, later, rfl, hvalid, hwrong⟩
  · rintro ⟨earlier, entry, later, rfl, hvalid, hwrong⟩
    exact ofEntries_of_isWrong hvalid hwrong later

end Exclusions

/-! ## Meaning -/

namespace ExclusionEntry

/-- Two entries are for the same name, and list the same names, in whatever order and however often.
-/
def SameNames (entry other : ExclusionEntry) : Prop :=
  entry.1 = other.1 ∧ ∀ name, name ∈ entry.2.getD [] ↔ name ∈ other.2.getD []

/-- Entries are put into another order, and so are the names of each of them, which may also be
repeated. -/
def Rearranges (entries others : List ExclusionEntry) : Prop :=
  ∃ between, entries.Perm between ∧ List.Forall₂ SameNames between others

/-- What an entry says: the name of a kind and what is excluded for it. -/
def content (entry : ExclusionEntry) : String × Exclusion :=
  (entry.1, Exclusions.exclusionOf (entry.2.getD []))

variable {entry other : ExclusionEntry} {entries others : List ExclusionEntry}

/-- Which names a list has decides what is excluded. -/
theorem exclusionOf_congr {names others : List String}
    (h : ∀ name, name ∈ names ↔ name ∈ others) :
    Exclusions.exclusionOf names = Exclusions.exclusionOf others := by
  have hempty : names.isEmpty = others.isEmpty := by
    rw [Bool.eq_iff_iff, List.isEmpty_iff, List.isEmpty_iff, List.eq_nil_iff_forall_not_mem,
      List.eq_nil_iff_forall_not_mem]
    simp only [h]
  unfold Exclusions.exclusionOf
  rw [hempty, NameSet.ofList_congr h]

theorem SameNames.content_eq (h : entry.SameNames other) : entry.content = other.content := by
  obtain ⟨hkey, hnames⟩ := h
  unfold content
  rw [hkey, exclusionOf_congr hnames]

/-- Entries that are rearranged have the same contents. -/
theorem Rearranges.perm_content (h : Rearranges entries others) :
    (entries.map content).Perm (others.map content) := by
  obtain ⟨between, hperm, hsame⟩ := h
  have hcontent : between.map content = others.map content := by
    rw [← List.forall₂_eq_eq_eq, List.forall₂_map_left_iff, List.forall₂_map_right_iff]
    exact hsame.imp fun _ _ h => h.content_eq
  rw [← hcontent]
  exact hperm.map content

/-- Whether entries are valid can be read off their contents. -/
theorem areValid_iff_content :
    AreValid entries ↔
      (∀ said ∈ entries.map content, ∃ kind : EvolutionKind, said.1 = kind.name) ∧
        (entries.map content).Pairwise fun said later =>
          ¬ ∃ kind : EvolutionKind, said.1 = kind.name ∧ later.1 = kind.name := by
  rw [List.forall_mem_map, List.pairwise_map]
  exact ⟨fun h => ⟨h.known, h.once⟩, fun h => ⟨h.1, h.2⟩⟩

/-- Valid entries stay so when they are rearranged. -/
theorem AreValid.of_rearranges (hvalid : AreValid entries) (h : Rearranges entries others) :
    AreValid others := by
  rw [areValid_iff_content] at hvalid ⊢
  obtain ⟨hknown, honce⟩ := hvalid
  constructor
  · intro said hsaid
    exact hknown said (h.perm_content.mem_iff.mpr hsaid)
  · apply (h.perm_content.pairwise_iff _).mp honce
    rintro said later hnot ⟨kind, hlater, hsaid⟩
    exact hnot ⟨kind, hsaid, hlater⟩

end ExclusionEntry

namespace Exclusions

variable {exclusions : Exclusions} {entries others : List ExclusionEntry} {kind : EvolutionKind}
  {name : String}

/-- A kind that is excluded for the names of a list is allowed for the others, if there are any
names. -/
theorem permits_of_exclusionOf {names : List String}
    (h : exclusions.entry? kind = some (exclusionOf names)) :
    exclusions.permits kind name = true ↔ names ≠ [] ∧ name ∉ names := by
  unfold permits
  rw [h]
  cases names with
  | nil => simp [exclusionOf]
  | cons first rest =>
    show (!(NameSet.ofList (first :: rest)).contains name) = true ↔ _
    rw [Bool.not_eq_true', ← Bool.not_eq_true, List.contains_iff_mem, NameSet.mem_ofList]
    simp

/-- The entry of a kind decides what is excluded for the kind. -/
theorem entry?_listed_of_mem (h : AreValid entries) {entry : ExclusionEntry}
    (hentry : entry ∈ entries) (hfor : entry.IsFor kind) :
    entry? (listed entries) kind = some (exclusionOf (entry.2.getD [])) := by
  rcases hfind : entries.find? fun entry => entry.1 == kind.name with _ | found
  · rw [List.find?_eq_none] at hfind
    exact absurd (beq_iff_eq.mpr hfor) (hfind entry hentry)
  · have hfound := List.find?_some hfind
    obtain rfl := h.unique hentry (List.mem_of_find?_eq_some hfind) hfor (beq_iff_eq.mp hfound)
    simp [listed, hfind]

/-- What is excluded for a kind is the content of an entry. -/
theorem entry?_listed_eq_some_iff (h : AreValid entries) {exclusion : Exclusion} :
    entry? (listed entries) kind = some exclusion ↔
      (kind.name, exclusion) ∈ entries.map content := by
  rw [List.mem_map]
  constructor
  · intro hsome
    obtain ⟨entry, hfind, rfl⟩ := Option.map_eq_some_iff.mp hsome
    have hfor := List.find?_some hfind
    exact ⟨entry, List.mem_of_find?_eq_some hfind, Prod.ext (beq_iff_eq.mp hfor) rfl⟩
  · rintro ⟨entry, hentry, hcontent⟩
    obtain ⟨hfor, rfl⟩ := Prod.mk.inj hcontent
    exact entry?_listed_of_mem h hentry hfor

/-- A kind is allowed for a name if it has no entry, or one with names that this is not among. -/
theorem permits_listed_iff (h : AreValid entries) :
    (listed entries).permits kind name = true ↔
      (∀ entry ∈ entries, ¬ entry.IsFor kind) ∨
        ∃ entry ∈ entries, entry.IsFor kind ∧
          ∃ names, entry.2 = some names ∧ names ≠ [] ∧ name ∉ names := by
  by_cases hnone : ∀ entry ∈ entries, ¬ entry.IsFor kind
  · have hallowed : (listed entries).permits kind name = true := by
      unfold permits
      rw [entry?_listed_eq_none_iff.mpr hnone]
    exact ⟨fun _ => .inl hnone, fun _ => hallowed⟩
  · push Not at hnone
    obtain ⟨entry, hentry, hfor⟩ := hnone
    rw [permits_of_exclusionOf (entry?_listed_of_mem h hentry hfor)]
    constructor
    · rintro ⟨hne, hname⟩
      rcases hnames : entry.2 with _ | names
      · rw [hnames] at hne
        exact absurd rfl hne
      · rw [hnames] at hne hname
        exact .inr ⟨entry, hentry, hfor, names, hnames, hne, hname⟩
    · rintro (hnone | ⟨other, hother, hfor', names, hnames, hne, hname⟩)
      · exact absurd hfor (hnone entry hentry)
      · obtain rfl := h.unique hentry hother hfor hfor'
        rw [hnames]
        exact ⟨hne, hname⟩

/-- What valid entries amount to does not depend on how they are arranged. -/
theorem listed_eq_of_rearranges (hvalid : AreValid entries) (h : Rearranges entries others) :
    listed others = listed entries := by
  have hentry : entry? (listed others) = entry? (listed entries) := by
    funext kind
    apply Option.ext
    intro exclusion
    rw [entry?_listed_eq_some_iff hvalid, entry?_listed_eq_some_iff (hvalid.of_rearranges h),
      h.perm_content.mem_iff]
  exact congrArg Exclusions.mk hentry

/-- What becomes of the entries of a document. They give exclusions exactly if each is for a kind
and no kind occurs twice; otherwise the error is that of the first entry that is for no kind, or for
one that occurred before. Where there are exclusions, a kind is allowed for a name if it has no
entry, or if its entry has a list of names that is not empty and does not contain the name; and the
exclusions are the same ones for the entries in any other order, with their names in any other order
and repeated as often as one likes. -/
theorem ofEntries_exact (entries : List ExclusionEntry) :
    ((∃ exclusions, ofEntries entries = .ok exclusions) ↔ AreValid entries) ∧
    (∀ error, ofEntries entries = .error error ↔
      ∃ earlier entry later, entries = earlier ++ entry :: later ∧ AreValid earlier ∧
        IsWrong earlier entry error) ∧
    ∀ exclusions, ofEntries entries = .ok exclusions →
      (∀ kind name, exclusions.permits kind name = true ↔
        (∀ entry ∈ entries, ¬ entry.IsFor kind) ∨
          ∃ entry ∈ entries, entry.IsFor kind ∧
            ∃ names, entry.2 = some names ∧ names ≠ [] ∧ name ∉ names) ∧
      ∀ others, Rearranges entries others → ofEntries others = .ok exclusions := by
  refine ⟨?_, fun error => ofEntries_eq_error_iff, ?_⟩
  · simp only [ofEntries_eq_ok_iff, exists_and_left, exists_eq, and_true]
  · intro exclusions hok
    obtain ⟨hvalid, rfl⟩ := ofEntries_eq_ok_iff.mp hok
    refine ⟨fun kind name => permits_listed_iff hvalid, ?_⟩
    intro others hothers
    rw [← listed_eq_of_rearranges hvalid hothers]
    exact ofEntries_of_areValid (hvalid.of_rearranges hothers)

end Exclusions

end SourceEvolution
