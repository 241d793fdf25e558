import Mathlib.Data.List.Basic
import SourceEvolution.Change.Evolution

/-!
# What a search for an evolution finds

A search draws random words, but the words only decide which of the possible changes is taken. This
module says what a search can find, without words.

* **Orders** (`shuffle_perm`): a random order of a list is an order of that list.
* **Passes over bindings** (`Tally.foldlM_add`, `Initializers.find_eq`): a search for initializers
  looks at one binding after the other. `Initializers.signaturesFor` is what it arrives at.
* **Outcomes** (`outcome_eq_verdict`): whether a search finds a change, finds none, or fails, is
  decided by the site alone. `EvolutionKind.verdict` is that decision.
* **Findings** (`suits_of_find`): `Evolution.Suits` lists what is true of a change that has been
  found at a site. Everything that is proved about planned changes starts from it.
* **Chains** (`chain_of_suits`): a change that has been found stands alone, or is a reordering
  behind the initializers of the struct that it belongs to.
-/

namespace SourceEvolution

/-! ## Random orders -/

namespace WordSource

variable {G : Type} [WordSource G] {α : Type}

theorem exchange_perm (xs : Array α) (i j : Nat) : (exchange xs i j).toList.Perm xs.toList := by
  unfold exchange
  rw [Array.swapIfInBounds_def]
  split
  · split
    · exact (Array.swap_perm _ _).toList
    · exact List.Perm.refl _
  · exact List.Perm.refl _

theorem shuffleFrom_perm (count i : Nat) (xs : Array α) (batch : Batch) (g : G) :
    (shuffleFrom count i xs batch g).1.toList.Perm xs.toList := by
  induction count generalizing i xs batch g with
  | zero => exact List.Perm.refl _
  | succ count ih =>
    simp only [shuffleFrom]
    exact (ih _ _ _ _).trans (exchange_perm _ _ _)

/-- A random order of a list has the elements of the list, each as often. -/
theorem shuffle_perm (xs : List α) (g : G) : (shuffle xs g).1.Perm xs := by
  unfold shuffle
  split
  · exact List.Perm.refl _
  · simpa using shuffleFrom_perm xs.length 0 xs.toArray ⟨0, 1⟩ g

end WordSource

/-! ## Passes over bindings -/

namespace Initializers

/-- The signatures of the implicit initializers for the bindings. -/
def signaturesFor (bindings : List Node) : List Signature :=
  (if bindings.all fun binding => binding.initialValue?.isSome then [[]] else []) ++
    (if !bindings.isEmpty && bindings.all fun binding => binding.declaredType?.isSome then
      [bindings.filterMap parameter?]
    else [])

/-- What is known once all of the bindings have been looked at too. -/
def Tally.addAll (tally : Tally) (bindings : List Node) : Tally where
  allValued := tally.allValued && bindings.all fun binding => binding.initialValue?.isSome
  full? :=
    if bindings.all fun binding => binding.declaredType?.isSome then
      tally.full?.map (· ++ bindings.filterMap parameter?)
    else none

/-- A binding that an initializer can be written for has a parameter exactly if its type is written
down. -/
theorem isSome_parameter? {binding : Node} (h : isDetermined binding = true) :
    (parameter? binding).isSome = binding.declaredType?.isSome := by
  rw [isDetermined, Bool.and_eq_true] at h
  obtain ⟨name, hname⟩ := Option.isSome_iff_exists.mp h.1
  cases htype : binding.declaredType? <;> simp [parameter?, hname, htype]

theorem Tally.add_of_isDetermined {binding : Node} (h : isDetermined binding = true)
    (tally : Tally) : tally.add binding = .ok (tally.addAll [binding]) := by
  have hparameter := isSome_parameter? h
  rw [add, if_pos h]
  cases htype : binding.declaredType? with
  | none =>
    have hnone : parameter? binding = none := by
      rwa [htype, Option.isSome_none, Option.isSome_eq_false_iff, Option.isNone_iff_eq_none]
        at hparameter
    cases tally.full? <;> simp [addAll, htype, hnone]
  | some type =>
    rw [htype, Option.isSome_some] at hparameter
    obtain ⟨parameter, hparameter⟩ := Option.isSome_iff_exists.mp hparameter
    cases hfull : tally.full? <;> simp [addAll, htype, hparameter, hfull]

/-- A parameter list that has been lost stays lost, and so does the first initializer. -/
theorem Tally.addAll_cons (tally : Tally) (binding : Node) (rest : List Node) :
    tally.addAll (binding :: rest) = (tally.addAll [binding]).addAll rest := by
  cases htype : binding.declaredType? with
  | none =>
    simp [addAll, htype, Bool.and_assoc]
  | some type =>
    cases hfull : tally.full? <;> cases hparameter : parameter? binding <;>
      simp [addAll, htype, hfull, hparameter, Bool.and_assoc]

/-- A pass over bindings looks at all of them, or fails at one that no initializer can be written
for. -/
theorem Tally.foldlM_add (bindings : List Node) (tally : Tally) :
    bindings.foldlM add tally =
      if bindings.all isDetermined then .ok (tally.addAll bindings) else .error .unsupported := by
  induction bindings generalizing tally with
  | nil =>
    cases tally with
    | mk allValued full? => cases full? <;> simp [addAll] <;> rfl
  | cons binding rest ih =>
    rw [List.foldlM_cons, List.all_cons]
    by_cases hdetermined : isDetermined binding = true
    · rw [add_of_isDetermined hdetermined, hdetermined, Bool.true_and,
        addAll_cons tally binding rest]
      exact ih _
    · have hnot : ¬ (isDetermined binding && rest.all isDetermined) = true := by
        simp [hdetermined]
      rw [add, if_neg hdetermined, if_neg hnot]
      rfl

/-- A whole pass finds the signatures for the bindings. The parameters that it has gathered are for
all bindings, so there are none exactly if there are no bindings. -/
theorem Tally.signatures_addAll_start {bindings : List Node}
    (h : bindings.all isDetermined = true) :
    (start.addAll bindings).signatures = signaturesFor bindings := by
  by_cases htyped : (bindings.all fun binding => binding.declaredType?.isSome) = true
  · have hparameters : (bindings.filterMap parameter?).isEmpty = bindings.isEmpty := by
      cases bindings with
      | nil => rfl
      | cons binding rest =>
        rw [List.all_cons, Bool.and_eq_true] at h htyped
        obtain ⟨parameter, hparameter⟩ :=
          Option.isSome_iff_exists.mp ((isSome_parameter? h.1).trans htyped.1)
        simp [hparameter]
    cases bindings with
    | nil => rfl
    | cons binding rest =>
      rw [List.isEmpty_cons] at hparameters
      simp only [signatures, addAll, start, signaturesFor, htyped, hparameters, if_true,
        Option.map_some, List.nil_append, Bool.true_and, List.isEmpty_cons, Bool.not_false,
        Bool.and_false, if_false, Bool.false_eq_true]
  · simp [signatures, addAll, start, signaturesFor, htyped]

/-- What a search for initializers finds, without the pass. -/
theorem find_eq (site : Site) :
    find site =
      if site.node.kind = .memberBlock ∧ site.scope.hasImplicitInitializers then
        if (assigned site.node).all isDetermined then
          match signaturesFor (assigned site.node) with
          | [] => .ok none
          | signatures => .ok (some ⟨signatures⟩)
        else .error .unsupported
      else .error .unsupported := by
  rw [find, Tally.foldlM_add]
  by_cases hall : (assigned site.node).all isDetermined = true
  · rw [if_pos hall, if_pos hall, ← Tally.signatures_addAll_start hall]
    rfl
  · rw [if_neg hall, if_neg hall]
    rfl

end Initializers

/-! ## Searches, word for word -/

section searches

variable {G : Type} [WordSource G] (site : Site) (words : G)

/-- The indices of the members of a site that may be moved. -/
def MemberOrder.movable : List Nat :=
  indicesWhere (isMovable site.scope) site.node.children

/-- The indices of the members of a site that may not be moved. -/
def MemberOrder.pinned : List Nat :=
  indicesWhere (fun member => !isMovable site.scope member) site.node.children

theorem MemberOrder.find_run :
    MemberOrder.find site words =
      if site.node.kind = .memberBlock then
        match isHeldBack site with
        | .error error => .error error words
        | .ok true => .ok none words
        | .ok false =>
          if (movable site).length < minimumMovable then .ok none words
          else
            .ok (some ⟨(WordSource.shuffle (movable site) words).1 ++ pinned site⟩)
              (WordSource.shuffle (movable site) words).2
      else .error .unsupported words := by
  unfold MemberOrder.find
  split
  · split
    · rename_i h
      rw [h]
      rfl
    · rename_i h
      rw [h]
      rfl
    · rename_i h
      rw [h]
      by_cases hfew : (movable site).length < minimumMovable
      · simp only [if_pos hfew]
        exact congrFun (if_pos hfew) words
      · simp only [if_neg hfew]
        exact congrFun (if_neg hfew) words
  · rfl

theorem DefaultArgument.find_run :
    DefaultArgument.find site words =
      if applies site then
        match eligible site.scope 0 site.node.parameters with
        | .error cause => .error (.unresolved cause) words
        | .ok [] => .error .unsupported words
        | .ok (choice :: choices) =>
          .ok (choice :: choices)[(WordSource.below (choices.length + 1) words).1]?
            (WordSource.below (choices.length + 1) words).2
      else .error .unsupported words := by
  unfold DefaultArgument.find
  split
  · split <;> rename_i h <;> rw [h] <;> rfl
  · rfl

end searches

/-! ## Outcomes -/

namespace EvolutionKind

variable {G : Type} [WordSource G]

/-- How a search comes out: with a change, without one, or with an error. -/
def outcome (site : Site) (words : G) (kind : EvolutionKind) : Except EvolutionError Bool :=
  match kind.find site words with
  | .ok found _ => .ok found.isSome
  | .error error _ => .error error

/-- Whether a search finds a change. -/
def isFound (site : Site) (words : G) (kind : EvolutionKind) : Bool :=
  match kind.outcome site words with
  | .ok found => found
  | .error _ => false

/-- How a search comes out, as the site alone decides it. -/
def verdict (site : Site) : EvolutionKind → Except EvolutionError Bool
  | .shuffleMembers =>
    if site.node.kind = .memberBlock then
      match MemberOrder.isHeldBack site with
      | .error error => .error error
      | .ok true => .ok false
      | .ok false => .ok (decide (MemberOrder.minimumMovable ≤ (MemberOrder.movable site).length))
    else .error .unsupported
  | .synthesizeInitializers =>
    match Initializers.find site with
    | .ok found => .ok found.isSome
    | .error error => .error error
  | .changeDefaultArgument =>
    if DefaultArgument.applies site then
      match DefaultArgument.eligible site.scope 0 site.node.parameters with
      | .error cause => .error (.unresolved cause)
      | .ok [] => .error .unsupported
      | .ok (_ :: _) => .ok true
    else .error .unsupported

theorem find_shuffleMembers (site : Site) (words : G) :
    EvolutionKind.find site .shuffleMembers words =
      match MemberOrder.find site words with
      | .ok found rest => .ok (found.map .shuffleMembers) rest
      | .error error rest => .error error rest := by
  change EStateM.map _ _ _ = _
  unfold EStateM.map
  split <;> rename_i h <;> rw [h]

theorem find_changeDefaultArgument (site : Site) (words : G) :
    EvolutionKind.find site .changeDefaultArgument words =
      match DefaultArgument.find site words with
      | .ok found rest => .ok (found.map .changeDefaultArgument) rest
      | .error error rest => .error error rest := by
  change EStateM.map _ _ _ = _
  unfold EStateM.map
  split <;> rename_i h <;> rw [h]

/-- The random words do not decide how a search comes out. -/
theorem outcome_eq_verdict (site : Site) (words : G) (kind : EvolutionKind) :
    kind.outcome site words = kind.verdict site := by
  cases kind with
  | shuffleMembers =>
    simp only [outcome, verdict, find_shuffleMembers, MemberOrder.find_run]
    by_cases hkind : site.node.kind = .memberBlock
    · simp only [if_pos hkind]
      rcases MemberOrder.isHeldBack site with error | held
      · rfl
      · cases held with
        | true => rfl
        | false =>
          by_cases hfew : (MemberOrder.movable site).length < MemberOrder.minimumMovable
          · simp [if_pos hfew, Nat.not_le.mpr hfew]
          · simp [if_neg hfew, Nat.not_lt.mp hfew]
    · simp only [if_neg hkind]
  | synthesizeInitializers =>
    simp only [outcome, verdict, find]
    rcases Initializers.find site with error | found
    · rfl
    · cases found <;> rfl
  | changeDefaultArgument =>
    simp only [outcome, verdict, find_changeDefaultArgument, DefaultArgument.find_run]
    by_cases happlies : DefaultArgument.applies site = true
    · simp only [if_pos happlies]
      rcases DefaultArgument.eligible site.scope 0 site.node.parameters with cause | choices
      · rfl
      · cases choices with
        | nil => rfl
        | cons choice choices =>
          have hlt := WordSource.below_lt (Nat.succ_pos choices.length) words
          simpa using hlt
    · simp only [if_neg happlies]

/-- Two streams of words agree on whether a search finds a change. -/
theorem isFound_congr {H : Type} [WordSource H] (site : Site) (words : G) (others : H)
    (kind : EvolutionKind) : kind.isFound site words = kind.isFound site others := by
  simp only [isFound, outcome_eq_verdict]

end EvolutionKind

/-! ## Findings -/

namespace Evolution

variable {G : Type} [WordSource G]

/-- What is true of a change that a search has found at a site. -/
def Suits (site : Site) : Evolution → Prop
  | shuffleMembers order =>
    site.node.kind = .memberBlock ∧ MemberOrder.isHeldBack site = .ok false ∧
      ∃ moved, moved.Perm (MemberOrder.movable site) ∧
        order.mapping = moved ++ MemberOrder.pinned site
  | synthesizeInitializers initializers => Initializers.find site = .ok (some initializers)
  | changeDefaultArgument change =>
    DefaultArgument.applies site = true ∧
      ∃ choices, DefaultArgument.eligible site.scope 0 site.node.parameters = .ok choices ∧
        change ∈ choices

/-- A search finds changes that suit the site, and of its own kind. -/
theorem suits_of_find {site : Site} {kind : EvolutionKind} {words rest : G} {evolution : Evolution}
    (h : kind.find site words = .ok (some evolution) rest) :
    evolution.Suits site ∧ evolution.kind = kind := by
  cases kind with
  | shuffleMembers =>
    rw [EvolutionKind.find_shuffleMembers, MemberOrder.find_run] at h
    by_cases hkind : site.node.kind = .memberBlock
    · simp only [if_pos hkind] at h
      rcases hheld : MemberOrder.isHeldBack site with error | held
      · simp [hheld] at h
      · cases held with
        | true => simp [hheld] at h
        | false =>
          by_cases hfew : (MemberOrder.movable site).length < MemberOrder.minimumMovable
          · simp [hheld, if_pos hfew] at h
          · simp only [hheld, if_neg hfew, Option.map_some] at h
            cases h
            exact ⟨⟨hkind, hheld, _, WordSource.shuffle_perm _ _, rfl⟩, rfl⟩
    · simp [if_neg hkind] at h
  | synthesizeInitializers =>
    simp only [EvolutionKind.find] at h
    rcases hfind : Initializers.find site with error | found
    · rw [hfind] at h
      cases h
    · rw [hfind] at h
      cases found with
      | none => cases h
      | some initializers =>
        cases h
        exact ⟨hfind, rfl⟩
  | changeDefaultArgument =>
    rw [EvolutionKind.find_changeDefaultArgument, DefaultArgument.find_run] at h
    by_cases happlies : DefaultArgument.applies site = true
    · simp only [if_pos happlies] at h
      rcases heligible : DefaultArgument.eligible site.scope 0 site.node.parameters
        with cause | choices
      · simp [heligible] at h
      · cases choices with
        | nil => simp [heligible] at h
        | cons choice choices =>
          simp only [heligible] at h
          rcases hchosen : (choice :: choices)[(WordSource.below (choices.length + 1) words).1]?
            with _ | change
          · rw [hchosen] at h
            cases h
          · rw [hchosen] at h
            cases h
            exact ⟨⟨happlies, _, heligible, List.mem_of_getElem? hchosen⟩, rfl⟩
    · simp [if_neg happlies] at h

/-! ## Chains -/

theorem chain_eq (site : Site) (evolution : Evolution) :
    evolution.chain site = (evolution.prerequisites site).flatMap (chain site) ++ [evolution] := by
  rw [chain]
  congr 1
  rw [← List.flatMap_map, List.attach_map_subtype_val]

theorem chain_of_prerequisites_eq_nil {site : Site} {evolution : Evolution}
    (h : evolution.prerequisites site = []) : evolution.chain site = [evolution] := by
  rw [chain_eq, h]
  rfl

theorem chain_synthesizeInitializers (site : Site) (initializers : Initializers) :
    (synthesizeInitializers initializers).chain site = [synthesizeInitializers initializers] :=
  chain_of_prerequisites_eq_nil rfl

theorem chain_changeDefaultArgument (site : Site) (change : DefaultArgument) :
    (changeDefaultArgument change).chain site = [changeDefaultArgument change] :=
  chain_of_prerequisites_eq_nil rfl

/-- Where nothing relies on implicit initializers, a reordering stands alone. -/
theorem chain_shuffleMembers {site : Site} (h : site.scope.hasImplicitInitializers = false)
    (order : MemberOrder) : (shuffleMembers order).chain site = [shuffleMembers order] :=
  chain_of_prerequisites_eq_nil (by simp [prerequisites, h])

/-- In a struct that relies on implicit initializers, these come before a reordering. -/
theorem chain_shuffleMembers_of_find {site : Site} (h : site.scope.hasImplicitInitializers = true)
    {initializers : Initializers} (hfind : Initializers.find site = .ok (some initializers))
    (order : MemberOrder) :
    (shuffleMembers order).chain site =
      [synthesizeInitializers initializers, shuffleMembers order] := by
  have hneeded : (shuffleMembers order).prerequisites site =
      [synthesizeInitializers initializers] := by
    simp only [prerequisites, if_pos h, hfind]
  rw [chain_eq, hneeded, List.flatMap_singleton, chain_synthesizeInitializers]
  rfl

/-- A reordering is found in a struct that relies on implicit initializers only where these are
found too. -/
theorem exists_initializers_of_isHeldBack {site : Site}
    (h : site.scope.hasImplicitInitializers = true)
    (hheld : MemberOrder.isHeldBack site = .ok false) :
    ∃ initializers, Initializers.find site = .ok (some initializers) := by
  rw [MemberOrder.isHeldBack, if_pos h] at hheld
  split at hheld
  · rename_i found hfind
    cases found with
    | none => cases hheld
    | some initializers => exact ⟨initializers, hfind⟩
  · cases hheld
  · cases hheld

/-- A change that has been found stands alone, or is a reordering behind the initializers of the
struct that relies on them. -/
theorem chain_of_suits {site : Site} {evolution : Evolution} (h : evolution.Suits site) :
    (evolution.chain site = [evolution] ∧
      (evolution.kind = .shuffleMembers → site.scope.hasImplicitInitializers = false)) ∨
    ∃ initializers order, evolution = shuffleMembers order ∧
      site.scope.hasImplicitInitializers = true ∧
      Initializers.find site = .ok (some initializers) ∧
      evolution.chain site = [synthesizeInitializers initializers, shuffleMembers order] := by
  cases evolution with
  | shuffleMembers order =>
    rcases himplicit : site.scope.hasImplicitInitializers with _ | _
    · exact Or.inl ⟨chain_shuffleMembers himplicit order, fun _ => rfl⟩
    · obtain ⟨initializers, hfind⟩ := exists_initializers_of_isHeldBack himplicit h.2.1
      exact Or.inr ⟨initializers, order, rfl, rfl, hfind,
        chain_shuffleMembers_of_find himplicit hfind order⟩
  | synthesizeInitializers initializers =>
    exact Or.inl ⟨chain_synthesizeInitializers site initializers, fun h => by cases h⟩
  | changeDefaultArgument change =>
    exact Or.inl ⟨chain_changeDefaultArgument site change, fun h => by cases h⟩

end Evolution

end SourceEvolution
