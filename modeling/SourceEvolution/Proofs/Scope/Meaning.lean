import SourceEvolution.Proofs.Tree.Places
import SourceEvolution.Scope.Resolution
import SourceEvolution.Tree.Sample

/-!
# The meaning of a type

Resolution counts the aliases that it follows and gives up at a bound. This module says what a type
means without a bound, and that resolution finds exactly the meanings for which the bound suffices.

* **Meaning** (`Scope.Finds`, `Scope.Denotes`): which declaration a type leads to, and what it
  stands for, as a pair of inductive relations. An alias stands for what its target denotes in the
  scope around the alias. The height of a derivation is how deep its aliases are nested; the aliases
  on the way to the base of a member type and those behind the member are not added up.
* **Uniqueness** (`Denotes.unique`): a type has at most one meaning, at one height.
* **Soundness and completeness** (`resolveWithin_sound`, `resolveWithin_of_denotes`): following at
  most `n` nested aliases finds the meanings of height at most `n`.
* **Failure** (`Scope.Meets`, `resolveWithin_error`): where resolution fails, it has come to an
  alias below exactly as many others as the bound allows. A type without meaning is one from which
  resolution goes on below any number of aliases.
* **Resolution** (`resolve_characterized`): all of this for `Scope.resolve`.
-/

namespace SourceEvolution

/-- Whether a type is one that is looked up: a plain name, or a member of another type. -/
def Node.isLookedUp : Node → Bool
  | ⟨.type .simple, some _, _, _⟩ => true
  | ⟨.type .member, some _, _, _ :: _⟩ => true
  | _ => false

namespace Scope

/-! ## Meaning -/

mutual

/-- Looking a type up in a scope leads to a declaration or to nothing, below aliases that are nested
so deep. -/
inductive Finds : Scope → Node → Option Scope → Nat → Prop where
  /-- A plain name is looked up outward. -/
  | name (scope : Scope) (name : String) (position : Option Position) (arguments : List Node) :
      Finds scope ⟨.type .simple, some name, position, arguments⟩ (scope.lookup? name) 0
  /-- A member is looked up in the declaration that its base denotes. -/
  | member {scope found : Scope} {base : Node} {height : Nat} (name : String)
      (position : Option Position) (arguments : List Node)
      (known : Denotes scope base (.declaration found) height) :
      Finds scope ⟨.type .member, some name, position, base :: arguments⟩
        (found.lookupDirect? name) height
  /-- A member of what is no declaration is not found. -/
  | stray {scope inner : Scope} {base type : Node} {height : Nat} (name : String)
      (position : Option Position) (arguments : List Node)
      (unknown : Denotes scope base (.unresolved type inner) height) :
      Finds scope ⟨.type .member, some name, position, base :: arguments⟩ none height
  /-- No other type is looked up. -/
  | other {scope : Scope} {type : Node} (notLookedUp : type.isLookedUp = false) :
      Finds scope type none 0

/-- What a type stands for in a scope, by a derivation in which aliases are nested so deep. -/
inductive Denotes : Scope → Node → Resolved → Nat → Prop where
  /-- A type that is not found stands for itself. -/
  | missing {scope : Scope} {type : Node} {height : Nat}
      (lookup : Finds scope type none height) : Denotes scope type (.unresolved type scope) height
  /-- A type stands for the declaration that it leads to. -/
  | declared {scope found : Scope} {type : Node} {height : Nat}
      (lookup : Finds scope type (some found) height) (notAlias : found.aliasTarget? = none) :
      Denotes scope type (.declaration found) height
  /-- An alias stands for what its target denotes in the scope around the alias. -/
  | followed {scope found : Scope} {type target : Node} {result : Resolved} {height below : Nat}
      (lookup : Finds scope type (some found) height) (isAlias : found.aliasTarget? = some target)
      (meaning : Denotes found.pop target result below) :
      Denotes scope type result (max height (below + 1))

end

/-! ## Uniqueness -/

mutual

/-- Looking a type up leads to one declaration, at one height. -/
theorem Finds.unique : ∀ {scope : Scope} {type : Node} {found : Option Scope} {height : Nat},
    Finds scope type found height → ∀ other otherHeight,
    Finds scope type other otherHeight → found = other ∧ height = otherHeight
  | _, _, _, _, .name _ _ _ _, _, _, hother => by
    cases hother with
    | name => exact ⟨rfl, rfl⟩
    | other h => cases h
  | _, _, _, _, .member _ _ _ known, _, _, hother => by
    have ih := known.unique
    cases hother with
    | member _ _ _ known' =>
      obtain ⟨hfound, rfl⟩ := ih _ _ known'
      cases hfound
      exact ⟨rfl, rfl⟩
    | stray _ _ _ unknown => cases (ih _ _ unknown).1
    | other h => cases h
  | _, _, _, _, .stray _ _ _ unknown, _, _, hother => by
    have ih := unknown.unique
    cases hother with
    | member _ _ _ known => cases (ih _ _ known).1
    | stray _ _ _ unknown' => exact ⟨rfl, (ih _ _ unknown').2⟩
    | other h => cases h
  | _, _, _, _, .other h, _, _, hother => by
    cases hother with
    | name => cases h
    | member => cases h
    | stray => cases h
    | other => exact ⟨rfl, rfl⟩

/-- A type has at most one meaning, at one height. -/
theorem Denotes.unique : ∀ {scope : Scope} {type : Node} {result : Resolved} {height : Nat},
    Denotes scope type result height → ∀ other otherHeight,
    Denotes scope type other otherHeight → result = other ∧ height = otherHeight
  | _, _, _, _, .missing lookup, _, _, hother => by
    have ih := lookup.unique
    cases hother with
    | missing lookup' => exact ⟨rfl, (ih _ _ lookup').2⟩
    | declared lookup' => cases (ih _ _ lookup').1
    | followed lookup' => cases (ih _ _ lookup').1
  | _, _, _, _, .declared lookup notAlias, _, _, hother => by
    have ih := lookup.unique
    cases hother with
    | missing lookup' => cases (ih _ _ lookup').1
    | declared lookup' =>
      obtain ⟨hfound, rfl⟩ := ih _ _ lookup'
      cases hfound
      exact ⟨rfl, rfl⟩
    | followed lookup' isAlias =>
      cases (ih _ _ lookup').1
      cases notAlias.symm.trans isAlias
  | _, _, _, _, .followed lookup isAlias meaning, _, _, hother => by
    have ih := lookup.unique
    have ihMeaning := meaning.unique
    cases hother with
    | missing lookup' => cases (ih _ _ lookup').1
    | declared lookup' notAlias =>
      cases (ih _ _ lookup').1
      cases notAlias.symm.trans isAlias
    | followed lookup' isAlias' meaning' =>
      obtain ⟨hfound, rfl⟩ := ih _ _ lookup'
      cases hfound
      cases isAlias.symm.trans isAlias'
      obtain ⟨rfl, rfl⟩ := ihMeaning _ _ meaning'
      exact ⟨rfl, rfl⟩

end

/-! ## Independence of the bound -/

/-- The same declarations with another bound. -/
def withBound (scope : Scope) (bound : Nat) : Scope :=
  { scope with aliasBound := bound }

end Scope

namespace Resolved

/-- The same meaning with another bound. -/
def withBound (bound : Nat) : Resolved → Resolved
  | declaration scope => declaration (scope.withBound bound)
  | unresolved type scope => unresolved type (scope.withBound bound)

end Resolved

namespace Scope

theorem lookup?_withBound (scope : Scope) (bound : Nat) (name : String) :
    (scope.withBound bound).lookup? name = (scope.lookup? name).map fun found =>
      found.withBound bound := by
  simp only [lookup?, withBound, Option.map_map]
  rfl

theorem lookupDirect?_eq (scope : Scope) (name : String) :
    scope.lookupDirect? name =
      (scope.innermost?.bind fun decl => (decl.lookup name).head?).map scope.push := by
  unfold lookupDirect?
  rcases scope.innermost? with _ | decl
  · rfl
  · rcases h : (decl.lookup name).head? with _ | found <;> simp [h]

theorem lookupDirect?_withBound (scope : Scope) (bound : Nat) (name : String) :
    (scope.withBound bound).lookupDirect? name = (scope.lookupDirect? name).map fun found =>
      found.withBound bound := by
  rw [lookupDirect?_eq, lookupDirect?_eq, Option.map_map]
  rfl

mutual

/-- The bound has no part in what looking a type up leads to. -/
theorem Finds.withBound (bound : Nat) :
    ∀ {scope : Scope} {type : Node} {found : Option Scope} {height : Nat},
    Finds scope type found height →
      Finds (scope.withBound bound) type (found.map fun found => found.withBound bound) height
  | _, _, _, _, .name scope name position arguments => by
    rw [← lookup?_withBound]
    exact .name _ name position arguments
  | _, _, _, _, .member name position arguments known => by
    rw [← lookupDirect?_withBound]
    exact .member name position arguments (known.withBound bound)
  | _, _, _, _, .stray name position arguments unknown =>
    .stray name position arguments (unknown.withBound bound)
  | _, _, _, _, .other notLookedUp => .other notLookedUp

/-- The bound has no part in what a type stands for. -/
theorem Denotes.withBound (bound : Nat) :
    ∀ {scope : Scope} {type : Node} {result : Resolved} {height : Nat},
    Denotes scope type result height →
      Denotes (scope.withBound bound) type (result.withBound bound) height
  | _, _, _, _, .missing lookup => .missing (lookup.withBound bound)
  | _, _, _, _, .declared lookup notAlias => .declared (lookup.withBound bound) notAlias
  | _, _, _, _, .followed lookup isAlias meaning =>
    .followed (lookup.withBound bound) isAlias (meaning.withBound bound)

end

/-- What looking a type up leads to has the bound of the scope that it was looked up in. -/
theorem Finds.aliasBound_eq {scope found : Scope} {type : Node} {height : Nat}
    (h : Finds scope type (some found) height) : found.aliasBound = scope.aliasBound := by
  have hsame := (h.unique _ _ (h.withBound scope.aliasBound)).1
  rw [Option.map_some, Option.some.injEq] at hsame
  rw [hsame]
  rfl

/-! ## Soundness and completeness -/

/-- How an alias is followed to its target when so many may be nested. -/
def followWithin : Nat → Scope → Node → Except ResolveError Resolved
  | 0, found, _ => .error (.aliasDepthExceeded found.qualifiedName found.aliasBound)
  | remaining + 1, found, target => resolveWithin remaining found.pop target

theorem resolveWithin_eq (remaining : Nat) (scope : Scope) (type : Node) :
    resolveWithin remaining scope type = resolveBy (followWithin remaining) scope type := by
  cases remaining <;> rfl

/-- A type is a plain name, a member of another type, or not looked up. -/
theorem isLookedUp_cases (type : Node) :
    (∃ name position arguments, type = ⟨.type .simple, some name, position, arguments⟩) ∨
    (∃ name position base arguments,
      type = ⟨.type .member, some name, position, base :: arguments⟩) ∨
    type.isLookedUp = false := by
  unfold Node.isLookedUp
  split
  · exact Or.inl ⟨_, _, _, rfl⟩
  · exact Or.inr (Or.inl ⟨_, _, _, _, rfl⟩)
  · exact Or.inr (Or.inr rfl)

section steps

variable {follow : Scope → Node → Except ResolveError Resolved} {scope : Scope} {type : Node}

theorem resolveBy_name (name : String) (position : Option Position) (arguments : List Node) :
    resolveBy follow scope ⟨.type .simple, some name, position, arguments⟩ =
      settle follow scope ⟨.type .simple, some name, position, arguments⟩ (scope.lookup? name) :=
  rfl

theorem resolveBy_member (name : String) (position : Option Position) (base : Node)
    (arguments : List Node) :
    resolveBy follow scope ⟨.type .member, some name, position, base :: arguments⟩ =
      match resolveBy follow scope base with
      | .ok (.declaration found) =>
        settle follow scope ⟨.type .member, some name, position, base :: arguments⟩
          (found.lookupDirect? name)
      | .ok (.unresolved _ _) =>
        .ok (.unresolved ⟨.type .member, some name, position, base :: arguments⟩ scope)
      | .error error => .error error := by
  rw [resolveBy]
  rcases resolveBy follow scope base with error | result
  · rfl
  · cases result <;> rfl

theorem resolveBy_of_not_isLookedUp (h : type.isLookedUp = false) :
    resolveBy follow scope type = .ok (.unresolved type scope) := by
  unfold resolveBy
  split
  · cases h
  · cases h
  · rfl

theorem settle_of_isAlias {found : Scope} {target : Node}
    (h : found.aliasTarget? = some target) :
    settle follow scope type (some found) = follow found target := by
  simp only [settle, h]

theorem settle_of_notAlias {found : Scope} (h : found.aliasTarget? = none) :
    settle follow scope type (some found) = .ok (.declaration found) := by
  simp only [settle, h]

/-- What is settled after a lookup is what the type stands for, if every alias is followed to what
its target stands for. -/
theorem settle_sound {bound height : Nat} {found : Option Scope} {result : Resolved}
    (hfollow : ∀ found target result, follow found target = .ok result →
      ∃ below, below + 1 ≤ bound ∧ Denotes found.pop target result below)
    (lookup : Finds scope type found height) (hheight : height ≤ bound)
    (h : settle follow scope type found = .ok result) :
    ∃ height ≤ bound, Denotes scope type result height := by
  cases found with
  | none =>
    cases h
    exact ⟨height, hheight, .missing lookup⟩
  | some found =>
    rcases htarget : found.aliasTarget? with _ | target
    · rw [settle_of_notAlias htarget] at h
      cases h
      exact ⟨height, hheight, .declared lookup htarget⟩
    · rw [settle_of_isAlias htarget] at h
      obtain ⟨below, hbelow, meaning⟩ := hfollow found target result h
      exact ⟨_, Nat.max_le.mpr ⟨hheight, hbelow⟩, .followed lookup htarget meaning⟩

/-- A type is resolved to what it stands for, if every alias is followed to what its target stands
for. -/
theorem resolveBy_sound {bound : Nat}
    (hfollow : ∀ found target result, follow found target = .ok result →
      ∃ below, below + 1 ≤ bound ∧ Denotes found.pop target result below)
    {result : Resolved} (h : resolveBy follow scope type = .ok result) :
    ∃ height ≤ bound, Denotes scope type result height := by
  induction type using Node.inductionOn generalizing result with
  | step type ih =>
    rcases isLookedUp_cases type with
      ⟨name, position, arguments, rfl⟩ | ⟨name, position, base, arguments, rfl⟩ | hother
    · exact settle_sound hfollow (.name scope name position arguments) (Nat.zero_le _) h
    · rw [resolveBy_member] at h
      split at h
      · rename_i found hbase
        obtain ⟨height, hheight, known⟩ := ih base List.mem_cons_self hbase
        exact settle_sound hfollow (.member name position arguments known) hheight h
      · rename_i hbase
        obtain ⟨height, hheight, unknown⟩ := ih base List.mem_cons_self hbase
        cases h
        exact ⟨height, hheight, .missing (.stray name position arguments unknown)⟩
      · cases h
    · rw [resolveBy_of_not_isLookedUp hother] at h
      cases h
      exact ⟨0, Nat.zero_le _, .missing (.other hother)⟩

end steps

/-- What is found by following so many nested aliases is what the type stands for. -/
theorem resolveWithin_sound {remaining : Nat} {scope : Scope} {type : Node} {result : Resolved}
    (h : resolveWithin remaining scope type = .ok result) :
    ∃ height ≤ remaining, Denotes scope type result height := by
  induction remaining generalizing scope type result with
  | zero =>
    refine resolveBy_sound ?_ h
    intro found target result hfollow
    cases hfollow
  | succ remaining ih =>
    refine resolveBy_sound ?_ h
    intro found target result hfollow
    obtain ⟨below, hbelow, meaning⟩ := ih hfollow
    exact ⟨below, Nat.succ_le_succ hbelow, meaning⟩

mutual

/-- What looking a type up leads to is what resolution has to settle, once as many aliases may be
nested as are on the way. -/
theorem resolveWithin_of_finds :
    ∀ {scope : Scope} {type : Node} {found : Option Scope} {height : Nat},
    Finds scope type found height → ∀ remaining, height ≤ remaining →
      resolveWithin remaining scope type = settle (followWithin remaining) scope type found
  | _, _, _, _, .name scope name position arguments, remaining, _ => by
    rw [resolveWithin_eq, resolveBy_name]
  | _, _, _, _, .member name position arguments known, remaining, hle => by
    have hbase := resolveWithin_of_denotes known remaining hle
    rw [resolveWithin_eq] at hbase ⊢
    rw [resolveBy_member, hbase]
  | _, _, _, _, .stray name position arguments unknown, remaining, hle => by
    have hbase := resolveWithin_of_denotes unknown remaining hle
    rw [resolveWithin_eq] at hbase ⊢
    rw [resolveBy_member, hbase]
    rfl
  | _, _, _, _, .other notLookedUp, remaining, _ => by
    rw [resolveWithin_eq, resolveBy_of_not_isLookedUp notLookedUp]
    rfl

/-- What a type stands for is found, once as many aliases may be nested as in the derivation. -/
theorem resolveWithin_of_denotes :
    ∀ {scope : Scope} {type : Node} {result : Resolved} {height : Nat},
    Denotes scope type result height → ∀ remaining, height ≤ remaining →
      resolveWithin remaining scope type = .ok result
  | _, _, _, _, .missing lookup, remaining, hle => resolveWithin_of_finds lookup remaining hle
  | _, _, _, _, .declared lookup notAlias, remaining, hle => by
    rw [resolveWithin_of_finds lookup remaining hle, settle_of_notAlias notAlias]
  | _, _, _, _, .followed lookup isAlias meaning, remaining, hle => by
    obtain ⟨hheight, hbelow⟩ := Nat.max_le.mp hle
    rw [resolveWithin_of_finds lookup remaining hheight, settle_of_isAlias isAlias]
    cases remaining with
    | zero => exact absurd hbelow (Nat.not_succ_le_zero _)
    | succ remaining =>
      exact resolveWithin_of_denotes meaning remaining (Nat.le_of_succ_le_succ hbelow)

end

/-! ## Failure -/

/-- Resolving a type in a scope comes to an alias, below so many others. -/
inductive Meets : Scope → Node → Nat → Scope → Prop where
  /-- The type itself leads to the alias. -/
  | here {scope found : Scope} {type target : Node} {height : Nat}
      (lookup : Finds scope type (some found) height) (isAlias : found.aliasTarget? = some target) :
      Meets scope type 0 found
  /-- The base of a member type is resolved first. -/
  | base {scope found : Scope} {base : Node} {depth : Nat} (name : String)
      (position : Option Position) (arguments : List Node) (way : Meets scope base depth found) :
      Meets scope ⟨.type .member, some name, position, base :: arguments⟩ depth found
  /-- The target of an alias is resolved in the scope around the alias. -/
  | inside {scope outer found : Scope} {type target : Node} {height depth : Nat}
      (lookup : Finds scope type (some outer) height) (isAlias : outer.aliasTarget? = some target)
      (way : Meets outer.pop target depth found) : Meets scope type (depth + 1) found

/-- All aliases that resolution comes to have the bound that it started with. -/
theorem Meets.aliasBound_eq {scope found : Scope} {type : Node} {depth : Nat}
    (h : Meets scope type depth found) : found.aliasBound = scope.aliasBound := by
  induction h with
  | here lookup => exact lookup.aliasBound_eq
  | base _ _ _ _ ih => exact ih
  | inside lookup _ _ ih => exact ih.trans lookup.aliasBound_eq

/-- The base of a member type has a meaning if the type has one, and it is not higher. -/
theorem Denotes.exists_base {scope : Scope} {name : String} {position : Option Position}
    {base : Node} {arguments : List Node} {result : Resolved} {height : Nat}
    (h : Denotes scope ⟨.type .member, some name, position, base :: arguments⟩ result height) :
    ∃ result, ∃ below ≤ height, Denotes scope base result below := by
  have hfinds : ∃ found, ∃ below ≤ height,
      Finds scope ⟨.type .member, some name, position, base :: arguments⟩ found below := by
    cases h with
    | missing lookup => exact ⟨_, _, Nat.le_refl _, lookup⟩
    | declared lookup => exact ⟨_, _, Nat.le_refl _, lookup⟩
    | followed lookup => exact ⟨_, _, Nat.le_max_left _ _, lookup⟩
  obtain ⟨found, below, hbelow, lookup⟩ := hfinds
  cases lookup with
  | member _ _ _ known => exact ⟨_, below, hbelow, known⟩
  | stray _ _ _ unknown => exact ⟨_, below, hbelow, unknown⟩
  | other h => cases h

/-- The aliases below which resolution comes to another one are nested in every derivation. -/
theorem Meets.lt_height {scope found : Scope} {type : Node} {depth : Nat}
    (h : Meets scope type depth found) {result : Resolved} {height : Nat}
    (hmeaning : Denotes scope type result height) : depth < height := by
  induction h generalizing result height with
  | here lookup isAlias =>
    cases hmeaning with
    | missing lookup' => cases (lookup.unique _ _ lookup').1
    | declared lookup' notAlias =>
      cases (lookup.unique _ _ lookup').1
      cases notAlias.symm.trans isAlias
    | followed => exact Nat.lt_of_lt_of_le (Nat.succ_pos _) (Nat.le_max_right _ _)
  | base _ _ _ _ ih =>
    obtain ⟨_, below, hbelow, hbase⟩ := hmeaning.exists_base
    exact Nat.lt_of_lt_of_le (ih hbase) hbelow
  | inside lookup isAlias _ ih =>
    cases hmeaning with
    | missing lookup' => cases (lookup.unique _ _ lookup').1
    | declared lookup' notAlias =>
      cases (lookup.unique _ _ lookup').1
      cases notAlias.symm.trans isAlias
    | followed lookup' isAlias' meaning =>
      cases (lookup.unique _ _ lookup').1
      cases isAlias.symm.trans isAlias'
      exact Nat.lt_of_lt_of_le (Nat.succ_lt_succ (ih meaning)) (Nat.le_max_right _ _)

section failure

variable {follow : Scope → Node → Except ResolveError Resolved} {depth : Nat} {error : ResolveError}

/-- Settling fails only where an alias cannot be followed. -/
theorem settle_error {scope : Scope} {type : Node} {found : Option Scope}
    (h : settle follow scope type found = .error error) :
    ∃ last target, found = some last ∧ last.aliasTarget? = some target ∧
      follow last target = .error error := by
  cases found with
  | none => cases h
  | some last =>
    rcases htarget : last.aliasTarget? with _ | target
    · rw [settle_of_notAlias htarget] at h
      cases h
    · rw [settle_of_isAlias htarget] at h
      exact ⟨last, target, rfl, htarget, h⟩

/-- Where resolving a type fails, it has come to an alias, if it has done so wherever following an
alias fails. -/
theorem resolveBy_error
    (hsound : ∀ {scope type result}, resolveBy follow scope type = .ok result →
      ∃ height, Denotes scope type result height)
    (hfollow : ∀ {scope found type target height}, Finds scope type (some found) height →
      found.aliasTarget? = some target → follow found target = .error error →
      ∃ last, Meets scope type depth last ∧
        error = .aliasDepthExceeded last.qualifiedName last.aliasBound)
    {scope : Scope} {type : Node} (h : resolveBy follow scope type = .error error) :
    ∃ last, Meets scope type depth last ∧
      error = .aliasDepthExceeded last.qualifiedName last.aliasBound := by
  induction type using Node.inductionOn with
  | step type ih =>
    rcases isLookedUp_cases type with
      ⟨name, position, arguments, rfl⟩ | ⟨name, position, base, arguments, rfl⟩ | hother
    · obtain ⟨last, target, hfound, isAlias, hfails⟩ := settle_error h
      have lookup := Finds.name scope name position arguments
      rw [hfound] at lookup
      exact hfollow lookup isAlias hfails
    · rw [resolveBy_member] at h
      split at h
      · rename_i found hbase
        obtain ⟨height, known⟩ := hsound hbase
        obtain ⟨last, target, hfound, isAlias, hfails⟩ := settle_error h
        have lookup := Finds.member name position arguments known
        rw [hfound] at lookup
        exact hfollow lookup isAlias hfails
      · cases h
      · rename_i hbase
        cases h
        obtain ⟨last, way, herror⟩ := ih base List.mem_cons_self hbase
        exact ⟨last, .base name position arguments way, herror⟩
    · rw [resolveBy_of_not_isLookedUp hother] at h
      cases h

end failure

/-- Where resolution fails, it has come to an alias below exactly as many others as may be nested,
and it says so. -/
theorem resolveWithin_error {remaining : Nat} {scope : Scope} {type : Node} {error : ResolveError}
    (h : resolveWithin remaining scope type = .error error) :
    ∃ last, Meets scope type remaining last ∧
      error = .aliasDepthExceeded last.qualifiedName last.aliasBound := by
  have hsound : ∀ remaining {scope type result},
      resolveWithin remaining scope type = .ok result →
        ∃ height, Denotes scope type result height := by
    intro remaining scope type result h
    obtain ⟨height, -, meaning⟩ := resolveWithin_sound h
    exact ⟨height, meaning⟩
  induction remaining generalizing scope type with
  | zero =>
    refine resolveBy_error (hsound 0) ?_ h
    intro scope found type target height lookup isAlias hfails
    cases hfails
    exact ⟨found, .here lookup isAlias, rfl⟩
  | succ remaining ih =>
    refine resolveBy_error (hsound (remaining + 1)) ?_ h
    intro scope found type target height lookup isAlias hfails
    obtain ⟨last, way, herror⟩ := ih hfails
    exact ⟨last, .inside lookup isAlias way, herror⟩

/-! ## Resolution -/

/-- A type is resolved exactly to what it stands for, if the aliases in the derivation are nested no
deeper than the bound. Otherwise resolution reports the bound, and an alias that it has come to
below so many others. A type that stands for nothing at all is one from which resolution comes to
aliases below any number of others. -/
theorem resolve_characterized (scope : Scope) (type : Node) :
    (∀ result, scope.resolve type = .ok result ↔
      ∃ height ≤ scope.aliasBound, scope.Denotes type result height) ∧
    ((¬ ∃ result, ∃ height ≤ scope.aliasBound, scope.Denotes type result height) ↔
      ∃ last, scope.Meets type scope.aliasBound last ∧
        scope.resolve type = .error (.aliasDepthExceeded last.qualifiedName scope.aliasBound)) ∧
    ((¬ ∃ result height, scope.Denotes type result height) ↔
      ∀ depth, ∃ last, scope.Meets type depth last) := by
  refine ⟨?_, ?_, ?_⟩
  · intro result
    constructor
    · exact resolveWithin_sound
    · rintro ⟨height, hheight, meaning⟩
      exact resolveWithin_of_denotes meaning _ hheight
  · constructor
    · intro hnone
      rcases hresolve : scope.resolve type with error | result
      · obtain ⟨last, way, rfl⟩ := resolveWithin_error hresolve
        rw [way.aliasBound_eq]
        exact ⟨last, way, rfl⟩
      · exact absurd ⟨result, resolveWithin_sound hresolve⟩ hnone
    · rintro ⟨last, way, -⟩ ⟨result, height, hheight, meaning⟩
      exact absurd (way.lt_height meaning) (Nat.not_lt.mpr hheight)
  · constructor
    · intro hnone depth
      rcases hresolve : resolveWithin depth scope type with error | result
      · obtain ⟨last, way, -⟩ := resolveWithin_error hresolve
        exact ⟨last, way⟩
      · obtain ⟨height, -, meaning⟩ := resolveWithin_sound hresolve
        exact absurd ⟨result, height, meaning⟩ hnone
    · rintro hmeets ⟨result, height, meaning⟩
      obtain ⟨last, way⟩ := hmeets height
      exact absurd (way.lt_height meaning) (Nat.lt_irrefl _)

/-- An alias of its own member is never resolved. -/
example :
    ((Sample.file [Sample.typeAlias "A" (Build.memberType (Build.simpleType "A") "B")]).scopeAt
        [] 5).resolve (Build.simpleType "A") =
      .error (.aliasDepthExceeded "(file).A" 5) := by
  decide +kernel

end Scope

end SourceEvolution
