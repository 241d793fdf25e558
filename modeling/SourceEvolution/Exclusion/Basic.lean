import SourceEvolution.Change.Kind

/-!
# Exclusions

Kinds of evolution may be excluded, everywhere or for the declarations with given qualified names.

* `NameSet`: a set of names, kept in order and without repetitions.
* `Exclusions`: what is excluded for each kind.
* `Exclusions.permits`, `Exclusions.permitsChain`: whether a kind is allowed for a name, by itself
  and with all that it may need first.
* `Exclusions.ofEntries`: the exclusions that a document lists, checked in the order of its entries.
-/

namespace SourceEvolution

/-! ## Sets of names -/

/-- Names in increasing order. -/
abbrev NameSet := List String

namespace NameSet

/-- The set with one more name. -/
def insert (name : String) : NameSet → NameSet
  | [] => [name]
  | first :: rest =>
    if name < first then name :: first :: rest
    else if name = first then first :: rest
    else first :: insert name rest

/-- The set of the names of a list. -/
def ofList (names : List String) : NameSet :=
  names.foldr insert []

end NameSet

/-! ## Exclusions -/

/-- What is excluded for one kind. -/
inductive Exclusion where
  /-- Every declaration. -/
  | all
  /-- The declarations with these qualified names. -/
  | names (names : NameSet)
deriving DecidableEq, Repr

/-- What is excluded for each kind; for a kind without an entry nothing is. -/
structure Exclusions where
  /-- The entry of a kind. -/
  entry? : EvolutionKind → Option Exclusion := fun _ => none

namespace Exclusions

/-- The exclusions that a kind is excluded by, given the names that a list has for it. An empty list
excludes every declaration. -/
def exclusionOf (names : List String) : Exclusion :=
  if names.isEmpty then .all else .names (NameSet.ofList names)

/-- The exclusions with the entry of a kind set. -/
def set (exclusions : Exclusions) (kind : EvolutionKind) (exclusion : Exclusion) : Exclusions where
  entry? other := if other = kind then some exclusion else exclusions.entry? other

/-- Whether nothing is excluded. -/
def isEmpty (exclusions : Exclusions) : Bool :=
  EvolutionKind.all.all fun kind => (exclusions.entry? kind).isNone

/-- Whether a kind is allowed for the declaration with a qualified name. -/
def permits (exclusions : Exclusions) (kind : EvolutionKind) (name : String) : Bool :=
  match exclusions.entry? kind with
  | none => true
  | some .all => false
  | some (.names names) => !names.contains name

/-- Whether a kind, and every kind that it may need first, is allowed for a declaration. -/
def permitsChain (exclusions : Exclusions) (kind : EvolutionKind) (name : String) : Bool :=
  exclusions.permits kind name &&
    kind.prerequisites.attach.all fun needed => permitsChain exclusions needed.1 name
termination_by kind.rank
decreasing_by exact EvolutionKind.rank_lt_of_mem_prerequisites needed.2

end Exclusions

/-! ## Documents -/

/-- Why exclusions cannot be read. -/
inductive ExclusionError where
  /-- The file cannot be read. -/
  | unreadable
  /-- The text is not a JSON document of the right form. -/
  | malformedJson
  /-- The text is not a YAML document of the right form. -/
  | malformedYaml
  /-- A name is that of no kind. -/
  | unknownKind (name : String)
  /-- A kind has two entries. -/
  | duplicateKind (kind : EvolutionKind)
  /-- The name of the file does not tell its format. -/
  | unsupportedFormat (file : String)
deriving DecidableEq, Repr

/-- The wording of an exclusion error. -/
def ExclusionError.message : ExclusionError → String
  | unreadable => "cannot read rules"
  | malformedJson => "invalid JSON rules"
  | malformedYaml => "invalid YAML rules"
  | unknownKind name => "unknown evolution kind `" ++ name ++ "`"
  | duplicateKind kind => "evolution kind " ++ kind.name ++ " is listed more than once"
  | unsupportedFormat file => "unsupported rules format: " ++ file

/-- An entry of a document: the name of a kind, and the names that it is excluded for. Without names
it is excluded everywhere. -/
abbrev ExclusionEntry := String × Option (List String)

namespace Exclusions

/-- The exclusions with one more entry. -/
def addEntry (exclusions : Exclusions) (entry : ExclusionEntry) :
    Except ExclusionError Exclusions :=
  match EvolutionKind.ofName? entry.1 with
  | none => .error (.unknownKind entry.1)
  | some kind =>
    if (exclusions.entry? kind).isSome then .error (.duplicateKind kind)
    else .ok (exclusions.set kind (exclusionOf (entry.2.getD [])))

/-- The exclusions that entries list. The first entry that is wrong is reported. -/
def ofEntries (entries : List ExclusionEntry) : Except ExclusionError Exclusions :=
  entries.foldlM addEntry {}

end Exclusions

end SourceEvolution
