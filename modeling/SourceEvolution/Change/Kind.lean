/-!
# Kinds of evolution

The three kinds of change that leave the binary interface of a file as it is, in the order in which
they are tried.

* `EvolutionKind.prerequisites`: the kinds that a kind may need to be applied first.
* `EvolutionKind.rank`: a kind needs only kinds of a lower rank, so that chains of prerequisites
  end.
-/

namespace SourceEvolution

/-- A kind of evolution. -/
inductive EvolutionKind where
  /-- The members of a declaration are put into another order. -/
  | shuffleMembers
  /-- The implicit initializers of a struct are written out. -/
  | synthesizeInitializers
  /-- The default argument of a parameter is changed. -/
  | changeDefaultArgument
deriving DecidableEq, Repr, Inhabited

namespace EvolutionKind

/-- Every kind, in the order in which they are tried. -/
def all : List EvolutionKind :=
  [shuffleMembers, synthesizeInitializers, changeDefaultArgument]

/-- The name under which a kind is written. -/
def name : EvolutionKind → String
  | shuffleMembers => "ShuffleMembers"
  | synthesizeInitializers => "SynthesizeMemberwiseInitializer"
  | changeDefaultArgument => "ChangeDefaultArgument"

/-- The kind written as `s`, if there is one. -/
def ofName? (s : String) : Option EvolutionKind :=
  all.find? fun kind => kind.name == s

/-- Reading the written name of a kind gives the kind back. -/
theorem ofName?_name (kind : EvolutionKind) : ofName? kind.name = some kind := by
  cases kind <;> decide

/-- The kinds that a kind may need to be applied first. -/
def prerequisites : EvolutionKind → List EvolutionKind
  | shuffleMembers => [synthesizeInitializers]
  | synthesizeInitializers => []
  | changeDefaultArgument => []

/-- How long a chain of prerequisites can be. -/
def rank : EvolutionKind → Nat
  | shuffleMembers => 1
  | synthesizeInitializers => 0
  | changeDefaultArgument => 0

/-- A kind needs only kinds of a lower rank. -/
theorem rank_lt_of_mem_prerequisites {kind needed : EvolutionKind}
    (h : needed ∈ kind.prerequisites) : needed.rank < kind.rank := by
  cases kind <;> simp_all [prerequisites, rank]

end EvolutionKind

end SourceEvolution
