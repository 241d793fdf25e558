import SourceEvolution.Scope.Resolution

/-!
# Errors of evolutions

Why looking for an evolution at a site ends without an answer.
-/

namespace SourceEvolution

/-- Why no answer is given for a site. -/
inductive EvolutionError where
  /-- The node is not of a form that the kind applies to. -/
  | unsupported
  /-- A type cannot be resolved. -/
  | unresolved (cause : ResolveError)
deriving DecidableEq, Repr

/-- The wording of an evolution error. -/
def EvolutionError.message : EvolutionError → String
  | .unsupported => "evolution does not apply to this node"
  | .unresolved cause => cause.message

end SourceEvolution
