import SourceEvolution.Planning.Plan

/-!
# Replay

A plan is replayed on a file by applying the entries of that file in order. Each path is read in the
tree as the entries before it have left it.
-/

namespace SourceEvolution

/-- Why a plan cannot be replayed on a file. -/
inductive ReplayError where
  /-- The path of an entry leads nowhere. -/
  | pathNotFound (location : String)
  /-- The node does not accept the evolution of an entry. -/
  | notAccepted (location : String) (kind : EvolutionKind)
deriving DecidableEq, Repr

/-- The wording of a replay error. -/
def ReplayError.message : ReplayError → String
  | .pathNotFound location => location ++ ": no node at the planned path"
  | .notAccepted location kind =>
    location ++ ": " ++ kind.name ++ " does not apply to the node at the planned path"

/-- The tree after one entry. -/
def replayEntry (root : Node) (entry : PlanEntry) : Except ReplayError Node :=
  match root.nodeAt? entry.path with
  | none => .error (.pathNotFound entry.location)
  | some node =>
    match entry.evolution.applyTo? node with
    | none => .error (.notAccepted entry.location entry.evolution.kind)
    | some changed =>
      match root.replaceAt? entry.path changed with
      | none => .error (.pathNotFound entry.location)
      | some root => .ok root

/-- An entry is applied if its path leads to a node that accepts the change. -/
theorem replayEntry_eq_ok_iff {root after : Node} {entry : PlanEntry} :
    replayEntry root entry = .ok after ↔
      ∃ node changed, root.nodeAt? entry.path = some node ∧
        entry.evolution.applyTo? node = some changed ∧
        root.replaceAt? entry.path changed = some after := by
  unfold replayEntry
  rcases hnode : root.nodeAt? entry.path with _ | node
  · simp
  · rcases hchanged : entry.evolution.applyTo? node with _ | changed
    · simp [hchanged]
    · rcases hafter : root.replaceAt? entry.path changed with _ | replaced <;>
        simp [hchanged, hafter]

/-- The file after its entries of a plan; the first entry that cannot be applied is reported. -/
def replay (source : SourceFile) (plan : Plan) : Except ReplayError SourceFile := do
  let root ← (plan.entriesFor source.path).foldlM replayEntry source.root
  return { source with root }

end SourceEvolution
