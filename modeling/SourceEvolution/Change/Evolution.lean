import SourceEvolution.Change.DefaultArgument
import SourceEvolution.Change.Kind
import SourceEvolution.Change.MemberOrder

/-!
# Evolutions

An evolution is one of the three kinds of change together with what it needs to be applied.

* `Evolution`: the change.
* `EvolutionKind.find`: a change of a kind at a site, if there is one.
* `Evolution.prerequisites`, `Evolution.chain`: what has to be applied to the same node first.
* `Evolution.accepts`, `Evolution.applyTo?`: applying a change to a node.
-/

namespace SourceEvolution

/-- A change with what it needs to be applied. -/
inductive Evolution where
  | shuffleMembers (order : MemberOrder)
  | synthesizeInitializers (initializers : Initializers)
  | changeDefaultArgument (change : DefaultArgument)
deriving DecidableEq, Repr

/-- A change of the kind at a site. There may be none, and the site may not be of a form that the
kind applies to, which is an error of its own. -/
def EvolutionKind.find {G : Type} [WordSource G] (site : Site) :
    EvolutionKind → EStateM EvolutionError G (Option Evolution)
  | .shuffleMembers => Option.map .shuffleMembers <$> MemberOrder.find site
  | .synthesizeInitializers =>
    match Initializers.find site with
    | .ok found => pure (found.map .synthesizeInitializers)
    | .error error => throw error
  | .changeDefaultArgument => Option.map .changeDefaultArgument <$> DefaultArgument.find site

namespace Evolution

/-- The kind of a change. -/
def kind : Evolution → EvolutionKind
  | shuffleMembers _ => .shuffleMembers
  | synthesizeInitializers _ => .synthesizeInitializers
  | changeDefaultArgument _ => .changeDefaultArgument

/-! ## Prerequisites -/

/-- The changes that have to be applied to the same node first: before the members of a struct that
relies on implicit initializers are moved, these are written out. If none are found, or the site is
not of a form that they can be written out for, nothing is applied first. The search for them fails
in no other way (`Initializers.find_cases`), so there always is an answer. -/
def prerequisites (site : Site) : Evolution → List Evolution
  | shuffleMembers _ =>
    if site.scope.hasImplicitInitializers then
      match Initializers.find site with
      | .ok (some initializers) => [synthesizeInitializers initializers]
      | .ok none => []
      | .error .unsupported => []
      -- only searches that resolve types fail like this, and this one does not
      | .error (.unresolved _) => []
    else []
  | synthesizeInitializers _ => []
  | changeDefaultArgument _ => []

/-- Nothing has to be applied before a reordering, or initializers have to be added. -/
theorem prerequisites_shuffleMembers (site : Site) (order : MemberOrder) :
    (shuffleMembers order).prerequisites site = [] ∨
      ∃ initializers, (shuffleMembers order).prerequisites site =
        [synthesizeInitializers initializers] := by
  simp only [prerequisites]
  split
  · split
    · exact .inr ⟨_, rfl⟩
    · exact .inl rfl
    · exact .inl rfl
    · exact .inl rfl
  · exact .inl rfl

/-- A prerequisite is of one of the kinds that the kind of the change may need. -/
theorem kind_mem_of_mem_prerequisites {site : Site} {evolution needed : Evolution}
    (h : needed ∈ evolution.prerequisites site) : needed.kind ∈ evolution.kind.prerequisites := by
  cases evolution with
  | shuffleMembers order =>
    rcases prerequisites_shuffleMembers site order with hnone | ⟨initializers, hone⟩
    · rw [hnone] at h
      exact absurd h List.not_mem_nil
    · rw [hone, List.mem_singleton] at h
      rw [h]
      exact List.mem_singleton_self _
  | synthesizeInitializers => exact absurd h List.not_mem_nil
  | changeDefaultArgument => exact absurd h List.not_mem_nil

/-- A change behind everything that has to be applied first. -/
def chain (site : Site) (evolution : Evolution) : List Evolution :=
  (evolution.prerequisites site).attach.flatMap (fun needed => chain site needed.1) ++ [evolution]
termination_by evolution.kind.rank
decreasing_by
  exact EvolutionKind.rank_lt_of_mem_prerequisites (kind_mem_of_mem_prerequisites needed.2)

/-! ## Application -/

/-- Whether a change can be applied to a node. -/
def accepts (node : Node) : Evolution → Bool
  | shuffleMembers order => order.accepts node
  | synthesizeInitializers _ => Initializers.accepts node
  | changeDefaultArgument change => change.accepts node

/-- The changed node. -/
def applyTo? (node : Node) : Evolution → Option Node
  | shuffleMembers order => order.applyTo? node
  | synthesizeInitializers initializers => initializers.applyTo? node
  | changeDefaultArgument change => change.applyTo? node

/-- What is said when a change is applied to a node that does not accept it. -/
def refusal (node : Node) : Evolution → String
  | shuffleMembers _ => "member mapping does not fit " ++ node.kind.name ++ " node"
  | synthesizeInitializers _ =>
    "memberwise initializers cannot be added to " ++ node.kind.name ++ " node"
  | changeDefaultArgument change =>
    "no parameter " ++ Decimal.render change.index ++ " on " ++ node.kind.name ++ " node"

end Evolution

end SourceEvolution
