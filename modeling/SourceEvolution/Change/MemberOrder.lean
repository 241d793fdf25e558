import SourceEvolution.Change.Initializers
import SourceEvolution.Random.Source

/-!
# Reordering members

The members of a declaration may be put into another order. Where the layout is fixed, the members
that are part of it keep their order and go behind all others.

* `MemberOrder`: the new order.
* `MemberOrder.find`: a random order that is allowed at a site.
* `MemberOrder.accepts`, `MemberOrder.applyTo?`: reordering a member block.
-/

namespace SourceEvolution

/-- A new order of members, by their indices. -/
structure MemberOrder where
  /-- The index of the member that comes first, second, and so on. -/
  mapping : List Nat
deriving DecidableEq, Repr

namespace MemberOrder

/-! ## Finding an order -/

/-- Whether the place of a member is part of a fixed layout. -/
def pinsLayout (member : Node) : Bool :=
  member.kind == .enumCase || (Decl.ofNode? member).any fun decl => decl.isStored? == some true

/-- Whether a member may be moved. -/
def isMovable (scope : Scope) (member : Node) : Bool :=
  scope.isResilient || !pinsLayout member

/-- The indices of the members with a property, in increasing order. -/
def indicesWhere (p : Node → Bool) (members : List Node) : List Nat :=
  (members.zipIdx.filter fun member => p member.1).map Prod.snd

/-- How many members must be movable for an order to be looked for. -/
def minimumMovable : Nat := 2

/-- Whether reordering is held back, because the struct relies on implicit initializers and these
cannot be written out first. -/
def isHeldBack (site : Site) : Except EvolutionError Bool :=
  if site.scope.hasImplicitInitializers then
    match Initializers.find site with
    | .ok found => .ok found.isNone
    | .error .unsupported => .ok true
    | .error error => .error error
  else .ok false

/-- A random order of the members of a site. Members that may not be moved come last, in their
order. -/
def find {G : Type} [WordSource G] (site : Site) : EStateM EvolutionError G (Option MemberOrder) :=
  if site.node.kind = .memberBlock then
    match isHeldBack site with
    | .error error => throw error
    | .ok true => pure none
    | .ok false =>
      let movable := indicesWhere (isMovable site.scope) site.node.children
      let pinned := indicesWhere (fun member => !isMovable site.scope member) site.node.children
      if movable.length < minimumMovable then pure none
      else do
        let moved ← modifyGet (WordSource.shuffle movable)
        pure (some ⟨moved ++ pinned⟩)
  else throw .unsupported

/-! ## Applying it -/

/-- Marks a member, unless it is missing or has been marked before. -/
def mark? (marks : Array Bool) (index : Nat) : Option (Array Bool) :=
  if marks[index]? = some false then some (marks.setIfInBounds index true) else none

/-- Whether an order fits a node: it is a member block, and the members that the order names can be
marked one after the other. -/
def accepts (order : MemberOrder) (node : Node) : Bool :=
  node.kind == .memberBlock &&
    (order.mapping.foldlM mark? (Array.replicate node.children.length false)).isSome

/-- Which of so many members an order places. -/
def placed (order : MemberOrder) (count : Nat) : Array Bool :=
  order.mapping.foldl (fun marks index => marks.setIfInBounds index true)
    (Array.replicate count false)

/-- The members in their new order; those that the order does not name come last. -/
def reorder (order : MemberOrder) (members : List Node) : List Node :=
  let placed := order.placed members.length
  order.mapping.filterMap (fun index => members[index]?) ++
    (members.zipIdx.filter fun member => placed[member.2]? == some false).map Prod.fst

/-- The member block with its members in the new order. -/
def applyTo? (order : MemberOrder) (node : Node) : Option Node :=
  if order.accepts node then some (node.withChildren (order.reorder node.children)) else none

end MemberOrder

end SourceEvolution
