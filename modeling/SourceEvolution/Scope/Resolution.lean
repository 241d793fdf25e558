import SourceEvolution.Scope.Basic
import SourceEvolution.Text.Decimal
import SourceEvolution.Typing.Shape

/-!
# Resolution of types

A type written in a file may name a declaration of that file. A plain name is looked up outward; a
member type is looked up in the declaration that its base stands for. An alias stands for its
target, which is resolved in the scope that the alias is declared in. The number of aliases followed
one after the other is bounded, and this also ends cycles of aliases.

* `Resolved`: the declaration that a type stands for, or the type itself where no declaration is
  found.
* `Scope.resolve`: the resolution of a type; it fails when the bound does not suffice.
* `Scope.shapeOf`: the shape of a type after resolution.
-/

namespace SourceEvolution

/-- Why a type cannot be resolved. -/
inductive ResolveError where
  /-- An alias would have to be followed beyond the bound. -/
  | aliasDepthExceeded (name : String) (depth : Nat)
deriving DecidableEq, Repr

/-- The wording of a resolution error. -/
def ResolveError.message : ResolveError → String
  | .aliasDepthExceeded name depth =>
    "alias chain through `" ++ name ++ "` exceeds depth " ++ Decimal.render depth

/-- What a type stands for. -/
inductive Resolved where
  /-- The innermost declaration of a scope. -/
  | declaration (scope : Scope)
  /-- A type that no declaration is found for, in the scope that it is to be read in. -/
  | unresolved (type : Node) (scope : Scope)
deriving DecidableEq

namespace Scope

/-- The alias that a scope ends in, by its target. -/
def aliasTarget? (scope : Scope) : Option Node :=
  match scope.innermost? with
  | some decl => if decl.kind = .typeAlias then decl.target? else none
  | none => none

/-- What a lookup has found for a type: nothing, a declaration, or an alias to be followed. -/
def settle (follow : Scope → Node → Except ResolveError Resolved) (scope : Scope) (type : Node) :
    Option Scope → Except ResolveError Resolved
  | none => .ok (.unresolved type scope)
  | some found =>
    match found.aliasTarget? with
    | none => .ok (.declaration found)
    | some target => follow found target

/-- Resolves a type, given how an alias is followed to its target. -/
def resolveBy (follow : Scope → Node → Except ResolveError Resolved) (scope : Scope) :
    Node → Except ResolveError Resolved
  | ⟨.type .simple, some name, position, children⟩ =>
    settle follow scope ⟨.type .simple, some name, position, children⟩ (scope.lookup? name)
  | ⟨.type .member, some name, position, base :: arguments⟩ => do
    match ← resolveBy follow scope base with
    | .declaration found =>
      settle follow scope ⟨.type .member, some name, position, base :: arguments⟩
        (found.lookupDirect? name)
    | .unresolved _ _ =>
      return .unresolved ⟨.type .member, some name, position, base :: arguments⟩ scope
  | type => .ok (.unresolved type scope)

/-- Resolves a type when so many more aliases may be followed. -/
def resolveWithin : Nat → Scope → Node → Except ResolveError Resolved
  | 0 => resolveBy fun found _ =>
    .error (.aliasDepthExceeded found.qualifiedName found.aliasBound)
  | remaining + 1 => resolveBy fun found target => resolveWithin remaining found.pop target

/-- Resolves a type in a scope. -/
def resolve (scope : Scope) (type : Node) : Except ResolveError Resolved :=
  resolveWithin scope.aliasBound scope type

/-- The shape of a type after resolution. A declaration of the file is a named type, whatever it is
called. -/
def shapeOf (scope : Scope) (type : Node) : Except ResolveError TypeShape := do
  match ← scope.resolve type with
  | .declaration _ => return .named
  | .unresolved type _ => return .ofNode type

end Scope

end SourceEvolution
