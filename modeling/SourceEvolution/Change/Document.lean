import SourceEvolution.Change.Evolution
import SourceEvolution.Json.Held
import SourceEvolution.Tree.Document

/-!
# Evolutions as documents

Evolutions, and the names that go with them, as JSON values. An evolution is written as one record
that starts with its kind; it may be read with the kind at any place, and as an array that starts
with the kind. Since the kind tells what the other fields are, an evolution is held back as a whole
before it is read.
-/

namespace SourceEvolution

/-! ## Names -/

/-- Reads the shape of a type. -/
def TypeShape.ofJson? (json : Json) : Option TypeShape :=
  json.unitName?.bind ofName?

/-- Reads an access level. -/
def AccessLevel.ofJson? (json : Json) : Option AccessLevel :=
  json.unitName?.bind ofName?

/-- Reads a kind of evolution. -/
def EvolutionKind.ofJson? (json : Json) : Option EvolutionKind :=
  json.unitName?.bind ofName?

/-! ## Signatures -/

namespace InitializerParameter

/-- A parameter as a record. -/
def toJson (parameter : InitializerParameter) : Json :=
  .object [("name", .string parameter.name), ("type", parameter.type.toJson)]

/-- Reads a parameter. -/
def ofJson? (json : Json) : Option InitializerParameter :=
  match json.record? ["name", "type"] with
  | some [some name, some type] => do return ⟨← name.string?, ← Node.ofJson? type⟩
  | _ => none

end InitializerParameter

namespace Signature

/-- A signature as the array of its parameters. -/
def toJson (signature : Signature) : Json :=
  .array (signature.map InitializerParameter.toJson)

/-- Reads a signature. -/
def ofJson? (json : Json) : Option Signature :=
  json.array?.bind fun items => items.mapM InitializerParameter.ofJson?

end Signature

/-! ## Evolutions -/

namespace Evolution

/-- An evolution as a record that starts with its kind. -/
def toJson (evolution : Evolution) : Json :=
  let kind := ("kind", Json.string evolution.kind.name)
  match evolution with
  | shuffleMembers order => .object [kind, ("mapping", .array (order.mapping.map .natural))]
  | synthesizeInitializers initializers =>
    .object [kind, ("inits", .array (initializers.signatures.map Signature.toJson))]
  | changeDefaultArgument change =>
    .object [kind, ("index", .natural change.index), ("value", .string change.value)]

/-- Reads what belongs to an evolution of a kind, apart from the kind itself. -/
def payload? (kind : EvolutionKind) (json : Json) : Option Evolution :=
  match kind with
  | .shuffleMembers =>
    match json.record? ["mapping"] with
    | some [some mapping] => do return shuffleMembers ⟨← (← mapping.array?).mapM Json.word?⟩
    | _ => none
  | .synthesizeInitializers =>
    match json.record? ["inits"] with
    | some [some signatures] => do
      return synthesizeInitializers ⟨← (← signatures.array?).mapM Signature.ofJson?⟩
    | _ => none
  | .changeDefaultArgument =>
    match json.record? ["index", "value"] with
    | some [some index, some value] => do
      return changeDefaultArgument ⟨← index.word?, ← value.string?⟩
    | _ => none

/-- Reads an evolution that has been held back. -/
def ofHeld? : Json → Option Evolution
  | .object fields =>
    match Json.field? fields "kind" with
    | some (some kind) => do payload? (← EvolutionKind.ofName? (← kind.string?)) (.object fields)
    | _ => none
  | .array (kind :: items) => do payload? (← EvolutionKind.ofName? (← kind.string?)) (.array items)
  | _ => none

/-- Reads an evolution. -/
def ofJson? (json : Json) : Option Evolution :=
  json.held?.bind ofHeld?

end Evolution

end SourceEvolution
