import SourceEvolution.Yaml.Layout
import SourceEvolution.Yaml.Value

/-!
# Reading YAML

A text is one document, and a document is one value.

* `Yaml.node?`: a value, from its lexemes.
* `Yaml.document?`: the value of a document, from its lexemes.
* `Yaml.parse?`: the value of a text.

The readers of nested values take a bound on the number of steps, which `document?` sets from the
number of lexemes.
-/

namespace SourceEvolution

namespace Yaml

/-! ## Parts that may be missing -/

/-- Whether a lexeme ends what belongs to an item in block style. -/
def endsItem : Lexeme → Bool
  | .item | .key | .value | .blockEnd => true
  | _ => false

/-- Whether a lexeme ends a key or a value in block style. -/
def endsEntry : Lexeme → Bool
  | .key | .value | .blockEnd => true
  | _ => false

/-- Whether a lexeme ends a key or a value in flow style. -/
def endsFlowEntry : Lexeme → Bool
  | .value | .separator | .closeSequence | .closeMapping => true
  | _ => false

/-- Whether a lexeme ends a document. -/
def endsDocument : Lexeme → Bool
  | .directive _ | .documentStart | .documentEnd => true
  | _ => false

/-- A value, or the empty one where what it belongs to ends at once. -/
def orEmpty? (ends : Lexeme → Bool) (read : List Lexeme → Option (Yaml × List Lexeme)) :
    List Lexeme → Option (Yaml × List Lexeme)
  | lexeme :: rest => if ends lexeme then some (empty, lexeme :: rest) else read (lexeme :: rest)
  | [] => read []

/-! ## Nodes -/

/-- The properties in front of a value: an anchor and a tag, in either order. -/
def properties? (handles : TagHandles) : List Lexeme → Option (Properties × List Lexeme)
  | .anchor number :: .tag name :: rest => do
    return (⟨some number, some (← name.resolve? handles)⟩, rest)
  | .anchor number :: rest => some (⟨some number, none⟩, rest)
  | .tag name :: .anchor number :: rest => do
    return (⟨some number, some (← name.resolve? handles)⟩, rest)
  | .tag name :: rest => do return (⟨none, some (← name.resolve? handles)⟩, rest)
  | rest => some ({}, rest)

/-- Whether nothing is said about a value. -/
def Properties.isEmpty (properties : Properties) : Bool :=
  properties.anchor?.isNone && properties.tag?.isNone

mutual

/-- A value. `hyphens` tells that it may be a sequence in block style whose start is not told by the
layout, since its hyphens stand in the column of the mapping around it. -/
def node? (handles : TagHandles) (hyphens : Bool) : Nat → List Lexeme → Option (Yaml × List Lexeme)
  | 0, _ => none
  | _ + 1, .reference anchor :: rest => some (.reference anchor, rest)
  | fuel + 1, lexemes => do
    let (properties, rest) ← properties? handles lexemes
    match rest with
    | .scalar text isPlain :: rest => return (.scalar properties text isPlain, rest)
    | .openSequence :: rest =>
      let (items, rest) ← flowItems? handles fuel rest
      return (.sequence properties items, rest)
    | .openMapping :: rest =>
      let (entries, rest) ← flowEntries? handles fuel rest
      return (.mapping properties entries, rest)
    | .blockSequence :: rest =>
      match ← blockItems? handles fuel rest with
      | (items, .blockEnd :: rest) => return (.sequence properties items, rest)
      | _ => none
    | .blockMapping :: rest =>
      match ← blockEntries? handles fuel rest with
      | (entries, .blockEnd :: rest) => return (.mapping properties entries, rest)
      | _ => none
    | rest =>
      if hyphens && rest.head? == some .item then
        let (items, rest) ← blockItems? handles fuel rest
        return (.sequence properties items, rest)
      else if properties.isEmpty then none
      else return (.scalar properties "" true, rest)

/-- The items of a sequence in block style. -/
def blockItems? (handles : TagHandles) : Nat → List Lexeme → Option (List Yaml × List Lexeme)
  | 0, _ => none
  | fuel + 1, .item :: rest => do
    let (item, rest) ← orEmpty? endsItem (node? handles false fuel) rest
    let (items, rest) ← blockItems? handles fuel rest
    return (item :: items, rest)
  | _ + 1, rest => some ([], rest)

/-- The entries of a mapping in block style. A key may have no value. -/
def blockEntries? (handles : TagHandles) :
    Nat → List Lexeme → Option (List (Yaml × Yaml) × List Lexeme)
  | 0, _ => none
  | fuel + 1, .key :: rest => do
    let (key, rest) ← orEmpty? endsEntry (node? handles true fuel) rest
    let (value, rest) ← match rest with
      | .value :: rest => orEmpty? endsEntry (node? handles true fuel) rest
      | rest => some (empty, rest)
    let (entries, rest) ← blockEntries? handles fuel rest
    return ((key, value) :: entries, rest)
  | _ + 1, rest => some ([], rest)

/-- A key in flow style, read behind the sign for it, and its value, if it has one. -/
def flowPair? (handles : TagHandles) : Nat → List Lexeme → Option ((Yaml × Yaml) × List Lexeme)
  | 0, _ => none
  | fuel + 1, lexemes => do
    let (key, rest) ← orEmpty? endsFlowEntry (node? handles false fuel) lexemes
    let (value, rest) ← match rest with
      | .value :: rest => orEmpty? endsFlowEntry (node? handles false fuel) rest
      | rest => some (empty, rest)
    return ((key, value), rest)

/-- The items of a sequence in flow style, up to its closing bracket. An item with a key is a
mapping of its own. -/
def flowItems? (handles : TagHandles) : Nat → List Lexeme → Option (List Yaml × List Lexeme)
  | 0, _ => none
  | _ + 1, .closeSequence :: rest => some ([], rest)
  | fuel + 1, lexemes => do
    let (item, rest) ← match lexemes with
      | .key :: rest => do
        let (entry, rest) ← flowPair? handles fuel rest
        some (Yaml.mapping {} [entry], rest)
      | lexemes => node? handles false fuel lexemes
    match rest with
    | .separator :: rest =>
      let (items, rest) ← flowItems? handles fuel rest
      return (item :: items, rest)
    | .closeSequence :: rest => return ([item], rest)
    | _ => none

/-- The entries of a mapping in flow style, up to its closing bracket. A value that is no key is a
key without a value. -/
def flowEntries? (handles : TagHandles) :
    Nat → List Lexeme → Option (List (Yaml × Yaml) × List Lexeme)
  | 0, _ => none
  | _ + 1, .closeMapping :: rest => some ([], rest)
  | fuel + 1, lexemes => do
    let (entry, rest) ← match lexemes with
      | .key :: rest => flowPair? handles fuel rest
      | lexemes => do
        let (key, rest) ← node? handles false fuel lexemes
        some ((key, empty), rest)
    match rest with
    | .separator :: rest =>
      let (entries, rest) ← flowEntries? handles fuel rest
      return (entry :: entries, rest)
    | .closeMapping :: rest => return ([entry], rest)
    | _ => none

end

/-! ## Documents -/

/-- Whether documents of a version can be read. -/
def isKnownVersion (major minor : Nat) : Bool :=
  major == 1 && (minor == 1 || minor == 2)

/-- The handles that the directives of a document define, and what follows the directives. No handle
is defined twice, and the version is given once at most; `versioned` tells that it has been. -/
def directives? (handles : TagHandles) (versioned : Bool) :
    List Lexeme → Option (TagHandles × List Lexeme)
  | .directive (.version major minor) :: rest =>
    if !versioned && isKnownVersion major minor then directives? handles true rest else none
  | .directive (.handle name base) :: rest =>
    if (handles.lookup name).isNone then directives? ((name, base) :: handles) versioned rest
    else none
  | rest => some (handles ++ standardHandles, rest)

/-- The value of the only document of a text. The mark of its start may be left out, unless there
are directives; marks of its end may follow it. -/
def document? (lexemes : List Lexeme) : Option Yaml := do
  let fuel := 4 * lexemes.length + 4
  let (handles, body) ← directives? [] false lexemes
  let (value, rest) ← match body with
    | [.documentStart] => some (empty, [])
    | .documentStart :: rest => orEmpty? endsDocument (node? handles false fuel) rest
    | [] => if lexemes.isEmpty then some (empty, []) else none
    | body => if body.length = lexemes.length then node? handles false fuel body else none
  if rest.all (· == .documentEnd) then some value else none

/-- The value of a text. -/
def parse? (text : String) : Option Yaml := do
  document? (← lexemes? (← placed? text))

end Yaml

end SourceEvolution
