import SourceEvolution.Exclusion.Basic
import SourceEvolution.Json.Reader
import SourceEvolution.Json.Record
import SourceEvolution.Text.FileName
import SourceEvolution.Yaml.Reader

/-!
# Documents of exclusions

Exclusions are listed in a JSON or YAML document that maps the name of a kind to nothing, or to a
list of qualified names. The whole document is read before its entries are checked.

* `Exclusions.ofJsonText`, `Exclusions.ofYamlText`: the exclusions of a text.
* `Exclusions.load`: the exclusions of a file, whose name tells the format.
-/

namespace SourceEvolution

namespace Exclusions

/-! ## Entries -/

/-- The names that a JSON value lists. -/
def jsonNames? : Json → Option (Option (List String)) :=
  Json.nullable? fun json => json.array?.bind fun items => items.mapM Json.string?

/-- The entries of a JSON document. -/
def jsonEntries? : Json → Option (List ExclusionEntry)
  | .object fields => fields.mapM fun field => do return (field.1, ← jsonNames? field.2)
  | _ => none

/-- The names that a YAML value lists. -/
def yamlNames? (targets : List (Nat × Yaml)) (value : Yaml) : Option (Option (List String)) := do
  if ← value.isNull? then return none
  else
    let names ← (← value.items?).mapM fun item => do (← item.follow? targets).text?
    return some names

/-- An entry of a YAML document. -/
def entryOfYaml? (targets : List (Nat × Yaml)) (entry : Yaml × Yaml) : Option ExclusionEntry := do
  return (← (← entry.1.follow? targets).text?, ← yamlNames? targets (← entry.2.follow? targets))

/-- The values that are looked at to read an entry of a YAML document. -/
def partsRead (targets : List (Nat × Yaml)) (entry : Yaml × Yaml) : List Yaml :=
  entry.1 :: entry.2 :: ((entry.2.follow? targets).bind Yaml.items?).getD []

/-- How many references may be followed for each sign that a document takes. -/
def referenceLimit : Nat := 100

/-- The entries of a YAML document; where nothing is written, there are none. A document that refers
to its parts far too often is refused. -/
def yamlEntries? (root : Yaml) : Option (List ExclusionEntry) := do
  let targets := root.targets
  let entries ← root.entries?
  let references := (entries.flatMap (partsRead targets)).countP Yaml.isReference
  if references ≤ referenceLimit * root.extent then
    entries.mapM (entryOfYaml? targets)
  else none

/-! ## Texts -/

/-- The exclusions of a JSON text. -/
def ofJsonText (text : String) : Except ExclusionError Exclusions :=
  match (Json.parse? text).bind jsonEntries? with
  | some entries => ofEntries entries
  | none => .error .malformedJson

/-- The exclusions of a YAML text. -/
def ofYamlText (text : String) : Except ExclusionError Exclusions :=
  match (Yaml.parse? text).bind yamlEntries? with
  | some entries => ofEntries entries
  | none => .error .malformedYaml

/-! ## Files -/

/-- The reader for the format that a file name tells, whatever the case of its letters. -/
def readerFor? (file : String) : Option (String → Except ExclusionError Exclusions) :=
  match (FileName.extension? file).map fun cs => String.ofList (cs.map Char.toLower) with
  | some "json" => some ofJsonText
  | some "yaml" => some ofYamlText
  | some "yml" => some ofYamlText
  | _ => none

/-- The exclusions of a file with the given contents; none if it cannot be read. The format is
settled before the contents are looked at. -/
def load (file : String) (contents : Option ByteArray) : Except ExclusionError Exclusions :=
  match readerFor? file with
  | none => .error (.unsupportedFormat file)
  | some read =>
    match contents.bind String.fromUTF8? with
    | none => .error .unreadable
    | some text => read text

end Exclusions

end SourceEvolution
