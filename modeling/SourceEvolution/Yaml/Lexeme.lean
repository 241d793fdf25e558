import SourceEvolution.Yaml.Tag

/-!
# Lexemes of YAML documents

Between the characters of a document and its value lie its lexemes. Some of them are written, and
some are told by the layout: where a block collection starts and ends, and where a key does.
-/

namespace SourceEvolution

namespace Yaml

/-- A lexeme of a document. -/
inductive Lexeme where
  | directive (directive : Directive)
  | documentStart
  | documentEnd
  /-- The start of a sequence in block style. -/
  | blockSequence
  /-- The start of a mapping in block style. -/
  | blockMapping
  /-- The end of a collection in block style. -/
  | blockEnd
  /-- The hyphen before an item in block style. -/
  | item
  /-- What stands before a key: a question mark, or nothing at all. -/
  | key
  /-- The colon before the value of a key. -/
  | value
  | openSequence
  | closeSequence
  | openMapping
  | closeMapping
  /-- The comma between the parts of a flow collection. -/
  | separator
  /-- A reference to the value with an anchor. -/
  | reference (anchor : Nat)
  | anchor (number : Nat)
  | tag (name : TagName)
  /-- A scalar, and whether it is plain. -/
  | scalar (text : String) (isPlain : Bool)
deriving DecidableEq, Repr

end Yaml

end SourceEvolution
