import SourceEvolution.Json.Token

/-!
# JSON values

Values, and their two text forms.

* `Json`: a value. An object keeps its fields in the order in which they were written, repeated
  names included. A part of a document may be well-formed and still have no value; it can be passed
  over, but it cannot be read as anything.
* `Json.tokens` and `Json.compact`: the tokens of a value, and the text without any blanks.
* `Json.pretty`: the text with one element a line, indented by two blanks a level.
-/

namespace SourceEvolution

/-- A JSON value. -/
inductive Json where
  | null
  | bool (value : Bool)
  /-- A number without sign, fraction and exponent. -/
  | natural (value : Nat)
  /-- Any other number, as it is written. -/
  | number (literal : String)
  | string (value : String)
  | array (items : List Json)
  | object (fields : List (String × Json))
  /-- A part of a document that has no value: a string with half of a surrogate pair, an object with
  such a name, or a container inside too many others. -/
  | broken
deriving Repr, Inhabited

namespace Json

/-! ## Compact text -/

mutual

/-- The tokens of a value. -/
def tokens : Json → List Token
  | null => [.null]
  | bool value => [.bool value]
  | natural value => [.natural value]
  | number literal => [.number literal]
  | string value => [.string value]
  | array items => .openArray :: (List.intercalate [.comma] (itemTokens items) ++ [.closeArray])
  | object fields =>
    .openObject :: (List.intercalate [.comma] (fieldTokens fields) ++ [.closeObject])
  | broken => [.brokenString]

/-- The tokens of each item of an array. -/
def itemTokens : List Json → List (List Token)
  | [] => []
  | item :: rest => item.tokens :: itemTokens rest

/-- The tokens of each field of an object. -/
def fieldTokens : List (String × Json) → List (List Token)
  | [] => []
  | (name, value) :: rest => (.string name :: .colon :: value.tokens) :: fieldTokens rest

end

/-- The text of a value without any blanks. -/
def compactChars (value : Json) : List Char :=
  value.tokens.flatMap Token.render

/-- The text of a value without any blanks. -/
def compact (value : Json) : String :=
  String.ofList value.compactChars

/-! ## Pretty text -/

/-- The start of a line at a level of nesting. -/
def newLine (level : Nat) : List Char :=
  '\n' :: List.replicate (2 * level) ' '

/-- Elements between brackets, one a line; brackets with nothing between them stay together. -/
def block (level : Nat) (opening closing : Token) (elements : List (List Char)) : List Char :=
  if elements.isEmpty then opening.render ++ closing.render
  else opening.render ++
    List.intercalate [','] (elements.map fun element => newLine (level + 1) ++ element) ++
    newLine level ++ closing.render

mutual

/-- The indented text of a value that stands at a level of nesting. -/
def prettyAt (level : Nat) : Json → List Char
  | null => Token.render .null
  | bool value => Token.render (.bool value)
  | natural value => Token.render (.natural value)
  | number literal => Token.render (.number literal)
  | string value => Token.render (.string value)
  | array items => block level .openArray .closeArray (prettyItems (level + 1) items)
  | object fields => block level .openObject .closeObject (prettyFields (level + 1) fields)
  | broken => Token.render .brokenString

/-- The indented texts of the items of an array. -/
def prettyItems (level : Nat) : List Json → List (List Char)
  | [] => []
  | item :: rest => prettyAt level item :: prettyItems level rest

/-- The indented texts of the fields of an object. -/
def prettyFields (level : Nat) : List (String × Json) → List (List Char)
  | [] => []
  | (name, value) :: rest =>
    (Token.quote name ++ [':', ' '] ++ prettyAt level value) :: prettyFields level rest

end

/-- The indented text of a value. -/
def pretty (value : Json) : String :=
  String.ofList (prettyAt 0 value)

end Json

end SourceEvolution
