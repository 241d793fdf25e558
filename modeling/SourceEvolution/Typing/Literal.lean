import SourceEvolution.Text.Blank
import SourceEvolution.Tree.Builder

/-!
# Types of literals

The type of an expression is known without a declaration only if the expression is a plain literal.
The recognisers below work on the characters of the expression, blanks at its ends left out.

* `Literal.isInteger`, `Literal.isFloating`, `Literal.isQuoted`, `Literal.isBoolean`: the
  recognisers.
* `Literal.typeName?`: the type that a text is a literal of.
* `Node.literalType?`: the same for an expression node.
-/

namespace SourceEvolution

namespace Literal

/-! ## Groups of digits -/

/-- Whether a text is a digit followed by digits and underscores. -/
def isGroup (digit : Char → Bool) : List Char → Bool
  | [] => false
  | c :: cs => digit c && cs.all fun d => digit d || d == '_'

/-- A hexadecimal digit of either case. -/
def isHexDigit (c : Char) : Bool :=
  c.isDigit || ('a' ≤ c && c ≤ 'f') || ('A' ≤ c && c ≤ 'F')

/-- An octal digit. -/
def isOctalDigit (c : Char) : Bool :=
  '0' ≤ c && c ≤ '7'

/-- A binary digit. -/
def isBinaryDigit (c : Char) : Bool :=
  c == '0' || c == '1'

/-- The text after an optional minus sign. -/
def unsigned : List Char → List Char
  | '-' :: cs => cs
  | cs => cs

/-! ## Recognisers -/

/-- Whether a text without sign is a hexadecimal, octal, binary or decimal integer. -/
def isMagnitude : List Char → Bool
  | '0' :: 'x' :: cs => isGroup isHexDigit cs
  | '0' :: 'o' :: cs => isGroup isOctalDigit cs
  | '0' :: 'b' :: cs => isGroup isBinaryDigit cs
  | cs => isGroup Char.isDigit cs

/-- Whether a text is an integer literal. -/
def isInteger (cs : List Char) : Bool :=
  isMagnitude (unsigned cs)

/-- A character of a group of decimal digits. -/
def isGroupChar (c : Char) : Bool :=
  c.isDigit || c == '_'

/-- Whether a text is an exponent: its mark, an optional sign and at least one digit. -/
def isExponent : List Char → Bool
  | c :: cs =>
    (c == 'e' || c == 'E') &&
      (let digits := match cs with
        | '+' :: rest => rest
        | '-' :: rest => rest
        | rest => rest
      !digits.isEmpty && digits.all Char.isDigit)
  | [] => false

/-- Whether a text is what may follow the digits before the point: a fraction with an optional
exponent, or an exponent. -/
def isTail : List Char → Bool
  | '.' :: cs =>
    let rest := cs.dropWhile isGroupChar
    isGroup Char.isDigit (cs.takeWhile isGroupChar) && (rest.isEmpty || isExponent rest)
  | cs => isExponent cs

/-- Whether a text is a floating-point literal. -/
def isFloating (cs : List Char) : Bool :=
  let magnitude := unsigned cs
  isGroup Char.isDigit (magnitude.takeWhile isGroupChar) && isTail (magnitude.dropWhile isGroupChar)

/-- Whether a text begins with a quotation mark and ends with another one. -/
def isQuoted : List Char → Bool
  | '\x22' :: cs => cs.getLast? == some '\x22'
  | _ => false

/-- Whether a text is a truth value. -/
def isBoolean (cs : List Char) : Bool :=
  cs == "true".toList || cs == "false".toList

/-! ## Types -/

/-- The name of the type that a text is a literal of. -/
def typeName? (cs : List Char) : Option String :=
  if isInteger cs then some "Int"
  else if isFloating cs then some "Double"
  else if isQuoted cs then some "String"
  else if isBoolean cs then some "Bool"
  else none

end Literal

/-- The type of an expression that is a plain literal. -/
def Node.literalType? (node : Node) : Option Node :=
  match node.kind, node.text with
  | .expr, some text => (Literal.typeName? (Text.trim text.toList)).map Build.simpleType
  | _, _ => none

end SourceEvolution
