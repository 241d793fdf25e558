/-!
# Characters of YAML documents

Lines and columns tell what belongs to what in a YAML document, so each character is read together
with its place.

* `PlacedChar`, `PlacedText`: a character and where it stands, and what is left of a document.
* `placed?`: the characters of a document, if all of them may stand in one.
* `startsBreak`, `startsMark`: what a text starts with.
* `skipGap`, `finishLine?`: skip what stands between the parts of a document.
-/

namespace SourceEvolution

namespace Yaml

/-! ## Classes -/

/-- A blank inside a line. -/
def isBlank (c : Char) : Bool :=
  c == ' ' || c == '\t'

/-- The characters that end a line. -/
def isLineEnd (c : Char) : Bool :=
  c == '\n' || c == '\u2028' || c == '\u2029'

/-- The characters that separate the parts of a flow collection. -/
def isFlowMark (c : Char) : Bool :=
  [',', '[', ']', '\x7b', '\x7d'].contains c

/-- The characters of the names of anchors, handles and directives: ASCII letters and digits, the
underscore and the hyphen. -/
def isNameChar (c : Char) : Bool :=
  c.isAlphanum || c == '_' || c == '-'

/-- The characters that a document may hold. -/
def isAllowed (c : Char) : Bool :=
  let n := c.toNat
  n == 0x09 || n == 0x0A || n == 0x0D || (0x20 ≤ n && n ≤ 0x7E) || n == 0x85 ||
    (0xA0 ≤ n && n ≤ 0xFFFD) || 0x10000 ≤ n

/-! ## Places -/

/-- A character of a document, and where it stands. -/
structure PlacedChar where
  /-- The character. -/
  char : Char
  /-- How many lines end before it. -/
  line : Nat
  /-- How many characters stand before it in its line. -/
  column : Nat
  /-- How many bytes stand before it. -/
  offset : Nat
deriving Repr

/-- What is left of a document. -/
abbrev PlacedText := List PlacedChar

/-- The text with a line feed for every line end that does not stand for itself in a scalar. -/
def unifyLineEnds : List Char → List Char
  | '\r' :: '\n' :: cs => '\n' :: unifyLineEnds cs
  | '\r' :: cs => '\n' :: unifyLineEnds cs
  | '\x85' :: cs => '\n' :: unifyLineEnds cs
  | c :: cs => c :: unifyLineEnds cs
  | [] => []

/-- The characters of a text with their places, the first of which is given. -/
def placeFrom (line column offset : Nat) : List Char → PlacedText
  | [] => []
  | c :: cs =>
    ⟨c, line, column, offset⟩ ::
      (if isLineEnd c then placeFrom (line + 1) 0 (offset + c.utf8Size) cs
      else placeFrom line (column + 1) (offset + c.utf8Size) cs)

/-- The characters of a document with their places, if all of them may stand in one. -/
def placed? (text : String) : Option PlacedText :=
  if text.toList.all isAllowed then some (placeFrom 0 0 0 (unifyLineEnds text.toList)) else none

/-- The characters of a document without their places. -/
def PlacedText.chars (text : PlacedText) : List Char :=
  text.map PlacedChar.char

/-! ## Starts -/

/-- Whether a text starts with a character. -/
def startsWith (c : Char) (text : PlacedText) : Bool :=
  text.head?.any (·.char == c)

/-- Whether a text starts with a blank, starts a new line, or is at its end. -/
def startsBreak : PlacedText → Bool
  | [] => true
  | p :: _ => isBlank p.char || isLineEnd p.char

/-- Whether a line starts here with a mark of three characters. -/
def startsMark (mark : Char) : PlacedText → Bool
  | a :: b :: c :: rest =>
    a.column == 0 && a.char == mark && b.char == mark && c.char == mark && startsBreak rest
  | _ => false

/-- Whether a line starts here with the mark of the start or of the end of a document. -/
def startsDocumentMark (text : PlacedText) : Bool :=
  startsMark '-' text || startsMark '.' text

/-! ## Gaps -/

/-- Skips blanks, line ends and comments, and tells whether a line ended. A tab counts as a blank in
a flow collection, and where `tabs` says so in the rest of the line; a byte order mark does at the
start of a line. -/
def skipGap (flow tabs comment crossed : Bool) : PlacedText → PlacedText × Bool
  | [] => ([], crossed)
  | p :: rest =>
    if isLineEnd p.char then skipGap flow flow false true rest
    else if comment || p.char = ' ' || (p.char = '\t' && tabs) ||
        (p.char = '\ufeff' && p.column = 0) then
      skipGap flow tabs comment crossed rest
    else if p.char = '#' then skipGap flow tabs true crossed rest
    else (p :: rest, crossed)

/-- Skips blanks. -/
def skipBlanks (text : PlacedText) : PlacedText :=
  text.dropWhile (isBlank ·.char)

/-- What follows this line, if nothing but blanks and a comment is left of it. -/
def finishLine? (comment : Bool) : PlacedText → Option PlacedText
  | [] => some []
  | p :: rest =>
    if isLineEnd p.char then some rest
    else if comment || isBlank p.char then finishLine? comment rest
    else if p.char = '#' then finishLine? true rest
    else none

/-- The longest run of characters of a kind that a text starts with, and what follows it. -/
def run (kind : Char → Bool) (text : PlacedText) : List Char × PlacedText :=
  ((text.takeWhile (kind ·.char)).map PlacedChar.char, text.dropWhile (kind ·.char))

end Yaml

end SourceEvolution
