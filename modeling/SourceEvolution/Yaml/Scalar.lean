import SourceEvolution.Text.Hexadecimal
import SourceEvolution.Yaml.Character

/-!
# Scalars inside lines

Quoted and plain scalars. Where such a scalar goes on in another line, the line ends in it are
folded: a single line feed is a blank, and of several line ends the first is left out.

* `Folded`: the text of a scalar that is being read.
* `quoted?`: a scalar in quotation marks.
* `plain?`: a scalar without them.
-/

namespace SourceEvolution

namespace Yaml

/-! ## Folding -/

/-- The text of a scalar that is being read, with the blanks and line ends that have not been put
into it yet. -/
structure Folded where
  /-- The characters so far, last first. -/
  done : List Char := []
  /-- The blanks since then, last first. -/
  blanks : List Char := []
  /-- The line ends since then, last first. -/
  breaks : List Char := []
  /-- Whether the first of these line ends is escaped and leaves nothing. -/
  escaped : Bool := false

/-- What a run of line ends amounts to: a single line feed is a blank, and of several line ends the
first is left out if it is a line feed. -/
def unfolded : List Char → List Char
  | ['\n'] => [' ']
  | '\n' :: others => others
  | breaks => breaks

namespace Folded

/-- What the blanks and line ends amount to, last character first. -/
def gap (folded : Folded) : List Char :=
  if folded.breaks.isEmpty then folded.blanks
  else if folded.escaped then folded.breaks.dropLast
  else (unfolded folded.breaks.reverse).reverse

/-- Whether blanks or line ends have been read since the last character. -/
def inGap (folded : Folded) : Bool :=
  !folded.blanks.isEmpty || !folded.breaks.isEmpty

/-- The text after one more character. -/
def push (folded : Folded) (c : Char) : Folded :=
  { done := c :: (folded.gap ++ folded.done) }

/-- The text after a blank. -/
def blank (folded : Folded) (c : Char) : Folded :=
  if folded.breaks.isEmpty then { folded with blanks := c :: folded.blanks } else folded

/-- The text after a line end. -/
def lineEnd (folded : Folded) (c : Char) : Folded :=
  { folded with blanks := [], breaks := c :: folded.breaks }

/-- The text after an escaped line end. -/
def escapedLineEnd (folded : Folded) (c : Char) : Folded :=
  { done := folded.gap ++ folded.done, breaks := [c], escaped := true }

/-- The text up to the last character. -/
def trimmed (folded : Folded) : String :=
  String.ofList folded.done.reverse

/-- The text at its closing quotation mark. -/
def closed (folded : Folded) : String :=
  String.ofList (folded.gap ++ folded.done).reverse

end Folded

/-! ## Quoted scalars -/

/-- The rest of a scalar in single quotation marks; two of them stand for one. -/
def singleQuoted? (folded : Folded) : PlacedText → Option (String × PlacedText)
  | [] => none
  | [p] => if p.char = '\x27' then some (folded.closed, []) else none
  | p :: q :: rest =>
    if startsDocumentMark (p :: q :: rest) then none
    else if p.char = '\x27' then
      if q.char = '\x27' then singleQuoted? (folded.push '\x27') rest
      else some (folded.closed, q :: rest)
    else if isLineEnd p.char then singleQuoted? (folded.lineEnd p.char) (q :: rest)
    else if isBlank p.char then singleQuoted? (folded.blank p.char) (q :: rest)
    else singleQuoted? (folded.push p.char) (q :: rest)

/-- The escapes of one character. -/
def letterEscape? (c : Char) : Option Char :=
  [('0', 0x00), ('a', 0x07), ('b', 0x08), ('t', 0x09), ('\t', 0x09), ('n', 0x0A), ('v', 0x0B),
    ('f', 0x0C), ('r', 0x0D), ('e', 0x1B), (' ', 0x20), ('\x22', 0x22), ('/', 0x2F), ('\\', 0x5C),
    ('N', 0x85), ('_', 0xA0), ('L', 0x2028), ('P', 0x2029)].lookup c |>.map Char.ofNat

/-- How many hexadecimal digits an escape by number has. -/
def escapeWidth? (c : Char) : Option Nat :=
  [('x', 2), ('u', 4), ('U', 8)].lookup c

/-- The character of an escape by number. -/
def numbered? (digits : List Char) : Option Char := do
  let point ← Hexadecimal.value? digits
  if point.isValidChar then some (Char.ofNat point) else none

/-- The rest of a scalar in double quotation marks. -/
def doubleQuoted? (folded : Folded) (text : PlacedText) : Option (String × PlacedText) :=
  match text with
  | [] => none
  | p :: rest =>
    if startsDocumentMark (p :: rest) then none
    else if p.char = '\x22' then some (folded.closed, rest)
    else if isLineEnd p.char then doubleQuoted? (folded.lineEnd p.char) rest
    else if isBlank p.char then doubleQuoted? (folded.blank p.char) rest
    else if p.char = '\\' then
      match rest with
      | [] => none
      | e :: rest =>
        if isLineEnd e.char then doubleQuoted? (folded.escapedLineEnd e.char) rest
        else match letterEscape? e.char, escapeWidth? e.char with
          | some point, _ => doubleQuoted? (folded.push point) rest
          | none, some width =>
            if width ≤ rest.length then
              match numbered? (PlacedText.chars (rest.take width)) with
              | some point => doubleQuoted? (folded.push point) (rest.drop width)
              | none => none
            else none
          | none, none => none
    else doubleQuoted? (folded.push p.char) rest
termination_by text.length
decreasing_by all_goals simp only [List.length_cons, List.length_drop]; omega

/-- A quoted scalar, and what follows it. -/
def quoted? : PlacedText → Option (String × PlacedText)
  | [] => none
  | p :: rest =>
    if p.char = '\x27' then singleQuoted? {} rest
    else if p.char = '\x22' then doubleQuoted? {} rest
    else none

/-! ## Plain scalars -/

/-- Whether a plain scalar can start here. -/
def startsPlain (flow : Bool) : PlacedText → Bool
  | [] => false
  | p :: rest =>
    if p.char = '-' then !startsBreak rest
    else if p.char = '?' || p.char = ':' then !flow && !startsBreak rest
    else !(isBlank p.char || isLineEnd p.char || isFlowMark p.char ||
      ['#', '&', '*', '!', '|', '>', '\x27', '\x22', '%', '@', '\x60'].contains p.char)

/-- A plain scalar, what follows it, and whether it was read up to another line. A comment ends it,
a colon before a blank does, and in a flow collection a separator does. In block style so does a
line that starts before `least`, the first column of what the scalar belongs to; a tab before that
column is refused. -/
def plain? (flow : Bool) (least : Nat) (folded : Folded) :
    PlacedText → Option (String × PlacedText × Bool)
  | [] => some (folded.trimmed, [], !folded.breaks.isEmpty)
  | p :: rest =>
    if isLineEnd p.char then plain? flow least (folded.lineEnd p.char) rest
    else if isBlank p.char then
      if p.char = '\t' && !folded.breaks.isEmpty && p.column < least then none
      else plain? flow least (folded.blank p.char) rest
    else if flow && p.char = ':' && rest.head?.any (fun q => isFlowMark q.char || q.char = '?') then
      none
    else if (!flow && !folded.breaks.isEmpty && p.column < least) ||
        startsDocumentMark (p :: rest) || (p.char = '#' && folded.inGap) ||
        (p.char = ':' && startsBreak rest) || (flow && isFlowMark p.char) then
      some (folded.trimmed, p :: rest, !folded.breaks.isEmpty)
    else plain? flow least (folded.push p.char) rest

end Yaml

end SourceEvolution
