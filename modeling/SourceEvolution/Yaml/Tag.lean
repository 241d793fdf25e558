import SourceEvolution.Text.Decimal
import SourceEvolution.Text.Hexadecimal
import SourceEvolution.Yaml.Character

/-!
# Tags, anchors and directives

A value may carry a tag, which tells its type, and an anchor, by which it is referred to elsewhere.
Tags are written in full, or behind a handle that stands for their first part; directives at the
start of a document say what its handles stand for.

* `Tag`, `TagName`, `TagName.resolve?`: a tag, the ways to write it, and what is meant.
* `tagName?`, `anchorName?`, `directive?`: readers.
-/

namespace SourceEvolution

namespace Yaml

/-- A tag in full: its bytes. -/
abbrev Tag := List UInt8

namespace Tag

/-- The tag that is spelled by a text. -/
def ofString (text : String) : Tag :=
  text.toUTF8.toList

/-- What the tags of the types that every document knows start with. -/
def standardBase : Tag := ofString "tag:yaml.org,2002:"

/-- The tag of nothing. -/
def null : Tag := standardBase ++ ofString "null"

/-- The tag that says no more than that there is a tag. -/
def bare : Tag := ofString "!"

end Tag

/-- A tag as it is written. -/
inductive TagName where
  /-- A tag that is written in full. -/
  | verbatim (tag : Tag)
  /-- A handle and the last part of a tag. -/
  | shorthand (handle : List Char) (suffix : Tag)
deriving DecidableEq, Repr

/-- The handles of a document, with the first part of a tag that each one stands for. -/
abbrev TagHandles := List (List Char × Tag)

/-- The handles that every document knows, unless it gives them another meaning. -/
def standardHandles : TagHandles :=
  [(['!'], Tag.bare), (['!', '!'], Tag.standardBase)]

/-- The tag that is meant. -/
def TagName.resolve? (handles : TagHandles) : TagName → Option Tag
  | verbatim tag => some tag
  | shorthand handle suffix => (handles.lookup handle).map (· ++ suffix)

/-! ## Bytes of tags -/

/-- The characters that stand for themselves in a tag. Commas and brackets do so only where the end
of the tag is marked. -/
def isTagChar (marked : Bool) (c : Char) : Bool :=
  isNameChar c || (marked && [',', '[', ']'].contains c) ||
    [';', '/', '?', ':', '@', '&', '=', '+', '$', '.', '!', '~', '*', '\x27', '(', ')'].contains c

/-- How many bytes follow the first byte of a character. -/
def followers? (byte : Nat) : Option Nat :=
  if byte < 0x80 then some 0
  else if byte < 0xC0 then none
  else if byte < 0xE0 then some 1
  else if byte < 0xF0 then some 2
  else if byte < 0xF8 then some 3
  else none

/-- Whether a byte may follow the first byte of a character. -/
def isFollower (byte : Nat) : Bool :=
  0x80 ≤ byte && byte < 0xC0

/-- The bytes of a part of a tag, and what follows them. A percent sign and two hexadecimal digits
stand for a byte; all bytes of a character are then written that way, and `due` is the number of
those to come. -/
def tagBytes? (marked : Bool) (due : Nat) (done : Tag) : PlacedText → Option (Tag × PlacedText)
  | [] => if due = 0 then some (done.reverse, []) else none
  | p :: rest =>
    if p.char = '%' then
      match rest with
      | a :: b :: rest =>
        match Hexadecimal.value? [a.char, b.char] with
        | none => none
        | some byte =>
          if due = 0 then
            match followers? byte with
            | some due => tagBytes? marked due (byte.toUInt8 :: done) rest
            | none => none
          else if isFollower byte then tagBytes? marked (due - 1) (byte.toUInt8 :: done) rest
          else none
      | _ => none
    else if due ≠ 0 then none
    else if isTagChar marked p.char then tagBytes? marked 0 (p.char.toNat.toUInt8 :: done) rest
    else some (done.reverse, p :: rest)

/-- A tag ends before its first zero byte. -/
def cutAtZero (tag : Tag) : Tag :=
  tag.takeWhile (· ≠ 0)

/-- A part of a tag, which is not empty, and what follows it. -/
def tagPart? (marked : Bool) (text : PlacedText) : Option (Tag × PlacedText) := do
  let (bytes, rest) ← tagBytes? marked 0 [] text
  if bytes.isEmpty then none else some (cutAtZero bytes, rest)

/-! ## Tags -/

/-- A tag in angle brackets, read behind the first of them. -/
def verbatimTag? (text : PlacedText) : Option (TagName × PlacedText) := do
  let (tag, rest) ← tagPart? true text
  match rest with
  | p :: rest => if p.char = '>' then some (.verbatim tag, rest) else none
  | [] => none

/-- A tag behind a handle, read behind the exclamation mark that the handle starts with. A handle
with a name ends with an exclamation mark too. -/
def shorthandTag? (text : PlacedText) : Option (TagName × PlacedText) := do
  let (name, rest) := run isNameChar text
  if startsWith '!' rest then
    let (suffix, rest) ← tagPart? false (rest.drop 1)
    return (.shorthand ('!' :: (name ++ ['!'])) suffix, rest)
  else
    let (bytes, rest) ← tagBytes? false 0 (name.map (·.toNat.toUInt8)).reverse rest
    let suffix := cutAtZero bytes
    return (if suffix.isEmpty then .verbatim Tag.bare else .shorthand ['!'] suffix, rest)

/-- A tag, read behind its exclamation mark. A blank follows it, or in a flow collection a comma. -/
def tagName? (flow : Bool) (text : PlacedText) : Option (TagName × PlacedText) := do
  let (tag, rest) ← if startsWith '<' text then verbatimTag? (text.drop 1) else shorthandTag? text
  if startsBreak rest || (flow && startsWith ',' rest) then some (tag, rest) else none

/-! ## Anchors -/

/-- The name of an anchor, and what follows it. -/
def anchorName? (text : PlacedText) : Option (List Char × PlacedText) :=
  let (name, rest) := run isNameChar text
  let isEnded := startsBreak rest || rest.head?.any fun p =>
    ['?', ':', ',', ']', '\x7d', '%', '@', '\x60'].contains p.char
  if !name.isEmpty && isEnded then some (name, rest) else none

/-! ## Directives -/

/-- A directive at the start of a document. -/
inductive Directive where
  /-- The version of the language that the document is written in. -/
  | version (major minor : Nat)
  /-- A handle, and the first part of a tag that it stands for. -/
  | handle (name : List Char) (base : Tag)
deriving DecidableEq, Repr

/-- A part of a version: a number of at most nine digits. -/
def versionPart? (text : PlacedText) : Option (Nat × PlacedText) := do
  let (digits, rest) := run Char.isDigit text
  if digits.length ≤ 9 then return (← Decimal.parse? digits, rest) else none

/-- The version that a directive gives. -/
def versionDirective? (text : PlacedText) : Option (Directive × PlacedText) := do
  let (major, rest) ← versionPart? (skipBlanks text)
  if startsWith '.' rest then
    let (minor, rest) ← versionPart? (rest.drop 1)
    return (.version major minor, rest)
  else none

/-- The handle that a directive defines. -/
def handleDirective? (text : PlacedText) : Option (Directive × PlacedText) := do
  let text := skipBlanks text
  if startsWith '!' text then
    let (name, rest) := run isNameChar (text.drop 1)
    let isNamed := startsWith '!' rest
    let rest := if isNamed then rest.drop 1 else rest
    if (isNamed || name.isEmpty) && rest.head?.any (isBlank ·.char) then
      let (base, rest) ← tagPart? true (skipBlanks rest)
      let handle := if isNamed then '!' :: (name ++ ['!']) else ['!']
      if startsBreak rest then some (.handle handle base, rest) else none
    else none
  else none

/-- A directive, read behind its percent sign, and the lines below it. -/
def directive? (text : PlacedText) : Option (Directive × PlacedText) := do
  let (name, rest) := run isNameChar text
  if startsBreak rest then
    let (directive, rest) ← match String.ofList name with
      | "YAML" => versionDirective? rest
      | "TAG" => handleDirective? rest
      | _ => none
    return (directive, ← finishLine? false rest)
  else none

end Yaml

end SourceEvolution
