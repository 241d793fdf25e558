import SourceEvolution.Yaml.BlockScalar
import SourceEvolution.Yaml.Lexeme

/-!
# Layout of YAML documents

The lexemes of a document are read one by one. Where block collections start and end is told by
columns. A key is not marked in front, so that a text turns out to be one only at the colon behind
it: the layout keeps the places where a key may have started, and the sign for a key is put in when
the colon is met.

* `Layout`: what has been read, and what the layout says about what comes next.
* `Layout.step?`: reads one lexeme.
* `lexemes?`: the lexemes of a document.
-/

namespace SourceEvolution

namespace Yaml

/-- How many bytes the colon may stand behind the start of its key. -/
def keyLimit : Nat := 1024

/-- A place where a key may have started. -/
structure KeyStart where
  /-- The first character of the key. -/
  place : PlacedChar
  /-- How many lexemes stand before the key. -/
  index : Nat
  /-- Whether nothing but a key can stand there. -/
  isRequired : Bool

/-- Whether it is too late for the colon behind a key: it must stand in the same line, and not too
far away. -/
def KeyStart.isPast (start : KeyStart) (here : PlacedChar) : Bool :=
  start.place.line < here.line || start.place.offset + keyLimit < here.offset

/-- What has been read of a document, and what the layout says about what comes next. -/
structure Layout where
  /-- The lexemes so far, last first. -/
  lexemes : List Lexeme := []
  /-- How many there are. -/
  count : Nat := 0
  /-- The columns of the block collections that are open, innermost first. -/
  blocks : List Nat := []
  /-- Whether a key may start here. -/
  keyAllowed : Bool := true
  /-- Where a key of the innermost collection may have started. -/
  keyStart : Option KeyStart := none
  /-- The same for what is around each flow collection that is open, innermost first. -/
  outerStarts : List (Option KeyStart) := []
  /-- The anchors so far, with their numbers. -/
  anchors : List (List Char × Nat) := []

namespace Layout

/-- Whether a flow collection is open. -/
def isFlow (layout : Layout) : Bool :=
  !layout.outerStarts.isEmpty

/-- The first column of what belongs to the innermost block collection. -/
def leastColumn (layout : Layout) : Nat :=
  layout.blocks.head?.elim 0 (· + 1)

/-- One more lexeme, with a number of the others before it. -/
def insert (layout : Layout) (index : Nat) (lexeme : Lexeme) : Layout :=
  { layout with
    lexemes := layout.lexemes.insertIdx (layout.count - index) lexeme
    count := layout.count + 1 }

/-- One more lexeme behind all others. -/
def emit (layout : Layout) (lexeme : Lexeme) : Layout :=
  { layout with lexemes := lexeme :: layout.lexemes, count := layout.count + 1 }

/-! ## Blocks -/

/-- Starts a block collection in a column, unless it is open already. `index` tells how many lexemes
stand before it. -/
def openBlock (layout : Layout) (column index : Nat) (start : Lexeme) : Layout :=
  if layout.isFlow || column < layout.leastColumn then layout
  else { layout.insert index start with blocks := column :: layout.blocks }

/-- Ends the block collections in a column and behind it. -/
def closeBlocks (layout : Layout) (column : Nat) : Layout :=
  if layout.isFlow then layout
  else
    (layout.blocks.takeWhile (column ≤ ·)).foldl (fun closed _ => closed.emit .blockEnd)
      { layout with blocks := layout.blocks.dropWhile (column ≤ ·) }

/-! ## Keys -/

/-- Gives up the place where a key of the innermost collection may have started. -/
def dropKey? (layout : Layout) : Option Layout :=
  if layout.keyStart.any KeyStart.isRequired then none
  else some { layout with keyStart := none }

/-- Remembers that a key may start here. In block style it must be a key if it stands in the column
of the collection around it. -/
def saveKey? (layout : Layout) (here : PlacedChar) : Option Layout :=
  if layout.keyAllowed then do
    let isRequired := !layout.isFlow && layout.blocks.head? == some here.column
    return { ← layout.dropKey? with keyStart := some ⟨here, layout.count, isRequired⟩ }
  else some layout

/-! ## Signs -/

/-- The mark of the start or of the end of a document, or a directive: all blocks end. -/
def atDocument? (layout : Layout) (lexeme : Lexeme) : Option Layout := do
  return { (← (layout.closeBlocks 0).dropKey?).emit lexeme with keyAllowed := false }

/-- The opening bracket of a flow collection, which may be a key as a whole. -/
def openFlow? (layout : Layout) (here : PlacedChar) (lexeme : Lexeme) : Option Layout := do
  let layout ← layout.saveKey? here
  return { layout.emit lexeme with
    keyAllowed := true
    keyStart := none
    outerStarts := layout.keyStart :: layout.outerStarts }

/-- The closing bracket of a flow collection. -/
def closeFlow? (layout : Layout) (lexeme : Lexeme) : Option Layout := do
  let layout ← layout.dropKey?
  return { layout.emit lexeme with
    keyAllowed := false
    keyStart := layout.outerStarts.head?.join
    outerStarts := layout.outerStarts.tail }

/-- The comma in a flow collection. -/
def separator? (layout : Layout) : Option Layout := do
  return { (← layout.dropKey?).emit .separator with keyAllowed := true }

/-- The hyphen before an item. In block style it starts a sequence where there is none. -/
def item? (layout : Layout) (here : PlacedChar) : Option Layout :=
  if layout.isFlow || layout.keyAllowed then do
    let layout := layout.openBlock here.column layout.count .blockSequence
    return { (← layout.dropKey?).emit .item with keyAllowed := true }
  else none

/-- The question mark before a key. In block style it starts a mapping where there is none. -/
def key? (layout : Layout) (here : PlacedChar) : Option Layout :=
  if layout.isFlow || layout.keyAllowed then do
    let layout := layout.openBlock here.column layout.count .blockMapping
    return { (← layout.dropKey?).emit .key with keyAllowed := !layout.isFlow }
  else none

/-- The colon before a value. If a key may have started before it, that was a key; if none may, this
is the value of a key with a question mark. -/
def value? (layout : Layout) (here : PlacedChar) : Option Layout :=
  match layout.keyStart.filter (!·.isPast here) with
  | some start =>
    let layout := { layout.insert start.index .key with keyStart := none, keyAllowed := false }
    some ((layout.openBlock start.place.column start.index .blockMapping).emit .value)
  | none =>
    if layout.isFlow || layout.keyAllowed then do
      let layout := layout.openBlock here.column layout.count .blockMapping
      return { (← layout.dropKey?).emit .value with keyAllowed := !layout.isFlow }
    else none

/-! ## Nodes -/

/-- Something that a key may start with; no other key may start right behind it. -/
def node? (layout : Layout) (here : PlacedChar) (lexeme : Lexeme) : Option Layout := do
  return { (← layout.saveKey? here).emit lexeme with keyAllowed := false }

/-- An anchor. Its number is how many names have been anchored so far, its own included if it has
been anchored before. Such a number may be given once more; references then lead to the last value
that has it. -/
def anchor? (layout : Layout) (here : PlacedChar) (name : List Char) : Option Layout := do
  let number := layout.anchors.length
  let layout ← layout.node? here (.anchor number)
  return { layout with anchors := (name, number) :: layout.anchors.filter (·.1 ≠ name) }

/-- A reference to an anchor, which must have been met. -/
def reference? (layout : Layout) (here : PlacedChar) (name : List Char) : Option Layout := do
  layout.node? here (.reference (← layout.anchors.lookup name))

/-- A scalar of whole lines, behind which a key may start. -/
def blockScalar? (layout : Layout) (text : String) : Option Layout := do
  return { (← layout.dropKey?).emit (.scalar text false) with keyAllowed := true }

/-- A plain scalar. If it was read up to another line, a key may start there. -/
def plain? (layout : Layout) (here : PlacedChar) (text : String) (crossed : Bool) :
    Option Layout := do
  return { ← layout.node? here (.scalar text true) with keyAllowed := crossed }

/-! ## Reading -/

/-- Reads the marks of documents and the directives. -/
def documentSign? (layout : Layout) (here : PlacedChar) (rest : PlacedText) :
    Option (Option (Layout × PlacedText)) :=
  if startsMark '-' (here :: rest) then
    some do return (← layout.atDocument? .documentStart, rest.drop 2)
  else if startsMark '.' (here :: rest) then
    some do return (← layout.atDocument? .documentEnd, rest.drop 2)
  else if here.column = 0 && here.char = '%' then
    some do
      let (directive, rest) ← directive? rest
      return (← layout.atDocument? (.directive directive), rest)
  else none

/-- Reads the signs of collections. -/
def collectionSign? (layout : Layout) (here : PlacedChar) (rest : PlacedText) :
    Option (Option Layout) :=
  let c := here.char
  let isSign := layout.isFlow || startsBreak rest
  if c = '[' then some (layout.openFlow? here .openSequence)
  else if c = '\x7b' then some (layout.openFlow? here .openMapping)
  else if c = ']' then some (layout.closeFlow? .closeSequence)
  else if c = '\x7d' then some (layout.closeFlow? .closeMapping)
  else if c = ',' then some layout.separator?
  else if c = '-' && startsBreak rest then some (layout.item? here)
  else if c = '?' && isSign then some (layout.key? here)
  else if c = ':' && isSign then some (layout.value? here)
  else none

/-- Reads a scalar, a tag, an anchor or a reference. -/
def nodeStep? (layout : Layout) (here : PlacedChar) (rest : PlacedText) :
    Option (Layout × PlacedText) := do
  let c := here.char
  if c = '*' then
    let (name, rest) ← anchorName? rest
    return (← layout.reference? here name, rest)
  else if c = '&' then
    let (name, rest) ← anchorName? rest
    return (← layout.anchor? here name, rest)
  else if c = '!' then
    let (name, rest) ← tagName? layout.isFlow rest
    return (← layout.node? here (.tag name), rest)
  else if (c = '|' || c = '>') && !layout.isFlow then
    let (text, rest) ← Yaml.blockScalar? (c == '>') layout.blocks.head? rest
    return (← layout.blockScalar? text, rest)
  else if c = '\x27' || c = '\x22' then
    let (text, rest) ← quoted? (here :: rest)
    return (← layout.node? here (.scalar text false), rest)
  else if startsPlain layout.isFlow (here :: rest) then
    let (text, rest, crossed) ← Yaml.plain? layout.isFlow layout.leastColumn {} (here :: rest)
    return (← layout.plain? here text crossed, rest)
  else none

/-- Reads what starts here. -/
def step? (layout : Layout) (here : PlacedChar) (rest : PlacedText) :
    Option (Layout × PlacedText) :=
  match layout.documentSign? here rest with
  | some result => result
  | none =>
    match layout.collectionSign? here rest with
    | some result => result.map (·, rest)
    | none => layout.nodeStep? here rest

/-- Reads the rest of a document, lexeme by lexeme. Each one takes a character at least, so that the
length of the text bounds their number. -/
def readAll? : Nat → Layout → PlacedText → Option (List Lexeme)
  | 0, _, _ => none
  | fuel + 1, layout, text =>
    let tabs := layout.isFlow || !layout.keyAllowed
    let (text, crossed) := skipGap layout.isFlow tabs false false text
    let layout := if crossed && !layout.isFlow then { layout with keyAllowed := true } else layout
    match text with
    | [] => do return (← (layout.closeBlocks 0).dropKey?).lexemes.reverse
    | here :: rest => do
      let (layout, rest) ← (layout.closeBlocks (here.column + 1)).step? here rest
      readAll? fuel layout rest

end Layout

/-- The lexemes of a document. -/
def lexemes? (text : PlacedText) : Option (List Lexeme) :=
  Layout.readAll? (text.length + 1) {} text

end Yaml

end SourceEvolution
