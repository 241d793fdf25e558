import SourceEvolution.Json.Value

/-!
# Reading JSON

A text is read token by token. The reader holds the containers that are open, the innermost first,
each with what it holds so far, and knows what may come next; so the number of open containers is
the length of a list. A container inside too many others has no value, and so has an object with a
name that stands for no text. They are read to their end all the same, since they may stand where
nothing is looked at.

* `Reader`: what has been read so far and what is expected.
* `Reader.step`: the effect of one token.
* `Json.parseWithin?`: the value of a text, in which only so many containers stand in one another.
* `Json.parse?`: the same with the bound that documents are held to.
-/

namespace SourceEvolution

/-- An open container that waits for one of its values. What it holds already is kept last first; a
name is missing if it stands for no text. -/
inductive OpenContainer where
  | array (items : List Json)
  | object (fields : List (Option String × Json)) (name : Option String)
deriving Repr

/-- What has been read so far and what is expected next. -/
inductive Reader where
  /-- A value. -/
  | value (containers : List OpenContainer)
  /-- The first item of an array, or its end. -/
  | firstItem (containers : List OpenContainer)
  /-- The first field of an object, or its end. -/
  | firstField (containers : List OpenContainer)
  /-- Another field of an object. -/
  | field (fields : List (Option String × Json)) (containers : List OpenContainer)
  /-- The colon after the name of a field. -/
  | colon (name : Option String) (fields : List (Option String × Json))
    (containers : List OpenContainer)
  /-- A value is complete: what closes or continues the container it stands in. -/
  | complete (value : Json) (containers : List OpenContainer)
deriving Repr

namespace Reader

/-- Whether a list is shorter than a limit, told without going through more of it than that. -/
def isShorter {α : Type} : Nat → List α → Bool
  | 0, _ => false
  | _ + 1, [] => true
  | limit + 1, _ :: rest => isShorter limit rest

/-- Being shorter is a matter of length. -/
theorem isShorter_eq {α : Type} (limit : Nat) (xs : List α) :
    isShorter limit xs = decide (xs.length < limit) := by
  induction limit generalizing xs with
  | zero => simp [isShorter]
  | succ limit ih => cases xs <;> simp [isShorter, ih]

/-- A container is complete. It has no value if `limit` others or more are open around it. -/
def close (limit : Nat) (json : Json) (containers : List OpenContainer) : Reader :=
  .complete (if isShorter limit containers then json else .broken) containers

/-- The object with the given fields, last first. It has no value if a name is missing. -/
def objectOf (fields : List (Option String × Json)) : Json :=
  match fields.reverse.mapM fun field => field.1.map fun name => (name, field.2) with
  | some fields => .object fields
  | none => .broken

/-- The first token of a value. -/
def startValue (containers : List OpenContainer) : Token → Option Reader
  | .null => some (.complete .null containers)
  | .bool b => some (.complete (.bool b) containers)
  | .natural n => some (.complete (.natural n) containers)
  | .number literal => some (.complete (.number literal) containers)
  | .string s => some (.complete (.string s) containers)
  | .brokenString => some (.complete .broken containers)
  | .openArray => some (.firstItem containers)
  | .openObject => some (.firstField containers)
  | _ => none

/-- The name of a field of an object. -/
def startField (fields : List (Option String × Json)) (containers : List OpenContainer) :
    Token → Option Reader
  | .string name => some (.colon (some name) fields containers)
  | .brokenString => some (.colon none fields containers)
  | _ => none

/-- The token after a complete value. -/
def afterValue (limit : Nat) (json : Json) : List OpenContainer → Token → Option Reader
  | .array items :: containers, .comma => some (.value (.array (json :: items) :: containers))
  | .array items :: containers, .closeArray =>
    some (close limit (.array (json :: items).reverse) containers)
  | .object fields name :: containers, .comma => some (.field ((name, json) :: fields) containers)
  | .object fields name :: containers, .closeObject =>
    some (close limit (objectOf ((name, json) :: fields)) containers)
  | _, _ => none

/-- The effect of one token; none if it may not stand here. -/
def step (limit : Nat) : Reader → Token → Option Reader
  | value containers, token => startValue containers token
  | firstItem containers, .closeArray => some (close limit (.array []) containers)
  | firstItem containers, token => startValue (.array [] :: containers) token
  | firstField containers, .closeObject => some (close limit (.object []) containers)
  | firstField containers, token => startField [] containers token
  | field fields containers, token => startField fields containers token
  | colon name fields containers, .colon => some (value (.object fields name :: containers))
  | complete json containers, token => afterValue limit json containers token
  | _, _ => none

/-- The value that has been read, if nothing is left open. -/
def result? : Reader → Option Json
  | complete json [] => some json
  | _ => none

end Reader

namespace Json

/-- The value that a list of tokens stands for. -/
def ofTokens? (limit : Nat) (tokens : List Token) : Option Json :=
  (tokens.foldlM (Reader.step limit) (.value [])).bind Reader.result?

/-- The value of a text. A container inside `limit` others or more has no value. -/
def parseWithin? (limit : Nat) (text : String) : Option Json :=
  (Token.scan text.toList).bind (ofTokens? limit)

/-- How many arrays and objects may be open at any point, where a document is not passed over. -/
def nestingLimit : Nat := 127

/-- The value of a document. -/
def parse? (text : String) : Option Json :=
  parseWithin? nestingLimit text

end Json

end SourceEvolution
