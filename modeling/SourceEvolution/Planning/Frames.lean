import SourceEvolution.Change.Evolution

/-!
# Frames of candidates

While a tree is walked, each open declaration has a frame for the candidates found in it. A frame is
opened and closed in pairs: opening hands out an id, and closing asks for it back.

* `Frames.push`, `Frames.append`, `Frames.pop`: opening a frame, adding a candidate to the innermost
  one, and closing it.
* `FrameError`: closing with an id that is not that of the innermost frame.
-/

namespace SourceEvolution

/-- An evolution that could be chosen for a node. -/
structure Candidate where
  /-- The evolution. -/
  evolution : Evolution
  /-- The node. -/
  node : Node
  /-- The path of the node. -/
  path : Path

/-- The id of a frame: how many frames were open when it was opened, and how many had been opened
before it. -/
structure FrameId where
  /-- The number of frames below it. -/
  depth : Nat
  /-- The number of frames opened before it. -/
  serial : Nat
deriving DecidableEq, Repr

/-- The id of a frame in words. -/
def FrameId.render (id : FrameId) : String :=
  "FrameId \x7b depth: " ++ Decimal.render id.depth ++ ", serial: " ++ Decimal.render id.serial ++
    " \x7d"

/-- Why a frame cannot be closed. -/
inductive FrameError where
  /-- No frame is open. -/
  | noOpenFrame (id : FrameId)
  /-- The id is not that of the innermost frame. -/
  | outOfOrder (expected : Nat) (id : FrameId)
deriving DecidableEq, Repr

/-- The wording of a frame error. -/
def FrameError.message : FrameError → String
  | .noOpenFrame id => "pop of frame " ++ id.render ++ " with no open frame"
  | .outOfOrder expected id =>
    "frame pop out of order: expected serial " ++ Decimal.render expected ++ ", got " ++ id.render

/-- A frame. -/
structure Frame where
  /-- The number of frames opened before it. -/
  serial : Nat
  /-- Its candidates, in the order in which they were found. -/
  candidates : List Candidate

/-- The open frames. -/
structure Frames where
  /-- The frames, the innermost first. -/
  stack : List Frame := []
  /-- The number of frames opened so far. -/
  nextSerial : Nat := 0

namespace Frames

/-- Whether no frame is open. -/
def isEmpty (frames : Frames) : Bool :=
  frames.stack.isEmpty

/-- Opens an empty frame. -/
def push (frames : Frames) : FrameId × Frames :=
  (⟨frames.stack.length, frames.nextSerial⟩,
    ⟨⟨frames.nextSerial, []⟩ :: frames.stack, frames.nextSerial + 1⟩)

/-- Adds a candidate to the innermost frame; none if no frame is open. -/
def append? (frames : Frames) (candidate : Candidate) : Option Frames :=
  match frames.stack with
  | [] => none
  | frame :: rest =>
    some { frames with
      stack := { frame with candidates := frame.candidates ++ [candidate] } :: rest }

/-- Adds a candidate to the innermost frame; the candidate is handed back if no frame is open. -/
def append (frames : Frames) (candidate : Candidate) : Except Candidate Frames :=
  match frames.append? candidate with
  | some after => .ok after
  | none => .error candidate

/-- Closes the innermost frame and hands out its candidates. It is closed in any case; with an id
that is not its own that is an error. -/
def pop (frames : Frames) (id : FrameId) : Except FrameError (List Candidate) × Frames :=
  match frames.stack with
  | [] => (.error (.noOpenFrame id), frames)
  | frame :: rest =>
    if id.depth = rest.length ∧ id.serial = frame.serial then
      (.ok frame.candidates, { frames with stack := rest })
    else (.error (.outOfOrder frame.serial id), { frames with stack := rest })

end Frames

end SourceEvolution
