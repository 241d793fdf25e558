import SourceEvolution.Exclusion.Basic
import SourceEvolution.Planning.Frames
import SourceEvolution.Planning.Plan
import SourceEvolution.Random.ChaCha

/-!
# Planning

The tree of a file is walked from the root, each node before its children. A declaration opens a
frame. At every node each permitted kind of evolution is tried, and what is found goes to the
innermost frame. When a declaration has been walked, its frame is closed, one of the candidates in
it is drawn, and the drawn evolution is put at the end of the plan, behind what has to be applied
first.

* `PlannerConfig`: what planning depends on besides the file.
* `Walk`: the state of the walk.
* `Walk.visit`: the walk through a subtree.
* `planFile`, `planFiles`: the plan of a file, and of several files, each with a stream of its own.
-/

namespace SourceEvolution

/-- What planning depends on besides the file. -/
structure PlannerConfig where
  /-- The seed that the streams of all files are made from. -/
  seed : UInt64 := 0
  /-- How many aliases may be followed to resolve a type. -/
  aliasBound : Nat := defaultAliasBound
  /-- What is excluded. -/
  exclusions : Exclusions := {}

/-! ## Errors -/

/-- Why a walk ends early. -/
inductive WalkError where
  /-- A candidate was looked for without success, and not for want of the right form. -/
  | evolution (cause : EvolutionError)
  /-- A frame was not closed in its turn. -/
  | frame (cause : FrameError)
  /-- A candidate was found outside every frame. -/
  | stray (path : Path)
  /-- A number was drawn that is not the number of a candidate. -/
  | selection (index : Nat)
deriving DecidableEq, Repr

/-- The wording of a walk error. -/
def WalkError.message : WalkError → String
  | .evolution cause => cause.message
  | .frame cause => cause.message
  | .stray path => "candidate outside any declaration scope at " ++ path.render
  | .selection index => "no candidate " ++ Decimal.render index

/-- Why a file cannot be planned. -/
inductive PlanningError where
  /-- The file cannot be read. -/
  | unreadable (file : String)
  /-- The contents of the file are not a tree. -/
  | undecodable (file : String)
  /-- The root of the tree is not a source file. -/
  | invalidRoot (file : String) (kind : NodeKind)
  /-- The walk through the tree ended early. -/
  | walk (file : String) (cause : WalkError)
deriving DecidableEq, Repr

namespace PlanningError

/-- The file that an error belongs to. -/
def file : PlanningError → String
  | unreadable file => file
  | undecodable file => file
  | invalidRoot file _ => file
  | walk file _ => file

/-- The wording of a planning error. -/
def message : PlanningError → String
  | unreadable file => "cannot read " ++ file
  | undecodable file => "cannot decode " ++ file
  | invalidRoot file kind => file ++ ": root is " ++ kind.name ++ ", expected SourceFile"
  | walk file cause => file ++ ": " ++ cause.message

end PlanningError

/-! ## The walk -/

/-- The state of a walk. -/
structure Walk (G : Type) where
  /-- The declarations that are open. -/
  scope : Scope
  /-- Their candidates. -/
  frames : Frames := {}
  /-- The plan so far. -/
  plan : Plan := []
  /-- Where random words come from. -/
  words : G

namespace Walk

variable {G : Type} [WordSource G]

/-- A step of a walk. -/
abbrev Step (G α : Type) := EStateM WalkError (Walk G) α

/-- A random choice. -/
def draw {α : Type} (choose : G → α × G) : Step G α :=
  modifyGet fun walk =>
    let (choice, words) := choose walk.words
    (choice, { walk with words })

/-- An evolution of a kind at a site. That the kind does not apply there only means that there is
none. -/
def findAt (site : Site) (kind : EvolutionKind) : Step G (Option Evolution) := fun walk =>
  match kind.find site walk.words with
  | .ok found words => .ok found { walk with words }
  | .error .unsupported words => .ok none { walk with words }
  | .error cause words => .error (.evolution cause) { walk with words }

/-- Opens the scope and the frame of a node that is a declaration. -/
def openScope (node : Node) : Step G (Option FrameId) :=
  match Decl.ofNode? node with
  | none => pure none
  | some decl => modifyGet fun walk =>
    let (id, frames) := walk.frames.push
    (some id, { walk with scope := walk.scope.push decl, frames })

/-- Adds a candidate to the innermost frame. -/
def addCandidate (candidate : Candidate) : Step G Unit := do
  match (← get).frames.append candidate with
  | .ok frames => modify fun walk => { walk with frames }
  | .error rejected => throw (.stray rejected.path)

/-- The name that exclusions are asked about; without exclusions no name is needed. -/
def ruleName (exclusions : Exclusions) (scope : Scope) : String :=
  if exclusions.isEmpty then "" else scope.qualifiedName

/-- Tries one kind at a node. -/
def collectKind (exclusions : Exclusions) (path : Path) (node : Node) (kind : EvolutionKind) :
    Step G Unit := do
  let scope := (← get).scope
  if exclusions.permitsChain kind (ruleName exclusions scope) then
    match ← findAt ⟨node, scope, node.kind.isDeclaration⟩ kind with
    | some evolution => addCandidate ⟨evolution, node, path⟩
    | none => pure ()
  else pure ()

/-- Tries every kind at a node, in their fixed order. -/
def collect (exclusions : Exclusions) (path : Path) (node : Node) : Step G Unit :=
  EvolutionKind.all.forM (collectKind exclusions path node)

/-- Puts a chosen candidate at the end of the plan, behind what has to be applied first. -/
def commit (file : String) (candidate : Candidate) : Step G Unit :=
  modify fun walk =>
    let site : Site := ⟨candidate.node, walk.scope, candidate.node.kind.isDeclaration⟩
    let entries := (candidate.evolution.chain site).map
      (PlanEntry.forNode file candidate.path candidate.node)
    { walk with plan := walk.plan ++ entries }

/-- Closes a frame. -/
def closeFrame (id : FrameId) : Step G (List Candidate) := fun walk =>
  match walk.frames.pop id with
  | (.ok candidates, frames) => .ok candidates { walk with frames }
  | (.error cause, frames) => .error (.frame cause) { walk with frames }

/-- Chooses one of the candidates, if there is one. -/
def choose (file : String) (candidates : List Candidate) : Step G Unit :=
  if candidates.isEmpty then pure ()
  else do
    let index ← draw (WordSource.below candidates.length)
    match candidates[index]? with
    | some candidate => commit file candidate
    | none => throw (.selection index)

/-- Closes the scope and the frame that were opened for a node. -/
def closeScope (file : String) : Option FrameId → Step G Unit
  | none => pure ()
  | some id => do
    choose file (← closeFrame id)
    modify fun walk => { walk with scope := walk.scope.pop }

mutual

/-- The walk through a node and everything below it. -/
def visit (exclusions : Exclusions) (file : String) (path : Path) : Node → Step G Unit
  | ⟨kind, text, position, children⟩ => do
    let id ← openScope ⟨kind, text, position, children⟩
    collect exclusions path ⟨kind, text, position, children⟩
    visitAll exclusions file path 0 children
    closeScope file id

/-- The walk through the children of the node at a path, from an index on. -/
def visitAll (exclusions : Exclusions) (file : String) (path : Path) (index : Nat) :
    List Node → Step G Unit
  | [] => pure ()
  | child :: rest => do
    visit exclusions file (path.child index) child
    visitAll exclusions file path (index + 1) rest

end

end Walk

/-! ## Files -/

/-- The plan of a file, and what is left of the random words. -/
def planFile {G : Type} [WordSource G] (config : PlannerConfig) (source : SourceFile) (words : G) :
    Except PlanningError Plan × G :=
  if source.root.kind = .decl .file then
    match Walk.visit config.exclusions source.path [] source.root
        { scope := { aliasBound := config.aliasBound }, words } with
    | .ok _ walk => (.ok walk.plan, walk.words)
    | .error cause walk => (.error (.walk source.path cause), walk.words)
  else (.error (.invalidRoot source.path source.root.kind), words)

/-- The seed of the stream of a file. -/
def fileSeed (seed : UInt64) (file : String) : UInt64 :=
  (Digest.ofBytes (Word.toBytes64 seed ++ Digest.textBytes file)).leadingWord

/-- The plan of one of several files, with a stream of its own. -/
def planSeeded (config : PlannerConfig) (source : SourceFile) : Except PlanningError Plan :=
  (planFile config source (WordStream.ofSeed (fileSeed config.seed source.path))).1

/-- The plans of several files. No file has an influence on another. -/
def planFiles (config : PlannerConfig) (sources : List SourceFile) :
    List (Except PlanningError Plan) :=
  sources.map (planSeeded config)

/-- The plan of all files that can be planned. -/
def combinedPlan (config : PlannerConfig) (sources : List SourceFile) : Plan :=
  (planFiles config sources).flatMap fun result => result.toOption.getD []

/-- The file with the given contents; none if it cannot be read. -/
def SourceFile.load (file : String) (contents : Option ByteArray) :
    Except PlanningError SourceFile :=
  match contents.bind String.fromUTF8? with
  | none => .error (.unreadable file)
  | some text =>
    match SourceFile.parse? text with
    | none => .error (.undecodable file)
    | some source => .ok source

end SourceEvolution
