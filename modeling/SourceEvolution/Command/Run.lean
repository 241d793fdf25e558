import SourceEvolution.Command.Arguments
import SourceEvolution.Exclusion.Document
import SourceEvolution.Planning.Replay
import SourceEvolution.Planning.Walk

/-!
# Running a command

What a command does is computed from the contents of the files that it reads. What it prints or
saves, and the code that it ends with, is the outcome.

* `Invocation.filesRead`: the files that a command reads.
* `Outcome`: what comes out of a command.
* `Invocation.run`: the outcome of a command.
-/

namespace SourceEvolution

/-- What comes out of a command. -/
structure Outcome where
  /-- The code that the program ends with. -/
  exitCode : UInt32
  /-- What is printed. -/
  printed : String := ""
  /-- The file that is saved, and its text. If it cannot be saved, the command has failed. -/
  saved? : Option (String × String) := none
deriving DecidableEq, Repr

namespace Outcome

/-- The code of a command that did all it was asked for. -/
def success : UInt32 := 0

/-- The code of a command that failed, or that failed for some of its files. -/
def failure : UInt32 := 1

/-- The code for a command line that asks for nothing the program knows. -/
def usage : UInt32 := 2

/-- A command that failed altogether. -/
def failed : Outcome := { exitCode := failure }

/-- A command line that is not one of the program. -/
def misused : Outcome := { exitCode := usage }

/-- A text, printed or saved with a line end behind it. -/
def written (text : String) (output? : Option String) (isComplete : Bool) : Outcome :=
  let exitCode := if isComplete then success else failure
  match output? with
  | none => { exitCode, printed := text ++ "\n" }
  | some file => { exitCode, saved? := some (file, text ++ "\n") }

end Outcome

namespace Invocation

/-- What the program calls itself. -/
def programName : String := "swift-evolve-plan"

/-- The version of the program. -/
def programVersion : String := "0.1.0"

/-- The text that is shown about a topic. -/
def helpText : HelpTopic → String
  | .program =>
    "Plan and replay ABI-preserving source evolutions\n\n" ++
    "Usage: " ++ programName ++ " [OPTIONS] <COMMAND>\n\n" ++
    "Commands:\n" ++
    "  plan    Choose evolutions for parsed source files\n" ++
    "  replay  Apply a saved plan to parsed source files\n" ++
    "  help    Print this message or the help of the given subcommand(s)\n\n" ++
    "Options:\n" ++
    "      --json-logs  Emit logs as JSON lines\n" ++
    "  -h, --help       Print help\n" ++
    "  -V, --version    Print version\n"
  | .plan =>
    "Choose evolutions for parsed source files\n\n" ++
    "Usage: " ++ programName ++ " plan [OPTIONS] <inputs>...\n\n" ++
    "Arguments:\n" ++
    "  <inputs>...  Parsed source files (JSON trees)\n\n" ++
    "Options:\n" ++
    "      --seed <seed>                        Master random seed [default: 0]\n" ++
    "      --rules <rules>                      Exclusion rules (.json, .yaml or .yml)\n" ++
    "      --max-alias-depth <max-alias-depth>  " ++
    "Bound on type alias chains followed during resolution [default: 32]\n" ++
    "  -o, --output <output>                    Plan output path (stdout if omitted)\n" ++
    "      --json-logs                          Emit logs as JSON lines\n" ++
    "  -h, --help                               Print help\n"
  | .replay =>
    "Apply a saved plan to parsed source files\n\n" ++
    "Usage: " ++ programName ++ " replay [OPTIONS] --plan <plan> <inputs>...\n\n" ++
    "Arguments:\n" ++
    "  <inputs>...  Parsed source files (JSON trees)\n\n" ++
    "Options:\n" ++
    "      --plan <plan>      Plan produced by the plan subcommand\n" ++
    "  -o, --output <output>  Evolved trees output path (stdout if omitted)\n" ++
    "      --json-logs        Emit logs as JSON lines\n" ++
    "  -h, --help             Print help\n"

/-- The files that a command reads. -/
def filesRead : Invocation → List String
  | plan options => options.rules?.toList ++ options.inputs
  | replay options => options.plan :: options.inputs
  | help _ => []
  | version => []

/-- The files that can be loaded, and whether these are all. -/
def loadAll (read : String → Option ByteArray) (files : List String) : List SourceFile × Bool :=
  let results := files.map fun file => SourceFile.load file (read file)
  (results.filterMap Except.toOption, results.all Except.isOk)

/-- The exclusions that a command is given; without a file for them nothing is excluded. -/
def loadExclusions (read : String → Option ByteArray) :
    Option String → Except ExclusionError Exclusions
  | none => .ok {}
  | some file => Exclusions.load file (read file)

/-- Plans the files that can be planned. -/
def runPlan (read : String → Option ByteArray) (options : PlanOptions) : Outcome :=
  match loadExclusions read options.rules? with
  | .error _ => Outcome.failed
  | .ok exclusions =>
    let config : PlannerConfig :=
      { seed := options.seed, aliasBound := options.aliasBound, exclusions }
    let (sources, allLoaded) := loadAll read options.inputs
    let allPlanned := (planFiles config sources).all Except.isOk
    Outcome.written (combinedPlan config sources).render options.output? (allLoaded && allPlanned)

/-- Replays a plan on the files that it can be replayed on. -/
def runReplay (read : String → Option ByteArray) (options : ReplayOptions) : Outcome :=
  match ((read options.plan).bind String.fromUTF8?).bind Plan.parse? with
  | none => Outcome.failed
  | some saved =>
    let (sources, allLoaded) := loadAll read options.inputs
    let results := sources.map fun source => SourceEvolution.replay source saved
    let evolved := results.filterMap Except.toOption
    Outcome.written (Json.array (evolved.map SourceFile.toJson)).pretty options.output?
      (allLoaded && results.all Except.isOk)

/-- The outcome of a command, given the contents of the files that can be read. -/
def run (read : String → Option ByteArray) : Invocation → Outcome
  | plan options => runPlan read options
  | replay options => runReplay read options
  | help topic => { exitCode := Outcome.success, printed := helpText topic }
  | version =>
    { exitCode := Outcome.success, printed := programName ++ " " ++ programVersion ++ "\n" }

end Invocation

/-- The outcome of a command line. -/
def runCommandLine (read : String → Option ByteArray) (arguments : List String) : Outcome :=
  match Invocation.parse? arguments with
  | none => Outcome.misused
  | some invocation => invocation.run read

end SourceEvolution
