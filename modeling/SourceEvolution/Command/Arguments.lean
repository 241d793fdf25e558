import SourceEvolution.Scope.Basic
import SourceEvolution.Text.Decimal

/-!
# Command lines

What a command line asks for. The command is `plan` or `replay`; each has options with a value, and
files as its operands.

* `Invocation`: what is asked for.
* `Arguments.scan`: options and operands, told apart.
* `Invocation.parse`: the invocation of a command line, or the news that it is none.
-/

namespace SourceEvolution

/-! ## Invocations -/

/-- What a `plan` command is given. -/
structure PlanOptions where
  /-- The files to plan. -/
  inputs : List String
  /-- The seed. -/
  seed : UInt64
  /-- The file that lists exclusions. -/
  rules? : Option String
  /-- How many aliases may be followed to resolve a type. -/
  aliasBound : Nat
  /-- The file that the plan is saved in. -/
  output? : Option String
deriving DecidableEq, Repr

/-- What a `replay` command is given. -/
structure ReplayOptions where
  /-- The files to replay the plan on. -/
  inputs : List String
  /-- The file that holds the plan. -/
  plan : String
  /-- The file that the evolved trees are saved in. -/
  output? : Option String
deriving DecidableEq, Repr

/-- A subject that help can be asked about. -/
inductive HelpTopic where
  | program
  | plan
  | replay
deriving DecidableEq, Repr

/-- What a command line asks for. -/
inductive Invocation where
  | plan (options : PlanOptions)
  | replay (options : ReplayOptions)
  | help (topic : HelpTopic)
  | version
deriving DecidableEq, Repr

/-! ## Options and operands -/

/-- What belongs to an option. -/
inductive OptionKind where
  /-- Nothing: the option is a switch. -/
  | switch
  /-- A number of at most 64 bits. -/
  | word
  /-- The name of a file. -/
  | file
deriving DecidableEq, Repr

/-- Whether a text is a value for an option of the kind. A file name is not empty. -/
def OptionKind.accepts (text : String) : OptionKind → Bool
  | switch => true
  | word => (Decimal.parseWord? text.toList).isSome
  | file => text ≠ ""

/-- An option that a command knows. -/
structure OptionSpec where
  /-- The name behind two hyphens. -/
  long : String
  /-- The letter behind one hyphen. -/
  short? : Option Char := none
  /-- What belongs to it. -/
  kind : OptionKind := .file

/-- A command line, taken apart. -/
structure Arguments where
  /-- The options that were given, each with its value; the value of a switch is empty. -/
  options : List (String × String) := []
  /-- The operands, in order. -/
  operands : List String := []

/-- Why a command line is not taken apart to its end. -/
inductive ArgumentStop where
  /-- It is not a command line of the program. -/
  | usage
  /-- It asks for help. -/
  | help
deriving DecidableEq, Repr

namespace Arguments

/-- The value that was given for an option. -/
def value? (arguments : Arguments) (long : String) : Option String :=
  arguments.options.lookup long

/-- The arguments with one more option, which may be given once. -/
def addOption (arguments : Arguments) (spec : OptionSpec) (value : String) :
    Except ArgumentStop Arguments :=
  if (arguments.value? spec.long).isSome || !spec.kind.accepts value then .error .usage
  else .ok { arguments with options := arguments.options ++ [(spec.long, value)] }

/-- The arguments with one more operand, which is the name of a file. -/
def addOperand (arguments : Arguments) (operand : String) : Except ArgumentStop Arguments :=
  if OptionKind.file.accepts operand then
    .ok { arguments with operands := arguments.operands ++ [operand] }
  else .error .usage

/-- Whether an argument can be the value of the option before it. -/
def isValue (argument : String) : Bool :=
  match argument.toList with
  | '-' :: _ :: _ => false
  | _ => true

/-- What an argument is, given the options of the command. -/
inductive Shape where
  /-- An operand. -/
  | operand
  /-- The mark behind which everything is an operand. -/
  | separator
  /-- An option, with the value that is written into the same argument. -/
  | option (spec : OptionSpec) (value? : Option String)
  /-- The wish for help. -/
  | help
  /-- Nothing that the command knows. -/
  | unknown

/-- The shape of an argument. -/
def shapeOf (specs : List OptionSpec) (argument : String) : Shape :=
  match argument.toList with
  | ['-', '-'] => .separator
  | '-' :: '-' :: cs =>
    let name := String.ofList (cs.takeWhile (· != '='))
    let value? := match cs.dropWhile (· != '=') with
      | _ :: value => some (String.ofList value)
      | [] => none
    if name = "help" ∧ value? = none then .help
    else match specs.find? fun spec => spec.long == name with
      | some spec => .option spec value?
      | none => .unknown
  | '-' :: letter :: cs =>
    if letter = 'h' then .help
    else match specs.find? fun spec => spec.short? == some letter with
      | some spec =>
        .option spec (match cs with
          | [] => none
          | '=' :: value => some (String.ofList value)
          | value => some (String.ofList value))
      | none => .unknown
  | _ => .operand

/-- Tells options and operands apart. Each is checked when it is met, so that of a wrong value and a
wish for help the one that comes first counts. -/
def scan (specs : List OptionSpec) (arguments : Arguments) :
    List String → Except ArgumentStop Arguments
  | [] => .ok arguments
  | argument :: rest =>
    match shapeOf specs argument with
    | .operand => do scan specs (← arguments.addOperand argument) rest
    | .separator => rest.foldlM addOperand arguments
    | .help => .error .help
    | .unknown => .error .usage
    | .option spec value? =>
      match spec.kind, value?, rest with
      | .switch, none, rest => do scan specs (← arguments.addOption spec "") rest
      | .switch, some _, _ => .error .usage
      | _, some value, rest => do scan specs (← arguments.addOption spec value) rest
      | _, none, value :: rest =>
        if isValue value then do scan specs (← arguments.addOption spec value) rest
        else .error .usage
      | _, none, [] => .error .usage

/-! ## Values -/

/-- The number given for an option. -/
def word? (arguments : Arguments) (long : String) : Option Nat :=
  (arguments.value? long).bind fun text => Decimal.parseWord? text.toList

/-- The operands, of which there must be at least one. -/
def files (arguments : Arguments) : Except ArgumentStop (List String) :=
  if arguments.operands.isEmpty then .error .usage else .ok arguments.operands

end Arguments

namespace Invocation

/-- The switch for the form of the log. -/
def logSwitch : OptionSpec := { long := "json-logs", kind := .switch }

/-- The options of `plan`. -/
def planSpecs : List OptionSpec :=
  [{ long := "seed", kind := .word }, { long := "rules" },
    { long := "max-alias-depth", kind := .word }, { long := "output", short? := some 'o' },
    logSwitch]

/-- The options of `replay`. -/
def replaySpecs : List OptionSpec :=
  [{ long := "plan" }, { long := "output", short? := some 'o' }, logSwitch]

/-- The invocation of the arguments behind `plan`. -/
def parsePlan (arguments : List String) : Except ArgumentStop Invocation := do
  let arguments ← Arguments.scan planSpecs {} arguments
  return .plan {
    inputs := ← arguments.files
    seed := UInt64.ofNat ((arguments.word? "seed").getD 0)
    rules? := arguments.value? "rules"
    aliasBound := (arguments.word? "max-alias-depth").getD defaultAliasBound
    output? := arguments.value? "output" }

/-- The invocation of the arguments behind `replay`. -/
def parseReplay (arguments : List String) : Except ArgumentStop Invocation := do
  let arguments ← Arguments.scan replaySpecs {} arguments
  let inputs ← arguments.files
  match arguments.value? "plan" with
  | none => .error .usage
  | some saved => return .replay { inputs, plan := saved, output? := arguments.value? "output" }

/-- An invocation, with the wish for help about a topic granted. -/
def orHelp (topic : HelpTopic) : Except ArgumentStop Invocation → Option Invocation
  | .ok invocation => some invocation
  | .error .help => some (.help topic)
  | .error .usage => none

/-- The invocation of the arguments behind `help`. -/
def parseHelp? : List String → Option Invocation
  | [] => some (.help .program)
  | ["plan"] => some (.help .plan)
  | ["replay"] => some (.help .replay)
  | ["help"] => some (.help .program)
  | _ => none

/-- The invocation of the arguments behind the name of a command. -/
def parseCommand? (command : String) (arguments : List String) : Option Invocation :=
  if command = "plan" then orHelp .plan (parsePlan arguments)
  else if command = "replay" then orHelp .replay (parseReplay arguments)
  else if command = "help" then parseHelp? arguments
  else none

/-- The invocation that the options before the name of a command ask for. -/
def ofOption? (argument : String) : Option Invocation :=
  match argument.toList with
  | '-' :: 'h' :: _ => some (.help .program)
  | '-' :: 'V' :: _ => some .version
  | _ =>
    if argument = "--help" then some (.help .program)
    else if argument = "--version" then some .version
    else none

/-- The invocation of a command line; none if it is not one of the program. The switch for the log
may stand once before the command; `switched` tells that it does. -/
def parseFrom? (switched : Bool) : List String → Option Invocation
  | [] => none
  | argument :: rest =>
    match ofOption? argument with
    | some invocation => some invocation
    | none =>
      if argument = "--json-logs" then if switched then none else parseFrom? true rest
      else parseCommand? argument rest

/-- The invocation of a command line; none if it is not one of the program. -/
def parse? (arguments : List String) : Option Invocation :=
  parseFrom? false arguments

end Invocation

end SourceEvolution
