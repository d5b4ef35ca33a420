import FieldWiring.CommandLine.Reading
import FieldWiring.Files.Path

/-!
# The commands

What the program can be asked for: generating units, and listing candidates.

Model of `_build_parser`, with the usage and help texts it has for a width of 80 columns
(specification, §6).

Results:
* `read_generate`: the name of the command alone asks for the project where one is.
-/

namespace FieldWiring.CommandLine

/-- What to do. -/
inductive Command where
  | generate
  | list
deriving DecidableEq, Repr

namespace Command

/-- The name of a command. -/
def name : Command → String
  | generate => "generate"
  | list => "list"

/-- All commands. -/
def all : List Command := [generate, list]

end Command

/-- What was said about how to do it. An option may have been given without a value. -/
structure Options where
  isVerbose : Bool := false
  path : String := "."
  kinds : List (Option String) := []
  output : Option Path := none
  isDry : Bool := false
  dump : Option Path := none
  workers : Option (Option Int) := none
  log : Option (Option Path) := none
deriving DecidableEq, Repr

/-- A command and its options. -/
structure Invocation where
  command : Command
  options : Options
deriving DecidableEq, Repr

/-! ## Options -/

namespace Options

/-- The option that shows the help. -/
def help {σ : Type} : Switch σ := ⟨["-h", "--help"], .help⟩

/-- The option for more notes. -/
def verbose : Switch Options := ⟨["-v", "--verbose"], .flag fun o => { o with isVerbose := true }⟩

/-- The option for the kinds of generators; every use adds one. -/
def kind : Switch Options :=
  ⟨["-k", "--kind"], .value fun text o => .ok { o with kinds := o.kinds ++ [text] }⟩

/-- The option for the directory that takes the units. -/
def outputSwitch : Switch Options :=
  ⟨["-o", "--output"], .value fun text o => .ok { o with output := text.map .ofText }⟩

/-- The option to write nothing. -/
def dryRun : Switch Options := ⟨["--dry-run"], .flag fun o => { o with isDry := true }⟩

/-- The option for the dump. -/
def debugDump : Switch Options :=
  ⟨["--debug-dump"], .value fun text o => .ok { o with dump := text.map .ofText }⟩

/-- The option for the number of workers. -/
def workersSwitch : Switch Options :=
  ⟨["--workers"], .value fun
    | none, o => .ok { o with workers := some none }
    | some text, o =>
      match Text.readInt text with
      | .ok n => .ok { o with workers := some (some n) }
      | .error _ => .error ("invalid int value: " ++ Text.quoted text)⟩

/-- The option for the log file. -/
def logFile : Switch Options :=
  ⟨["--log-file"], .value fun text o => .ok { o with log := some (text.map .ofText) }⟩

/-- The operand: the path to the project. -/
def project : Operand Options := .optional fun text o => { o with path := text }

end Options

/-! ## Forms -/

/-- The name under which the program speaks of itself. -/
def programName : String := "resolvergen"

/-- What the help says about options that all commands have. -/
def commonHelp : String :=
  "positional arguments:\n" ++
  "  path                  Path to the project root (defaults to current\n" ++
  "                        directory).\n\n" ++
  "options:\n" ++
  "  -h, --help            show this help message and exit\n" ++
  "  -v, --verbose         Increase log verbosity for troubleshooting.\n" ++
  "  -k KIND, --kind KIND  Generator kind to run; repeatable. Known kinds:\n" ++
  "                        dependency, scene_node (defaults to all enabled).\n"

/-- The form for generating. -/
def generateForm : Form Options where
  program := programName ++ " generate"
  usage :=
    "usage: resolvergen generate [-h] [-v] [-k KIND] [-o OUTPUT] [--dry-run]\n" ++
    "                            [--debug-dump DEBUG_DUMP] [--workers WORKERS]\n" ++
    "                            [--log-file LOG_FILE]\n" ++
    "                            [path]\n"
  details := commonHelp ++
    "  -o OUTPUT, --output OUTPUT\n" ++
    "                        Directory for generated units (defaults to output_dir\n" ++
    "                        or ./Generated).\n" ++
    "  --dry-run             Report what would be generated without writing files.\n" ++
    "  --debug-dump DEBUG_DUMP\n" ++
    "                        Write a diagnostic dump of fields, hierarchy chains\n" ++
    "                        and generated text.\n" ++
    "  --workers WORKERS     Number of worker threads used per generator kind.\n" ++
    "  --log-file LOG_FILE   Also write DEBUG-level logs to this file.\n"
  switches := [Options.help, Options.verbose, Options.kind, Options.outputSwitch, Options.dryRun,
    Options.debugDump, Options.workersSwitch, Options.logFile]
  operand := Options.project

/-- The form for listing. -/
def listForm : Form Options where
  program := programName ++ " list"
  usage := "usage: resolvergen list [-h] [-v] [-k KIND] [path]\n"
  details := commonHelp
  switches := [Options.help, Options.verbose, Options.kind]
  operand := Options.project

/-- The form of a command. -/
def Command.form : Command → Form Options
  | generate => generateForm
  | list => listForm

/-- What stands in front of a command, and the command. -/
structure Opening where
  isVerbose : Bool := false
  invocation : Option Invocation := none
deriving DecidableEq, Repr

/-- How the program is called. -/
def usageText : String := "usage: resolvergen [-h] [-v] \x7bgenerate,list\x7d ...\n"

/-- The reply to a command that there is not. -/
def unknownCommand (name : String) : Reply :=
  { code := 2
    err := usageText ++ programName ++ ": error: argument command: invalid choice: " ++
      Text.quoted name ++ " (choose from " ++
      ", ".intercalate (Command.all.map fun c => Text.quoted c.name) ++ ")\n" }

/-- Reads a command with all that follows it. -/
def readCommand : List String → Opening → Except Reply (Opening × List String)
  | [], o => .ok (o, [])
  | name :: arguments, o =>
    match Command.all.find? fun c => c.name = name with
    | none => .error (unknownCommand name)
    | some c => do
      let (options, left) ← c.form.read { isVerbose := o.isVerbose } arguments
      return ({ o with invocation := some ⟨c, options⟩ }, left)

/-- The form of the program as a whole. -/
def programForm : Form Opening where
  program := programName
  usage := usageText
  details :=
    "Generate field resolver units for [InjectDependency] and [SceneNode] markers.\n\n" ++
    "positional arguments:\n" ++
    "  \x7bgenerate,list\x7d\n" ++
    "    generate       Generate resolver units for every marked partial class.\n" ++
    "    list           List candidate classes per generator kind.\n\n" ++
    "options:\n" ++
    "  -h, --help       show this help message and exit\n" ++
    "  -v, --verbose    Increase log verbosity for troubleshooting.\n"
  switches := [Options.help, ⟨["-v", "--verbose"], .flag fun o => { o with isVerbose := true }⟩]
  operand := .command "command" readCommand

/-- What the arguments of the program ask for, or the reply to them. -/
def Invocation.read (arguments : List String) : Except Reply Invocation := do
  let (opening, left) ← programForm.read {} arguments
  match opening.invocation, left with
  | some i, [] => return i
  | _, _ => throw (programForm.misuse ("unrecognized arguments: " ++ " ".intercalate left))

theorem read_generate :
    (Invocation.read ["generate"]).toOption = some ⟨.generate, {}⟩ := by
  decide +kernel

end FieldWiring.CommandLine
