import FieldWiring.CommandLine.Command
import FieldWiring.Project

/-!
# Calls of the program

What a call of the program with its arguments does to the files, and how it ends: what it prints,
and its exit code. A fault in the input is answered by a message; another error ends the call as it
is.

Model of `main` and `_relativize` (specification, §6): `Invocation.perform` is the body of `main`,
`errorReply?` its `except` clauses, and `openLog` the file handler of `configure_logging`.

Results:
* `run_of_misuse`: arguments that cannot be read change no file.
-/

namespace FieldWiring.CommandLine

/-- How a call ended: with an exit code, or by an error that it does not answer. -/
structure Ending where
  code : Except RunError Nat
  out : String := ""
  err : String := ""

/-- The ending that a reply is. -/
def Ending.ofReply (r : Reply) : Ending := ⟨.ok r.code, r.out, r.err⟩

/-! ## Texts -/

/-- Lines of output. -/
def unlines (lines : List String) : String := String.join (lines.map (· ++ "\n"))

/-- A path as it is shown: from where one is, if it leads below. -/
def shownPath (here : Location) (p : Path) : String :=
  ((p.relativeTo? (.ofLocation here)).getD p).text

/-- What is printed about a run. -/
def generateReply (here : Location) (o : GenerateOutcome) : Reply :=
  let verb := if o.isDry then "would write " else "generated "
  let units := o.result.units.map fun u => verb ++ shownPath here (o.outputDir.joinText u.fileName)
  let removed := (o.report.elim [] (·.removed)).map fun p => "removed " ++ shownPath here p
  let failures := o.result.failures.map fun f => "error: " ++ f.describe
  let closing :=
    if failures.isEmpty then []
    else [Text.natText failures.length ++ " candidate(s) failed; other units were generated."]
  { code := if failures.isEmpty then 0 else 1
    out := unlines (units ++ removed)
    err := unlines (failures ++ closing) }

/-- What is printed about the candidates of a kind. -/
def kindLines (kind : GeneratorKind) (candidates : List TypeDeclaration) : List String :=
  (kind.key ++ ":") ::
    if candidates.isEmpty then ["  (none)"]
    else candidates.map fun d =>
      "  " ++ d.qualifiedName ++ " (" ++ d.unitPath ++ ":" ++ Text.intText d.line ++ ")"

/-- What is printed about candidates. -/
def listReply (kinds : List (GeneratorKind × List TypeDeclaration)) : Reply :=
  { code := 0, out := unlines (kinds.flatMap fun (kind, ds) => kindLines kind ds) }

/-- The answer to an error, if there is one. -/
def errorReply? (c : Command) (e : RunError) : Option Reply :=
  if e.isMissing then some { code := 1, err := e.message ++ "\n" }
  else if e.isInputError then
    some { code := 1, err := programName ++ " " ++ c.name ++ " failed: " ++ e.message ++ "\n" }
  else none

/-! ## Running -/

/-- The notes that the console shows. -/
def Invocation.threshold (i : Invocation) : Urgency :=
  if i.options.isVerbose then .debug
  else
    match i.command with
    | .generate => .info
    | .list => .warning

/-- Opens the log file, which keeps what it has. -/
def openLog (here : Location) (log : Option Path) : Course Unit := do
  let p ← Course.ask fun _ => (log.elim (.error (.bareOption .logFile)) .ok)
  Course.act (FileAction.ensureDirectories here p.parent)
  let l := p.locate here
  Course.act (FileAction.change fun t => t.append [] (.ofLocation l) ByteArray.empty)
  modify fun s => { s with logFile := some l }

/-- The number of workers is one that there can be. -/
def Options.hasWorkers (o : Options) : Except RunError Bool :=
  match o.workers with
  | none => .ok true
  | some none => .error (.bareOption .workers)
  | some (some n) => .ok (1 ≤ n)

/-- Does what an invocation asks for. -/
def Invocation.perform (E : Setting) (i : Invocation) : Course Reply := do
  let path := Path.ofText i.options.path
  match i.command with
  | .generate => do
    let o ← E.generate {
      path := path, kinds := i.options.kinds, output := i.options.output, dump := i.options.dump,
      isDry := i.options.isDry }
    return generateReply E.surroundings.here o
  | .list => return listReply (← E.list path i.options.kinds)

/-- The lines of notes on the console. -/
def consoleText (threshold : Urgency) (notes : List Note) : String :=
  String.join ((notes.filter fun n => threshold.isShown n.urgency).map (·.consoleLine))

/-- Carries out an invocation when its log file is open. -/
def Invocation.runLogged (E : Setting) (i : Invocation) (s : Session) : Ending × Session :=
  match i.options.hasWorkers with
  | .error e => (⟨.error e, "", ""⟩, s)
  | .ok false => (⟨.ok 2, "", "--workers must be at least 1\n"⟩, s)
  | .ok true =>
    let (result, s) := (i.perform E).run.run s
    let notes := consoleText i.threshold s.notes
    let said (reply : Reply) : Ending := ⟨.ok reply.code, reply.out, notes ++ reply.err⟩
    match result with
    | .ok reply => (said reply, s)
    | .error e =>
      match errorReply? i.command e with
      | some reply => (said reply, s)
      | none => (⟨.error e, "", notes⟩, s)

/-- Carries out an invocation. -/
def Invocation.run (E : Setting) (i : Invocation) (t : FileTree) : Ending × FileTree :=
  match (i.options.log.forM (openLog E.surroundings.here)).run.run { files := t } with
  | (.error e, s) => (⟨.error e, "", ""⟩, s.files)
  | (.ok _, s) =>
    let (ending, s) := i.runLogged E s
    (ending, s.files)

/-- A call of the program. -/
def run (E : Setting) (arguments : List String) (t : FileTree) : Ending × FileTree :=
  match Invocation.read arguments with
  | .error reply => (.ofReply reply, t)
  | .ok i => i.run E t

theorem run_of_misuse {E : Setting} {arguments : List String} {reply : Reply} {t : FileTree}
    (h : Invocation.read arguments = .error reply) : run E arguments t = (.ofReply reply, t) := by
  simp [run, h]

end FieldWiring.CommandLine
