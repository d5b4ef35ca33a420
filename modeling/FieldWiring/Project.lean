import FieldWiring.Configuration
import FieldWiring.Diagnostics
import FieldWiring.Frontend
import FieldWiring.Output.Publish
import FieldWiring.Session

/-!
# Projects

What can be done with a project as a whole: listing the candidates of each kind, and generating
their units. Both read the configuration, then the sources, and then ask which kinds are wanted, so
that of several faults the first in this order is reported. Candidates are independent of one
another, so the number of workers shows in no result.

Model of `Orchestrator` and `GenerateOutcome` (specification, §2):
* `generate` is `run_generate`, `list` is `run_list`, `corpus` is `load_corpus` and `wanted` is
  `_select_generators`.
* `publish` is the call of the writer and `dump` that of the collector.

A `Setting` holds what the program takes from outside: its surroundings, the plugins, the language
of a project's own templates, the clock, and what such templates leave to chance. The threads of
`GenerationDriver` are no part of a run here: they are a step relation of their own.

Results:
* `wanted_congr`: a run that names its kinds does not take those of the configuration.
* `outputDir_of_output`: a run that names a directory for its units uses that one.
-/

namespace FieldWiring

/-- What surrounds a run: where it takes place, the frontends that a configuration leads to, the
language of templates, the times to write, and what is left to chance. -/
structure Setting where
  surroundings : Surroundings := {}
  frontends : Configuration → Except FrontendError (List Frontend) := fun c =>
    discoverFrontends c.enabledFrontends builtinFrontends
  language : TemplateLanguage := .basic
  clock : Clock := {}
  chance : Nat := 0

/-- What a run is asked for. Without kinds the configuration chooses them. A kind that was asked for
without a name cannot be served. -/
structure GenerateRequest where
  path : Path
  kinds : List (Option String) := []
  output : Option Path := none
  dump : Option Path := none
  isDry : Bool := false
deriving DecidableEq, Repr

/-- What a run came to; `report` is missing when nothing was to be written. -/
structure GenerateOutcome where
  root : Location
  outputDir : Path
  kinds : List GeneratorKind
  isDry : Bool
  result : GenerationResult
  report : Option WriteReport
deriving DecidableEq, Repr

namespace Setting

/-! ## Reading a project -/

/-- Notes something. -/
def note (E : Setting) (urgency : Urgency) (speaker text : String) : Course Unit :=
  Course.note E.clock ⟨urgency, speaker, text⟩

/-- The root of the project that a path leads to. -/
def root (E : Setting) (p : Path) : Except RunError Location := do
  E.surroundings.resolve (← (p.expandHome E.surroundings.homes).mapError .home)

/-- The sources of a project, which are noted. -/
def sources (E : Setting) (root : Location) (c : Configuration) : Course SourceManifest := do
  let m ← Course.ask fun t => scan t E.surroundings (some c.excludePaths) (.ofLocation root)
  let count := Text.natText m.files.length
  E.note .debug "scanner" ("Scanner found " ++ count ++ " source files under " ++ m.root)
  E.note .debug "orchestrator" ("Scanner discovered " ++ count ++ " source files")
  return m

/-- What the sources of a project declare. -/
def corpus (E : Setting) (root : Location) (c : Configuration) : Course Corpus := do
  let m ← E.sources root c
  if m.files.isEmpty then
    E.note .warning "orchestrator" ("No C# sources found under " ++ (Path.ofLocation root).text)
    return .ofSources [] []
  else
    let frontends ← Course.ask fun _ => (E.frontends c).mapError .frontend
    let f ← Course.ask fun _ => (choose frontends m).mapError .frontend
    E.note .debug "orchestrator" ("Using frontend " ++ f.title)
    let (corpus, notes) ← Course.ask fun t => f.load t m
    notes.forM (Course.note E.clock)
    return corpus

/-- The generators that a run asks for, or else those of the configuration, or else all. -/
def wanted (kinds : List (Option String)) (c : Configuration) : Except RunError (List Generator) :=
  let chosen := if kinds.isEmpty then c.enabledGenerators.map some else kinds
  match chosen.mapM id with
  | none => .error (.bareOption .kind)
  | some names =>
    (selectGenerators (if names.isEmpty then none else some names) c.overrides).mapError .selection

theorem wanted_congr {kinds : List (Option String)} {c d : Configuration} (h : kinds ≠ [])
    (ho : c.overrides = d.overrides) : wanted kinds c = wanted kinds d := by
  simp [wanted, h, ho]

/-! ## Listing -/

/-- The candidates of each wanted kind in the project that a path leads to. -/
def list (E : Setting) (p : Path) (kinds : List (Option String)) :
    Course (List (GeneratorKind × List TypeDeclaration)) := do
  let root ← Course.ask fun _ => E.root p
  let c ← Course.ask fun t => Configuration.read t E.surroundings (.ofLocation root)
  let corpus ← E.corpus root c
  let generators ← Course.ask fun _ => wanted kinds c
  return generators.map fun g => (g.kind, candidates corpus g c.excludeSegments)

/-! ## Generating -/

/-- The outcomes of all candidates of a generator, one after the other. -/
def outcomes (E : Setting) (T : Templates) (corpus : Corpus) (excluded : List String)
    (g : Generator) : Course (List Outcome) := do
  let found := candidates corpus g excluded
  Course.note E.clock (candidateNote g found.length)
  found.mapM fun d => do
    (walkNotes corpus g corpus.symbols d).forM (Course.note E.clock)
    Course.ask fun _ => outcome T corpus g corpus.symbols d

/-- What a generator comes to, with the reports about its candidates. -/
def generateKind (E : Setting) (T : Templates) (corpus : Corpus) (excluded : List String)
    (g : Generator) : Course (GenerationResult × List CandidateReport) := do
  let os ← E.outcomes T corpus excluded g
  let r := settle g os
  (resultNotes g r).forM (Course.note E.clock)
  return (r, os.map (·.report))

/-- What several generators come to, one after the other. -/
def generateKinds (E : Setting) (T : Templates) (corpus : Corpus) (excluded : List String)
    (gs : List Generator) : Course (GenerationResult × List CandidateReport) :=
  gs.foldlM (fun (r, reports) g => do
    let (s, more) ← E.generateKind T corpus excluded g
    return (r.append s, reports ++ more)) ({}, [])

/-- The manifest that an earlier run left in a directory. One that is no document is noted and
counts as empty. -/
def previousManifest (E : Setting) (dir : Path) : Course OutputManifest := do
  match ← Course.ask fun t => .ok (Output.readManifest t E.surroundings.here dir) with
  | .ok m => return m
  | .error .malformed =>
    Course.note E.clock (Output.unreadableNote dir)
    return []
  | .error fault => throw (.manifest fault)

/-- Publishes units in a directory, which is made if it is missing, and notes what was done. -/
def publish (E : Setting) (dir : Path) (units : List GeneratedUnit) (kinds : Option (List String)) :
    Course WriteReport := do
  let here := E.surroundings.here
  Course.act (FileAction.ensureDirectories here dir)
  let previous ← E.previousManifest dir
  let r ← Course.act (Output.publishOver here dir units kinds E.clock.updated previous)
  Course.note E.clock (Output.publishedNote dir r)
  return r

/-- Writes the dump of a run. That it cannot be written is noted and no more, unless no system could
write it. -/
def dump (E : Setting) (path : Path) (reports : List CandidateReport) : Course Unit := do
  match ← Course.attempt (writeDump E.surroundings.here path reports) with
  | .ok _ => Course.note E.clock (dumpNote path none)
  | .error e =>
    if e.cause.isUnwritable then throw (.file e)
    else Course.note E.clock (dumpNote path (some e))

/-- The directory of generated units in a project that names none. -/
def defaultOutput : String := "Generated"

/-- The directory that takes the units of a run. -/
def outputDir (root : Location) (r : GenerateRequest) (c : Configuration) : Path :=
  (r.output.or c.outputDir).getD (.ofLocation (root ++ [defaultOutput]))

theorem outputDir_of_output {root : Location} {r : GenerateRequest} {c : Configuration} {dir : Path}
    (h : r.output = some dir) : outputDir root r c = dir := by
  simp [outputDir, h]

/-- The templates of a project. -/
def templates (E : Setting) (t : FileTree) (c : Configuration) : Templates :=
  match c.templatesDir with
  | none => .standard
  | some dir => .ofDirectory t E.surroundings.here dir E.language E.chance

/-- Generates the units of the project that a path leads to and publishes them. -/
def generate (E : Setting) (r : GenerateRequest) : Course GenerateOutcome := do
  let root ← Course.ask fun _ => E.root r.path
  E.note .info "orchestrator" ("Starting generate run for " ++ (Path.ofLocation root).text)
  let c ← Course.ask fun t => Configuration.read t E.surroundings (.ofLocation root)
  let corpus ← E.corpus root c
  let generators ← Course.ask fun _ => wanted r.kinds c
  let T ← Course.ask fun t => .ok (E.templates t c)
  let (result, reports) ← E.generateKinds T corpus c.excludeSegments generators
  let dir := outputDir root r c
  let kinds := generators.map (·.kind)
  let report ←
    if r.isDry then do
      E.note .info "orchestrator"
        ("Dry run: " ++ Text.natText result.units.length ++ " unit(s) not written")
      pure none
    else some <$> E.publish dir result.units (some (kinds.map (·.key)))
  match r.dump.or c.debugDump with
  | none => pure ()
  | some path => E.dump path reports
  return ⟨root, dir, kinds, r.isDry, result, report⟩

end Setting

end FieldWiring
