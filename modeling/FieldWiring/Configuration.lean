import FieldWiring.RunError
import FieldWiring.Text.Numeral
import FieldWiring.Vendored
import FieldWiring.Yaml.Build

/-!
# Configurations

What a project may say in its configuration file, and reading that file. Values are taken as they
come: a single text stands for a list of one, a number or a truth value for its text, and a value of
another type is passed over. Only a lookup mode, the number of workers and the file as a whole can
be refused.

Model of `load_config`, `ResolverGenConfig` and `GeneratorConfig` (specification, §10):
* `asText`, `asTexts`, `asEntries`, `asWorkers` and `pathAt` are `_as_str`, `_as_str_list`,
  `_as_dict`, `_as_workers` and `_as_path`.
* `Configuration.ofEntries` makes a configuration of the root mapping, `configurationFile` is
  `_resolve_config_path`, `Configuration.ofText` is `_read_config` with what follows it, and
  `Configuration.read` is `load_config` as a whole.
* `KindSettings.override` is `as_overrides`.

Results:
* `Configuration.replacing_override`: the replacements of a configuration are never refused.
* `Configuration.read_missing`: without a file a project has the default configuration.
-/

namespace FieldWiring

/-- Where one is, and whose home directories there are. -/
structure Surroundings where
  here : Location := []
  homes : Homes := {}

/-- Replacements for one kind of generator. -/
structure KindSettings where
  lookup : Option LookupMode := none
  resolverNamespace : Option String := none
deriving DecidableEq, Repr

/-- The replacements as a selection takes them. -/
def KindSettings.override (s : KindSettings) : GeneratorOverride :=
  ⟨s.lookup.map (·.word), present s.resolverNamespace⟩

/-- What a project says about its runs. -/
structure Configuration where
  root : Location
  enabledGenerators : List String := []
  generators : List (GeneratorKind × KindSettings) := []
  excludeSegments : List String := defaultExcluded
  excludePaths : List String := []
  enabledFrontends : List String := []
  outputDir : Option Path := none
  templatesDir : Option Path := none
  debugDump : Option Path := none
  workers : Nat := 1
deriving DecidableEq, Repr

namespace Configuration

/-- The replacements, by the key of their kind. -/
def overrides (c : Configuration) : List (String × GeneratorOverride) :=
  c.generators.map fun (kind, s) => (kind.key, s.override)

theorem present_word (m : LookupMode) : present (some m.word) = some m.word := by
  cases m <;> decide +kernel

theorem replacing_override (kind : GeneratorKind) (s : KindSettings) :
    ∃ g, Generator.replacing kind s.override = .ok g := by
  cases h : s.lookup with
  | none => exact ⟨_, by simp [Generator.replacing, KindSettings.override, h, present]; rfl⟩
  | some m =>
    have hm : LookupMode.ofWord? m.word = some m := by cases m <;> decide +kernel
    exact ⟨_, by simp [Generator.replacing, KindSettings.override, h, present_word, hm]; rfl⟩

end Configuration

/-! ## Taking values -/

namespace Yaml.Value

/-- The text that a text, a number or a truth value stands for. -/
def asText : Value → Except RunError (Option String)
  | text s => .ok (some s)
  | bool b => .ok (some (if b then "True" else "False"))
  | int n => if isUnwritable n then .error .longNumber else .ok (some (Text.intText n))
  | float x => .ok (some x.text)
  | noNumber => .ok (some Double.nan.text)
  | _ => .ok none

/-- The texts of a list, or of a single text; bytes are a list of numbers. -/
def asTexts : Value → Except RunError (List String)
  | text s => .ok [s]
  | list items => return (← items.mapM asText).filterMap id
  | bytes b => .ok (b.map fun x => Text.natText x.toNat)
  | _ => .ok []

/-- The entries of a mapping; other values have none. -/
def asEntries : Value → List (Value × Value)
  | dict entries => entries
  | _ => []

/-- The number of workers that a value asks for. -/
def asWorkers (v : Value) : Except RunError Nat :=
  let refused : Except RunError Nat :=
    match v.obstacle? maxShown with
    | some .longNumber => .error .longNumber
    | some .tooDeep => .error .deepLiteral
    | none => .error (.configuration (.badWorkers v.literal))
  let checked (n : Int) : Except RunError Nat := if n < 1 then refused else .ok n.toNat
  match v with
  | int n => checked n
  | text s =>
    match Text.readInt s with
    | .ok n => checked n
    | .error _ => refused
  | _ => refused

end Yaml.Value

/-- What stands under a key; nothing when the key is missing. -/
def valueAt (key : String) (entries : List (Yaml.Value × Yaml.Value)) : Yaml.Value :=
  (Yaml.Value.find? key entries).getD .null

/-- A path that a value writes, from the project's root unless it starts elsewhere. -/
def pathAt (homes : Homes) (root : Location) (v : Yaml.Value) : Except RunError (Option Path) := do
  match ← v.asText with
  | none => return none
  | some "" => return none
  | some text =>
    let path ← ((Path.ofText text).expandHome homes).mapError .home
    return some ((Path.ofLocation root).join path)

/-! ## Reading configurations -/

/-- What is set for a kind; it stands under the key of the kind, which may have a hyphen for its
underscore. The mapping of all kinds may stand in itself as that of one of them. -/
def kindEntries (kind : GeneratorKind) (entries : List (Yaml.Value × Yaml.Value)) :
    List (Yaml.Value × Yaml.Value) :=
  let direct := valueAt kind.key entries
  match if direct.isTrue then direct else valueAt (Text.replaceChar '_' '-' kind.key) entries with
  | .dictAgain => entries
  | v => v.asEntries

/-- The lookup mode that a value names for a kind. -/
def lookupAt (kind : GeneratorKind) (v : Yaml.Value) : Except RunError (Option LookupMode) := do
  match ← v.asText with
  | none => return none
  | some word =>
    match LookupMode.ofWord? word with
    | some mode => return some mode
    | none => throw (.configuration (.unknownLookup kind word))

/-- The settings of a kind, when there are any. -/
def kindSettings (kind : GeneratorKind) (entries : List (Yaml.Value × Yaml.Value)) :
    Except RunError (Option (GeneratorKind × KindSettings)) := do
  let settings := kindEntries kind entries
  if settings.isEmpty then return none
  let lookup ← lookupAt kind (valueAt "lookup" settings)
  let resolverNamespace ← (valueAt "resolver_namespace" settings).asText
  return some (kind, { lookup, resolverNamespace })

/-- The segments that are left out, unless a document says nothing about them. -/
def segmentsAt (entries : List (Yaml.Value × Yaml.Value)) : Except RunError (List String) :=
  match Yaml.Value.find? "exclude_segments" entries with
  | none => .ok defaultExcluded
  | some v => v.asTexts

/-- The number of workers, one unless a document says something about it. -/
def workersAt (entries : List (Yaml.Value × Yaml.Value)) : Except RunError Nat :=
  match valueAt "workers" entries with
  | .null => .ok 1
  | v => v.asWorkers

/-- What a document says, as entries. -/
def documentEntries (document : Yaml.Value) : Except RunError (List (Yaml.Value × Yaml.Value)) :=
  match document with
  | .dict entries => .ok entries
  | v => if v.isTrue then .error (.configuration .noMapping) else .ok []

/-- The configuration that the entries of a document state for the project at `root`. -/
def Configuration.ofEntries (homes : Homes) (root : Location)
    (entries : List (Yaml.Value × Yaml.Value)) : Except RunError Configuration := do
  let generators := (valueAt "generators" entries).asEntries
  let enabled ← (valueAt "enabled" generators).asTexts
  let kinds ← GeneratorKind.all.mapM fun kind => kindSettings kind generators
  let segments ← segmentsAt entries
  let paths ← (valueAt "exclude_paths" entries).asTexts
  let frontends ← (valueAt "enabled" (valueAt "frontends" entries).asEntries).asTexts
  let outputDir ← pathAt homes root (valueAt "output_dir" entries)
  let templatesDir ← pathAt homes root (valueAt "templates_dir" entries)
  let debugDump ← pathAt homes root (valueAt "debug_dump" entries)
  let workers ← workersAt entries
  return {
    root := root
    enabledGenerators := enabled.map normaliseKind
    generators := kinds.filterMap id
    excludeSegments := segments
    excludePaths := paths
    enabledFrontends := frontends
    outputDir, templatesDir, debugDump, workers }

/-- The configuration that a document states. -/
def Configuration.ofValue (homes : Homes) (root : Location) (document : Yaml.Value) :
    Except RunError Configuration := do
  Configuration.ofEntries homes root (← documentEntries document)

/-- The configuration that a text states. -/
def Configuration.ofText (homes : Homes) (root : Location) (text : String) :
    Except RunError Configuration :=
  if (Text.trimChars text.toList).isEmpty then .ok { root }
  else
    match Yaml.load text with
    | .ok document => Configuration.ofValue homes root document
    | .error (.malformed reason) => .error (.configuration (.malformed reason))
    | .error f => .error (.document f)

/-- The absolute path that a path stands for. -/
def Surroundings.resolve (s : Surroundings) (p : Path) : Except RunError Location :=
  if p.lacksEncoding then .error (.file ⟨.noEncoding, p⟩)
  else if p.holdsNul then .error (.file ⟨.nulByte, p⟩)
  else .ok (p.spelledFrom s.here)

/-- The text of the file that a path leads to. -/
def FileTree.readText (t : FileTree) (here : Location) (p : Path) : Except RunError String := do
  match Utf8.readText? (← (t.read here p).mapError .file) with
  | some text => return text
  | none => throw (.notText p)

/-- The place of the configuration file for a path to a project, to a file in it, or to the
configuration file itself. -/
def configurationFile (t : FileTree) (s : Surroundings) (p : Path) : Except RunError Location := do
  let p ← (p.expandHome s.homes).mapError .home
  if ← (t.leadsToDirectory s.here p).mapError .file then
    s.resolve (p.joinText configurationName)
  else if p.name = configurationName then s.resolve p
  else s.resolve (p.parent.joinText configurationName)

/-- The configuration of a project. -/
def Configuration.read (t : FileTree) (s : Surroundings) (p : Path) :
    Except RunError Configuration := do
  let file ← configurationFile t s p
  let root := file.dropLast
  match ← (t.look [] (.ofLocation file)).mapError .file with
  | none => return { root }
  | some _ => Configuration.ofText s.homes root (← t.readText [] (.ofLocation file))

theorem Configuration.read_missing {t : FileTree} {s : Surroundings} {p : Path} {file : Location}
    (h : configurationFile t s p = .ok file) (hn : t.look [] (.ofLocation file) = .ok none) :
    Configuration.read t s p = .ok { root := file.dropLast } := by
  simp only [Configuration.read, h, hn, bind, Except.bind]
  rfl

end FieldWiring
