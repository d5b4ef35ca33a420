import FieldWiring.Corpus
import FieldWiring.CSharp.Reader
import FieldWiring.Log
import FieldWiring.Scan

/-!
# Frontends

A frontend turns scanned sources into a corpus. The one for C# is built in; others come as plugins,
which are loaded in order. `discoverFrontends` keeps the enabled ones, the first of each name, where
names that differ only in the size of their letters are the same.

Model of `discover_frontends`, `_coerce_frontend`, `Frontend` and `CSharpFrontend` (specification,
§2). An `Offer` is what a factory or an entry point gives; `choose` is the test of
`_select_frontend`, `loadSources` is `CSharpFrontend.load`.

Results:
* `choose_supports`: the chosen frontend supports the sources.
-/

namespace FieldWiring

/-! ## Discovery -/

/-- What a plugin loads to: something that makes a frontend, something that makes none, or nothing
at all. -/
inductive Offer (α : Type) where
  | frontend (f : α)
  | unusable
  | fails (reason : String)
deriving DecidableEq, Repr

/-- A plugin under its name. -/
structure Plugin (α : Type) where
  name : String
  offer : Offer α
deriving DecidableEq, Repr

/-- The frontends found so far, and their names in small letters. -/
structure Discovery (α : Type) where
  frontends : List α := []
  seen : List String := []
deriving DecidableEq, Repr

/-- A name is asked for; without names all are. -/
def isWanted (enabled : List String) (name : String) : Bool :=
  enabled.isEmpty || (enabled.map Text.lower).contains (Text.lower name)

/-- Goes on to a plugin. It is loaded in any case, and used when it is wanted and its name is new.
One that makes no frontend then ends the search as `failure` tells, which is up to its own code. -/
def discoverOne {α : Type} (failure : Plugin α → FrontendError) (enabled : List String)
    (d : Discovery α) (p : Plugin α) : Except FrontendError (Discovery α) :=
  match p.offer with
  | .fails reason => .error (.loadFailed p.name reason)
  | offer =>
    if !isWanted enabled p.name || d.seen.contains (Text.lower p.name) then .ok d
    else
      match offer with
      | .frontend f => .ok ⟨d.frontends ++ [f], d.seen ++ [Text.lower p.name]⟩
      | _ => .error (failure p)

/-- The enabled names that no frontend has, in order. -/
def missingNames (enabled seen : List String) : List String :=
  sorted ((dedupe (enabled.map Text.lower)).filter fun name => !seen.contains name)

/-- The frontends that plugins offer, as far as they are enabled; every enabled name must be found.
Plugins that make no frontend are refused for just that, unless `failure` tells of another
reason. -/
def discoverFrontends {α : Type} (enabled : List String) (plugins : List (Plugin α))
    (failure : Plugin α → FrontendError := fun _ => .noFrontend) :
    Except FrontendError (List α) := do
  let d ← plugins.foldlM (discoverOne failure enabled) {}
  match missingNames enabled d.seen with
  | [] => return d.frontends
  | missing => throw (.unknownNames missing)

/-! ## Frontends -/

/-- A frontend: its name and that of its kind, the sources it can read, and how it reads them. -/
structure Frontend where
  name : String
  title : String
  supports : SourceManifest → Bool
  load : FileTree → SourceManifest → Except RunError (Corpus × List Note)

/-- The first frontend that supports the sources. -/
def choose (frontends : List Frontend) (m : SourceManifest) : Except FrontendError Frontend :=
  match frontends.find? fun f => f.supports m with
  | some f => .ok f
  | none => .error .noneSupports

theorem choose_supports {frontends : List Frontend} {m : SourceManifest} {f : Frontend}
    (h : choose frontends m = .ok f) : f.supports m = true := by
  unfold choose at h
  split at h
  · cases h
    rename_i hf
    simpa using List.find?_some hf
  · cases h

namespace CSharp

/-! ## C# -/

/-- A path that a C# source has. -/
def isSourcePath (path : String) : Bool := ".cs".toList.isSuffixOf (Text.lower path).toList

/-- The text of a source file, without a byte order mark and with line feeds for line ends. -/
def sourceText? (content : ByteArray) : Option String :=
  (Utf8.decode? content).map fun s => Text.unixLines (Utf8.dropMark s)

/-- What is noted about a source that is passed over. -/
def skippedNote (path reason : String) : Note :=
  ⟨.warning, "frontends.csharp", "Skipping unreadable source " ++ path ++ ": " ++ reason⟩

/-- The text of a source of a project, or the note that it is passed over. -/
def readSource (t : FileTree) (root path : String) : Except RunError (Except Note String) :=
  match t.read [] ((Path.ofText root).joinText path) with
  | .ok content =>
    match sourceText? content with
    | some text => .ok (.ok text)
    | none => .ok (.error (skippedNote path "the text is not UTF-8"))
  | .error e =>
    if e.cause.isUnwritable then .error (.file e)
    else .ok (.error (skippedNote path e.message))

/-- Reads a source. Nothing can be read without a parser. -/
def parse (hasParser : Bool) (path source : String) :
    Except RunError (SourceUnit × List TypeDeclaration) :=
  if hasParser then .ok (parseSource path source) else .error (.frontend .parserMissing)

/-- The units and declarations of the C# sources of a project; sources that cannot be read are
passed over. -/
def loadSources (hasParser : Bool) (t : FileTree) (m : SourceManifest) :
    Except RunError (Corpus × List Note) := do
  let texts ← (m.files.filter fun f => isSourcePath f.path).mapM fun f => do
    match ← readSource t m.root f.path with
    | .ok text => return .ok (← parse hasParser f.path text)
    | .error note => return .error note
  let parsed := texts.filterMap Except.toOption
  let skipped := texts.filterMap fun r =>
    match r with
    | .ok _ => none
    | .error note => some note
  let types := parsed.flatMap (·.2)
  let summary : Note :=
    ⟨.debug, "frontends.csharp", "Parsed " ++ Text.natText parsed.length ++ " units with " ++
      Text.natText types.length ++ " type declarations"⟩
  return (.ofSources (parsed.map (·.1)) types, skipped ++ [summary])

/-- The frontend for C#. -/
def frontend (hasParser : Bool := true) : Frontend where
  name := "csharp"
  title := "CSharpFrontend"
  supports m := hasParser && m.files.any fun f => isSourcePath f.path
  load := loadSources hasParser

end CSharp

/-- The frontends that need no plugin. -/
def builtinFrontends : List (Plugin Frontend) := [⟨"csharp", .frontend (CSharp.frontend)⟩]

end FieldWiring
