import FieldWiring.Files.Access
import FieldWiring.Generator
import FieldWiring.Json.Value
import FieldWiring.Template.Basic
import FieldWiring.Yaml.Value

/-!
# What ends a run

The reasons for which a run gives up as a whole, in contrast to a fault, which concerns one type.

Model of `ConfigError`, `FrontendUnavailableError` and the other errors that leave `run_generate`
and `run_list`, with their texts (specification, §7).

Results:
* `isInputError_of_isMissing`: a missing project is not reported as a faulty one.
-/

namespace FieldWiring

/-! ## Configurations -/

/-- What a configuration may not say. -/
inductive ConfigurationFault where
  | malformed (reason : String)
  | noMapping
  | unknownLookup (kind : GeneratorKind) (mode : String)
  | badWorkers (literal : String)
deriving DecidableEq, Repr

/-- The name of the configuration file of a project. -/
def configurationName : String := ".resolvergen.yml"

/-- What is reported about a configuration. -/
def ConfigurationFault.message : ConfigurationFault → String
  | malformed reason => "Failed to parse " ++ configurationName ++ ": " ++ reason
  | noMapping => configurationName ++ " must contain a mapping at the root"
  | unknownLookup kind mode =>
    "generators." ++ kind.key ++ ".lookup must be one of " ++
      ", ".intercalate (LookupMode.all.map (·.word)) ++ " (got " ++ Text.quoted mode ++ ")"
  | badWorkers literal => "workers must be a positive integer (got " ++ literal ++ ")"

/-! ## Frontends -/

/-- A failure of a plugin's own code: its name in reports, its words, and what commands take it
for. -/
structure PluginFailure where
  label : String
  message : String
  isMissing : Bool := false
  isInput : Bool := false
deriving DecidableEq, Repr

/-- Why no frontend reads the sources. -/
inductive FrontendError where
  | unknownNames (names : List String)
  | loadFailed (name reason : String)
  | noFrontend
  | raised (f : PluginFailure)
  | parserMissing
  | noneSupports
deriving DecidableEq, Repr

/-- The name of a failure in reports. -/
def FrontendError.label : FrontendError → String
  | unknownNames _ => "ValueError"
  | loadFailed .. => "RuntimeError"
  | noFrontend => "TypeError"
  | raised f => f.label
  | parserMissing => "FrontendUnavailableError"
  | noneSupports => "FrontendUnavailableError"

/-- What is reported about frontends. -/
def FrontendError.message : FrontendError → String
  | unknownNames names => "Unknown frontends requested: " ++ ", ".intercalate names
  | loadFailed name reason =>
    "Failed to load frontend entry point '" ++ name ++ "': " ++ reason
  | noFrontend => "Frontend entry point must be a Frontend subclass or factory"
  | raised f => f.message
  | parserMissing => "The C# frontend needs the tree_sitter and tree_sitter_c_sharp packages"
  | noneSupports =>
    "No frontend can parse the project sources; install tree_sitter and tree_sitter_c_sharp"

/-! ## Manifests -/

/-- What is reported about a manifest that ends the run. -/
def manifestMessage : Json.Fault → String
  | .malformed => "The manifest is no JSON document"
  | .deepList =>
    "maximum recursion depth exceeded while decoding a JSON array from a unicode string"
  | .deepObject =>
    "maximum recursion depth exceeded while decoding a JSON object from a unicode string"

/-! ## Options -/

/-- An option that came without the value that it needs. -/
inductive BareOption where
  | kind
  | workers
  | logFile
deriving DecidableEq, Repr

/-- The name of a missing value in reports. -/
def BareOption.label : BareOption → String
  | kind => "AttributeError"
  | workers => "TypeError"
  | logFile => "AttributeError"

/-- What is reported about a missing value. -/
def BareOption.message : BareOption → String
  | kind => "'list' object has no attribute 'strip'"
  | workers => "'<' not supported between instances of 'list' and 'int'"
  | logFile => "'list' object has no attribute 'parent'"

/-! ## All reasons -/

/-- Why a run ends without a result. -/
inductive RunError where
  | file (e : FileError)
  | notText (path : Path)
  | home (e : HomeError)
  | noProject (path : Path)
  | noProjectDirectory (path : Path)
  | configuration (f : ConfigurationFault)
  | document (f : Yaml.Fault)
  | longNumber
  | deepLiteral
  | bareOption (o : BareOption)
  | selection (e : SelectionError)
  | frontend (e : FrontendError)
  | template (e : Template.Error)
  | manifest (f : Json.Fault)
deriving DecidableEq, Repr

namespace RunError

/-- The name of a reason in reports. -/
def label : RunError → String
  | file e => e.cause.label
  | notText _ => "UnicodeDecodeError"
  | home .unknownAccount => "RuntimeError"
  | home .nulByte => "ValueError"
  | home .noEncoding => FileCause.noEncoding.label
  | noProject _ => "FileNotFoundError"
  | noProjectDirectory _ => "NotADirectoryError"
  | configuration _ => "ConfigError"
  | document f => f.label
  | longNumber => "ValueError"
  | deepLiteral => "RecursionError"
  | bareOption o => o.label
  | selection _ => "ValueError"
  | frontend e => e.label
  | template e => e.label
  | manifest .malformed => "ValueError"
  | manifest _ => "RecursionError"

/-- A reason in words. -/
def message : RunError → String
  | file e => e.message
  | notText path => "The text of " ++ path.text ++ " is not UTF-8"
  | home .unknownAccount => "Could not determine home directory."
  | home .nulByte => "embedded null byte"
  | home .noEncoding => "the name of the account has no encoding"
  | noProject path => "Project path not found: " ++ path.text
  | noProjectDirectory path => "Project path is not a directory: " ++ path.text
  | configuration f => f.message
  | document f => f.message
  | longNumber =>
    "Exceeds the limit (4300 digits) for integer string conversion; " ++
      "use sys.set_int_max_str_digits() to increase the limit"
  | deepLiteral => "maximum recursion depth exceeded while getting the repr of an object"
  | bareOption o => o.message
  | selection e => e.message
  | frontend e => e.message
  | template e => e.message
  | manifest f => manifestMessage f

/-- The project is not there, or what stands there is of the wrong kind. -/
def isMissing : RunError → Bool
  | file e => e.cause = .notFound || e.cause = .notDirectory
  | noProject _ => true
  | noProjectDirectory _ => true
  | frontend (.raised f) => f.isMissing
  | _ => false

/-- The project or what it asks for is at fault, so that a command reports the reason and fails. -/
def isInputError : RunError → Bool
  | file e => e.cause.isUnwritable
  | notText _ => true
  | home e => e ≠ .unknownAccount
  | configuration _ => true
  | document (.noValue _) => true
  | longNumber => true
  | selection _ => true
  | frontend (.unknownNames _) => true
  | frontend (.raised f) => f.isInput && !f.isMissing
  | frontend .parserMissing => true
  | frontend .noneSupports => true
  | _ => false

theorem isInputError_of_isMissing {e : RunError} (h : e.isMissing = true) :
    e.isInputError = false := by
  cases e with
  | file e =>
    obtain ⟨cause, path⟩ := e
    cases cause <;> simp_all [isMissing, isInputError, FileCause.isUnwritable]
  | frontend e => cases e <;> simp_all [isMissing, isInputError]
  | _ => simp_all [isMissing, isInputError]

end RunError

end FieldWiring
