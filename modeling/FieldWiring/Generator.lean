import FieldWiring.Declaration
import FieldWiring.Listing
import FieldWiring.Text.Case
import FieldWiring.Traversal

/-!
# Generators

The kinds of resolvers and what each needs: the marker that selects fields, the interface and the
method that the resolver implements, the namespace of that interface, and how the value of a field
is looked up. Two kinds come with the program. `selectGenerators` makes those of them that a caller
asks for, with the replacements that a project configures.

Model of `GeneratorKind`, `select_generators` and `normalise_kind` (specification, §2).
* `GeneratorKind` is the record of texts that describes one generator; any texts may stand in it. A
  `Generator` is such a kind with the namespace and the lookup that a project may replace.
* `Generator.selects`, `markerOn`, `hasMarkedField`, `resolverImports` and `hintName` are its
  methods `matches`, `marker_on`, `has_marked_field`, `resolver_imports` and `hint_name`.

Results:
* `selectGenerators_kinds`: the generators come in the fixed order of their kinds.
* `normaliseKind_key`: the key of a kind is its own normal form.
-/

namespace FieldWiring

/-- How a resolver finds the value of a field: the first root child of the field's type, or the
node at the path that is the field's key. -/
inductive LookupMode where
  | byType
  | byPath
deriving DecidableEq, Repr

namespace LookupMode

/-- The word for a lookup mode. -/
def word : LookupMode → String
  | byType => "type"
  | byPath => "path"

/-- The lookup modes. -/
def all : List LookupMode := [byType, byPath]

/-- The lookup mode that a word names. -/
def ofWord? (w : String) : Option LookupMode := all.find? fun m => m.word = w

/-- The imports that a lookup itself needs. -/
def imports : LookupMode → List String
  | byType => ["using System.Linq;"]
  | byPath => []

end LookupMode

/-- A kind of resolvers: its name in configurations and reports, the attribute that marks its
fields, the interface that its resolvers implement and the method that assigns the fields, what the
names of its units end in, and the namespace and lookup mode that a project may replace. -/
structure GeneratorKind where
  key : String
  marker : String
  interfaceName : String
  method : String
  hintSuffix : String
  defaultNamespace : String
  defaultLookup : LookupMode
deriving DecidableEq, Repr

namespace GeneratorKind

/-- Resolvers of fields that are found by their types. -/
def dependency : GeneratorKind where
  key := "dependency"
  marker := "InjectDependency"
  interfaceName := "IDependencyResolver"
  method := "ResolveDependencies"
  hintSuffix := "DependencyResolver"
  defaultNamespace := "Codartesien.SourceGenerators.DependencyResolver"
  defaultLookup := .byType

/-- Resolvers of fields that are nodes at given paths. -/
def sceneNode : GeneratorKind where
  key := "scene_node"
  marker := "SceneNode"
  interfaceName := "ISceneNodeResolver"
  method := "ResolveNodes"
  hintSuffix := "SceneNodeResolver"
  defaultNamespace := "Codartesien.SourceGenerators.SceneNodeResolver"
  defaultLookup := .byPath

/-- The kinds that come with the program, in the order in which they run. -/
def all : List GeneratorKind := [dependency, sceneNode]

/-- The kind with a key. -/
def ofKey? (k : String) : Option GeneratorKind := all.find? fun kind => kind.key = k

end GeneratorKind

/-- A kind of resolver as one run uses it. -/
structure Generator where
  kind : GeneratorKind
  resolverNamespace : String
  lookup : LookupMode
deriving DecidableEq, Repr

namespace Generator

/-- The generator of a kind without replacements. -/
def ofKind (kind : GeneratorKind) : Generator := ⟨kind, kind.defaultNamespace, kind.defaultLookup⟩

/-- A marker selects a field under the attribute's short or long name, in any namespace. -/
def selects (g : Generator) (m : Marker) : Bool :=
  m.simpleName = g.kind.marker || m.simpleName = g.kind.marker ++ "Attribute"

/-- The first marker on a field that selects it. -/
def markerOn (g : Generator) (f : Field) : Option Marker := f.markers.find? g.selects

/-- Some field is selected. -/
def hasMarkedField (g : Generator) (fields : List Field) : Bool :=
  fields.any fun f => (g.markerOn f).isSome

/-- The imports that every resolver of this generator has. -/
def resolverImports (g : Generator) : List String :=
  ("using " ++ g.resolverNamespace ++ ";") :: g.lookup.imports

/-- The name under which the resolver of a type is published. -/
def hintName (g : Generator) (namespaceName typeName : String) : String :=
  namespaceName ++ "_" ++ typeName ++ "_" ++ g.kind.hintSuffix ++ ".g"

end Generator

/-! ## Selection -/

/-- A kind's name in its normal form: small letters, underscores for hyphens, and the key of the
scene node kind for its name in one word. -/
def normaliseKind (name : String) : String :=
  let lowered := Text.lower (Text.replaceChar '-' '_' (Text.trim name))
  if lowered = "scenenode" then GeneratorKind.sceneNode.key else lowered

/-- Replacements for one kind; an empty text replaces nothing. -/
structure GeneratorOverride where
  lookup : Option String := none
  resolverNamespace : Option String := none
deriving DecidableEq, Repr

/-- Why a selection is refused. -/
inductive SelectionError where
  | unknownKinds (names : List String)
  | unsupportedLookup (kind : GeneratorKind) (mode : String)
deriving DecidableEq, Repr

/-- What a refused selection reports. -/
def SelectionError.message : SelectionError → String
  | unknownKinds names => "Unknown generator kinds requested: " ++ ", ".intercalate names
  | unsupportedLookup kind mode => "Unsupported lookup mode for " ++ kind.key ++ ": " ++ mode

/-- A replacement that is given and not empty. -/
def present (text : Option String) : Option String := text.filter (· ≠ "")

/-- The generator of a kind with its replacements. -/
def Generator.replacing (kind : GeneratorKind) (o : GeneratorOverride) :
    Except SelectionError Generator :=
  let namespaceName := (present o.resolverNamespace).getD kind.defaultNamespace
  match present o.lookup with
  | none => .ok ⟨kind, namespaceName, kind.defaultLookup⟩
  | some mode =>
    match LookupMode.ofWord? mode with
    | some lookup => .ok ⟨kind, namespaceName, lookup⟩
    | none => .error (.unsupportedLookup kind mode)

/-- The names asked for that are the key of no kind, in order. -/
def unknownKinds (wanted : List String) : List String :=
  sorted ((dedupe wanted).filter fun name => (GeneratorKind.ofKey? name).isNone)

/-- The kinds asked for, in their fixed order; all of them when nothing is asked for. -/
def selectedKinds (enabled : Option (List String)) : List GeneratorKind :=
  match enabled with
  | none => GeneratorKind.all
  | some names => GeneratorKind.all.filter fun kind => (names.map normaliseKind).contains kind.key

/-- The generators of the enabled kinds, each with the replacements listed under its key. -/
def selectGenerators (enabled : Option (List String))
    (overrides : List (String × GeneratorOverride)) : Except SelectionError (List Generator) :=
  match unknownKinds ((enabled.getD []).map normaliseKind) with
  | [] =>
    (selectedKinds enabled).mapM fun kind =>
      Generator.replacing kind ((overrides.lookup kind.key).getD {})
  | unknown => .error (.unknownKinds unknown)

theorem Generator.replacing_kind {kind : GeneratorKind} {o : GeneratorOverride} {g : Generator}
    (h : Generator.replacing kind o = .ok g) : g.kind = kind := by
  unfold Generator.replacing at h
  split at h
  · cases h; rfl
  · split at h <;> cases h
    rfl

/-- The generators come in the fixed order of their kinds. -/
theorem selectGenerators_kinds {enabled : Option (List String)}
    {overrides : List (String × GeneratorOverride)} {gs : List Generator}
    (h : selectGenerators enabled overrides = .ok gs) :
    gs.map (·.kind) = selectedKinds enabled := by
  unfold selectGenerators at h
  split at h
  · have hkinds := map_of_mapM (p := (·.kind)) (q := id)
      (fun _ _ => Generator.replacing_kind) h
    rwa [List.map_id] at hkinds
  · cases h

theorem normaliseKind_key : ∀ kind ∈ GeneratorKind.all, normaliseKind kind.key = kind.key := by
  decide +kernel

end FieldWiring
