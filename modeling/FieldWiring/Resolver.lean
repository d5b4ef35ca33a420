import FieldWiring.Configuration
import FieldWiring.Hierarchy
import FieldWiring.Template.Reader
import FieldWiring.Traversal

/-!
# Resolvers

The text of one generated unit: a part of the candidate's class that implements the generator's
interface by a method which assigns every marked field. How a unit and a lookup are laid out stands
in templates; a project may replace any of them by a file of its own. The packaged templates are
written as they are; the language of a project's own ones is a parameter.

Model of `ResolverEmitter` (specification, §4.3):
* `resolverText` is `render`, `lookupText` is `render_lookup`, `assignment` is `_render_assignment`
  and `headerText` is `_declaration_header`.
* `unitParts` and `lookupParts` are the packaged templates, as `parts` reads their texts.
* `Templates.ofDirectory` is `_create_env`: a file of the directory first, else the packaged one.

Results:
* `length_assignments`: a unit has one assignment for each field of the walk.
-/

namespace FieldWiring

/-! ## Templates -/

/-- The templates of a unit: the unit itself, and the value of a field for each lookup mode. -/
inductive TemplateName where
  | unit
  | lookup (mode : LookupMode)
deriving DecidableEq, Repr

/-- The file in which a project replaces a template. -/
def TemplateName.file : TemplateName → String
  | unit => "resolver.cs.j2"
  | lookup mode => "lookups/" ++ mode.word ++ ".j2"

/-- The templates of a run: each of them written with the values of names. -/
abbrev Templates := TemplateName → Template.Bindings → Except RunError String

namespace Template

/-- The value of a name, as a part. -/
def Part.name (name : String) : Part := .value ⟨name, []⟩

/-- What is known of the field that is looked up, as a part. -/
def Part.field (about : String) : Part := .value ⟨"field", [.member about]⟩

/-- The items of a list, each on its own line after `indent`. -/
def Part.lines (list indent : String) : Part :=
  .each "line" ⟨list, []⟩ [.text indent, .name "line", .text "\n"] []

/-- A unit unless a project replaces it. -/
def unitParts : List Part :=
  [.text "// <auto-generated>\n// Generated by resolvergen (", .name "kind",
    .text "). Do not edit.\n// </auto-generated>\n\n",
    .choice ⟨"namespace", []⟩ [.text "namespace ", .name "namespace", .text ";\n\n"] [],
    .lines "imports" "",
    .text "#pragma warning disable CS0105 // Disable warning about redundant using directive\n",
    .lines "resolver_imports" "",
    .text "#pragma warning restore CS0105\n\n",
    .name "declaration", .text " : ", .name "interface",
    .text ("\n\x7b\n#pragma warning disable CS0109 " ++
      "// Disable warning about redundant 'new' keyword\n    public new void "),
    .name "method", .text "()\n    \x7b\n",
    .lines "assignments" "        ",
    .text "    \x7d\n#pragma warning restore CS0109\n\x7d\n"]

/-- The value of a field unless a project replaces it. -/
def lookupParts : LookupMode → List Part
  | .byPath =>
    [.text "this.GetNode<", .field "type_text", .text ">(\"", .field "lookup_key", .text "\")\n"]
  | .byType =>
    [.text "GetTree().Root.GetChildren().OfType<", .field "type_text",
      .text ">().FirstOrDefault()\n"]

/-- A template unless a project replaces it. -/
def standardParts : TemplateName → List Part
  | .unit => unitParts
  | .lookup mode => lookupParts mode

/-- The parts of a template in writing, with the values of names. -/
def writeParts (name : TemplateName) (b : Bindings) (ps : List Part) : Except RunError String :=
  (render (("self", .template name.file) :: b) ps).mapError .template

end Template

/-- The templates of a project that replaces none. -/
def Templates.standard : Templates := fun name b =>
  Template.writeParts name b (Template.standardParts name)

/-! ## Templates of a project -/

/-- The language of the templates that a project keeps itself. A template is written from its source
and the values of names; it can ask for the sources of further ones, and what it writes may be left
to chance. -/
structure TemplateLanguage where
  write : (chance : Nat) → (find : String → Except RunError (Option String)) →
    TemplateName → (source : String) → Template.Bindings → Except RunError String

/-- The part of the language that the packaged templates use: values, choices and loops. -/
def TemplateLanguage.basic : TemplateLanguage where
  write _ _ name source b := do
    Template.writeParts name b (← (Template.parts source).mapError .template)

/-- The source of a template in a directory; nothing when no file of its name is there. -/
def templateSource (t : FileTree) (here : Location) (dir : Path) (file : String) :
    Except RunError (Option String) :=
  match t.leadsToFile here (dir.joinText file) with
  | .ok true => some <$> t.readText here (dir.joinText file)
  | _ => .ok none

/-- The templates of a project that keeps its own in a directory. -/
def Templates.ofDirectory (t : FileTree) (here : Location) (dir : Path)
    (language : TemplateLanguage := .basic) (chance : Nat := 0) : Templates := fun name b => do
  match ← templateSource t here dir name.file with
  | some source => language.write chance (templateSource t here dir) name source b
  | none => Templates.standard name b

/-! ## Writing -/

/-- Why a unit is not written: a fault of its type, or something that ends the run. -/
inductive RenderError where
  | fault (f : Fault)
  | run (e : RunError)
deriving DecidableEq, Repr

/-- A field as templates see it. -/
def MarkedField.value (f : MarkedField) : Template.Value :=
  .record ⟨"resolvergen.models", "MarkedField"⟩
    [("type_text", f.typeText), ("name", f.name), ("lookup_key", f.lookupKey),
      ("declared_in", f.declaredIn)]

/-- The value of a field in a unit. -/
def lookupText (T : Templates) (g : Generator) (f : MarkedField) : Except RunError String :=
  return Text.trim (← T (.lookup g.lookup) [("field", f.value)])

/-- A type text that can stand in a unit. -/
def isWritableType (typeText : String) : Bool :=
  let s := Text.trim typeText
  s ≠ "" && !s.toList.contains '\n' && s ≠ "var"

/-- The statement that assigns a field. -/
def assignment (T : Templates) (g : Generator) (d : TypeDeclaration) (f : MarkedField) :
    Except RenderError String :=
  if isWritableType f.typeText then
    match lookupText T g f with
    | .ok value => .ok ("this." ++ f.name ++ " = " ++ value ++ ";")
    | .error e => .error (.run e)
  else
    .error (.fault (.of d (.unrenderableField f.name
      ("has no emittable type (" ++ Text.quoted f.typeText ++ ")"))))

/-- The statements that assign the fields of a walk. -/
def assignments (T : Templates) (g : Generator) (d : TypeDeclaration) (w : Walk) :
    Except RenderError (List String) := w.fields.mapM (assignment T g d)

/-- The head of the class that a unit continues. -/
def headerText (d : TypeDeclaration) : String :=
  let words := " ".intercalate (d.accessibility ++ ["partial", "class", d.name])
  if d.typeParameters.isEmpty then words
  else words ++ "<" ++ ", ".intercalate d.typeParameters ++ ">"

/-- The values that a unit's template is written with. -/
def unitBindings (g : Generator) (d : TypeDeclaration) (w : Walk) (assigned : List String) :
    Template.Bindings :=
  [("kind", .text g.kind.key),
    ("namespace", match d.namespaceName with
      | none => .nothing
      | some n => .text n),
    ("imports", .texts w.imports), ("resolver_imports", .texts g.resolverImports),
    ("declaration", .text (headerText d)), ("interface", .text g.kind.interfaceName),
    ("method", .text g.kind.method), ("assignments", .texts assigned)]

/-- The text of the unit for a candidate. -/
def resolverText (T : Templates) (g : Generator) (d : TypeDeclaration) (w : Walk) :
    Except RenderError String := do
  let assigned ← assignments T g d w
  match T .unit (unitBindings g d w assigned) with
  | .ok text => .ok text
  | .error e => .error (.run e)

theorem length_assignments {T : Templates} {g : Generator} {d : TypeDeclaration} {w : Walk}
    {assigned : List String} (h : assignments T g d w = .ok assigned) :
    assigned.length = w.fields.length := length_mapM h

end FieldWiring
