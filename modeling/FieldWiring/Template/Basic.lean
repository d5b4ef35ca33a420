import FieldWiring.Template.Loop

/-!
# Templates

A template is a sequence of parts: texts, values, choices between two sequences, and a sequence
written once for each of some items. `render` writes it with the values of its names. A name that
has no value is written as nothing and counts as false.

This is the part of the template language that the packaged templates are written in. What else that
language has (filters, calls, comments, inclusion) is left out; a project's own templates take their
language as a parameter, `TemplateLanguage`.

Results:
* `write_append`: a sequence is written part after part.
* `render_texts`: a sequence of texts is written as they are.
-/

namespace FieldWiring.Template

/-! ## Failures -/

/-- Why a template cannot be read or written. -/
inductive Error where
  | malformed
  | undefined (why : Absence)
  | noItems (type : String)
  | noBlock (index : Nat)
deriving DecidableEq, Repr

/-- The name of an error in reports. -/
def Error.label : Error → String
  | malformed => "TemplateSyntaxError"
  | undefined _ => "UndefinedError"
  | noItems _ => "TypeError"
  | noBlock _ => "KeyError"

/-- An error in words. -/
def Error.message : Error → String
  | malformed => "the template is malformed"
  | undefined why => why.message
  | noItems type => "'" ++ type ++ "' object is not iterable"
  | noBlock index => Text.natText index

/-! ## Parts -/

/-- What is asked of a value: a member, or an item by its number. -/
inductive Step where
  | member (name : String)
  | element (index : Nat)
deriving DecidableEq, Repr

/-- A name, with what is asked of its value. -/
structure Reference where
  name : String
  steps : List Step := []
deriving DecidableEq, Repr

/-- A part of a template. A sequence for each item has another one to write when there is none. -/
inductive Part where
  | text (s : String)
  | value (r : Reference)
  | choice (condition : Reference) (yes no : List Part)
  | each (item : String) (among : Reference) (body otherwise : List Part)

/-- The values of names; a later binding hides an earlier one. -/
abbrev Bindings := List (String × Value)

/-- The names that always stand for the same value. -/
def constants : Bindings :=
  [("true", .flag true), ("True", .flag true), ("false", .flag false), ("False", .flag false),
    ("none", .nothing), ("None", .nothing)]

/-- The names that stand for a value unless they are bound. -/
def globals : Bindings :=
  [("range", .type .range), ("dict", .type .dict), ("cycler", .type .cycler),
    ("joiner", .type .joiner), ("namespace", .type .namespaceObject),
    ("lipsum", .function "jinja2.utils" "generate_lorem_ipsum")]

/-- The value of a name. -/
def valueOf (b : Bindings) (name : String) : Value :=
  (((constants.lookup name).or (b.lookup name)).or (globals.lookup name)).getD
    (.missing (.unbound name))

/-! ## Writing -/

/-- Writing, which may fail, while loops go on. -/
abbrev Writing := StateT Loops (Except Error)

/-- A member of a value. A missing value has none. -/
def memberOf (v : Value) (name : String) : Writing Value := fun loops =>
  let ownOrLoop :=
    match v with
    | .loop id => (loops[id]?.bind fun l => loops.member? id l name)
    | _ => none
  match ownOrLoop, v.member? name, v with
  | some (w, loops), _, _ => .ok (w, loops)
  | none, some w, _ => .ok (w, loops)
  | none, none, .missing why => .error (.undefined why)
  | none, none, _ => .ok (.missing (.member v.toClass name), loops)

/-- An item of a value by its number. A missing value has none. -/
def elementOf (v : Value) (index : Nat) : Writing Value := fun loops =>
  match v.element? index, v with
  | some w, _ => .ok (w, loops)
  | none, .missing why => .error (.undefined why)
  | none, _ => .ok (.missing (.element v.toClass index), loops)

/-- What a step leads to. -/
def Step.apply (v : Value) : Step → Writing Value
  | member name => memberOf v name
  | element index => elementOf v index

/-- The value of a reference. -/
def Reference.eval (b : Bindings) (r : Reference) : Writing Value :=
  r.steps.foldlM Step.apply (valueOf b r.name)

/-- The items of a value that is gone through, and how many there are. -/
def itemsOf (loops : Loops) (v : Value) : Except Error (Nat × Source) :=
  let these (items : List Value) := .ok (items.length, Source.items items)
  match v with
  | .missing _ => these []
  | .text s => these (s.toList.map fun c => .text c.toString)
  | .texts items => these (items.map .text)
  | .pair a b => these [a, b]
  | .applied .. => these [.text ("*" ++ v.inspected loops.text)]
  | .loop id => .ok ((loops[id]?.map (·.length)).getD 0, .outer id)
  | .template _ => .error (.noBlock 0)
  | _ => .error (.noItems v.toClass.name)

/-- Begins a loop through a value; tells its number and the most items that it can have. -/
def beginLoop (v : Value) : Writing (Nat × Nat) := fun loops => do
  let (length, source) ← itemsOf loops v
  return ((loops.size, length), loops.push { length, source })

/-- Writes something for each further item of a loop, for at most `count`. -/
def forItems (id : Nat) (f : Value → Writing String) : (count : Nat) → Writing String
  | 0 => return ""
  | count + 1 => do
    match ← (fun loops => .ok (loops.advance id) : Writing (Option Value)) with
    | none => return ""
    | some v => do
      let first ← f v
      let rest ← forItems id f count
      return first ++ rest

mutual
/-- Writes a part. -/
def Part.write (b : Bindings) : Part → Writing String
  | .text s => return s
  | .value r => do
    let v ← r.eval b
    return v.written (← get).text
  | .choice r yes no => do if (← r.eval b).isTrue then write b yes else write b no
  | .each item r body otherwise => do
    let (id, count) ← beginLoop (← r.eval b)
    let written ← forItems id (fun v => write ((item, v) :: ("loop", .loop id) :: b) body) count
    if ((← get)[id]?.any (·.index = 0)) then write b otherwise else return written
/-- Writes parts, one after the other. -/
def write (b : Bindings) : List Part → Writing String
  | [] => return ""
  | p :: ps => do
    let first ← p.write b
    let rest ← write b ps
    return first ++ rest
end

/-- A template in writing. -/
def render (b : Bindings) (ps : List Part) : Except Error String := (write b ps).run' #[]

theorem write_append (b : Bindings) (ps qs : List Part) :
    write b (ps ++ qs) = (do return (← write b ps) ++ (← write b qs)) := by
  induction ps with
  | nil => simp only [List.nil_append, write, pure_bind, String.empty_append, bind_pure]
  | cons p ps ih =>
    simp only [List.cons_append, write, ih, bind_assoc, pure_bind, String.append_assoc]

theorem write_texts (b : Bindings) (ss : List String) :
    write b (ss.map .text) = pure (String.join ss) := by
  induction ss with
  | nil => simp [write, String.join]
  | cons s ss ih => simp [write, Part.write, ih, String.join_cons]

theorem render_texts (b : Bindings) (ss : List String) :
    render b (ss.map .text) = .ok (String.join ss) := by
  rw [render, write_texts]
  rfl

end FieldWiring.Template
