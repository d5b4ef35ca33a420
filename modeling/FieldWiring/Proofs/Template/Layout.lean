import FieldWiring.Resolver
import Mathlib.Data.List.Forall2

/-!
# What the standard templates write

The templates of a project that replaces none hold texts, bound names, one choice and three lists of
lines. Such parts never fail, whatever loops were begun before them, so each of them has *a* text:
`Writes m s` says that `m` writes `s` and goes on. `unitText` is the text of a whole unit as it is
laid out, and `lookupText` that of a field's value.

Results:
* `writes_lines`: a list is written line by line behind its indent.
* `unit_write`: with the standard templates a unit is always written, and as `unitText`.
* `resolverText_standard`: a candidate's unit fails only for a field whose type cannot be written.
-/

namespace FieldWiring

open Template

namespace Template

/-! ## Parts that do not fail -/

/-- Whatever loops there are, `m` writes `s`. -/
def Writes (m : Writing String) (s : String) : Prop := ∀ loops, ∃ loops', m loops = .ok (s, loops')

/-- Parts are written one after the other. -/
theorem writes_parts {b : Bindings} {ps : List Part} {ss : List String}
    (h : List.Forall₂ (fun p s => Writes (p.write b) s) ps ss) :
    Writes (write b ps) (String.join ss) := by
  induction h with
  | nil => exact fun loops => ⟨loops, rfl⟩
  | cons hp _ ih =>
    intro loops
    obtain ⟨mid, hmid⟩ := hp loops
    obtain ⟨last, hlast⟩ := ih mid
    refine ⟨last, ?_⟩
    rw [String.join_cons]
    unfold write
    simp only [bind, StateT.bind, hmid, Except.bind, hlast]
    rfl

theorem pure_writing {α : Type} (a : α) (loops : Loops) :
    (pure a : Writing α) loops = .ok (a, loops) := rfl

theorem writes_text (b : Bindings) (s : String) : Writes ((Part.text s).write b) s :=
  fun loops => ⟨loops, rfl⟩

/-- A bound name is written as the text that it is bound to. -/
theorem writes_name {b : Bindings} {name s : String} (h : valueOf b name = .text s) :
    Writes ((Part.name name).write b) s := by
  intro loops
  refine ⟨loops, ?_⟩
  unfold Part.name Part.write
  simp only [Reference.eval, List.foldlM_nil, h]
  rfl

/-- A choice is written as the branch that its condition selects. -/
theorem writes_choice {b : Bindings} {name s : String} {yes no : List Part}
    (h : Writes (if (valueOf b name).isTrue then write b yes else write b no) s) :
    Writes ((Part.choice ⟨name, []⟩ yes no).write b) s := by
  intro loops
  obtain ⟨loops', hl⟩ := h loops
  exact ⟨loops', hl⟩

theorem render_of_writes (b : Bindings) (ps : List Part) {ss : List String}
    (h : List.Forall₂ (fun p s => Writes (p.write b) s) ps ss) :
    render b ps = .ok (String.join ss) := by
  obtain ⟨loops', hl⟩ := writes_parts h #[]
  unfold render
  simp only [StateT.run', hl]
  rfl

/-! ## Lists of lines -/

/-- The items that a loop has left are taken one by one: each is written, and the loop counts it. -/
theorem forItems_texts {id : Nat} {f : Value → Writing String} {g : String → String}
    (hf : ∀ i loops, f (.text i) loops = .ok (g i, loops)) :
    ∀ (items : List String) (loops : Loops) (l : Loop), loops[id]? = some l →
      l.source = .items (items.map .text) → l.ahead = none →
      ∃ loops' l', forItems id f items.length loops = .ok (String.join (items.map g), loops') ∧
        loops'[id]? = some l' ∧ l'.index = l.index + items.length
  | [], loops, l, hl, _, _ => ⟨loops, l, rfl, hl, rfl⟩
  | i :: items, loops, l, hl, hs, ha => by
    -- taking the item only changes the loop itself
    have hup : loops.upcoming id =
        (some (.text i),
          loops.modify id fun l => { l with source := .items (items.map .text) }) := by
      unfold Loops.upcoming
      rw [hl]
      simp only [Option.bind_some, ha]
      unfold Loops.fetch
      simp only [hl, hs, List.map_cons]
    have hadv : loops.advance id = (some (.text i),
        (loops.modify id fun l => { l with source := .items (items.map .text) }).modify id
          (·.enter (.text i))) := by
      unfold Loops.advance
      rw [hup]
      rfl
    have hnext : ((loops.modify id fun l => { l with source := .items (items.map .text) }).modify id
        (·.enter (.text i)))[id]? =
          some (({ l with source := .items (items.map .text) } : Loop).enter (.text i)) := by
      rw [Array.getElem?_modify, if_pos rfl, Array.getElem?_modify, if_pos rfl, hl]
      rfl
    obtain ⟨loops', l', hw, hl', hi⟩ := forItems_texts hf items _ _ hnext rfl rfl
    refine ⟨loops', l', ?_, hl', ?_⟩
    · simp only [List.length_cons, forItems, bind, StateT.bind, Except.bind, hadv, hf, hw]
      simp only [List.map_cons, String.join_cons]
      rfl
    · rw [hi, List.length_cons]
      simp only [Loop.enter]
      omega

/-- Items, each on a line of its own behind an indent. -/
def linesText (indent : String) (items : List String) : String :=
  String.join (items.map fun i => indent ++ i ++ "\n")

/-- A list is written item by item. -/
theorem writes_each {b : Bindings} {item list : String} {items : List String} {body : List Part}
    {line : String → String} (h : valueOf b list = .texts items)
    (hbody : ∀ (i : String) (id : Nat) (loops : Loops),
      write ((item, .text i) :: ("loop", .loop id) :: b) body loops = .ok (line i, loops)) :
    Writes ((Part.each item ⟨list, []⟩ body []).write b) (String.join (items.map line)) := by
  intro loops
  have hpush : (loops.push (⟨(items.map Value.text).length, .items (items.map .text), 0, none, none,
      none⟩ : Loop))[loops.size]? =
        some ⟨(items.map Value.text).length, .items (items.map .text), 0, none, none, none⟩ := by
    simp
  obtain ⟨loops', l', hw, hl', hi⟩ := forItems_texts
    (f := fun v => write ((item, v) :: ("loop", .loop loops.size) :: b) body)
    (g := line) (fun i ls => hbody i loops.size ls) items _ _ hpush rfl rfl
  refine ⟨loops', ?_⟩
  rw [List.length_map] at hw
  have hpure {α : Type} (a : α) : (pure a : Except Error α) = .ok a := rfl
  simp only [Part.write, Reference.eval, List.foldlM_nil, h, beginLoop, itemsOf, bind,
    StateT.bind, Except.bind, pure_writing, hpure, List.length_map, hw, get, getThe,
    MonadStateOf.get, StateT.get, hl', Option.any_some]
  -- a loop without items has nothing else to write
  cases items with
  | nil => simp [hi, write, pure_writing, String.join]
  | cons i items =>
    have : l'.index ≠ 0 := by
      rw [hi, List.length_cons]
      omega
    simp only [this, decide_false, Bool.false_eq_true, if_false]
    rfl

theorem write_text (b : Bindings) (s : String) (loops : Loops) :
    write b [.text s] loops = .ok (s, loops) := by
  simp [write, Part.write]
  rfl

/-- A list whose items are named is written line by line, each behind what leads it. -/
theorem writes_items {b : Bindings} {item list indent : String} {items : List String}
    (lead : List Part)
    (hitem : constants.lookup item = none)
    (hlead : ∀ b loops, write b lead loops = .ok (indent, loops))
    (h : valueOf b list = .texts items) :
    Writes ((Part.each item ⟨list, []⟩ (lead ++ [.name item, .text "\n"]) []).write b)
      (linesText indent items) := by
  refine writes_each h fun i id loops => ?_
  have hv : valueOf ((item, .text i) :: ("loop", .loop id) :: b) item = .text i := by
    simp [valueOf, hitem]
  simp only [write_append, bind, StateT.bind, Except.bind, hlead]
  simp only [write, Part.name, Part.write, Reference.eval, List.foldlM_nil, hv, String.append_assoc]
  rfl

/-- A list is written line by line behind its indent. -/
theorem writes_lines {b : Bindings} {list indent : String} {items : List String}
    (h : valueOf b list = .texts items) :
    Writes ((Part.lines list indent).write b) (linesText indent items) :=
  writes_items [.text indent] rfl (write_text · indent) h

/-! ## The standard templates -/

/-- The statement that places a unit in the namespace of its type. -/
def namespaceText (d : TypeDeclaration) : String :=
  if d.scope = "" then "" else "namespace " ++ d.scope ++ ";\n\n"

/-- A unit as the standard templates lay it out. -/
def unitText (g : Generator) (d : TypeDeclaration) (w : Walk) (assigned : List String) : String :=
  String.join
    ["// <auto-generated>\n// Generated by resolvergen (", g.kind.key,
      "). Do not edit.\n// </auto-generated>\n\n", namespaceText d, linesText "" w.imports,
      "#pragma warning disable CS0105 // Disable warning about redundant using directive\n",
      linesText "" g.resolverImports, "#pragma warning restore CS0105\n\n", headerText d, " : ",
      g.kind.interfaceName,
      "\n\x7b\n#pragma warning disable CS0109 // Disable warning about redundant 'new' keyword\n" ++
        "    public new void ", g.kind.method, "()\n    \x7b\n", linesText "        " assigned,
      "    \x7d\n#pragma warning restore CS0109\n\x7d\n"]

/-- The value of a field as the standard templates lay it out, on a line of its own. -/
def lookupLine : LookupMode → MarkedField → String
  | .byPath, f => String.join ["this.GetNode<", f.typeText, ">(\"", f.lookupKey, "\")\n"]
  | .byType, f =>
    String.join ["GetTree().Root.GetChildren().OfType<", f.typeText, ">().FirstOrDefault()\n"]

/-- What is known of a field is written as it is. -/
theorem writes_field {b : Bindings} {f : MarkedField} {about s : String}
    (hb : valueOf b "field" = f.value) (hs : f.value.member? about = some (.text s)) :
    Writes ((Part.field about).write b) s := by
  intro loops
  refine ⟨loops, ?_⟩
  have hm : memberOf f.value about loops = .ok (.text s, loops) := by
    unfold memberOf
    rw [hs]
    rfl
  unfold Part.field Part.write
  simp only [Reference.eval, List.foldlM_cons, List.foldlM_nil, hb, Step.apply, bind, StateT.bind,
    hm, Except.bind]
  rfl

theorem lookup_write (g : Generator) (f : MarkedField) :
    Templates.standard (.lookup g.lookup) [("field", f.value)] =
      .ok (lookupLine g.lookup f) := by
  have hfield (v : Value) : valueOf [("self", v), ("field", f.value)] "field" = f.value := rfl
  have htype : f.value.member? "type_text" = some (.text f.typeText) := rfl
  have hkey : f.value.member? "lookup_key" = some (.text f.lookupKey) := rfl
  unfold Templates.standard writeParts
  cases hl : g.lookup with
  | byPath =>
    have := render_of_writes [("self", .template (TemplateName.lookup .byPath).file),
      ("field", f.value)] (lookupParts .byPath) <|
        .cons (writes_text _ _) <| .cons (writes_field (hfield _) htype) <|
        .cons (writes_text _ _) <| .cons (writes_field (hfield _) hkey) <|
        .cons (writes_text _ _) .nil
    rw [standardParts, this]
    rfl
  | byType =>
    have := render_of_writes [("self", .template (TemplateName.lookup .byType).file),
      ("field", f.value)] (lookupParts .byType) <|
        .cons (writes_text _ _) <| .cons (writes_field (hfield _) htype) <|
        .cons (writes_text _ _) .nil
    rw [standardParts, this]
    rfl

/-- A unit is in its type's namespace, when that has a name. -/
theorem writes_namespace {b : Bindings} {d : TypeDeclaration}
    (h : valueOf b "namespace" = match d.namespaceName with
      | none => .nothing
      | some n => .text n) :
    Writes ((Part.choice ⟨"namespace", []⟩ [.text "namespace ", .name "namespace", .text ";\n\n"]
      []).write b) (namespaceText d) := by
  apply writes_choice
  unfold namespaceText TypeDeclaration.scope
  cases hn : d.namespaceName with
  | none =>
    rw [hn] at h
    simp only [h]
    exact writes_parts (b := b) .nil
  | some n =>
    rw [hn] at h
    by_cases he : n = ""
    · simp only [h, he, Value.isTrue]
      exact writes_parts (b := b) .nil
    · have := writes_parts <| .cons (writes_text b "namespace ") <| .cons (writes_name h) <|
        .cons (writes_text b ";\n\n") .nil
      simpa [h, Value.isTrue, he, String.join_cons, String.append_assoc] using this

/-- The parts of a unit, with those that write its lists. -/
def unitPartsWith (imports resolverImports assigned : Part) : List Part :=
  [.text "// <auto-generated>\n// Generated by resolvergen (", .name "kind",
    .text "). Do not edit.\n// </auto-generated>\n\n",
    .choice ⟨"namespace", []⟩ [.text "namespace ", .name "namespace", .text ";\n\n"] [], imports,
    .text "#pragma warning disable CS0105 // Disable warning about redundant using directive\n",
    resolverImports, .text "#pragma warning restore CS0105\n\n", .name "declaration", .text " : ",
    .name "interface",
    .text ("\n\x7b\n#pragma warning disable CS0109 " ++
      "// Disable warning about redundant 'new' keyword\n    public new void "),
    .name "method", .text "()\n    \x7b\n", assigned,
    .text "    \x7d\n#pragma warning restore CS0109\n\x7d\n"]

section

variable (g : Generator) (d : TypeDeclaration) (w : Walk) (assigned : List String)

/-- What the names in a unit stand for. -/
theorem valueOf_unit {name : String} {v : Value} (hc : constants.lookup name = none)
    (hb : (unitBindings g d w assigned).lookup name = some v) (hn : name ≠ "self") :
    valueOf (("self", .template TemplateName.unit.file) :: unitBindings g d w assigned) name =
      v := by
  simp [valueOf, hc, List.lookup_cons, beq_false_of_ne hn, hb]

/-- Parts that write the lists of a unit line by line write the unit as it is laid out. -/
theorem render_unit {imports resolverImports assignments : Part}
    (hi : Writes (imports.write (("self", .template TemplateName.unit.file) ::
      unitBindings g d w assigned)) (linesText "" w.imports))
    (hr : Writes (resolverImports.write (("self", .template TemplateName.unit.file) ::
      unitBindings g d w assigned)) (linesText "" g.resolverImports))
    (ha : Writes (assignments.write (("self", .template TemplateName.unit.file) ::
      unitBindings g d w assigned)) (linesText "        " assigned)) :
    render (("self", .template TemplateName.unit.file) :: unitBindings g d w assigned)
      (unitPartsWith imports resolverImports assignments) = .ok (unitText g d w assigned) := by
  have bound {name : String} {v : Value} (hc : constants.lookup name = none)
      (hb : (unitBindings g d w assigned).lookup name = some v) (hn : name ≠ "self") :=
    valueOf_unit g d w assigned hc hb hn
  exact render_of_writes _ _ <|
    .cons (writes_text _ _) <| .cons (writes_name (bound rfl rfl (by decide))) <|
    .cons (writes_text _ _) <| .cons (writes_namespace (bound rfl rfl (by decide))) <|
    .cons hi <| .cons (writes_text _ _) <| .cons hr <| .cons (writes_text _ _) <|
    .cons (writes_name (bound rfl rfl (by decide))) <| .cons (writes_text _ _) <|
    .cons (writes_name (bound rfl rfl (by decide))) <| .cons (writes_text _ _) <|
    .cons (writes_name (bound rfl rfl (by decide))) <| .cons (writes_text _ _) <|
    .cons ha <| .cons (writes_text _ _) .nil

/-- **With the standard templates a unit is always written**, as it is laid out. -/
theorem unit_write : Templates.standard .unit (unitBindings g d w assigned) =
    .ok (unitText g d w assigned) := by
  have hrender : render (("self", .template TemplateName.unit.file) :: unitBindings g d w assigned)
      unitParts = .ok (unitText g d w assigned) :=
    render_unit g d w assigned (writes_lines (valueOf_unit g d w assigned rfl rfl (by decide)))
      (writes_lines (valueOf_unit g d w assigned rfl rfl (by decide)))
      (writes_lines (valueOf_unit g d w assigned rfl rfl (by decide)))
  rw [Templates.standard, writeParts, standardParts, hrender]
  rfl

end

end Template

/-! ## Units of candidates -/

/-- The statement that assigns a field by the standard templates. -/
def assignmentText (g : Generator) (f : MarkedField) : String :=
  "this." ++ f.name ++ " = " ++ Text.trim (Template.lookupLine g.lookup f) ++ ";"

theorem assignment_standard (g : Generator) (d : TypeDeclaration) {f : MarkedField}
    (h : isWritableType f.typeText = true) :
    assignment .standard g d f = .ok (assignmentText g f) := by
  have hl : lookupText .standard g f = .ok (Text.trim (Template.lookupLine g.lookup f)) := by
    unfold lookupText
    rw [Template.lookup_write]
    rfl
  unfold assignment
  rw [if_pos h, hl]
  rfl

/-- The fault of a field whose type cannot be written. -/
def unwritable (d : TypeDeclaration) (f : MarkedField) : Fault :=
  .of d (.unrenderableField f.name ("has no emittable type (" ++ Text.quoted f.typeText ++ ")"))

theorem assignment_unwritable (T : Templates) (g : Generator) (d : TypeDeclaration)
    {f : MarkedField}
    (h : ¬ isWritableType f.typeText = true) :
    assignment T g d f = .error (.fault (unwritable d f)) := by
  unfold assignment
  rw [if_neg h]
  rfl

/-- The first element of a list with a property. -/
theorem exists_first {α : Type} {p : α → Prop} {l : List α} (h : ∃ a ∈ l, p a) :
    ∃ before a behind, l = before ++ a :: behind ∧ p a ∧ ∀ b ∈ before, ¬ p b := by
  classical
  obtain ⟨a, ha, hp⟩ := h
  have hsome : (l.find? fun b => decide (p b)).isSome = true :=
    List.find?_isSome.mpr ⟨a, ha, decide_eq_true hp⟩
  obtain ⟨first, hfirst⟩ := Option.isSome_iff_exists.mp hsome
  obtain ⟨hpf, before, behind, hl, hbefore⟩ := List.find?_eq_some_iff_append.mp hfirst
  exact ⟨before, first, behind, hl, of_decide_eq_true hpf, fun b hb => by simpa using hbefore b hb⟩

/-- With types that can be written a unit is as it is laid out. -/
theorem resolverText_writable (g : Generator) (d : TypeDeclaration) {w : Walk}
    (h : ∀ f ∈ w.fields, isWritableType f.typeText = true) :
    resolverText .standard g d w =
      .ok (Template.unitText g d w (w.fields.map (assignmentText g))) := by
  have ha : assignments .standard g d w = .ok (w.fields.map (assignmentText g)) :=
    mapM_of_forall fun f hf => assignment_standard g d (h f hf)
  unfold resolverText
  rw [ha]
  simp only [bind, Except.bind, Template.unit_write]

/-- The first type that cannot be written is the fault. -/
theorem resolverText_unwritable (g : Generator) (d : TypeDeclaration) {w : Walk}
    {before behind : List MarkedField} {f : MarkedField}
    (hfields : w.fields = before ++ f :: behind)
    (hf : ¬ isWritableType f.typeText = true)
    (hbefore : ∀ f' ∈ before, isWritableType f'.typeText = true) :
    resolverText .standard g d w = .error (.fault (unwritable d f)) := by
  have ha : assignments .standard g d w = .error (.fault (unwritable d f)) := by
    unfold assignments
    rw [hfields, mapM_error (assignment_unwritable .standard g d hf) behind fun f' hf' =>
      ⟨_, assignment_standard g d (hbefore f' hf')⟩]
  unfold resolverText
  rw [ha]
  rfl

/-- **A candidate's unit fails only for a field whose type cannot be written.** Otherwise it is the
unit as it is laid out, with one statement for each field of the walk. -/
theorem resolverText_standard (g : Generator) (d : TypeDeclaration) (w : Walk) :
    (∃ f, resolverText .standard g d w = .error (.fault f)) ∨
      resolverText .standard g d w =
        .ok (Template.unitText g d w (w.fields.map (assignmentText g))) := by
  by_cases h : ∃ f ∈ w.fields, ¬ isWritableType f.typeText = true
  · obtain ⟨before, f, behind, hfields, hf, hbefore⟩ := exists_first h
    exact .inl ⟨_, resolverText_unwritable g d hfields hf fun f' hf' => not_not.mp (hbefore f' hf')⟩
  · exact .inr (resolverText_writable g d fun f hf => not_not.mp fun hf' => h ⟨f, hf, hf'⟩)

end FieldWiring
