import FieldWiring.Proofs.Template.Layout
import FieldWiring.Proofs.Text.Trimming

/-!
# The lines of a unit

A unit line by line: what stands before the statements of its method, a statement for each field of
the walk, and what closes the method and the class. Nothing of it refers to templates, and what a
walk supplies stands in it as it is.

Results:
* `lookupText_standard`: the value of a field by the standard templates.
* `headerText_eq`: the head of the class that a unit continues.
* `unitText_lines`: a unit as it is laid out, line by line.
-/

namespace FieldWiring

open Template

/-! ## Values of fields -/

/-- The value of a field: what is found under its key, or the first of its type. -/
def valueText : LookupMode → MarkedField → String
  | .byPath, f => "this.GetNode<" ++ f.typeText ++ ">(\"" ++ f.lookupKey ++ "\")"
  | .byType, f => "GetTree().Root.GetChildren().OfType<" ++ f.typeText ++ ">().FirstOrDefault()"

theorem valueText_byPath (f : MarkedField) :
    valueText .byPath f = "this.GetNode<" ++ f.typeText ++ ">(\"" ++ f.lookupKey ++ "\")" := rfl

theorem valueText_byType (f : MarkedField) : valueText .byType f =
    "GetTree().Root.GetChildren().OfType<" ++ f.typeText ++ ">().FirstOrDefault()" := rfl

/-- The value of a field has no blank at its ends. -/
theorem valueText_ends (mode : LookupMode) (f : MarkedField) :
    (∃ c, (valueText mode f).toList.head? = some c ∧ Text.isBlank c = false) ∧
      ∃ c, (valueText mode f).toList.getLast? = some c ∧ Text.isBlank c = false := by
  have hhead : ∀ s t : String, s ≠ "" → (s ++ t).toList.head? = s.toList.head? := by
    intro s t hs
    rw [String.toList_append, List.head?_append_of_ne_nil _ (String.toList_eq_nil_iff.not.mpr hs)]
  have hlast : ∀ s t : String, t ≠ "" → (s ++ t).toList.getLast? = t.toList.getLast? := by
    intro s t ht
    rw [String.toList_append,
      List.getLast?_append_of_ne_nil _ (String.toList_eq_nil_iff.not.mpr ht)]
  cases mode with
  | byPath =>
    refine ⟨⟨'t', ?_, by decide⟩, ')', hlast _ _ (by decide), by decide⟩
    rw [valueText_byPath, String.append_assoc, String.append_assoc, String.append_assoc]
    exact hhead _ _ (by decide)
  | byType =>
    refine ⟨⟨'G', ?_, by decide⟩, ')', hlast _ _ (by decide), by decide⟩
    rw [valueText_byType, String.append_assoc]
    exact hhead _ _ (by decide)

theorem lookupLine_eq (mode : LookupMode) (f : MarkedField) :
    lookupLine mode f = valueText mode f ++ "\n" := by
  have hkey : "\")\n" = "\")" ++ "\n" := by decide
  have hfirst : ">().FirstOrDefault()\n" = ">().FirstOrDefault()" ++ "\n" := by decide
  cases mode with
  | byPath =>
    rw [valueText_byPath, lookupLine, hkey]
    simp only [String.join_cons, String.join_nil, String.append_empty, String.append_assoc]
  | byType =>
    rw [valueText_byType, lookupLine, hfirst]
    simp only [String.join_cons, String.join_nil, String.append_empty, String.append_assoc]

theorem trim_lookupLine (mode : LookupMode) (f : MarkedField) :
    Text.trim (lookupLine mode f) = valueText mode f := by
  obtain ⟨⟨first, hhead, hfirst⟩, last, hlast, hend⟩ := valueText_ends mode f
  have hline : Text.isBlank '\n' = true := by decide
  rw [Text.trim, lookupLine_eq, String.toList_append, Text.trimChars_append, String.ofList_toList]
  · exact fun c hc => Option.some.inj (hhead.symm.trans hc) ▸ hfirst
  · exact fun c hc => Option.some.inj (hlast.symm.trans hc) ▸ hend
  · exact fun c hc => List.mem_singleton.mp hc ▸ hline
  · exact List.ne_nil_of_mem (List.mem_of_mem_head? hhead)

/-- The value of a field by the standard templates. -/
theorem lookupText_standard (g : Generator) (f : MarkedField) :
    lookupText .standard g f = .ok (valueText g.lookup f) := by
  unfold lookupText
  rw [lookup_write, ← trim_lookupLine]
  rfl

/-! ## The class that a unit continues -/

/-- The head of the class that a unit continues: the access modifiers as declared, the name, and the
type parameters if there are any. -/
def openingText (d : TypeDeclaration) : String :=
  String.join (d.accessibility.map (· ++ " ")) ++ "partial class " ++ d.name ++
    match d.typeParameters with
    | [] => ""
    | p :: ps => "<" ++ p ++ String.join (ps.map (", " ++ ·)) ++ ">"

theorem intercalate_eq_join (between first : String) (others : List String) :
    between.intercalate (first :: others) = first ++ String.join (others.map (between ++ ·)) := by
  induction others generalizing first with
  | nil => simp [String.intercalate_singleton, String.join]
  | cons second others ih =>
    rw [String.intercalate_cons_cons, ih, List.map_cons, String.join_cons]
    simp only [String.append_assoc]

theorem intercalate_concat (between last : String) (others : List String) :
    between.intercalate (others ++ [last]) = String.join (others.map (· ++ between)) ++ last := by
  induction others with
  | nil => simp [String.intercalate_singleton, String.join]
  | cons first others ih =>
    obtain ⟨second, rest, hrest⟩ := List.exists_cons_of_ne_nil
      (List.append_ne_nil_of_right_ne_nil others (List.cons_ne_nil last []))
    rw [List.cons_append, hrest, String.intercalate_cons_cons, ← hrest, ih, List.map_cons,
      String.join_cons]
    simp only [String.append_assoc]

theorem headerText_eq (d : TypeDeclaration) : headerText d = openingText d := by
  have hwords : " ".intercalate (d.accessibility ++ ["partial", "class", d.name]) =
      String.join (d.accessibility.map (· ++ " ")) ++ "partial class " ++ d.name := by
    have hsplit : d.accessibility ++ ["partial", "class", d.name] =
        (d.accessibility ++ ["partial", "class"]) ++ [d.name] := by simp
    have hclass : "partial " ++ "class " = "partial class " := by decide
    rw [hsplit, intercalate_concat, List.map_append, String.join_append, ← hclass]
    simp [String.join_cons]
  unfold headerText openingText
  rw [hwords]
  cases d.typeParameters with
  | nil => simp
  | cons p ps => simp [intercalate_eq_join, String.append_assoc]

/-! ## Units -/

/-- The lines of a unit before the statements of its method. -/
def leadLines (g : Generator) (d : TypeDeclaration) (w : Walk) : List String :=
  ["// <auto-generated>", "// Generated by resolvergen (" ++ g.kind.key ++ "). Do not edit.",
    "// </auto-generated>", ""] ++
  (if d.scope = "" then [] else ["namespace " ++ d.scope ++ ";", ""]) ++ w.imports ++
  ["#pragma warning disable CS0105 // Disable warning about redundant using directive"] ++
  g.resolverImports ++
  ["#pragma warning restore CS0105", "", openingText d ++ " : " ++ g.kind.interfaceName, "\x7b",
    "#pragma warning disable CS0109 // Disable warning about redundant 'new' keyword",
    "    public new void " ++ g.kind.method ++ "()", "    \x7b"]

/-- The line that assigns a field. -/
def assignmentLine (g : Generator) (f : MarkedField) : String :=
  "        this." ++ f.name ++ " = " ++ valueText g.lookup f ++ ";"

/-- The lines of a unit behind the statements of its method. -/
def closingLines : List String := ["    \x7d", "#pragma warning restore CS0109", "\x7d"]

/-- The lines of a unit. -/
def unitLines (g : Generator) (d : TypeDeclaration) (w : Walk) : List String :=
  leadLines g d w ++ w.fields.map (assignmentLine g) ++ closingLines

theorem linesText_append (indent : String) (ls ms : List String) :
    linesText indent (ls ++ ms) = linesText indent ls ++ linesText indent ms := by
  rw [linesText, List.map_append, String.join_append]
  rfl

theorem linesText_cons (indent l : String) (ls : List String) :
    linesText indent (l :: ls) = indent ++ l ++ "\n" ++ linesText indent ls := by
  rw [linesText, List.map_cons, String.join_cons]
  rfl

/-- The statements of a method, line by line. -/
theorem linesText_assignments (g : Generator) (fs : List MarkedField) :
    linesText "        " (fs.map (assignmentText g)) =
      linesText "" (fs.map (assignmentLine g)) := by
  have hindent : "        this." = "        " ++ "this." := by decide
  have hline : (fun line => "        " ++ line ++ "\n") ∘ assignmentText g =
      (fun line => "" ++ line ++ "\n") ∘ assignmentLine g := by
    funext f
    unfold assignmentText assignmentLine
    simp only [Function.comp_apply, trim_lookupLine, hindent, String.append_assoc,
      String.empty_append]
  unfold linesText
  rw [List.map_map, List.map_map, hline]

/-- **A unit as it is laid out, line by line.** -/
theorem unitText_lines (g : Generator) (d : TypeDeclaration) (w : Walk) :
    unitText g d w (w.fields.map (assignmentText g)) = linesText "" (unitLines g d w) := by
  have hspace : namespaceText d =
      linesText "" (if d.scope = "" then [] else ["namespace " ++ d.scope ++ ";", ""]) := by
    unfold namespaceText
    split
    · rfl
    · simp [linesText, String.join_cons, String.append_assoc]
  have hnotice : "// <auto-generated>\n// Generated by resolvergen (" =
      "// <auto-generated>" ++ ("\n" ++ "// Generated by resolvergen (") := by decide
  have hedit : "). Do not edit.\n// </auto-generated>\n\n" =
      "). Do not edit." ++ ("\n" ++ ("// </auto-generated>" ++ ("\n" ++ "\n"))) := by decide
  have hdisable :
      "#pragma warning disable CS0105 // Disable warning about redundant using directive\n" =
      "#pragma warning disable CS0105 // Disable warning about redundant using directive" ++
      "\n" := by
    decide
  have hrestore : "#pragma warning restore CS0105\n\n" =
      "#pragma warning restore CS0105" ++ ("\n" ++ "\n") := by decide
  have hopen :
      "\n\x7b\n#pragma warning disable CS0109 // Disable warning about redundant 'new' keyword\n" =
      "\n" ++ ("\x7b" ++ ("\n" ++
        ("#pragma warning disable CS0109 // Disable warning about redundant 'new' keyword" ++
          "\n"))) := by
    decide
  have hmethod : "()\n    \x7b\n" = "()" ++ ("\n" ++ ("    \x7b" ++ "\n")) := by decide
  have hclose : "    \x7d\n#pragma warning restore CS0109\n\x7d\n" =
      "    \x7d" ++
      ("\n" ++ ("#pragma warning restore CS0109" ++ ("\n" ++ ("\x7d" ++ "\n")))) := by decide
  rw [unitText, linesText_assignments, headerText_eq, hspace, hnotice, hedit, hdisable, hrestore,
    hopen, hmethod, hclose]
  simp only [unitLines, leadLines, closingLines, linesText_append]
  simp only [linesText, List.map_cons, List.map_nil, String.join_cons, String.join_nil,
    String.append_assoc, String.empty_append, String.append_empty]

end FieldWiring
