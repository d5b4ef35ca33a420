import FieldWiring.Candidate
import FieldWiring.Proofs.Template.Plain

/-!
# Generated units as sources

A generated unit lies among the sources of the next run, so what it declares there matters. Its text
is a row of plain pieces: a notice, the namespace, imports between pragmas, and a class with one
method. A `Section` is a part of such a row that stands on lines of its own, with its text and the
members that it declares; a unit is put together from sections and read back the same way.

Results:
* `section_imports`, `section_namespace`: what the lines before the class declare.
* `becomes_unitClass`: the class of a unit declares itself, without members.
* `parseSource_unit`: a unit is read as one part of its type, with its imports in the type's
  namespace.
* `unit_reopens`: every kind of the program writes a unit for a plain type, and the unit reopens it.
-/

namespace FieldWiring

open CSharp Template

/-! ## Whole lines -/

/-- The piece can begin a line. -/
def CSharp.Piece.beginsLine : Piece → Bool
  | word _ => true
  | comment _ => true
  | pragma _ => true
  | _ => false

/-- The piece can end a line. -/
def CSharp.Piece.endsLine : Piece → Bool
  | blank _ => true
  | pragma _ => true
  | _ => false

theorem CSharp.Piece.meets_of_lines {p q : Piece} (hp : p.endsLine = true)
    (hq : q.beginsLine = true) : p.Meets q := by
  cases p with
  | blank s =>
    cases q with
    | blank t => exact absurd hq Bool.false_ne_true
    | _ => rfl
  | pragma s => cases q <;> rfl
  | _ => exact absurd hp Bool.false_ne_true

/-- A readable row of whole lines. -/
structure IsLines (ps : List Piece) : Prop where
  readable : IsReadable ps
  head : ∀ p ∈ ps.head?, p.beginsLine = true
  last : ∀ p ∈ ps.getLast?, p.endsLine = true

instance : DecidablePred IsLines := fun ps =>
  decidable_of_iff (IsReadable ps ∧ (∀ p ∈ ps.head?, p.beginsLine = true) ∧
      ∀ p ∈ ps.getLast?, p.endsLine = true)
    ⟨fun h => ⟨h.1, h.2.1, h.2.2⟩, fun h => ⟨h.readable, h.head, h.last⟩⟩

theorem IsLines.append {ps qs : List Piece} (hp : IsLines ps) (hq : IsLines qs) :
    IsLines (ps ++ qs) where
  readable := isReadable_append.mpr ⟨hp.readable, hq.readable, fun p hlast q hfirst =>
    Piece.meets_of_lines (hp.last p hlast) (hq.head q hfirst)⟩
  head := by
    cases ps with
    | nil => exact hq.head
    | cons p ps => exact hp.head
  last := by
    rcases List.eq_nil_or_concat' qs with rfl | ⟨qs, q, rfl⟩
    · rw [List.append_nil]
      exact hp.last
    · intro p hlast
      rw [← List.append_assoc, List.getLast?_concat] at hlast
      exact hq.last p (by rw [List.getLast?_concat]; exact hlast)

theorem CSharp.Spans.lines {ps : List Piece} {a b : Piece} (h : Spans ps a b)
    (ha : a.beginsLine = true) (hb : b.endsLine = true) : IsLines ps := by
  refine ⟨h.readable, ?_, ?_⟩
  · rw [h.head]
    rintro _ ⟨⟩
    exact ha
  · rw [h.last]
    rintro _ ⟨⟩
    exact hb

/-- Lines of a source that declare members. -/
structure Section (text : String) (ms : List Member) (ps : List Piece) : Prop where
  lines : IsLines ps
  declares : Declares ps ms
  text : piecesText ps = text.toList

theorem Section.append {s t : String} {ms ns : List Member} {ps qs : List Piece}
    (hp : Section s ms ps) (hq : Section t ns qs) : Section (s ++ t) (ms ++ ns) (ps ++ qs) where
  lines := hp.lines.append hq.lines
  declares := hp.declares.append hq.declares
  text := by rw [piecesText_append, hp.text, hq.text, String.toList_append]

/-- Comments and pragmas declare nothing. -/
theorem section_remarks {text : String} {ps : List Piece} (hlines : IsLines ps)
    (hcode : ∀ p ∈ ps, p.isCode = false) (htext : piecesText ps = text.toList) :
    Section text [] ps := ⟨hlines, declares_gaps hcode, htext⟩

/-- A statement with the end of its line declares what it declares alone. -/
theorem section_statement {lead : String} (hlead : isPlainWord lead = true) {parts : List String}
    (hne : parts ≠ []) (h : ∀ w ∈ parts, isPlainWord w = true) {m : Member}
    (hdeclares : Declares (statementPieces lead parts) [m]) {ends : String}
    (hends : (Piece.blank ends).IsPlain) :
    Section (lead ++ " " ++ (dotted parts ++ ";") ++ ends) [m]
      (statementPieces lead parts ++ [.blank ends]) where
  lines := by
    have hstatement : Spans (statementPieces lead parts) (.word lead) (.sign ';') := by
      refine ⟨isReadable_statement hlead hne h, hdeclares.imp fun _ _ => trivial, rfl, ?_⟩
      rw [statementPieces, ← List.cons_append, ← List.cons_append, List.getLast?_concat]
    exact (hstatement.append (spans_singleton hends rfl) rfl).lines rfl rfl
  declares := by
    have hgap : Declares [.blank ends] [] := declares_gaps (by simp [Piece.isCode])
    exact hdeclares.append hgap
  text := by
    rw [piecesText_append, piecesText_statement, piecesText_cons, piecesText_nil, List.append_nil,
      Piece.text, ← String.toList_append]

/-! ## Sections of a unit -/

/-- The text of an import directive for a plain namespace. -/
def IsPlainImport (text : String) : Prop := ∃ n, IsDotted n ∧ text = "using " ++ n ++ ";"

/-- Imports are lines that declare what they name. -/
theorem section_imports {imports : List String}
    (h : ∀ i ∈ imports, IsPlainImport i) :
    ∃ (targets : List String) (ps : List Piece),
      imports = targets.map (fun n => "using " ++ n ++ ";") ∧
        Section (linesText "" imports) (targets.map fun n => .importing (importOf "" n)) ps := by
  induction imports with
  | nil => exact ⟨[], [], rfl, section_remarks (by decide) (by decide) rfl⟩
  | cons i is ih =>
    obtain ⟨_, ⟨parts, hne, hparts, rfl⟩, rfl⟩ := h i List.mem_cons_self
    obtain ⟨targets, ps, rfl, hrest⟩ := ih fun j hj => h j (List.mem_cons_of_mem _ hj)
    have hline := section_statement (by decide) hne
      (fun w hw => isPlainWord_of_isPlainName (hparts w hw)) (declares_import hne hparts)
      (show (Piece.blank "\n").IsPlain by decide)
    have htext : "using" ++ " " ++ (dotted parts ++ ";") ++ "\n" ++
        linesText "" (targets.map fun n => "using " ++ n ++ ";") =
          linesText "" (("using " ++ dotted parts ++ ";") ::
            targets.map fun n => "using " ++ n ++ ";") := by
      have hlead : "using" ++ " " = "using " := by decide
      simp [linesText, String.join_cons, hlead, String.append_assoc]
    exact ⟨dotted parts :: targets, _, rfl, htext ▸ hline.append hrest⟩

theorem IsDotted.ne_empty {n : String} (h : IsDotted n) : n ≠ "" := by
  obtain ⟨parts, hne, hparts, rfl⟩ := h
  have hwords : ∀ w ∈ parts, w ≠ "" := by
    rintro _ hw rfl
    exact absurd (hparts "" hw) (by decide)
  exact fun hempty => hne ((dotted_eq_empty hwords).mp hempty)

/-- A unit of a type in a namespace opens it. -/
theorem section_namespace {d : TypeDeclaration} (h : ∀ n ∈ d.namespaceName, IsDotted n) :
    ∃ ps, Section (namespaceText d) (d.namespaceName.toList.map .fileScoped) ps := by
  unfold namespaceText TypeDeclaration.scope
  cases hn : d.namespaceName with
  | none => exact ⟨[], section_remarks (by decide) (by decide) rfl⟩
  | some n =>
    have hname := (h n hn).ne_empty
    obtain ⟨parts, hne, hparts, rfl⟩ := h n hn
    have hwords : ∀ w ∈ parts, isPlainWord w = true :=
      fun w hw => isPlainWord_of_isPlainName (hparts w hw)
    have hline := section_statement (by decide) hne hwords (declares_namespace hne hwords)
      (show (Piece.blank "\n\n").IsPlain by decide)
    have htext : "namespace" ++ " " ++ (dotted parts ++ ";") ++ "\n\n" =
        if dotted parts = "" then "" else "namespace " ++ dotted parts ++ ";\n\n" := by
      have hlead : "namespace" ++ " " = "namespace " := by decide
      have hend : ";\n\n" = ";" ++ "\n\n" := by decide
      rw [if_neg hname, hlead, hend]
      simp only [String.append_assoc]
    exact ⟨_, htext ▸ hline⟩

/-- What tells readers that a unit is generated. -/
def noticePieces (kind : GeneratorKind) : List Piece :=
  [.comment " <auto-generated>", .blank "\n",
    .comment (" Generated by resolvergen (" ++ kind.key ++ "). Do not edit."), .blank "\n",
    .comment " </auto-generated>", .blank "\n\n"]

/-- A kind with plain names, whose key stands on its line. -/
structure IsPlainKind (kind : GeneratorKind) : Prop where
  notice : IsLines (noticePieces kind)
  interfaceName : isPlainWord kind.interfaceName = true
  method : isPlainWord kind.method = true

theorem isPlainKind_builtin {kind : GeneratorKind} (h : kind ∈ GeneratorKind.all) :
    IsPlainKind kind := by
  simp only [GeneratorKind.all, List.mem_cons, List.not_mem_nil, or_false] at h
  rcases h with rfl | rfl <;> exact ⟨by decide, by decide, by decide⟩

theorem section_notice {kind : GeneratorKind} (hkind : IsPlainKind kind) :
    Section ("// <auto-generated>\n// Generated by resolvergen (" ++ kind.key ++
      "). Do not edit.\n// </auto-generated>\n\n") [] (noticePieces kind) :=
  section_remarks hkind.notice (by simp [noticePieces, Piece.isCode])
    (by simp [noticePieces, Piece.text])

/-! ## The class of a unit -/

theorem modifiers_text (modifiers : List String) (w : String) (ws : List String) :
    piecesText (modifierPieces modifiers) ++ (" ".intercalate (w :: ws)).toList =
      (" ".intercalate (modifiers ++ w :: ws)).toList := by
  induction modifiers with
  | nil => rfl
  | cons m ms ih =>
    obtain ⟨v, vs, hcons⟩ := List.exists_cons_of_ne_nil (List.append_ne_nil_of_right_ne_nil ms
      (List.cons_ne_nil w ws))
    have hpieces : piecesText (modifierPieces (m :: ms)) =
        m.toList ++ (" ".toList ++ piecesText (modifierPieces ms)) := by
      simp [modifierPieces, Piece.text]
    rw [hpieces, List.append_assoc, List.append_assoc, ih, List.cons_append, hcons,
      String.intercalate_cons_cons, String.toList_append, String.toList_append, List.append_assoc]

theorem parameters_text (names : List String) : piecesText (parameterPieces names) =
    (if names.isEmpty then "" else "<" ++ ", ".intercalate names ++ ">").toList := by
  have hcomma : String.ofList (piecesText [.sign ',', .blank " "]) = ", " := by decide
  have hlist := piecesText_joined [.sign ',', .blank " "] names
  rw [hcomma] at hlist
  unfold parameterPieces
  cases names with
  | nil => rfl
  | cons n ns => simp [hlist, Piece.text]

/-- The head of the class that continues a type. -/
theorem header_text (d : TypeDeclaration) (base : String) :
    piecesText (classHead (d.accessibility ++ ["partial"]) d.name d.typeParameters base) =
      (headerText d ++ " : " ++ base).toList := by
  have hmodifiers := modifiers_text (d.accessibility ++ ["partial"]) "class" [d.name]
  have hparameters := parameters_text d.typeParameters
  have hhead :
      headerText d = " ".intercalate (d.accessibility ++ ["partial"] ++ ["class", d.name]) ++
      (if d.typeParameters.isEmpty then ""
        else "<" ++ ", ".intercalate d.typeParameters ++ ">") := by
    rw [List.append_assoc, headerText]
    split
    · exact (String.append_empty).symm
    · simp only [String.append_assoc]
      rfl
  rw [hhead, String.toList_append, String.toList_append, String.toList_append, ← hmodifiers,
    ← hparameters]
  simp [classHead, Piece.text, String.intercalate_cons_cons]

/-- The body of the class that continues a type, with the body of its method. -/
def unitBody (method : String) (assigned : List Piece) : List Piece :=
  [.blank "\n", .pragma "warning disable CS0109 // Disable warning about redundant 'new' keyword",
    .blank "    "] ++
      (methodPieces method assigned ++ [.blank "\n", .pragma "warning restore CS0109"])

/-- The class of a unit. -/
def unitClass (g : Generator) (d : TypeDeclaration) (assigned : List Piece) : List Piece :=
  classPieces (d.accessibility ++ ["partial"]) d.name d.typeParameters g.kind.interfaceName
    (unitBody g.kind.method assigned) ++ [.blank "\n"]

/-- The text of the class of a unit. -/
def unitClassText (g : Generator) (d : TypeDeclaration) (assigned : List String) : String :=
  headerText d ++ " : " ++ g.kind.interfaceName ++
    "\n\x7b\n#pragma warning disable CS0109 // Disable warning about redundant 'new' keyword\n" ++
      "    public new void " ++ g.kind.method ++ "()\n    \x7b\n" ++
      linesText "        " assigned ++
        "    \x7d\n#pragma warning restore CS0109\n\x7d\n"

theorem unitClass_text (g : Generator) (d : TypeDeclaration) {assigned : List String}
    {body : List Piece}
    (hbody : piecesText body = ("\n" ++ linesText "        " assigned ++ "    ").toList) :
    piecesText (unitClass g d body) = (unitClassText g d assigned).toList := by
  have hhead := header_text d g.kind.interfaceName
  simp [unitClass, classPieces, hhead, unitBody, methodPieces, methodHead, hbody, Piece.text,
    unitClassText]

theorem spans_unitBody {method : String} (hmethod : isPlainWord method = true) {body : List Piece}
    {s t : String} (hbody : Spans body (.blank s) (.blank t)) :
    ∃ last, Spans (unitBody method body) (.blank "\n") (.pragma last) := by
  have hmethods := spans_method hmethod hbody rfl rfl
  have hlead : Spans [.blank "\n",
      .pragma "warning disable CS0109 // Disable warning about redundant 'new' keyword",
      .blank "    "] (.blank "\n") (.blank "    ") :=
      spans_of_leaves (by decide) (by decide) rfl rfl
  have hend : Spans [.blank "\n", .pragma "warning restore CS0109"] (.blank "\n")
      (.pragma "warning restore CS0109") := spans_of_leaves (by decide) (by decide) rfl rfl
  exact ⟨_, hlead.append (hmethods.append hend rfl) rfl⟩

theorem declares_unitBody {method : String} (hmethod : isPlainWord method = true)
    {body : List Piece} (hbody : IsBalanced body) : Declares (unitBody method body) [] := by
  have hlead : Declares [.blank "\n",
      .pragma "warning disable CS0109 // Disable warning about redundant 'new' keyword",
      .blank "    "] [] := declares_gaps (by decide)
  have hend : Declares [.blank "\n", .pragma "warning restore CS0109"] [] :=
    declares_gaps (by decide)
  exact hlead.append ((declares_method hmethod hbody).append hend)

/-- A type whose names are plain. -/
structure IsPlainType (d : TypeDeclaration) : Prop where
  name : isPlainName d.name = true
  parameters : ∀ p ∈ d.typeParameters, isPlainName p = true
  namespaceName : ∀ n ∈ d.namespaceName, IsDotted n

theorem mem_modifierWords {d : TypeDeclaration} {m : String}
    (h : m ∈ d.accessibility ++ ["partial"]) :
    m ∈ modifierWords := by
  have hwords : ∀ w ∈ TypeDeclaration.accessModifiers ++ ["partial"], w ∈ modifierWords := by decide
  refine hwords m ?_
  rcases List.mem_append.mp h with h | h
  · exact List.mem_append_left _ (List.contains_iff_mem.mp (List.mem_filter.mp h).2)
  · exact List.mem_append_right _ h

section

variable {g : Generator} (hkind : IsPlainKind g.kind) {d : TypeDeclaration} (hd : IsPlainType d)
  {body : List Piece} {s t : String} (hbody : Spans body (.blank s) (.blank t))
include hkind hd hbody

/-- The class of a unit stands on lines of its own. -/
theorem isLines_unitClass : IsLines (unitClass g d body) := by
  obtain ⟨last, hmembers⟩ := spans_unitBody hkind.method hbody
  obtain ⟨w, hclass⟩ :=
    spans_class (fun _ => mem_modifierWords) (isPlainWord_of_isPlainName hd.name)
      (fun p hp => isPlainWord_of_isPlainName (hd.parameters p hp)) hkind.interfaceName hmembers
      rfl rfl
  exact (hclass.append (spans_singleton (p := .blank "\n") (by decide) rfl) rfl).lines rfl rfl

/-- The class of a unit declares the candidate once more, as a class without members. -/
theorem becomes_unitClass : Becomes (fun us => ∃ n, ReadAs us [.type ⟨.classType, d.name,
    d.accessibility ++ ["partial"], d.typeParameters, [⟨g.kind.interfaceName⟩], n⟩ []])
      (unitClass g d body) := by
  have hclass := becomes_class (fun _ => mem_modifierWords (d := d))
    (isPlainWord_of_isPlainName hd.name)
    (fun p hp => isPlainWord_of_isPlainName (hd.parameters p hp)) hkind.interfaceName
    (declares_unitBody hkind.method hbody.balanced)
  have hgap : Declares [.blank "\n"] [] := declares_gaps (by decide)
  refine (Becomes.append hclass hgap).imp ?_
  rintro _ ⟨us, vs, rfl, ⟨n, hread⟩, hnone⟩
  exact ⟨n, hread.append hnone⟩

end

/-! ## Reading a unit back -/

/-- The part of its type that a unit declares. -/
def reopening (g : Generator) (d : TypeDeclaration) (path : String) (line : Int) :
    TypeDeclaration where
  name := d.name
  unitPath := path
  namespaceName := d.namespaceName
  baseTypes := [⟨g.kind.interfaceName⟩]
  modifiers := d.accessibility ++ ["partial"]
  typeParameters := d.typeParameters
  line := line

/-- Imports are placed in the namespace that holds before them. -/
theorem placeMembers_imports (path outer current : String) (targets : List String)
    (ms : List Member) :
    placeMembers path outer current ((targets.map fun n => .importing (importOf "" n)) ++ ms) =
      { imports := targets.map (importOf current) } ++ placeMembers path outer current ms := by
  induction targets with
  | nil => rfl
  | cons n ns ih =>
    have hscope : scopeAfter outer current (.importing (importOf "" n)) = current := rfl
    rw [List.map_cons, List.cons_append, placeMembers, hscope, ih, placeMember]
    rfl

/-- What stands before the class of a unit. -/
def unitLeadText (g : Generator) (d : TypeDeclaration) (imports : List String) : String :=
  "// <auto-generated>\n// Generated by resolvergen (" ++ g.kind.key ++
    "). Do not edit.\n// </auto-generated>\n\n" ++ (namespaceText d ++ (linesText "" imports ++
      ("#pragma warning disable CS0105 // Disable warning about redundant using directive\n" ++
        (linesText "" g.resolverImports ++ "#pragma warning restore CS0105\n\n"))))

theorem unitText_eq (g : Generator) (d : TypeDeclaration) (w : Walk) (assigned : List String) :
    unitText g d w assigned = unitLeadText g d w.imports ++ unitClassText g d assigned := by
  unfold unitText unitLeadText unitClassText
  simp only [String.join_cons, String.join_nil, String.append_assoc, String.append_empty]

/-- What stands before the class of a unit declares the namespace and the imports. -/
theorem section_lead {g : Generator} {d : TypeDeclaration} {imports : List String}
    (hkind : IsPlainKind g.kind) (hd : IsPlainType d)
    (himports : ∀ i ∈ imports ++ g.resolverImports, IsPlainImport i) :
    ∃ (targets : List String) (ps : List Piece),
      imports ++ g.resolverImports = targets.map (fun n => "using " ++ n ++ ";") ∧
        Section (unitLeadText g d imports) (d.namespaceName.toList.map .fileScoped ++
          targets.map fun n => .importing (importOf "" n)) ps := by
  obtain ⟨space, hspace⟩ := section_namespace hd.namespaceName
  obtain ⟨own, ps, hown, hps⟩ := section_imports fun i hi => himports i (List.mem_append_left _ hi)
  obtain ⟨added, qs, hadded, hqs⟩ :=
    section_imports fun i hi => himports i (List.mem_append_right _ hi)
  have hdisable : Section
      "#pragma warning disable CS0105 // Disable warning about redundant using directive\n" []
      [.pragma "warning disable CS0105 // Disable warning about redundant using directive"] :=
    section_remarks (by decide) (by decide) (by simp [Piece.text])
  have hrestore : Section "#pragma warning restore CS0105\n\n" []
      [.pragma "warning restore CS0105", .blank "\n"] :=
    section_remarks (by decide) (by decide) (by decide)
  have hlead := (section_notice hkind).append
    (hspace.append (hps.append (hdisable.append (hqs.append hrestore))))
  rw [List.nil_append, List.nil_append, List.append_nil, ← List.map_append] at hlead
  exact ⟨own ++ added, _, by rw [hown, hadded, List.map_append], hlead⟩

/-- A walk whose imports and fields are plain. -/
structure IsPlainWalk (w : Walk) : Prop where
  imports : ∀ i ∈ w.imports, IsPlainImport i
  fields : ∀ f ∈ w.fields, IsPlainField f

/-- What a plain unit is read as: its namespace, its imports and a class without members. -/
theorem readUnit_unit {g : Generator} {d : TypeDeclaration} {w : Walk} (hkind : IsPlainKind g.kind)
    (hd : IsPlainType d) (hw : IsPlainWalk w) (hadded : ∀ i ∈ g.resolverImports, IsPlainImport i) :
    ∃ (targets : List String) (n : Nat),
      w.imports ++ g.resolverImports = targets.map (fun n => "using " ++ n ++ ";") ∧
        readUnit (trees (unitText g d w (w.fields.map (assignmentText g))).toList) =
          d.namespaceName.toList.map .fileScoped ++
            (targets.map (fun n => .importing (importOf "" n)) ++
              [.type ⟨.classType, d.name, d.accessibility ++ ["partial"], d.typeParameters,
                [⟨g.kind.interfaceName⟩], n⟩ []]) := by
  obtain ⟨targets, lead, himports, hlead⟩ := section_lead hkind hd
    fun i hi => (List.mem_append.mp hi).elim (hw.imports i) (hadded i)
  obtain ⟨body, s, hbody, hassigned⟩ := assignments_row g hw.fields
  have hlines := hlead.lines.append (isLines_unitClass hkind hd hbody)
  have htext : (unitText g d w (w.fields.map (assignmentText g))).toList =
      piecesText (lead ++ unitClass g d body) := by
    rw [unitText_eq, String.toList_append, piecesText_append, hlead.text,
      unitClass_text g d hassigned]
  obtain ⟨us, ⟨as, bs, rfl, hread, n, hclass⟩, hforms⟩ :=
    (Becomes.append hlead.declares (becomes_unitClass hkind hd hbody)) [] 1
  have htrees : trees (piecesText (lead ++ unitClass g d body)) = as ++ bs :=
    trees_of_grows hforms.grows (by rw [hforms.tokens, tokens_pieces hlines.readable])
  have hunit := (hread.append hclass).read [] fun _ h => nomatch h
  rw [List.append_nil] at hunit
  refine ⟨targets, n, himports, ?_⟩
  have hnone : readUnit [] = [] := rfl
  rw [htext, htrees, hunit, hnone, List.append_nil, List.append_assoc]

/-- **A unit is read as the part of its type that it declares.** Its imports are those of the walk
and then those of the resolver, all in the namespace of the type. -/
theorem parseSource_unit {g : Generator} {d : TypeDeclaration} {w : Walk}
    (hkind : IsPlainKind g.kind) (hd : IsPlainType d) (hw : IsPlainWalk w)
    (hadded : ∀ i ∈ g.resolverImports, IsPlainImport i) (path : String) :
    ∃ (targets : List String) (line : Int),
      w.imports ++ g.resolverImports = targets.map (fun n => "using " ++ n ++ ";") ∧
        parseSource path (unitText g d w (w.fields.map (assignmentText g))) =
          (⟨path, targets.map (importOf d.scope), d.namespaceName.toList⟩,
            [reopening g d path line]) := by
  obtain ⟨targets, n, himports, hread⟩ := readUnit_unit hkind hd hw hadded
  refine ⟨targets, n, himports, ?_⟩
  rw [parseSource, hread, CSharp.placeUnit]
  cases hn : d.namespaceName with
  | none =>
    have hscope : d.scope = "" := by rw [TypeDeclaration.scope, hn]; rfl
    rw [Option.toList_none, List.map_nil, List.nil_append, placeMembers_imports, hscope]
    simp [placeMembers, placeMember, placeType, placeTypes, TypeHead.declared, fieldsOf, reopening,
      Placed.append_def, dedupe, hn]
  | some name =>
    have hname := (hd.namespaceName name hn).ne_empty
    have hscope : d.scope = name := by rw [TypeDeclaration.scope, hn]; rfl
    have hinner : innerNamespace "" name = name := by simp [innerNamespace, qualify, hname]
    rw [Option.toList_some, List.map_singleton, List.singleton_append, placeMembers, scopeAfter,
      hinner, placeMembers_imports, hscope]
    simp [placeMembers, placeMember, placeType, placeTypes, TypeHead.declared, fieldsOf, reopening,
      Placed.append_def, dedupe, hn, hinner, opening, hname]

/-- What every resolver imports is plain. -/
theorem resolverImports_plain {kind : GeneratorKind} (hkind : kind ∈ GeneratorKind.all) :
    ∀ i ∈ (Generator.ofKind kind).resolverImports, IsPlainImport i := by
  have hinterface (last : String) (h : isPlainName last = true) :
      IsDotted (dotted ["Codartesien", "SourceGenerators", last]) := by
    refine ⟨_, List.cons_ne_nil _ _, ?_, rfl⟩
    simp only [List.forall_mem_cons]
    exact ⟨by decide, by decide, h, fun _ h => nomatch h⟩
  have hlinq : IsDotted (dotted ["System", "Linq"]) :=
    ⟨_, List.cons_ne_nil _ _, by decide, rfl⟩
  intro i hi
  simp only [GeneratorKind.all, List.mem_cons, List.not_mem_nil, or_false] at hkind
  rcases hkind with rfl | rfl
  · rcases List.mem_pair.mp hi with rfl | rfl
    · exact ⟨_, hinterface "DependencyResolver" (by decide), by decide⟩
    · exact ⟨_, hlinq, by decide⟩
  · rw [List.mem_singleton.mp hi]
    exact ⟨_, hinterface "SceneNodeResolver" (by decide), by decide⟩

/-- **A generated unit reopens its type, and nothing else.** For a type that a resolver can reopen,
with plain names and a plain walk, every kind that comes with the program writes a unit. As a
source, the unit declares one class: a further part of the type, with the same key, the type's
access modifiers and the interface of the resolver as its only base type, without fields. Its
imports are those of the walk and then those of the resolver, all in the namespace of the type. Such
a part is no candidate of any generator. -/
theorem unit_reopens {kind : GeneratorKind} (hkind : kind ∈ GeneratorKind.all)
    {d : TypeDeclaration} {w : Walk} (hreopenable : isReopenable d = true) (hd : IsPlainType d)
    (hw : IsPlainWalk w) (path : String) :
    ∃ (text : String) (targets : List String) (line : Int),
      resolverText .standard (.ofKind kind) d w = .ok text ∧
      w.imports ++ (Generator.ofKind kind).resolverImports =
        targets.map (fun n => "using " ++ n ++ ";") ∧
      parseSource path text =
        (⟨path, targets.map (importOf d.scope), d.namespaceName.toList⟩,
          [reopening (.ofKind kind) d path line]) ∧
      (reopening (.ofKind kind) d path line).key = d.key ∧
      ∀ (g : Generator) (excluded : List String),
        isCandidate g excluded (reopening (.ofKind kind) d path line) = false := by
  have htop : d.containingTypes = [] := by
    simp only [isReopenable, TypeDeclaration.isNested, Bool.and_eq_true, Bool.not_not,
      List.isEmpty_iff] at hreopenable
    exact hreopenable.1.1.1.2
  obtain ⟨targets, line, himports, hparse⟩ :=
    parseSource_unit (isPlainKind_builtin hkind) hd hw (resolverImports_plain hkind) path
  have hwrite := resolverText_writable (.ofKind kind) d
    fun f hf => isWritable_type (hw.fields f hf).type
  refine ⟨_, targets, line, hwrite, himports, hparse, ?_, fun g excluded => ?_⟩
  · rw [TypeDeclaration.key_eq_iff]
    refine ⟨?_, rfl⟩
    rw [TypeDeclaration.qualifiedName, TypeDeclaration.qualifiedName, htop]
    rfl
  · exact Bool.and_eq_false_iff.mpr (.inr rfl)

/-- A squad is generic, and its namespace has two segments. -/
def squad : TypeDeclaration where
  name := "Squad"
  unitPath := "squad.cs"
  namespaceName := some "Game.Units"
  modifiers := ["public", "sealed", "partial"]
  typeParameters := ["TLeader", "TMember"]

/-- The walk from a squad finds a map of its ranks. -/
def squadWalk : Walk where
  fields := [⟨"Dictionary<string, Ranks.Rank<TMember>>", "ranks", "Roster/\\\"Ranks\\\"", "Squad"⟩]
  imports := ["using System.Collections.Generic;"]

theorem isPlainType_squad : IsPlainType squad where
  name := by decide
  parameters := by decide
  namespaceName := by
    rintro _ ⟨⟩
    exact ⟨["Game", "Units"], by decide, by decide, by decide⟩

theorem isPlainWalk_squad : IsPlainWalk squadWalk where
  imports := by
    intro i hi
    rw [List.mem_singleton.mp hi]
    exact ⟨_, ⟨["System", "Collections", "Generic"], by decide, by decide, rfl⟩, by decide⟩
  fields := by
    intro f hf
    rw [List.mem_singleton.mp hf]
    have hrank : IsTypeText ("Ranks" ++ "." ++ "Rank" ++ "<" ++ "TMember" ++ ">") :=
      .generic (.member (.name (.inl (by decide))) (by decide)) (.one (.name (.inl (by decide))))
    have htype := IsTypeText.generic (.name (.inl (by decide : isPlainName "Dictionary" = true)))
      (.more (.name (.inr (by decide : "string" ∈ builtInTypes)))
        (by decide : ", " ∈ [",", ", "]) (.one hrank))
    have htext : "Dictionary" ++ "<" ++ ("string" ++ ", " ++
        ("Ranks" ++ "." ++ "Rank" ++ "<" ++ "TMember" ++ ">")) ++ ">" =
          "Dictionary<string, Ranks.Rank<TMember>>" := by decide
    exact ⟨by decide, htext ▸ htype, by decide⟩

/-- The resolver of its nodes reopens a squad. -/
theorem squad_reopens : .sceneNode ∈ GeneratorKind.all ∧ isReopenable squad = true ∧
    IsPlainType squad ∧ IsPlainWalk squadWalk ∧
    ∃ (text : String) (targets : List String) (line : Int),
      resolverText .standard (.ofKind .sceneNode) squad squadWalk = .ok text ∧
      squadWalk.imports ++ (Generator.ofKind .sceneNode).resolverImports =
        targets.map (fun n => "using " ++ n ++ ";") ∧
      parseSource "squad.g.cs" text =
        (⟨"squad.g.cs", targets.map (importOf "Game.Units"), ["Game.Units"]⟩,
          [reopening (.ofKind .sceneNode) squad "squad.g.cs" line]) ∧
      (reopening (.ofKind .sceneNode) squad "squad.g.cs" line).key = squad.key := by
  have hkind : GeneratorKind.sceneNode ∈ GeneratorKind.all := by decide
  have hreopenable : isReopenable squad = true := by decide
  obtain ⟨text, targets, line, hwrite, himports, hparse, hkey, -⟩ :=
    unit_reopens hkind hreopenable isPlainType_squad isPlainWalk_squad "squad.g.cs"
  exact ⟨hkind, hreopenable, isPlainType_squad, isPlainWalk_squad, text, targets, line, hwrite,
    himports, hparse, hkey⟩

end FieldWiring
