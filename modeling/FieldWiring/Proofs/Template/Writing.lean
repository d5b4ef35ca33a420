import FieldWiring.Proofs.Template.Lines

/-!
# Templates in writing

A template in writing is cut into texts and tags, and these are read as parts. When a template is
put together from texts in which no tag begins and from tags without braces and percent signs, it is
cut where it was put together. That is so of the standard templates, whose texts stand here: a tag
alone on its line leaves no trace, and a repetition writes one line for each item. Only templates
are cut, never what is written through them: a unit has the texts of its walk as they are, whatever
tags they look like.

Results:
* `tokensFrom_written`: a template is cut where it was put together.
* `parts_written`: its parts are read from the pieces.
* `TemplateName.parts_source`: the parts of the standard templates, read from their texts.
* `unit_laid_out`: a unit is laid out line by line, whatever it is made of.
-/

namespace FieldWiring

open Template

namespace Template

/-! ## Cutting -/

/-- A piece of a template in writing. -/
def Token.written : Token → List Char
  | text s => s
  | value inside => '{' :: '{' :: (inside ++ ['}', '}'])
  | tag inside => '{' :: '%' :: (inside ++ ['%', '}'])

/-- Text in which no tag begins, whatever stands behind it, and whose lines end with line feeds. -/
def isTagless : List Char → Bool
  | [] => true
  | c :: s => c != '\r' && (c != '{' || s.head?.any fun d => d != '{' && d != '%') && isTagless s

/-- The inside of a tag has none of the characters that tags are made of. -/
def isInner (s : List Char) : Bool :=
  s.all fun c => c != '{' && c != '}' && c != '%' && c != '\r'

/-- Texts with tags between them. -/
def isScript : List Token → Bool
  | [.text s] => isTagless s
  | .text s :: .value inside :: ts => isTagless s && isInner inside && isScript ts
  | .text s :: .tag inside :: ts => isTagless s && isInner inside && isScript ts
  | _ => false

theorem tokensFrom_text_cons {c : Char} {cs : List Char}
    (h : c = '{' → ∀ d ∈ cs.head?, d ≠ '{' ∧ d ≠ '%') (piece : List Char) :
    tokensFrom .text piece (c :: cs) = tokensFrom .text (c :: piece) cs := by
  rw [tokensFrom.eq_def]
  split <;> simp_all

theorem tokensFrom_inside_cons {inside : Inside} {c : Char} {cs : List Char} (h : c ≠ '{')
    (hclose : c ≠ inside.closer) (piece : List Char) :
    tokensFrom inside piece (c :: cs) = tokensFrom inside (c :: piece) cs := by
  rw [tokensFrom.eq_def]
  split <;> simp_all

/-- Text without tags goes to the piece that is being read. -/
theorem tokensFrom_tagless {s : List Char} (h : isTagless s = true) (piece rest : List Char) :
    tokensFrom .text piece (s ++ rest) = tokensFrom .text (s.reverse ++ piece) rest := by
  induction s generalizing piece with
  | nil => rfl
  | cons c s ih =>
    rw [isTagless, Bool.and_eq_true, Bool.and_eq_true, Bool.or_eq_true, bne_iff_ne, bne_iff_ne] at h
    obtain ⟨⟨-, hopen⟩, hs⟩ := h
    have hstep : c = '{' → ∀ d ∈ (s ++ rest).head?, d ≠ '{' ∧ d ≠ '%' := by
      intro hc d hd
      cases s with
      | nil => simp [hc] at hopen
      | cons e s =>
        obtain rfl : e = d := Option.some.inj hd
        simpa [hc] using hopen
    rw [List.cons_append, tokensFrom_text_cons hstep, ih hs, List.reverse_cons, List.append_assoc,
      List.singleton_append]

/-- A tag is read up to its end. -/
theorem tokensFrom_inner (inside : Inside) (hi : inside ≠ .text) {s : List Char}
    (h : isInner s = true)
    {rest : List Char} {ts : List Token} (hrest : tokensFrom .text [] rest = .ok ts)
    (piece : List Char) : tokensFrom inside piece (s ++ inside.closer :: '}' :: rest) =
      .ok (inside.token (piece.reverse ++ s) :: ts) := by
  induction s generalizing piece with
  | nil => cases inside <;> simp_all [tokensFrom, Inside.closer]
  | cons c s ih =>
    rw [isInner, List.all_cons, Bool.and_eq_true] at h
    simp only [Bool.and_eq_true, bne_iff_ne] at h
    obtain ⟨⟨⟨⟨hopen, hvalue⟩, htag⟩, -⟩, hs⟩ := h
    have hclose : c ≠ inside.closer := by
      cases inside with
      | text => exact absurd rfl hi
      | value => exact hvalue
      | tag => exact htag
    rw [List.cons_append, tokensFrom_inside_cons hopen hclose, ih hs, List.reverse_cons,
      List.append_assoc, List.singleton_append]

/-- Where a tag begins, the text before it ends. -/
theorem tokensFrom_open {inside : Inside} {opener : Char} {cs : List Char} {ts : List Token}
    (h : (opener, inside) ∈ [('{', Inside.value), ('%', Inside.tag)])
    (hrest : tokensFrom inside [] cs = .ok ts) (piece : List Char) :
    tokensFrom .text piece ('{' :: opener :: cs) = .ok (.text piece.reverse :: ts) := by
  simp only [List.mem_cons, Prod.mk.injEq, List.not_mem_nil, or_false] at h
  rcases h with ⟨rfl, rfl⟩ | ⟨rfl, rfl⟩ <;> rw [tokensFrom, if_pos rfl, hrest] <;> rfl

/-- **A template is cut where it was put together.** -/
theorem tokensFrom_written {ts : List Token} (h : isScript ts = true) :
    tokensFrom .text [] (ts.flatMap Token.written) = .ok ts := by
  fun_induction isScript ts with
  | case1 s =>
    have hend : tokensFrom .text s.reverse [] = .ok [.text s] := by simp [tokensFrom]
    simpa [Token.written, hend] using tokensFrom_tagless h [] []
  | case2 s inside ts ih =>
    simp only [Bool.and_eq_true] at h
    obtain ⟨⟨hs, hinside⟩, hts⟩ := h
    have hrest := tokensFrom_inner .value (by decide) hinside (ih hts) []
    simpa [Token.written, Inside.closer, Inside.token, tokensFrom_tagless hs] using
      tokensFrom_open (by decide) hrest s.reverse
  | case3 s inside ts ih =>
    simp only [Bool.and_eq_true] at h
    obtain ⟨⟨hs, hinside⟩, hts⟩ := h
    have hrest := tokensFrom_inner .tag (by decide) hinside (ih hts) []
    simpa [Token.written, Inside.closer, Inside.token, tokensFrom_tagless hs] using
      tokensFrom_open (by decide) hrest s.reverse
  | case4 => cases h

theorem isTagless_lines {s : List Char} (h : isTagless s = true) : '\r' ∉ s := by
  induction s with
  | nil => exact List.not_mem_nil
  | cons c s ih =>
    rw [isTagless, Bool.and_eq_true, Bool.and_eq_true, bne_iff_ne] at h
    exact List.not_mem_cons_of_ne_of_not_mem h.1.1.symm (ih h.2)

theorem isInner_lines {s : List Char} (h : isInner s = true) : '\r' ∉ s :=
  fun hmem => absurd (List.all_eq_true.mp h _ hmem) (by decide)

/-- Lines of a template that is put together end with line feeds. -/
theorem isScript_lines {ts : List Token} (h : isScript ts = true) :
    '\r' ∉ ts.flatMap Token.written := by
  fun_induction isScript ts with
  | case1 s => simpa [Token.written] using isTagless_lines h
  | case2 s inside ts ih | case3 s inside ts ih =>
    simp only [Bool.and_eq_true] at h
    obtain ⟨⟨hs, hinside⟩, hts⟩ := h
    simp [Token.written, isTagless_lines hs, isInner_lines hinside, ih hts]
  | case4 => cases h

/-- A template that is put together from pieces is read from them, without what only sets the tags
apart. -/
theorem parts_written {ts : List Token} {ps : List Part} (h : isScript ts = true)
    (hread : (tidy false true ts).foldrM (fun t r => readToken r t) {} = .ok ⟨ps, []⟩) :
    parts (String.ofList (ts.flatMap Token.written)) = .ok ps := by
  unfold parts
  rw [String.toList_ofList, Text.unixLinesChars_eq_self (isScript_lines h), tokensFrom_written h]
  simp only [bind, Except.bind, hread]
  rfl

end Template

/-! ## The standard templates in writing -/

/-- The pieces of each standard template. -/
def TemplateName.pieces : TemplateName → List Token
  | unit =>
    [.text "// <auto-generated>\n// Generated by resolvergen (".toList, .value " kind ".toList,
      .text "). Do not edit.\n// </auto-generated>\n\n".toList, .tag " if namespace ".toList,
      .text "\nnamespace ".toList, .value " namespace ".toList, .text ";\n\n".toList,
      .tag " endif ".toList, .text "\n".toList, .tag " for statement in imports ".toList,
      .text "\n".toList, .value " statement ".toList, .text "\n".toList, .tag " endfor ".toList,
      .text ("\n#pragma warning disable CS0105 " ++
        "// Disable warning about redundant using directive\n").toList,
      .tag " for statement in resolver_imports ".toList, .text "\n".toList,
      .value " statement ".toList, .text "\n".toList, .tag " endfor ".toList,
      .text "\n#pragma warning restore CS0105\n\n".toList, .value " declaration ".toList,
      .text " : ".toList, .value " interface ".toList,
      .text ("\n\x7b\n#pragma warning disable CS0109 " ++
        "// Disable warning about redundant 'new' keyword\n    public new void ").toList,
      .value " method ".toList, .text "()\n    \x7b\n".toList,
      .tag " for assignment in assignments ".toList, .text "\n        ".toList,
      .value " assignment ".toList, .text "\n".toList, .tag " endfor ".toList,
      .text "\n    \x7d\n#pragma warning restore CS0109\n\x7d\n".toList]
  | lookup .byPath =>
    [.text "this.GetNode<".toList, .value " field.type_text ".toList, .text ">(\"".toList,
      .value " field.lookup_key ".toList, .text "\")\n".toList]
  | lookup .byType =>
    [.text "GetTree().Root.GetChildren().OfType<".toList, .value " field.type_text ".toList,
      .text ">().FirstOrDefault()\n".toList]

/-- The text of each standard template: its pieces, one behind the other. -/
def TemplateName.source (name : TemplateName) : String :=
  String.ofList (name.pieces.flatMap Token.written)

/-- The parts that are read from each standard template: each list of a unit is repeated with a name
for its items, and the assignments have their indent in the repetition. -/
def TemplateName.sourceParts : TemplateName → List Part
  | unit => unitPartsWith
      (.each "statement" ⟨"imports", []⟩ [.name "statement", .text "\n"] [])
      (.each "statement" ⟨"resolver_imports", []⟩ [.name "statement", .text "\n"] [])
      (.each "assignment" ⟨"assignments", []⟩ [.text "        ", .name "assignment", .text "\n"] [])
  | lookup mode => lookupParts mode

theorem TemplateName.isScript_pieces (name : TemplateName) : isScript name.pieces = true := by
  rcases name with _ | _ | _ <;> decide +kernel

set_option maxRecDepth 20000 in
theorem TemplateName.read_pieces (name : TemplateName) :
    (tidy false true name.pieces).foldrM (fun t r => readToken r t) {} =
      .ok ⟨name.sourceParts, []⟩ := by
  rcases name with _ | _ | _ <;> rfl

/-- **The standard templates are read from their texts.** -/
theorem TemplateName.parts_source (name : TemplateName) :
    parts name.source = .ok name.sourceParts :=
  parts_written name.isScript_pieces name.read_pieces

/-! ## Units -/

/-- The standard templates as they are read from their texts. -/
def Templates.fromSources : Templates := fun name b => do
  writeParts name b (← (parts name.source).mapError .template)

/-- Each template is the standard one, given by its parts or read from its text. -/
def Templates.IsStandard (T : Templates) : Prop :=
  ∀ name, T name = Templates.standard name ∨ T name = Templates.fromSources name

theorem Templates.isStandard_standard : Templates.standard.IsStandard := fun _ => .inl rfl

/-- A project that keeps nothing but copies of the standard templates has these. -/
theorem Templates.isStandard_ofDirectory {t : FileTree} {here : Location} {dir : Path}
    (h : ∀ name : TemplateName, t.leadsToFile here (dir.joinText name.file) = .ok true →
      t.readText here (dir.joinText name.file) = .ok name.source) :
    (Templates.ofDirectory t here dir).IsStandard := by
  intro name
  unfold Templates.ofDirectory templateSource
  split
  · rename_i hfile
    rw [h name hfile]
    exact .inr rfl
  · exact .inl rfl

section

variable {T : Templates} (hT : T.IsStandard) (g : Generator) (d : TypeDeclaration)

include hT

theorem Templates.IsStandard.eq_or (name : TemplateName) :
    T name = Templates.standard name ∨ T name = fun b => writeParts name b name.sourceParts := by
  refine (hT name).imp_right fun h => ?_
  rw [h]
  unfold Templates.fromSources
  rw [name.parts_source]
  rfl

/-- The value of a field is read from its template as it is. -/
theorem Templates.IsStandard.lookupText_eq (f : MarkedField) :
    lookupText T g f = .ok (valueText g.lookup f) := by
  have hparts : T (.lookup g.lookup) = Templates.standard (.lookup g.lookup) :=
    (hT.eq_or (.lookup g.lookup)).elim id id
  rw [← lookupText_standard]
  unfold lookupText
  rw [hparts]

/-- The template of a unit writes the unit as it is laid out. -/
theorem Templates.IsStandard.unit_write (w : Walk) (assigned : List String) :
    T .unit (unitBindings g d w assigned) = .ok (unitText g d w assigned) := by
  rcases hT.eq_or .unit with h | h
  · rw [← Template.unit_write, h]
  · have hrender :
        render (("self", .template TemplateName.unit.file) :: unitBindings g d w assigned)
        TemplateName.unit.sourceParts = .ok (unitText g d w assigned) :=
      render_unit g d w assigned
        (writes_items [] rfl (fun _ _ => rfl) (valueOf_unit g d w assigned rfl rfl (by decide)))
        (writes_items [] rfl (fun _ _ => rfl) (valueOf_unit g d w assigned rfl rfl (by decide)))
        (writes_items [.text "        "] rfl (write_text · _)
          (valueOf_unit g d w assigned rfl rfl (by decide)))
    rw [h]
    exact congrArg (Except.mapError RunError.template) hrender

/-- **A unit is laid out line by line.** With types that can be written, the standard templates give
the lines of the unit, whether they are read from their texts or not. What the declaration, the walk
and the generator supply stands in these lines as it is. -/
theorem unit_laid_out {w : Walk} (h : ∀ f ∈ w.fields, isWritableType f.typeText = true) :
    resolverText T g d w = .ok (linesText "" (unitLines g d w)) := by
  have hassignments : assignments T g d w = .ok (w.fields.map (assignmentText g)) := by
    refine mapM_of_forall fun f hf => ?_
    unfold assignment assignmentText
    rw [if_pos (h f hf), hT.lookupText_eq, trim_lookupLine]
  unfold resolverText
  rw [hassignments, ← unitText_lines]
  simp only [bind, Except.bind, hT.unit_write]

end

/-- Texts that look like tags, in a unit whose templates are read from their texts. -/
theorem tags_laid_out :
    let T : Templates := .fromSources
    let d : TypeDeclaration :=
      { name := "Hud", unitPath := "Hud.cs", namespaceName := some "\x7b\x7b kind \x7d\x7d",
        modifiers := ["public", "partial"], typeParameters := ["T", "U"] }
    let w : Walk := ⟨[⟨"Label\x7b# a", "title", "\x7b% endfor %\x7d", "Hud"⟩,
        ⟨"b #\x7d", "\x7b\x7b", "", "Hud"⟩], ["using \x7b% if a %\x7d;"], [d]⟩
    T.IsStandard ∧ (∀ f ∈ w.fields, isWritableType f.typeText = true) ∧
      resolverText T (.ofKind .sceneNode) d w = .ok (linesText ""
        ["// <auto-generated>", "// Generated by resolvergen (scene_node). Do not edit.",
          "// </auto-generated>", "", "namespace \x7b\x7b kind \x7d\x7d;", "",
          "using \x7b% if a %\x7d;",
          "#pragma warning disable CS0105 // Disable warning about redundant using directive",
          "using Codartesien.SourceGenerators.SceneNodeResolver;",
          "#pragma warning restore CS0105", "",
          "public partial class Hud<T, U> : ISceneNodeResolver", "\x7b",
          "#pragma warning disable CS0109 // Disable warning about redundant 'new' keyword",
          "    public new void ResolveNodes()", "    \x7b",
          "        this.title = this.GetNode<Label\x7b# a>(\"\x7b% endfor %\x7d\");",
          "        this.\x7b\x7b = this.GetNode<b #\x7d>(\"\");", "    \x7d",
          "#pragma warning restore CS0109", "\x7d"]) := by
  intro T d w
  have hT : T.IsStandard := fun _ => .inr rfl
  have hw : ∀ f ∈ w.fields, isWritableType f.typeText = true := by decide +kernel
  refine ⟨hT, hw, ?_⟩
  rw [unit_laid_out hT _ d hw]
  exact congrArg (fun lines => Except.ok (linesText "" lines)) (by decide +kernel)

end FieldWiring
