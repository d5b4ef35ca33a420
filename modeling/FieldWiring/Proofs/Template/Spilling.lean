import FieldWiring.Proofs.Template.Verbatim
import FieldWiring.Proofs.Text.Leading

/-!
# Statements over several lines

A unit assigns each field by a statement that begins on a line of its own. Three texts are written
into it: the name of the field, its type and, when the field is looked up by path, its key. A type
is looked at before it is written, but without the blanks at its ends and for line feeds only; what
is written is the type as it is. A key is not looked at: that of a regular literal is on one line,
and that of a verbatim literal has the line ends of its value. So a unit can be written and still
have statements that go on behind their lines.

Results:
* `isWritableType_iff`: a type is refused iff it is blank, `var`, or has a line feed inside.
* `lineEnds_regular`, `lineEnds_verbatim`: the line ends of a key are those of the value of its
  literal.
* `lineEnds_assignmentLine`: the line ends of a statement.
* `body_lines`: when a unit is written, and when it has one line for each field.
-/

namespace FieldWiring

open CSharp Template

/-! ## Refused types -/

/-- A type text that is no type, or that has a line feed between two characters that are no
blanks. -/
inductive IsRefused : String → Prop
  | blank {t : String} : (∀ c ∈ t.toList, Text.isBlank c = true) → IsRefused t
  | implicit {t : String} {lead trail : List Char} : (∀ c ∈ lead, Text.isBlank c = true) →
      (∀ c ∈ trail, Text.isBlank c = true) → t.toList = lead ++ "var".toList ++ trail → IsRefused t
  | broken {t : String} {u v : List Char} : t.toList = u ++ '\n' :: v →
      (∃ c ∈ u, Text.isBlank c = false) → (∃ c ∈ v, Text.isBlank c = false) → IsRefused t

theorem trim_eq_var_iff {t : String} : Text.trim t = "var" ↔
    ∃ lead trail : List Char, (∀ c ∈ lead, Text.isBlank c = true) ∧
      (∀ c ∈ trail, Text.isBlank c = true) ∧ t.toList = lead ++ "var".toList ++ trail := by
  rw [Text.trim, ← String.toList_inj, String.toList_ofList]
  constructor
  · intro h
    obtain ⟨lead, trail, hlead, htrail, ht⟩ := Text.exists_trimChars t.toList
    exact ⟨lead, trail, hlead, htrail, h ▸ ht⟩
  · rintro ⟨lead, trail, hlead, htrail, ht⟩
    have hvar : "var".toList = ['v', 'a', 'r'] := by decide
    have hfirst : Text.isBlank 'v' = false := by decide
    have hlast : Text.isBlank 'r' = false := by decide
    rw [ht, hvar]
    exact Text.trimChars_between hlead htrail (by simp [hfirst]) (by simp [hlast])
      (List.cons_ne_nil _ _)

/-- **The types that cannot be written.** -/
theorem isWritableType_iff {t : String} : isWritableType t = true ↔ ¬ IsRefused t := by
  have hline : Text.isBlank '\n' = true := by decide
  have hblank : Text.trim t = "" ↔ ∀ c ∈ t.toList, Text.isBlank c = true := by
    rw [Text.trim, ← Text.trimChars_eq_nil_iff, ← String.toList_inj, String.toList_ofList]
    rfl
  have hbroken : '\n' ∈ (Text.trim t).toList ↔ ∃ u v, t.toList = u ++ '\n' :: v ∧
      (∃ c ∈ u, Text.isBlank c = false) ∧ ∃ c ∈ v, Text.isBlank c = false := by
    rw [Text.trim, String.toList_ofList, Text.mem_trimChars_iff hline]
  have hrefused : IsRefused t ↔
      Text.trim t = "" ∨ '\n' ∈ (Text.trim t).toList ∨ Text.trim t = "var" := by
    constructor
    · rintro (h | ⟨hlead, htrail, h⟩ | ⟨h, hu, hv⟩)
      · exact .inl (hblank.mpr h)
      · exact .inr (.inr (trim_eq_var_iff.mpr ⟨_, _, hlead, htrail, h⟩))
      · exact .inr (.inl (hbroken.mpr ⟨_, _, h, hu, hv⟩))
    · rintro (h | h | h)
      · exact .blank (hblank.mp h)
      · obtain ⟨u, v, h, hu, hv⟩ := hbroken.mp h
        exact .broken h hu hv
      · obtain ⟨lead, trail, hlead, htrail, h⟩ := trim_eq_var_iff.mp h
        exact .implicit hlead htrail h
  rw [hrefused]
  simp [isWritableType, and_assoc]

/-! ## Line ends -/

/-- The number of characters of a text that end a line. -/
def lineEnds (s : String) : Nat := s.toList.countP isLineEnd

theorem lineEnds_append (s t : String) : lineEnds (s ++ t) = lineEnds s + lineEnds t := by
  rw [lineEnds, String.toList_append, List.countP_append]
  rfl

theorem lineEnds_eq_zero_iff {s : String} :
    lineEnds s = 0 ↔ ∀ c ∈ s.toList, isLineEnd c = false := by
  simp [lineEnds, List.countP_eq_zero]

/-- Lines that are put together are cut behind each line, and in it where it has line ends
itself. -/
theorem pieces_linesText (ls : List String) : Text.pieces isLineEnd (linesText "" ls).toList =
    (ls.flatMap fun l => Text.pieces isLineEnd l.toList) ++ [[]] := by
  induction ls with
  | nil => rfl
  | cons l ls ih =>
    have hline : isLineEnd '\n' = true := by decide
    rw [linesText_cons, String.empty_append, String.toList_append, String.toList_append,
      List.append_assoc, List.flatMap_cons, List.append_assoc, ← ih]
    exact Text.pieces_append_cut hline _ _

/-- Lines without line ends of their own are the pieces that they are put together from. -/
theorem pieces_lines {ls : List String} (h : ∀ l ∈ ls, lineEnds l = 0) :
    Text.pieces isLineEnd (linesText "" ls).toList = ls.map String.toList ++ [[]] := by
  rw [pieces_linesText]
  congr 1
  induction ls with
  | nil => rfl
  | cons l ls ih =>
    obtain ⟨hl, hls⟩ := List.forall_mem_cons.mp h
    rw [List.flatMap_cons, Text.pieces_of_none (lineEnds_eq_zero_iff.mp hl), ih hls]
    rfl

/-- Every line has one line end, and only lines with line ends of their own have more. -/
theorem lineEnds_linesText (ls : List String) : ls.length ≤ lineEnds (linesText "" ls) ∧
    (lineEnds (linesText "" ls) = ls.length ↔ ∀ l ∈ ls, lineEnds l = 0) := by
  induction ls with
  | nil => exact ⟨Nat.zero_le _, iff_of_true rfl fun l hl => absurd hl List.not_mem_nil⟩
  | cons l ls ih =>
    obtain ⟨hle, hiff⟩ := ih
    have hline : lineEnds "\n" = 1 := by decide
    have hends : lineEnds (linesText "" (l :: ls)) =
        lineEnds l + 1 + lineEnds (linesText "" ls) := by
      rw [linesText_cons, String.empty_append, lineEnds_append, lineEnds_append, hline]
    rw [hends, List.length_cons, List.forall_mem_cons, ← hiff]
    omega

/-! ## Keys -/

/-- A key that is taken from a regular literal. -/
def IsRegularKey (key : String) : Prop := ∃ name body argument others,
  IsLiteral body argument ∧ key = (Marker.mk name (argument :: others)).lookupKey

/-- A key that is taken from the verbatim literal of a value. -/
def IsVerbatimKey (value key : String) : Prop := ∃ name argument others,
  IsVerbatim value argument ∧ key = (Marker.mk name (argument :: others)).lookupKey

/-- The body of a regular literal is on one line. -/
theorem lineEnd_isLiteralBody {s : List Char} (h : isLiteralBody s = true) :
    ∀ c ∈ s, isLineEnd c = false := by
  have hslash : isLineEnd '\\' = false := by decide
  fun_induction isLiteralBody s with
  | case1 => simp
  | case2 c s ih =>
    simp only [Bool.and_eq_true, Bool.not_eq_true'] at h
    simpa [hslash, h.1] using ih h.2
  | case3 c s _ ih =>
    simp only [Bool.and_eq_true, Bool.not_eq_true'] at h
    simpa [h.1.2] using ih h.2

theorem lineEnds_regular {key : String} (h : IsRegularKey key) : lineEnds key = 0 := by
  obtain ⟨name, body, argument, others, hliteral, rfl⟩ := h
  refine lineEnds_eq_zero_iff.mpr fun c hc => lineEnd_isLiteralBody hliteral.1 c ?_
  rw [lookupKey_literal hliteral] at hc
  split at hc
  · exact List.dropLast_subset _ hc
  · exact hc

/-- The line ends of a key are those of the value of its literal. -/
theorem lineEnds_verbatim {value key : String} (h : IsVerbatimKey value key) :
    lineEnds key = lineEnds value := by
  obtain ⟨name, argument, others, hverbatim, rfl⟩ := h
  have hescape : ∀ c, (escapeLiteral c).countP isLineEnd = [c].countP isLineEnd := by
    have hslash : isLineEnd '\\' = false := by decide
    intro c
    unfold escapeLiteral
    split
    · rw [List.countP_cons_of_neg (by simp [hslash])]
    · rfl
  rw [lineEnds, lookupKey_verbatim hverbatim, lineEnds]
  induction value.toList with
  | nil => rfl
  | cons c s ih =>
    rw [List.flatMap_cons, List.countP_append, hescape, ih, ← List.countP_append,
      List.singleton_append]

/-! ## Statements -/

/-- The line ends of a statement. -/
theorem lineEnds_assignmentLine (g : Generator) (f : MarkedField) :
    lineEnds (assignmentLine g f) = lineEnds f.name + lineEnds f.typeText +
      match g.lookup with
      | .byPath => lineEnds f.lookupKey
      | .byType => 0 := by
  have hlead : lineEnds "        this." = 0 := by decide
  have hsign : lineEnds " = " = 0 := by decide
  have hclose : lineEnds ";" = 0 := by decide
  have hvalue : lineEnds (valueText g.lookup f) = lineEnds f.typeText + match g.lookup with
      | .byPath => lineEnds f.lookupKey
      | .byType => 0 := by
    cases g.lookup with
    | byPath =>
      have hnode : lineEnds "this.GetNode<" = 0 := by decide
      have hquote : lineEnds ">(\"" = 0 := by decide
      have hend : lineEnds "\")" = 0 := by decide
      rw [valueText_byPath]
      simp only [lineEnds_append, hnode, hquote, hend]
      omega
    | byType =>
      have hroot : lineEnds "GetTree().Root.GetChildren().OfType<" = 0 := by decide
      have hfirst : lineEnds ">().FirstOrDefault()" = 0 := by decide
      rw [valueText_byType]
      simp only [lineEnds_append, hroot, hfirst]
      omega
  unfold assignmentLine
  simp only [lineEnds_append, hlead, hsign, hclose, hvalue]
  omega

/-- A field whose statement goes on behind its line: its type has a line end, or its key is written
and is that of a verbatim literal over several lines. -/
def Spills (g : Generator) (f : MarkedField) : Prop :=
  lineEnds f.typeText ≠ 0 ∨
    g.lookup = .byPath ∧ ∃ value, IsVerbatimKey value f.lookupKey ∧ lineEnds value ≠ 0

theorem spills_iff {g : Generator} {f : MarkedField} (hname : lineEnds f.name = 0)
    (hkey : IsRegularKey f.lookupKey ∨ ∃ value, IsVerbatimKey value f.lookupKey) :
    Spills g f ↔ lineEnds (assignmentLine g f) ≠ 0 := by
  have hvalue : (∃ value, IsVerbatimKey value f.lookupKey ∧ lineEnds value ≠ 0) ↔
      lineEnds f.lookupKey ≠ 0 := by
    constructor
    · rintro ⟨value, hverbatim, hends⟩
      rwa [lineEnds_verbatim hverbatim]
    · intro hends
      rcases hkey with hregular | ⟨value, hverbatim⟩
      · exact absurd (lineEnds_regular hregular) hends
      · exact ⟨value, hverbatim, lineEnds_verbatim hverbatim ▸ hends⟩
  rw [Spills, hvalue, lineEnds_assignmentLine, hname]
  cases g.lookup with
  | byPath => simp; omega
  | byType => simp

/-! ## Units -/

section

variable (g : Generator) (d : TypeDeclaration) {w : Walk}

/-- A unit is refused for the first field with a refused type. -/
theorem resolverText_refused (h : ∃ f ∈ w.fields, IsRefused f.typeText) :
    ∃ before f behind, w.fields = before ++ f :: behind ∧ (∀ f' ∈ before, ¬ IsRefused f'.typeText) ∧
      IsRefused f.typeText ∧ resolverText .standard g d w = .error (.fault (unwritable d f)) := by
  obtain ⟨before, f, behind, hfields, hf, hbefore⟩ := exists_first h
  refine ⟨before, f, behind, hfields, hbefore, hf, resolverText_unwritable g d hfields ?_ ?_⟩
  · rwa [isWritableType_iff, not_not]
  · exact fun f' hf' => isWritableType_iff.mpr (hbefore f' hf')

/-- A unit without refused types has its statements between what leads and what closes it. -/
theorem resolverText_accepted (h : ∀ f ∈ w.fields, ¬ IsRefused f.typeText) :
    resolverText .standard g d w = .ok (linesText "" (leadLines g d w) ++
      linesText "" (w.fields.map (assignmentLine g)) ++ linesText "" closingLines) := by
  rw [resolverText_writable g d fun f hf => isWritableType_iff.mpr (h f hf), unitText_lines,
    unitLines, linesText_append, linesText_append]

/-- **When a unit is written, and when it has one line for each field.** A unit whose fields have
names on one line and keys of literals is refused iff a type is, for the first such field. Else its
method has one line for each field iff no statement goes on behind its line, and these lines are the
statements. -/
theorem body_lines (hnames : ∀ f ∈ w.fields, lineEnds f.name = 0)
    (hkeys : ∀ f ∈ w.fields,
      IsRegularKey f.lookupKey ∨ ∃ value, IsVerbatimKey value f.lookupKey) :
    let body := linesText "" (w.fields.map (assignmentLine g))
    ((∃ e, resolverText .standard g d w = .error e) ↔ ∃ f ∈ w.fields, IsRefused f.typeText) ∧
    ((∃ f ∈ w.fields, IsRefused f.typeText) → ∃ before f behind,
      w.fields = before ++ f :: behind ∧ (∀ f' ∈ before, ¬ IsRefused f'.typeText) ∧
        IsRefused f.typeText ∧ resolverText .standard g d w = .error (.fault (unwritable d f))) ∧
    ((∀ f ∈ w.fields, ¬ IsRefused f.typeText) → resolverText .standard g d w =
      .ok (linesText "" (leadLines g d w) ++ body ++ linesText "" closingLines)) ∧
    ((Text.pieces isLineEnd body.toList).length = w.fields.length + 1 ↔
      ∀ f ∈ w.fields, ¬ Spills g f) ∧
    ((∀ f ∈ w.fields, ¬ Spills g f) → Text.pieces isLineEnd body.toList =
      (w.fields.map fun f => (assignmentLine g f).toList) ++ [[]]) := by
  intro body
  have hspills : (∀ f ∈ w.fields, ¬ Spills g f) ↔
      ∀ l ∈ w.fields.map (assignmentLine g), lineEnds l = 0 := by
    rw [List.forall_mem_map]
    exact forall₂_congr fun f hf => by rw [spills_iff (hnames f hf) (hkeys f hf), not_not]
  refine ⟨⟨fun ⟨e, he⟩ => ?_, fun h => ?_⟩, resolverText_refused g d, resolverText_accepted g d, ?_,
    fun h => ?_⟩
  · by_contra hnone
    rw [resolverText_accepted g d fun f hf hrefused => hnone ⟨f, hf, hrefused⟩] at he
    cases he
  · obtain ⟨_, f, _, -, -, -, herror⟩ := resolverText_refused g d h
    exact ⟨_, herror⟩
  · rw [Text.length_pieces, Nat.add_right_cancel_iff, hspills]
    exact List.length_map (assignmentLine g) ▸
      (lineEnds_linesText (w.fields.map (assignmentLine g))).2
  · rw [pieces_lines (hspills.mp h), List.map_map]
    rfl

end

/-- A type with a line feed behind it and a key over two lines. -/
theorem hud_spilled :
    let d : TypeDeclaration := { name := "Hud", unitPath := "Hud.cs" }
    let w : Walk := ⟨[⟨"Label\n", "title", "Title", "Hud"⟩, ⟨"Label", "menu", "Main\nmenu", "Hud"⟩],
      ["using Godot;"], [d]⟩
    let body := linesText "" (w.fields.map (assignmentLine (.ofKind .sceneNode)))
    (∀ f ∈ w.fields, lineEnds f.name = 0) ∧
      (∀ f ∈ w.fields, IsRegularKey f.lookupKey ∨ ∃ value, IsVerbatimKey value f.lookupKey) ∧
      (∀ f ∈ w.fields, ¬ IsRefused f.typeText) ∧
      resolverText .standard (.ofKind .sceneNode) d w = .ok
        (linesText "" (leadLines (.ofKind .sceneNode) d w) ++ body ++ linesText "" closingLines) ∧
      (Text.pieces isLineEnd body.toList).length ≠ w.fields.length + 1 ∧
      body = linesText "" ["        this.title = this.GetNode<Label", ">(\"Title\");",
        "        this.menu = this.GetNode<Label>(\"Main", "menu\");"] := by
  intro d w body
  have hregular : IsRegularKey "Title" :=
    ⟨"SceneNode", "Title", "\"Title\"", [], ⟨by decide, [], [], by simp, by simp, by decide⟩,
      by decide +kernel⟩
  have hverbatim : IsVerbatimKey "Main\nmenu" "Main\nmenu" :=
    ⟨"SceneNode", "@\"Main\nmenu\"", [], ⟨[], [], by simp, by simp, by decide⟩, by decide +kernel⟩
  have hnames : ∀ f ∈ w.fields, lineEnds f.name = 0 := by decide
  have hkeys : ∀ f ∈ w.fields, IsRegularKey f.lookupKey ∨
      ∃ value, IsVerbatimKey value f.lookupKey := by
    simpa [w] using ⟨.inl hregular, .inr ⟨_, hverbatim⟩⟩
  have htypes : ∀ f ∈ w.fields, ¬ IsRefused f.typeText := by
    have hwritable : ∀ f ∈ w.fields, isWritableType f.typeText = true := by decide +kernel
    exact fun f hf => isWritableType_iff.mp (hwritable f hf)
  obtain ⟨-, -, haccepted, hcount, -⟩ := body_lines (.ofKind .sceneNode) d hnames hkeys
  refine ⟨hnames, hkeys, htypes, haccepted htypes, ?_, by decide +kernel⟩
  intro hlength
  exact hcount.mp hlength _ (List.mem_cons_self) (.inl (by decide))

end FieldWiring
