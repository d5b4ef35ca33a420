import FieldWiring.Proofs.CSharp.Classes
import FieldWiring.Proofs.Template.Layout
import FieldWiring.Proofs.Text.Trimming

/-!
# Plain assignments

A field is plain when its name, the names in its type and its key are. The statement that assigns it
is then a row of plain pieces, and a method that holds such statements has a row of its own as body.

Results:
* `typeRow`: a type is a row that words begin, and words or angle brackets end.
* `isWritable_type`: a plain type can be written.
* `spans_assignment`: the statement that assigns a plain field begins and ends with a piece of its
  own, and its brackets are balanced.
* `assignments_row`: the lines of a method that assigns plain fields are a row of plain pieces whose
  brackets are balanced.
-/

namespace FieldWiring

open CSharp

/-! ## Plain names and types -/

/-- A dotted name whose segments are plain names. -/
def IsDotted (n : String) : Prop :=
  ∃ parts, parts ≠ [] ∧ (∀ w ∈ parts, isPlainName w = true) ∧ n = dotted parts

mutual
/-- The text of a type: a name, a type in another one, or a generic type with its arguments. -/
inductive IsTypeText : String → Prop
  | name {w : String} : isPlainName w = true ∨ w ∈ builtInTypes → IsTypeText w
  | member {t w : String} : IsTypeText t → isPlainName w = true → IsTypeText (t ++ "." ++ w)
  | generic {t args : String} : IsTypeText t → IsTypeList args →
    IsTypeText (t ++ "<" ++ args ++ ">")
/-- The text of the arguments of a generic type. -/
inductive IsTypeList : String → Prop
  | one {t : String} : IsTypeText t → IsTypeList t
  | more {t comma args : String} : IsTypeText t → comma ∈ [",", ", "] → IsTypeList args →
      IsTypeList (t ++ comma ++ args)
end

/-- The piece can be part of a type. -/
def CSharp.Piece.isTypePart : Piece → Bool
  | word _ => true
  | blank s => s = " "
  | sign c => ['.', ',', '<', '>'].contains c
  | _ => false

/-- The piece can end a type. -/
def CSharp.Piece.endsType : Piece → Bool
  | word _ => true
  | sign c => c = '>'
  | _ => false

/-- A type ends before a sign that makes no other one with an angle bracket. -/
theorem CSharp.Piece.meets_of_endsType {p : Piece} (h : p.endsType = true) {c : Char}
    (hc : Piece.isDouble '>' c = false) : p.Meets (.sign c) := by
  cases p with
  | word w => rfl
  | sign d =>
    obtain rfl : d = '>' := of_decide_eq_true h
    rw [Piece.Meets, Piece.meets, hc, Bool.not_false]
  | _ => cases h

/-- A row that is a type, or types with commas between them. -/
structure IsTypeRow (ps : List Piece) : Prop where
  spans : ∃ w p, Spans ps (.word w) p ∧ p.endsType = true
  parts : ∀ p ∈ ps, p.isTypePart = true

theorem isTypeRow_word {w : String} (h : isPlainWord w = true) : IsTypeRow [.word w] :=
  ⟨⟨w, _, spans_singleton h rfl, rfl⟩, by simp [Piece.isTypePart]⟩

section

variable {ps qs : List Piece}

/-- Two types with a dot or a comma between them. -/
theorem IsTypeRow.join (hp : IsTypeRow ps) (between : List Piece) (hq : IsTypeRow qs)
    (hbetween : between ∈ [[.sign '.'], [.sign ','], [.sign ',', .blank " "]]) :
    IsTypeRow (ps ++ (between ++ qs)) := by
  obtain ⟨w, p, hleft, hend⟩ := hp.spans
  obtain ⟨v, q, hright, hend'⟩ := hq.spans
  have hparts : ∀ b ∈ [[.sign '.'], [.sign ','], [.sign ',', .blank " "]], ∀ p ∈ b,
      Piece.isTypePart p = true := by decide
  refine ⟨⟨w, q, ?_, hend'⟩, fun r hr => ?_⟩
  · have hspace : Spans [.sign ',', .blank " "] (.sign ',') (.blank " ") :=
      spans_of_leaves (by decide) (by decide) rfl rfl
    simp only [List.mem_cons, List.not_mem_nil, or_false] at hbetween
    rcases hbetween with rfl | rfl | rfl
    · exact hleft.append (hright.cons (by decide) rfl rfl)
        (Piece.meets_of_endsType hend (by decide))
    · exact hleft.append (hright.cons (by decide) rfl rfl)
        (Piece.meets_of_endsType hend (by decide))
    · exact hleft.append (hspace.append hright rfl) (Piece.meets_of_endsType hend (by decide))
  · rcases List.mem_append.mp hr with h | h
    · exact hp.parts r h
    · exact (List.mem_append.mp h).elim (hparts between hbetween r) (hq.parts r)

/-- A type with arguments. -/
theorem IsTypeRow.generic (hp : IsTypeRow ps) (hq : IsTypeRow qs) :
    IsTypeRow (ps ++ .sign '<' :: (qs ++ [.sign '>'])) := by
  obtain ⟨w, p, hleft, hend⟩ := hp.spans
  obtain ⟨v, q, hargs, hend'⟩ := hq.spans
  have hclose : Spans [.sign '>'] (.sign '>') (.sign '>') := spans_singleton (by decide) rfl
  have hinner := (hargs.append hclose (Piece.meets_of_endsType hend' (by decide))).cons
    (p := .sign '<') (by decide) rfl rfl
  refine ⟨⟨w, _, hleft.append hinner (Piece.meets_of_endsType hend (by decide)), rfl⟩,
    fun r hr => ?_⟩
  simp only [List.mem_append, List.mem_cons, List.not_mem_nil, or_false] at hr
  rcases hr with h | rfl | h | rfl
  · exact hp.parts r h
  · rfl
  · exact hq.parts r h
  · rfl

end

mutual
/-- **A type is a row of its own.** -/
theorem typeRow : ∀ {t : String}, IsTypeText t → ∃ ps, IsTypeRow ps ∧ piecesText ps = t.toList
  | w, .name hw => by
    have hbuiltIn : ∀ v ∈ builtInTypes, isPlainWord v = true := by decide
    have hplain : isPlainWord w = true := hw.elim isPlainWord_of_isPlainName (hbuiltIn w)
    exact ⟨[.word w], isTypeRow_word hplain, by simp [Piece.text]⟩
  | _, .member ht hw => by
    obtain ⟨ps, hps, htext⟩ := typeRow ht
    refine ⟨_, hps.join [.sign '.'] (isTypeRow_word (isPlainWord_of_isPlainName hw)) (by simp), ?_⟩
    simp [htext, Piece.text]
  | _, .generic ht hargs => by
    obtain ⟨ps, hps, htext⟩ := typeRow ht
    obtain ⟨qs, hqs, hlist⟩ := typesRow hargs
    refine ⟨_, hps.generic hqs, ?_⟩
    simp [htext, hlist, Piece.text]
/-- Types with commas between them are a row too. -/
theorem typesRow : ∀ {args : String}, IsTypeList args →
    ∃ ps, IsTypeRow ps ∧ piecesText ps = args.toList
  | _, .one ht => typeRow ht
  | _, .more ht hcomma hargs => by
    obtain ⟨ps, hps, htext⟩ := typeRow ht
    obtain ⟨qs, hqs, hlist⟩ := typesRow hargs
    rcases List.mem_pair.mp hcomma with rfl | rfl
    · refine ⟨_, hps.join [.sign ','] hqs (by simp), ?_⟩
      simp [htext, hlist, Piece.text]
    · refine ⟨_, hps.join [.sign ',', .blank " "] hqs (by simp), ?_⟩
      simp [htext, hlist, Piece.text]
end

/-! ## Types that can be written -/

theorem CSharp.Piece.text_of_typePart {p : Piece} (hplain : p.IsPlain)
    (hpart : p.isTypePart = true) :
    ∀ c ∈ p.text, c ≠ '\n' := by
  cases p with
  | word w =>
    obtain ⟨d, ds, hw, -, hchars⟩ := isPlainWord_cons hplain
    rintro c hc rfl
    rw [Piece.text, hw] at hc
    have := hchars _ hc
    revert this
    decide
  | blank s =>
    rw [of_decide_eq_true hpart]
    exact List.all_iff_forall_prop.mp (by decide : (Piece.blank " ").text.all (· ≠ '\n') = true)
  | sign c =>
    have hsigns : ∀ d ∈ ['.', ',', '<', '>'], d ≠ '\n' := List.all_iff_forall_prop.mp (by decide)
    have hc : c ∈ ['.', ',', '<', '>'] := List.contains_iff_mem.mp hpart
    rintro d hd
    rw [List.mem_singleton.mp hd]
    exact hsigns c hc
  | _ => cases hpart

/-- A piece of code has no blank at its ends. -/
theorem CSharp.Piece.ends_of_code {p : Piece} (hplain : p.IsPlain) (hcode : p.isCode = true) :
    (∀ c ∈ p.text.head?, Text.isBlank c = false) ∧
      ∀ c ∈ p.text.getLast?, Text.isBlank c = false := by
  cases p with
  | word w =>
    obtain ⟨d, ds, hw, -, hchars⟩ := isPlainWord_cons hplain
    rw [Piece.text, hw]
    exact ⟨fun c hc => isBlank_of_isNameChar (hchars c (List.mem_of_mem_head? hc)),
      fun c hc => isBlank_of_isNameChar (hchars c (List.mem_of_mem_getLast? hc))⟩
  | literal s =>
    have hquote : Text.isBlank '"' = false := by decide
    constructor
    · rintro c ⟨⟩
      exact hquote
    · intro c hc
      rw [Piece.text, ← List.cons_append, List.getLast?_concat] at hc
      cases hc
      exact hquote
  | sign c =>
    have hsigns : ∀ d ∈ Piece.signs, Text.isBlank d = false :=
      List.all_iff_forall_prop.mp (by decide)
    constructor <;> rintro d ⟨⟩ <;> exact hsigns c hplain
  | _ => cases hcode

theorem piecesText_ne_nil {ps : List Piece} {p q : Piece} (h : Spans ps p q) :
    piecesText ps ≠ [] := by
  obtain ⟨ps', rfl⟩ := List.head?_eq_some_iff.mp h.head
  rw [piecesText_cons]
  exact List.append_ne_nil_of_left_ne_nil
    (Piece.text_ne_nil (h.readable.plain p List.mem_cons_self)) _

/-- A row from one piece of code to another is what is left of its text between blanks. -/
theorem trim_row {ps : List Piece} {p q : Piece} (h : Spans ps p q) (hfirst : p.isCode = true)
    (hlast : q.isCode = true) {s : String} {blanks : List Char}
    (hs : s.toList = piecesText ps ++ blanks) (hblanks : ∀ c ∈ blanks, Text.isBlank c = true) :
    Text.trim s = String.ofList (piecesText ps) := by
  have hbegin : ∀ c ∈ (piecesText ps).head?, Text.isBlank c = false := by
    obtain ⟨ps', rfl⟩ := List.head?_eq_some_iff.mp h.head
    have hp := h.readable.plain p List.mem_cons_self
    rw [piecesText_cons, List.head?_append_of_ne_nil _ (Piece.text_ne_nil hp)]
    exact (Piece.ends_of_code hp hfirst).1
  have hend : ∀ c ∈ (piecesText ps).getLast?, Text.isBlank c = false := by
    obtain ⟨ps', rfl⟩ := List.getLast?_eq_some_iff.mp h.last
    have hq := h.readable.plain q (by simp)
    rw [piecesText_append, piecesText_cons, piecesText_nil, List.append_nil,
      List.getLast?_append_of_ne_nil _ (Piece.text_ne_nil hq)]
    exact (Piece.ends_of_code hq hlast).2
  rw [Text.trim, hs, Text.trimChars_append hbegin hend hblanks (piecesText_ne_nil h)]

/-- A type is no placeholder for one. -/
theorem type_ne_var {t : String} (h : IsTypeText t) : t ≠ "var" := by
  have hsigns : ∀ c ∈ ['.', '<'], c ∉ "var".toList := List.all_iff_forall_prop.mp (by decide)
  cases h with
  | name hw =>
    rintro rfl
    revert hw
    decide
  | member ht hw =>
    intro heq
    exact hsigns '.' (by simp) (by rw [← heq]; simp)
  | generic ht hargs =>
    intro heq
    exact hsigns '<' (by simp) (by rw [← heq]; simp)

/-- **A plain type can be written.** -/
theorem isWritable_type {t : String} (h : IsTypeText t) : isWritableType t = true := by
  obtain ⟨ps, hps, htext⟩ := typeRow h
  obtain ⟨w, p, hrow, hend⟩ := hps.spans
  have hcode : p.isCode = true := by cases p <;> first | rfl | cases hend
  have hself : t.toList = piecesText ps ++ [] := by rw [htext, List.append_nil]
  have htrim : Text.trim t = t := by
    rw [trim_row hrow rfl hcode hself fun c hc => absurd hc List.not_mem_nil, htext,
      String.ofList_toList]
  have hline : '\n' ∉ t.toList := by
    rw [← htext, piecesText, List.mem_flatMap]
    rintro ⟨q, hq, hc⟩
    exact Piece.text_of_typePart (hrow.readable.plain q hq) (hps.parts q hq) _ hc rfl
  have hne : t ≠ "" := by
    rintro rfl
    exact piecesText_ne_nil hrow htext
  simp [isWritableType, htrim, hne, hline, type_ne_var h]

/-! ## Assignments -/

/-- A marked field that is written in plain pieces. -/
structure IsPlainField (f : MarkedField) : Prop where
  name : isPlainName f.name = true
  type : IsTypeText f.typeText
  key : isLiteralBody f.lookupKey.toList = true

/-- What stands before the type in the value of a field. -/
def lookupLead : LookupMode → List Piece
  | .byPath => [.word "this", .sign '.', .word "GetNode"]
  | .byType =>
    [.word "GetTree", .sign '(', .sign ')', .sign '.', .word "Root", .sign '.', .word "GetChildren",
      .sign '(', .sign ')', .sign '.', .word "OfType"]

/-- What stands behind the type in the value of a field. -/
def lookupRest : LookupMode → String → List Piece
  | .byPath, key => [.sign '(', .literal key, .sign ')']
  | .byType, _ => [.sign '(', .sign ')', .sign '.', .word "FirstOrDefault", .sign '(', .sign ')']

/-- The value of a field whose type is the row `type`. -/
def lookupPieces (mode : LookupMode) (type : List Piece) (key : String) : List Piece :=
  lookupLead mode ++ .sign '<' :: (type ++ .sign '>' :: lookupRest mode key)

/-- The statement that assigns a field whose type is the row `type`. -/
def assignmentPieces (mode : LookupMode) (name : String) (type : List Piece) (key : String) :
    List Piece :=
  [.word "this", .sign '.', .word name, .blank " ", .sign '=', .blank " "] ++
    (lookupPieces mode type key ++ [.sign ';'])

theorem lookup_text (mode : LookupMode) (f : MarkedField) {type : List Piece}
    (htype : piecesText type = f.typeText.toList) :
    (Template.lookupLine mode f).toList =
      piecesText (lookupPieces mode type f.lookupKey) ++ ['\n'] := by
  cases mode <;>
    simp [Template.lookupLine, lookupPieces, lookupLead, lookupRest, Piece.text, htype,
      String.join_cons]

theorem spans_lead (mode : LookupMode) :
    ∃ w v, Spans (lookupLead mode) (.word w) (.word v) := by
  cases mode with
  | byPath => exact ⟨"this", "GetNode", spans_of_leaves (by decide) (by decide) rfl rfl⟩
  | byType =>
    have hchildren : Spans [.sign '.', .word "Root", .sign '.', .word "GetChildren"] (.sign '.')
        (.word "GetChildren") := spans_of_leaves (by decide) (by decide) rfl rfl
    have hfilter : Spans [.sign '.', .word "OfType"] (.sign '.') (.word "OfType") :=
      spans_of_leaves (by decide) (by decide) rfl rfl
    have hbehind := hchildren.append (spans_call.append hfilter (by decide)) rfl
    exact ⟨"GetTree", "OfType", (spans_call.append hbehind (by decide)).cons (by decide) rfl rfl⟩

theorem spans_rest (mode : LookupMode) {key : String} (hkey : isLiteralBody key.toList = true) :
    Spans (lookupRest mode key) (.sign '(') (.sign ')') := by
  cases mode with
  | byPath =>
    have hliteral : Spans [.literal key] (.literal key) (.literal key) :=
      spans_singleton hkey rfl
    exact hliteral.group isPair_parentheses rfl rfl
  | byType =>
    have hfirst : Spans [.sign '.', .word "FirstOrDefault"] (.sign '.') (.word "FirstOrDefault") :=
      spans_of_leaves (by decide) (by decide) rfl rfl
    exact spans_call.append (hfirst.append spans_call rfl) (by decide)

/-- The value of a field is a row of its own. -/
theorem spans_lookup (mode : LookupMode) {type : List Piece} (htype : IsTypeRow type) {key : String}
    (hkey : isLiteralBody key.toList = true) :
    ∃ w, Spans (lookupPieces mode type key) (.word w) (.sign ')') := by
  obtain ⟨w, v, hlead⟩ := spans_lead mode
  obtain ⟨u, p, hrow, hend⟩ := htype.spans
  have hends : p.Meets (.sign '>') := Piece.meets_of_endsType hend (by decide)
  have hclose : Spans (.sign '>' :: lookupRest mode key) (.sign '>') (.sign ')') :=
    (spans_rest mode hkey).cons (by decide) rfl (by decide)
  exact ⟨w, hlead.append ((hrow.append hclose hends).cons (by decide) rfl rfl) rfl⟩

/-- The statement that assigns a field is a row of its own. -/
theorem spans_assignment (mode : LookupMode) {name : String} (hname : isPlainWord name = true)
    {type : List Piece} (htype : IsTypeRow type) {key : String}
    (hkey : isLiteralBody key.toList = true) :
    Spans (assignmentPieces mode name type key) (.word "this") (.sign ';') := by
  obtain ⟨w, hvalue⟩ := spans_lookup mode htype hkey
  have hend : Spans [.sign ';'] (.sign ';') (.sign ';') := spans_singleton (by decide) rfl
  have hgap : Spans [.blank " ", .sign '=', .blank " "] (.blank " ") (.blank " ") :=
    spans_of_leaves (by decide) (by decide) rfl rfl
  have htarget : Spans [.word name, .blank " ", .sign '=', .blank " "] (.word name) (.blank " ") :=
    hgap.cons hname rfl rfl
  exact ((htarget.cons (p := .sign '.') (by decide) rfl rfl).cons (by decide) rfl rfl).append
    (hvalue.append hend (by decide)) rfl

/-- The statement that assigns a field reads as a row. -/
theorem assignment_text (g : Generator) {f : MarkedField} {type : List Piece}
    (htype : IsTypeRow type)
    (htext : piecesText type = f.typeText.toList) (hkey : isLiteralBody f.lookupKey.toList = true) :
    (assignmentText g f).toList =
      piecesText (assignmentPieces g.lookup f.name type f.lookupKey) := by
  obtain ⟨w, hvalue⟩ := spans_lookup g.lookup htype hkey
  have htrim : Text.trim (Template.lookupLine g.lookup f) =
      String.ofList (piecesText (lookupPieces g.lookup type f.lookupKey)) :=
    trim_row hvalue rfl rfl (lookup_text g.lookup f htext) (List.all_eq_true.mp (by decide))
  rw [assignmentText, htrim]
  simp [assignmentPieces, Piece.text]

/-- The lines of a method that assigns plain fields are a row, from the end of the line before them
to the indent behind them. -/
theorem assignments_row (g : Generator) {fs : List MarkedField} (h : ∀ f ∈ fs, IsPlainField f) :
    ∃ body s, Spans body (.blank s) (.blank "\n    ") ∧
      piecesText body =
        ("\n" ++ Template.linesText "        " (fs.map (assignmentText g)) ++ "    ").toList := by
  induction fs with
  | nil =>
    refine ⟨[.blank "\n    "], _, spans_of_leaves (by decide) (by decide) rfl rfl, ?_⟩
    rw [List.map_nil]
    decide
  | cons f fs ih =>
    obtain ⟨body, s, hbody, htext⟩ := ih fun f' hf' => h f' (List.mem_cons_of_mem f hf')
    have hf := h f List.mem_cons_self
    obtain ⟨type, htype, hname⟩ := typeRow hf.type
    have hassign := spans_assignment g.lookup (isPlainWord_of_isPlainName hf.name) htype hf.key
    have hline := assignment_text g htype hname hf.key
    refine ⟨_, _, (hassign.append hbody rfl).cons (p := .blank "\n        ")
      (by decide) rfl rfl, ?_⟩
    simp [htext, ← hline, Piece.text, Template.linesText, String.join_cons]

end FieldWiring
