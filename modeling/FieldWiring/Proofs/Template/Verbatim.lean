import FieldWiring.Proofs.Template.Keys

/-!
# Keys of verbatim literals

A verbatim literal writes its value as it is, but with every quote doubled. The key that is taken
from it writes the same value for a regular literal, with a backslash before every quote and every
backslash. Any value can be written so, but only one without line ends stands between plain quotes:
the key keeps the line ends of a literal that goes over several lines.

Results:
* `escaped_escaped`: the backslashes of a key are those of two replacements, backslashes first.
* `isLiteralBody_escape_iff`: when an escaped value is the body of a regular literal.
* `literalValue?_escape`: what an escaped value denotes.
* `verbatim_key`: the key of a verbatim literal denotes its value.
-/

namespace FieldWiring

open CSharp

/-! ## Escaped values -/

/-- A text with a backslash before every `q`. -/
def escaped (q : Char) (s : List Char) : List Char :=
  s.flatMap fun c => if c = q then ['\\', c] else [c]

/-- The backslashes come first: those before quotes are not escaped again. -/
theorem escaped_escaped (s : List Char) :
    escaped '"' (escaped '\\' s) = s.flatMap escapeLiteral := by
  unfold escaped
  rw [List.flatMap_assoc]
  congr 1
  funext c
  by_cases hslash : c = '\\'
  · subst hslash
    rfl
  · by_cases hquote : c = '"' <;> simp [escapeLiteral, hslash, hquote]

/-- The value that the body of a regular literal denotes, when it has no escapes but those of quotes
and backslashes. -/
def literalValue? : List Char → Option (List Char)
  | [] => some []
  | '\\' :: c :: s => if c = '\\' ∨ c = '"' then (literalValue? s).map (c :: ·) else none
  | c :: s => if c = '\\' ∨ c = '"' then none else (literalValue? s).map (c :: ·)

theorem literalValue?_cons {c : Char} (h : ¬(c = '\\' ∨ c = '"')) (s : List Char) :
    literalValue? (c :: s) = (literalValue? s).map (c :: ·) := by
  rw [literalValue?.eq_3 c s fun _ _ hc => absurd (.inl hc) h, if_neg h]

/-- An escaped value denotes the value. -/
theorem literalValue?_escape (s : List Char) :
    literalValue? (s.flatMap escapeLiteral) = some s := by
  induction s with
  | nil => rfl
  | cons c s ih =>
    rw [List.flatMap_cons, escapeLiteral]
    by_cases hc : c = '\\' ∨ c = '"'
    · rw [if_pos hc, List.cons_append, List.singleton_append, literalValue?, if_pos hc, ih]
      rfl
    · rw [if_neg hc, List.singleton_append, literalValue?_cons hc, ih]
      rfl

theorem isLiteralBody_escapeLiteral (c : Char) (s : List Char) :
    isLiteralBody (escapeLiteral c ++ s) = (!isLineEnd c && isLiteralBody s) := by
  unfold escapeLiteral
  by_cases hc : c = '\\' ∨ c = '"'
  · rw [if_pos hc, List.cons_append, List.singleton_append, isLiteralBody]
  · obtain ⟨hslash, hquote⟩ := not_or.mp hc
    rw [if_neg hc, List.singleton_append, isLiteralBody_cons hslash, bne_iff_ne.mpr hquote,
      Bool.true_and]

/-- An escaped value is the body of a regular literal iff it has no line end. -/
theorem isLiteralBody_escape_iff (s : List Char) :
    isLiteralBody (s.flatMap escapeLiteral) = true ↔ ∀ c ∈ s, isLineEnd c = false := by
  induction s with
  | nil => simp [isLiteralBody]
  | cons c s ih =>
    rw [List.flatMap_cons, isLiteralBody_escapeLiteral, Bool.and_eq_true, ih, List.forall_mem_cons,
      Bool.not_eq_true']

/-! ## The key of a verbatim literal -/

/-- An argument that is the verbatim string literal of a value, with blanks around it. -/
def IsVerbatim (value argument : String) : Prop :=
  ∃ lead trail : List Char,
    (∀ c ∈ lead, Text.isBlank c = true) ∧ (∀ c ∈ trail, Text.isBlank c = true) ∧
      argument.toList = lead ++ ('@' :: '"' :: (doubled value.toList ++ ['"'])) ++ trail

theorem lookupKey_verbatim {value argument : String} (h : IsVerbatim value argument) (name : String)
    (others : List String) :
    (Marker.mk name (argument :: others)).lookupKey.toList =
      value.toList.flatMap escapeLiteral := by
  obtain ⟨lead, trail, hlead, htrail, hargument⟩ := h
  have htrim : Text.trimChars argument.toList = '@' :: '"' :: (doubled value.toList ++ ['"']) :=
    hargument ▸ trimChars_closed hlead htrail (by decide) ('"' :: doubled value.toList)
  have hbody : verbatimBody? ('@' :: '"' :: (doubled value.toList ++ ['"'])) =
      some (doubled value.toList) := by
    rw [verbatimBody?, if_pos List.getLast?_concat, List.dropLast_concat]
  rw [Marker.lookupKey, String.toList_ofList, htrim, literalBody, hbody]
  exact congrArg (·.flatMap escapeLiteral) (undouble_doubled value.toList)

/-- **The key of a verbatim literal denotes its value.** The key of a marker whose first argument is
a verbatim literal is the value with its backslashes and then its quotes escaped. It is the body of
a regular literal iff the value is on one line, and it always denotes the value; the lookup by path
of a field with this key quotes it as it is. -/
theorem verbatim_key {value argument : String} (h : IsVerbatim value argument) (name : String)
    (others : List String) :
    let key := (Marker.mk name (argument :: others)).lookupKey
    (isLiteralBody key.toList = true ↔ ∀ c ∈ value.toList, isLineEnd c = false) ∧
    literalValue? key.toList = some value.toList ∧
    key.toList = escaped '"' (escaped '\\' value.toList) ∧
    ∀ (g : Generator) (f : MarkedField), g.lookup = .byPath → f.lookupKey = key →
      lookupText .standard g f = .ok ("this.GetNode<" ++ f.typeText ++ ">(\"" ++ key ++ "\")") := by
  intro key
  have hkey : key.toList = value.toList.flatMap escapeLiteral := lookupKey_verbatim h name others
  refine ⟨?_, ?_, ?_, fun g f hg hf => hf ▸ lookupText_byPath hg f⟩
  · rw [hkey, isLiteralBody_escape_iff]
  · rw [hkey, literalValue?_escape]
  · rw [hkey, escaped_escaped]

/-- A value that begins with quotes and ends with a quote and a backslash. -/
theorem menu_key :
    let argument := "\t@\"\"\"\"\"Main\"\" menu\"\"\\\" "
    let key := (Marker.mk "SceneNode" [argument]).lookupKey
    IsVerbatim "\"\"Main\" menu\"\\" argument ∧ key = "\\\"\\\"Main\\\" menu\\\"\\\\" ∧
      isLiteralBody key.toList = true ∧
      literalValue? key.toList = some "\"\"Main\" menu\"\\".toList ∧
      lookupText .standard (.ofKind .sceneNode) ⟨"Label", "label", key, "Game.Hud"⟩ =
        .ok ("this.GetNode<" ++ "Label" ++ ">(\"" ++ key ++ "\")") := by
  intro argument key
  have htab : Text.isBlank '\t' = true := by decide
  have hspace : Text.isBlank ' ' = true := by decide
  have h : IsVerbatim "\"\"Main\" menu\"\\" argument :=
    ⟨['\t'], [' '], by simp [htab], by simp [hspace], by decide +kernel⟩
  have hline : "\"\"Main\" menu\"\\".toList.any isLineEnd = false := by decide +kernel
  obtain ⟨hbody, hvalue, hkey, hlookup⟩ := verbatim_key h "SceneNode" []
  refine ⟨h, ?_, hbody.mpr ?_, hvalue, hlookup _ _ rfl rfl⟩
  · rw [← String.toList_inj, hkey]
    decide +kernel
  · exact fun c hc => Bool.eq_false_iff.mpr (List.any_eq_false.mp hline c hc)

end FieldWiring
