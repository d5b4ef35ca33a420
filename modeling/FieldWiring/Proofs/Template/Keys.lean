import FieldWiring.Proofs.CSharp.Pieces
import FieldWiring.Proofs.Template.Lines

/-!
# Keys of markers

The first argument of a marker, when it is a regular string literal, and what becomes of it: the key
that is cut out of it, and the lookup by path that quotes the key again. Quotes are cut off both
ends as long as there are any. In front that is the one that opens the literal; behind it is the one
that closes it, and with it that of an escape at the end of the body, whose backslash stays.

Results:
* `isLiteralBody_append`, `isLiteralBody_quote`: bodies of literals put together and taken apart.
* `trimBoth_literal`: what is left of a literal without the quotes at its ends.
* `lookupText_byPath`: the lookup by path that a unit has.
* `literal_key`: when the key is the body of the literal, and a body at all.
-/

namespace FieldWiring

open CSharp

/-! ## Bodies of literals -/

theorem isLiteralBody_cons {c : Char} (h : c ≠ '\\') (s : List Char) :
    isLiteralBody (c :: s) = (c != '"' && !isLineEnd c && isLiteralBody s) := by
  rw [isLiteralBody.eq_3 c s fun _ _ hc => absurd hc h, bne_iff_ne.mpr h, Bool.and_true]

/-- Behind a body, the rest is a body iff both together are. -/
theorem isLiteralBody_append {s : List Char} (h : isLiteralBody s = true) (t : List Char) :
    isLiteralBody (s ++ t) = isLiteralBody t := by
  fun_induction isLiteralBody s with
  | case1 => rfl
  | case2 c s ih =>
    rw [Bool.and_eq_true] at h
    rw [List.cons_append, List.cons_append, isLiteralBody, h.1, Bool.true_and, ih h.2]
  | case3 c s _ ih =>
    simp only [Bool.and_eq_true, bne_iff_ne] at h
    obtain ⟨⟨⟨hquote, hescape⟩, hline⟩, hs⟩ := h
    rw [List.cons_append, isLiteralBody_cons hescape, bne_iff_ne.mpr hquote, hline, Bool.true_and,
      Bool.true_and, ih hs]

/-- No quote begins a body. -/
theorem isLiteralBody_head {s : List Char} (h : isLiteralBody s = true) :
    ∀ c ∈ s.head?, c ≠ '"' := by
  rintro c hc rfl
  obtain ⟨s, rfl⟩ := List.head?_eq_some_iff.mp hc
  rw [isLiteralBody_cons (by decide)] at h
  exact absurd h (by simp)

/-- A quote at the end of a body stands behind the backslash of an escape. -/
theorem isLiteralBody_quote {s : List Char} (h : isLiteralBody (s ++ ['"']) = true) :
    ∃ t, s = t ++ ['\\'] ∧ isLiteralBody t = true := by
  fun_induction isLiteralBody s with
  | case1 => exact absurd h (by decide)
  | case2 c s ih =>
    rw [List.cons_append, List.cons_append, isLiteralBody, Bool.and_eq_true] at h
    obtain ⟨t, rfl, ht⟩ := ih h.2
    refine ⟨'\\' :: c :: t, rfl, ?_⟩
    rw [isLiteralBody, h.1, Bool.true_and, ht]
  | case3 c s hlone ih =>
    by_cases hc : c = '\\'
    · subst hc
      cases s with
      | nil => exact ⟨[], rfl, rfl⟩
      | cons d s => exact (hlone d s rfl rfl).elim
    · rw [List.cons_append, isLiteralBody_cons hc, Bool.and_eq_true] at h
      obtain ⟨t, rfl, ht⟩ := ih h.2
      refine ⟨c :: t, rfl, ?_⟩
      rw [isLiteralBody_cons hc, h.1, Bool.true_and, ht]

/-! ## Cutting quotes -/

/-- A literal without the quotes at its ends: its body, but for a quote at the end of that. -/
theorem trimBoth_literal {s : List Char} (h : isLiteralBody s = true) :
    Text.trimBoth (· == '"') ('"' :: (s ++ ['"'])) =
      if s.getLast? = some '"' then s.dropLast else s := by
  have hopened : Text.trimBoth (· == '"') ('"' :: (s ++ ['"'])) = Text.trimEnd (· == '"') s := by
    unfold Text.trimBoth
    rw [List.dropWhile_cons_of_pos (by rfl)]
    cases hs : s with
    | nil => rfl
    | cons c rest =>
      have hc : c ≠ '"' := isLiteralBody_head h c (by rw [hs]; rfl)
      rw [List.cons_append, List.dropWhile_cons_of_neg (by simpa using hc), ← List.cons_append,
        Text.trimEnd_concat, if_pos (by rfl)]
  rw [hopened]
  rcases List.eq_nil_or_concat' s with rfl | ⟨t, c, rfl⟩
  · rfl
  · rw [Text.trimEnd_concat, List.getLast?_concat, List.dropLast_concat]
    by_cases hc : c = '"'
    · subst hc
      -- the backslash of the escape keeps the quotes before it
      obtain ⟨u, rfl, -⟩ := isLiteralBody_quote h
      rw [if_pos (by rfl), if_pos rfl, Text.trimEnd_concat, if_neg (by decide)]
    · rw [if_neg (by simpa using hc), if_neg (by simpa using hc)]

/-! ## The key of a literal -/

/-- An argument that is the regular string literal with a body, with blanks around it. -/
def IsLiteral (body argument : String) : Prop :=
  isLiteralBody body.toList = true ∧ ∃ lead trail : List Char,
    (∀ c ∈ lead, Text.isBlank c = true) ∧ (∀ c ∈ trail, Text.isBlank c = true) ∧
      argument.toList = lead ++ ('"' :: (body.toList ++ ['"'])) ++ trail

/-- A text that a quote closes, with blanks around it. -/
theorem trimChars_closed {lead trail : List Char} (hlead : ∀ c ∈ lead, Text.isBlank c = true)
    (htrail : ∀ c ∈ trail, Text.isBlank c = true) {first : Char}
    (hfirst : Text.isBlank first = false)
    (s : List Char) :
    Text.trimChars (lead ++ (first :: (s ++ ['"'])) ++ trail) = first :: (s ++ ['"']) := by
  have hquote : Text.isBlank '"' = false := by decide
  refine Text.trimChars_between hlead htrail (by simp [hfirst]) (fun c hc => ?_)
    (List.cons_ne_nil _ _)
  rw [← List.cons_append, List.getLast?_concat] at hc
  exact Option.some.inj hc ▸ hquote

theorem lookupKey_literal {body argument : String} (h : IsLiteral body argument) (name : String)
    (others : List String) : (Marker.mk name (argument :: others)).lookupKey.toList =
      if body.toList.getLast? = some '"' then body.toList.dropLast else body.toList := by
  obtain ⟨hbody, lead, trail, hlead, htrail, hargument⟩ := h
  have htrim : Text.trimChars argument.toList = '"' :: (body.toList ++ ['"']) :=
    hargument ▸ trimChars_closed hlead htrail (by decide) body.toList
  rw [Marker.lookupKey, String.toList_ofList, htrim, literalBody, verbatimBody?]
  · exact trimBoth_literal hbody
  · exact fun _ hverbatim => absurd (List.cons.inj hverbatim).1 (by decide)

/-- The lookup by path quotes the key as it is. -/
theorem lookupText_byPath {g : Generator} (hg : g.lookup = .byPath) (f : MarkedField) :
    lookupText .standard g f =
      .ok ("this.GetNode<" ++ f.typeText ++ ">(\"" ++ f.lookupKey ++ "\")") := by
  rw [lookupText_standard, hg, valueText_byPath]

/-- **A literal keeps its body unless that ends with a quote.** The key of a marker whose first
argument is a regular string literal is the body of the literal, without the quote of an escape at
its end. Only the whole body is the body of a literal again; and the lookup by path of a field with
this key quotes it, whatever it is. -/
theorem literal_key {body argument : String} (h : IsLiteral body argument) (name : String)
    (others : List String) :
    let key := (Marker.mk name (argument :: others)).lookupKey
    (key = body ↔ body.toList.getLast? ≠ some '"') ∧
    (key = body ↔ isLiteralBody key.toList = true) ∧
    (key ≠ body → body = key ++ "\"") ∧
    ∀ (g : Generator) (f : MarkedField), g.lookup = .byPath → f.lookupKey = key →
      lookupText .standard g f = .ok ("this.GetNode<" ++ f.typeText ++ ">(\"" ++ key ++ "\")") := by
  intro key
  have hkey : key.toList = if body.toList.getLast? = some '"' then body.toList.dropLast
      else body.toList := lookupKey_literal h name others
  have hlookup : ∀ (g : Generator) (f : MarkedField), g.lookup = .byPath → f.lookupKey = key →
      lookupText .standard g f = .ok ("this.GetNode<" ++ f.typeText ++ ">(\"" ++ key ++ "\")") :=
    fun g f hg hf => hf ▸ lookupText_byPath hg f
  by_cases hquote : body.toList.getLast? = some '"'
  · rw [if_pos hquote] at hkey
    have hbody : body.toList = key.toList ++ ['"'] := by
      rw [hkey, List.dropLast_append_getLast? '"' hquote]
    have hshort : key ≠ body := by
      intro heq
      have hlength := congrArg List.length hbody
      rw [← heq, List.length_append, List.length_singleton] at hlength
      omega
    -- what is left ends with the backslash of the escape
    obtain ⟨t, ht, htbody⟩ := isLiteralBody_quote (hbody ▸ h.1)
    have hopen : isLiteralBody key.toList = false := by
      rw [ht, isLiteralBody_append htbody]
      rfl
    refine ⟨iff_of_false hshort (not_not_intro hquote), iff_of_false hshort (by simp [hopen]),
      fun _ => ?_, hlookup⟩
    rw [← String.toList_inj, hbody, String.toList_append]
    rfl
  · rw [if_neg hquote] at hkey
    have heq : key = body := String.toList_inj.mp hkey
    exact ⟨iff_of_true heq hquote, iff_of_true heq (heq ▸ h.1), fun hne => absurd heq hne, hlookup⟩

/-- A speech in escaped quotes, with a blank before the literal. -/
theorem speech_key :
    let argument := " \"say \\\"hi\\\"\""
    let key := (Marker.mk "SceneNode" [argument]).lookupKey
    IsLiteral "say \\\"hi\\\"" argument ∧ key ≠ "say \\\"hi\\\"" ∧
    isLiteralBody key.toList = false ∧
      lookupText .standard (.ofKind .sceneNode) ⟨"Label", "label", key, "Game.Hud"⟩ =
        .ok ("this.GetNode<" ++ "Label" ++ ">(\"" ++ key ++ "\")") := by
  intro argument key
  have hblank : Text.isBlank ' ' = true := by decide
  have h : IsLiteral "say \\\"hi\\\"" argument :=
    ⟨by decide +kernel, [' '], [], by simp [hblank], by simp, by decide +kernel⟩
  obtain ⟨hquote, hbody, -, hlookup⟩ := literal_key h "SceneNode" []
  have hshort : key ≠ "say \\\"hi\\\"" := fun heq => hquote.mp heq (by decide +kernel)
  exact ⟨h, hshort, Bool.eq_false_iff.mpr fun hkey => hshort (hbody.mpr hkey), hlookup _ _ rfl rfl⟩

end FieldWiring
