import FieldWiring.CSharp.Reader
import Mathlib.Data.Bool.AllAny
import Mathlib.Data.List.Chain

/-!
# Plain sources

A plain source is put together from pieces: words, blanks, comments, pragmas, literals and signs. A
lexeme is as long as it can be, so what a piece becomes depends on the character behind it: `meets`
says before which pieces a piece ends where it should, and `IsReadable` that each piece of a row
does. Such a row is read back piece by piece.

Results:
* `scan_piece`: a piece before a character that ends it is one lexeme.
* `lexemes_pieces`: the lexemes of a readable row are its pieces.
* `tokens_pieces`: its tokens are the pieces of code, each behind the other pieces before it.
* `sourceText_pieces`: a row from one piece of code to another has its own text as the source text.
-/

namespace FieldWiring.CSharp

/-! ## Names and literals -/

/-- A letter that begins a plain name. -/
def isNameStart (c : Char) : Bool := c.isAlpha || c == '_'

/-- A character of a plain name. -/
def isNameChar (c : Char) : Bool := isNameStart c || c.isDigit

/-- An identifier of plain letters and digits, or a word of the language. -/
def isPlainWord (w : String) : Bool := w.toList.head?.any isNameStart && w.toList.all isNameChar

/-- The words that have a meaning of their own in some places. -/
def contextualWords : List String :=
  ["add", "alias", "allows", "and", "args", "ascending", "async", "await", "by", "descending",
   "dynamic", "equals", "extension", "field", "file", "from", "get", "global", "group", "init",
   "into", "join", "let", "managed", "nameof", "nint", "not", "notnull", "nuint", "on", "or",
   "orderby", "partial", "record", "remove", "required", "scoped", "select", "set", "unmanaged",
   "value", "var", "when", "where", "with", "yield"]

/-- An identifier of plain letters and digits that has no meaning of its own anywhere. -/
def isPlainName (w : String) : Bool :=
  isPlainWord w && !reservedWords.contains w && !contextualWords.contains w

/-- A character that ends a line. -/
def isLineEnd (c : Char) : Bool :=
  ['\n', '\r', Char.ofNat 0x85, Char.ofNat 0x2028, Char.ofNat 0x2029].contains c

/-- What stands between the quotes of a string literal on one line: a backslash takes the character
behind it along, and no other quote is left. -/
def isLiteralBody : List Char → Bool
  | [] => true
  | '\\' :: c :: s => !isLineEnd c && isLiteralBody s
  | c :: s => c != '"' && c != '\\' && !isLineEnd c && isLiteralBody s

theorem isWordStart_of_isNameStart {c : Char} (h : isNameStart c = true) :
    isWordStart c = true := by
  unfold isNameStart at h
  unfold isWordStart
  rw [h, Bool.true_or, Bool.true_or]

theorem isNameChar_of_isNameStart {c : Char} (h : isNameStart c = true) : isNameChar c = true := by
  unfold isNameChar
  rw [h, Bool.true_or]

theorem isWordChar_of_isNameChar {c : Char} (h : isNameChar c = true) : isWordChar c = true := by
  unfold isNameChar at h
  unfold isWordChar
  rcases Bool.or_eq_true_iff.mp h with h | h
  · rw [isWordStart_of_isNameStart h, Bool.true_or]
  · rw [h, Bool.or_true]

/-- The characters of names by their codes. -/
theorem code_of_isNameChar {c : Char} (h : isNameChar c = true) :
    (65 ≤ c.toNat ∧ c.toNat ≤ 90) ∨ (97 ≤ c.toNat ∧ c.toNat ≤ 122) ∨ c.toNat = 95 ∨
      (48 ≤ c.toNat ∧ c.toNat ≤ 57) := by
  change (((c.val ≥ 65 ∧ c.val ≤ 90 : Bool) || (c.val ≥ 97 && c.val ≤ 122) || c == '_') ||
    (c.val ≥ 48 && c.val ≤ 57)) = true at h
  simp only [Bool.or_eq_true, Bool.and_eq_true, decide_eq_true_eq, beq_iff_eq, ge_iff_le,
    UInt32.le_iff_toNat_le] at h
  rcases h with (((h | h) | rfl) | h)
  · exact .inl h
  · exact .inr (.inl h)
  · exact .inr (.inr (.inl rfl))
  · exact .inr (.inr (.inr h))

/-- The characters of names are no gaps. -/
theorem isGap_of_isNameChar {c : Char} (h : isNameChar c = true) : isGap c = false := by
  have hcode := code_of_isNameChar h
  have hmark : c ≠ Char.ofNat 0xFEFF := by
    rintro rfl
    revert hcode
    decide
  simp only [isGap, Text.isBlank, Text.inRanges, Text.blankRanges, List.any_cons, List.any_nil,
    Bool.or_eq_false_iff, Bool.and_eq_false_iff, decide_eq_false_iff_not,
    beq_eq_false_iff_ne, and_true]
  refine ⟨?_, hmark⟩
  omega

/-- A plain word begins with a letter. -/
theorem isPlainWord_cons {w : String} (h : isPlainWord w = true) :
    ∃ c cs, w.toList = c :: cs ∧ isNameStart c = true ∧ ∀ d ∈ c :: cs, isNameChar d = true := by
  unfold isPlainWord at h
  rw [Bool.and_eq_true, List.all_eq_true] at h
  cases hw : w.toList with
  | nil => simp [hw] at h
  | cons c cs =>
    rw [hw] at h
    exact ⟨c, cs, rfl, by simpa using h.1, h.2⟩

theorem isPlainName_iff {w : String} : isPlainName w = true ↔
    isPlainWord w = true ∧ w ∉ reservedWords ∧ w ∉ contextualWords := by
  simp [isPlainName, and_assoc]

theorem isPlainWord_of_isPlainName {w : String} (h : isPlainName w = true) : isPlainWord w = true :=
  (isPlainName_iff.mp h).1

/-! ## Pieces -/

/-- A piece of a plain source. A pragma has its line to itself, with the end of it. -/
inductive Piece where
  | word (w : String)
  | blank (s : String)
  | comment (s : String)
  | pragma (s : String)
  | literal (s : String)
  | sign (c : Char)
deriving DecidableEq, Repr

namespace Piece

/-- The text of a piece. -/
def text : Piece → List Char
  | word w => w.toList
  | blank s => s.toList
  | comment s => '/' :: '/' :: s.toList
  | pragma s => '#' :: ("pragma".toList ++ ' ' :: (s.toList ++ ['\n']))
  | literal s => '"' :: (s.toList ++ ['"'])
  | sign c => [c]

/-- What a piece is as a lexeme. -/
def kind : Piece → LexemeKind
  | word _ => .word
  | blank _ => .gap
  | comment _ => .gap
  | pragma _ => .directive
  | literal _ => .literal
  | sign _ => .sign

/-- A piece as a lexeme on a line. -/
def lexeme (line : Nat) (p : Piece) : Lexeme := ⟨p.kind, p.text, line⟩

/-- The piece is a token of its own. -/
def isCode : Piece → Bool
  | word _ => true
  | literal _ => true
  | sign _ => true
  | _ => false

/-- The signs of one character that plain sources use. -/
def signs : List Char := ['.', ';', ',', '<', '>', ':', '=', '(', ')', '{', '}']

/-- The piece is written as its kind is. -/
def IsPlain : Piece → Prop
  | word w => isPlainWord w = true
  | blank s => s ≠ "" ∧ ∀ c ∈ s.toList, c = ' ' ∨ c = '\n'
  | comment s => ∀ c ∈ s.toList, c ≠ '\n' ∧ c ≠ '\r'
  | pragma s => ∀ c ∈ s.toList, c ≠ '\n'
  | literal s => isLiteralBody s.toList = true
  | sign c => c ∈ signs

-- characters are gone through as a list, whatever else could decide such a statement
instance : DecidablePred IsPlain
  | word w => inferInstanceAs (Decidable (isPlainWord w = true))
  | blank s => @instDecidableAnd (s ≠ "") _ inferInstance (List.decidableBAll _ s.toList)
  | comment s => List.decidableBAll (fun c => c ≠ '\n' ∧ c ≠ '\r') s.toList
  | pragma s => List.decidableBAll (· ≠ '\n') s.toList
  | literal s => inferInstanceAs (Decidable (isLiteralBody s.toList = true))
  | sign c => inferInstanceAs (Decidable (c ∈ signs))

/-- Two characters are one sign. -/
def isDouble (c d : Char) : Bool := doubleSigns.any fun s => s.toList = [c, d]

/-- The piece ends before a character. -/
def endsBefore (c : Char) : Piece → Bool
  | word _ => !isWordChar c
  | blank _ => !isGap c
  | comment _ => c = '\n'
  | pragma _ => true
  | literal _ => c != '"'
  | sign a => !isDouble a c

/-- The piece ends where the next one begins. -/
def meets : Piece → Piece → Bool
  | word _, word _ => false
  | blank _, blank _ => false
  | comment _, blank s => s.toList.head? = some '\n'
  | comment _, _ => false
  | literal _, literal _ => false
  | sign a, sign b => !isDouble a b
  | _, _ => true

/-- The piece ends where the next one begins. -/
abbrev Meets (p q : Piece) : Prop := p.meets q = true

end Piece

/-! ## Scanning a piece -/

theorem takeWhile_ends {α : Type} {p : α → Bool} {s rest : List α} (hs : ∀ c ∈ s, p c = true)
    (hrest : ∀ c ∈ rest.head?, p c = false) : (s ++ rest).takeWhile p = s := by
  rw [List.takeWhile_append_of_pos hs]
  cases rest with
  | nil => rw [List.takeWhile_nil, List.append_nil]
  | cons c cs => rw [List.takeWhile_cons_of_neg (by simp [hrest c rfl]), List.append_nil]

theorem runOf_cons_of_ne {c d : Char} (h : d ≠ c) (s : List Char) : runOf c (d :: s) = 0 := by
  unfold runOf
  rw [List.takeWhile_cons_of_neg (by simpa using h), List.length_nil]

theorem openString?_eq_none {c : Char} (hdollar : c ≠ '$') (hat : c ≠ '@') (hquote : c ≠ '"')
    (s : List Char) : openString? (c :: s) = none := by
  unfold openString?
  simp [runOf_cons_of_ne hdollar, runOf_cons_of_ne hat, runOf_cons_of_ne hquote]

/-- The characters that begin literals, comments, directives and verbatim words. -/
def leadingSigns : List Char := ['$', '@', '"', '/', '#', '\'']

/-- Any other character begins blanks, a word, a number or a sign. -/
theorem scan_cons {c : Char} (h : c ∉ leadingSigns) (s : List Char) :
    scan (c :: s) =
      if isGap c then (.gap, ((c :: s).takeWhile isGap).length)
      else if isWordStart c then (.word, ((c :: s).takeWhile isWordChar).length)
      else if c.isDigit then (.literal, numberLength (c :: s))
      else (.sign, signLength (c :: s)) := by
  simp only [leadingSigns, List.mem_cons, List.not_mem_nil, or_false, not_or] at h
  obtain ⟨hdollar, hat, hquote, hslash, hhash, htick⟩ := h
  unfold scan
  rw [openString?_eq_none hdollar hat hquote]
  split <;> simp_all

theorem length_doubleSigns : ∀ sign ∈ doubleSigns, sign.toList.length = 2 := by decide

theorem signLength_cons {c : Char} {s : List Char}
    (h : ∀ d ∈ s.head?, Piece.isDouble c d = false) : signLength (c :: s) = 1 := by
  unfold signLength
  rw [if_neg]
  intro hany
  obtain ⟨sign, hsign, hlead⟩ := List.any_eq_true.mp hany
  obtain ⟨a, b, hab⟩ := List.length_eq_two.mp (length_doubleSigns sign hsign)
  rw [hab, List.isPrefixOf_iff_prefix] at hlead
  obtain ⟨rfl, hnext⟩ := List.cons_prefix_cons.mp hlead
  cases s with
  | nil => exact absurd (List.prefix_nil.mp hnext) (List.cons_ne_nil _ _)
  | cons d s =>
    obtain ⟨rfl, -⟩ := List.cons_prefix_cons.mp hnext
    have hdouble : Piece.isDouble a b = true :=
      List.any_eq_true.mpr ⟨sign, hsign, decide_eq_true hab⟩
    rw [h b rfl] at hdouble
    cases hdouble

/-- A plain literal ends at its quote. -/
theorem literalRest_plain {s rest : List Char} {fuel : Nat} (h : isLiteralBody s = true)
    (hfuel : s.length < fuel) :
    literalRest fuel [.text ⟨1, false, 0⟩] (s ++ '"' :: rest) = s.length + 1 := by
  induction fuel generalizing s with
  | zero => exact absurd hfuel (Nat.not_lt_zero _)
  | succ fuel ih =>
    fun_cases isLiteralBody s with
    | case1 =>
      have hrun : 1 ≤ runOf '"' ('"' :: rest) := by simp [runOf]
      have hstep : textStep ⟨1, false, 0⟩ [] ('"' :: rest) = (1, []) := by
        simp [textStep, hrun]
      simp only [List.nil_append, literalRest, literalStep, hstep, List.length_nil, Nat.zero_add]
      cases fuel <;> rfl
    | case2 c s =>
      have hstep : textStep ⟨1, false, 0⟩ [] ('\\' :: c :: (s ++ '"' :: rest)) =
          (2, [.text ⟨1, false, 0⟩]) := by
        simp [textStep]
      have hrest : isLiteralBody s = true := by
        rw [isLiteralBody, Bool.and_eq_true] at h
        exact h.2
      simp only [List.length_cons] at hfuel
      simp only [List.cons_append, literalRest, literalStep, hstep, List.drop_succ_cons,
        List.drop_zero, ih hrest (by omega), List.length_cons]
      omega
    | case3 c s hescape =>
      rw [isLiteralBody.eq_3 _ _ hescape] at h
      have hstep : textStep ⟨1, false, 0⟩ [] (c :: (s ++ '"' :: rest)) =
          (1, [.text ⟨1, false, 0⟩]) := by
        simp_all [textStep]
      have hrest : isLiteralBody s = true := by simp_all
      simp only [List.length_cons] at hfuel
      simp only [List.cons_append, literalRest, literalStep, hstep, List.drop_succ_cons,
        List.drop_zero, ih hrest (by omega), List.length_cons]
      omega

theorem openString?_plain {s rest : List Char} (h : isLiteralBody s = true)
    (hrest : ∀ c ∈ rest.head?, c ≠ '"') :
    openString? ('"' :: (s ++ '"' :: rest)) = some (1, ⟨1, false, 0⟩) := by
  have hquotes (t : List Char) : runOf '"' ('"' :: t) = runOf '"' t + 1 := by simp [runOf]
  have hbehind : runOf '"' (s ++ '"' :: rest) ≤ 1 := by
    cases s with
    | nil =>
      rw [List.nil_append, hquotes]
      cases rest with
      | nil => exact Nat.le_refl _
      | cons c rest => rw [runOf_cons_of_ne (hrest c rfl)]
    | cons c s =>
      have hc : c ≠ '"' := by
        rintro rfl
        rw [isLiteralBody.eq_3 _ _ (fun _ _ hc => absurd hc (by decide))] at h
        simp at h
      rw [List.cons_append, runOf_cons_of_ne hc]
      exact Nat.zero_le _
  have hfew : ¬ 2 ≤ runOf '"' (s ++ '"' :: rest) := by omega
  have hdollar (t : List Char) : runOf '$' ('"' :: t) = 0 := runOf_cons_of_ne (by decide) t
  have hat (t : List Char) : runOf '@' ('"' :: t) = 0 := runOf_cons_of_ne (by decide) t
  simp [openString?, hdollar, hat, hquotes, hfew]

theorem scan_literal {s rest : List Char} (h : isLiteralBody s = true)
    (hrest : ∀ c ∈ rest.head?, c ≠ '"') :
    scan ('"' :: (s ++ '"' :: rest)) = (.literal, s.length + 2) := by
  unfold scan
  simp only [openString?_plain h hrest, List.drop_succ_cons, List.drop_zero]
  rw [literalRest_plain h (by simp only [List.length_cons, List.length_append]; omega)]
  congr 1
  omega

/-- A comment ends with its line. -/
theorem scan_comment {s rest : List Char} (h : ∀ c ∈ s, c ≠ '\n' ∧ c ≠ '\r')
    (hrest : ∀ c ∈ rest.head?, c = '\n') :
    scan ('/' :: '/' :: (s ++ rest)) = (.gap, s.length + 2) := by
  have hline : lineRest (s ++ rest) = s.length := by
    unfold lineRest
    rw [takeWhile_ends (fun c hc => by simp [h c hc]) (fun c hc => by simp [hrest c hc])]
  unfold scan
  rw [openString?_eq_none (by decide) (by decide) (by decide)]
  simp only [hline]
  congr 1
  omega

theorem directiveWord_pragma (s : List Char) :
    directiveWord ("pragma".toList ++ ' ' :: s) = "pragma" := by
  have hgap : ("pragma".toList ++ ' ' :: s).dropWhile isGap = "pragma".toList ++ ' ' :: s := rfl
  unfold directiveWord
  rw [hgap, takeWhile_ends (List.all_eq_true.mp (by decide)) (by simp; decide)]
  rfl

/-- A pragma takes the end of its line along. -/
theorem scan_pragma {s : List Char} (h : ∀ c ∈ s, c ≠ '\n') (rest : List Char) :
    scan ('#' :: ("pragma".toList ++ ' ' :: (s ++ '\n' :: rest))) = (.directive, s.length + 9) := by
  have hall : ∀ c ∈ "pragma".toList ++ ' ' :: s, (c != '\n') = true := by
    intro c hc
    rcases List.mem_append.mp hc with hc | hc
    · exact List.all_eq_true.mp (by decide : "pragma".toList.all (· != '\n') = true) c hc
    · rcases List.mem_cons.mp hc with rfl | hc
      · decide
      · simpa using h c hc
  have hline : ("pragma".toList ++ ' ' :: (s ++ '\n' :: rest)).takeWhile (· != '\n') =
      "pragma".toList ++ ' ' :: s := by
    rw [← List.cons_append, ← List.append_assoc]
    exact takeWhile_ends hall (by simp)
  have hlength : ("pragma".toList ++ ' ' :: s).length = s.length + 7 := by
    rw [List.length_append, List.length_cons]
    exact Nat.add_comm _ _
  have hend : ("pragma".toList ++ ' ' :: (s ++ '\n' :: rest)).drop (s.length + 7) =
      '\n' :: rest := by
    rw [← List.cons_append, ← List.append_assoc]
    exact List.drop_left' hlength
  unfold scan
  rw [openString?_eq_none (by decide) (by decide) (by decide)]
  simp only [directiveRest, directiveWord_pragma, hline, hlength]
  rw [if_neg (by simp [textDirectives])]
  simp only [hend, List.length_cons]
  congr 1
  omega

theorem not_leading_of_isNameStart {c : Char} (h : isNameStart c = true) : c ∉ leadingSigns := by
  intro hc
  have : ∀ d ∈ leadingSigns, isNameStart d = false := List.all_iff_forall_prop.mp (by decide)
  rw [this c hc] at h
  cases h

/-- A word ends where no character of a word follows. -/
theorem scan_word {w : String} {rest : List Char} (h : isPlainWord w = true)
    (hrest : ∀ c ∈ rest.head?, isWordChar c = false) :
    scan (w.toList ++ rest) = (.word, w.toList.length) := by
  obtain ⟨c, cs, hw, hc, hcs⟩ := isPlainWord_cons h
  have hrun : (c :: cs ++ rest).takeWhile isWordChar = c :: cs :=
    takeWhile_ends (fun d hd => isWordChar_of_isNameChar (hcs d hd)) hrest
  rw [hw, List.cons_append] at *
  rw [scan_cons (not_leading_of_isNameStart hc), isGap_of_isNameChar (isNameChar_of_isNameStart hc),
    isWordStart_of_isNameStart hc, hrun]
  rfl

/-- Blanks end where no gap follows. -/
theorem scan_blank {s rest : List Char} (hne : s ≠ []) (h : ∀ c ∈ s, c = ' ' ∨ c = '\n')
    (hrest : ∀ c ∈ rest.head?, isGap c = false) : scan (s ++ rest) = (.gap, s.length) := by
  obtain ⟨c, cs, rfl⟩ := List.exists_cons_of_ne_nil hne
  have hgap : ∀ d ∈ c :: cs, isGap d = true := by
    intro d hd
    rcases h d hd with rfl | rfl <;> decide
  have hlead : c ∉ leadingSigns := by
    rcases h c List.mem_cons_self with rfl | rfl <;> decide
  have hrun : (c :: (cs ++ rest)).takeWhile isGap = c :: cs := takeWhile_ends hgap hrest
  rw [List.cons_append, scan_cons hlead, if_pos (hgap c List.mem_cons_self), hrun]

/-- A sign stands alone where it makes no other one with what follows. -/
theorem scan_sign {c : Char} {rest : List Char} (h : c ∈ Piece.signs)
    (hrest : ∀ d ∈ rest.head?, Piece.isDouble c d = false) : scan (c :: rest) = (.sign, 1) := by
  have hsigns : ∀ d ∈ Piece.signs, d ∉ leadingSigns ∧ isGap d = false ∧ isWordStart d = false ∧
      d.isDigit = false := List.all_iff_forall_prop.mp (by decide)
  obtain ⟨hlead, hgap, hword, hdigit⟩ := hsigns c h
  rw [scan_cons hlead, hgap, hword, hdigit, signLength_cons hrest]
  rfl

/-- **A piece before a character that ends it is one lexeme.** -/
theorem scan_piece {p : Piece} {rest : List Char} (hp : p.IsPlain)
    (hrest : ∀ c ∈ rest.head?, p.endsBefore c = true) :
    scan (p.text ++ rest) = (p.kind, p.text.length) := by
  cases p with
  | word w => exact scan_word hp fun c hc => by simpa [Piece.endsBefore] using hrest c hc
  | blank s =>
    exact scan_blank (fun hnil => hp.1 (String.toList_eq_nil_iff.mp hnil)) hp.2
      fun c hc => by simpa [Piece.endsBefore] using hrest c hc
  | comment s =>
    have := scan_comment hp (fun c hc => by simpa [Piece.endsBefore] using hrest c hc)
    simpa [Piece.text, Piece.kind] using this
  | pragma s =>
    have hlength : "pragma".toList.length = 6 := rfl
    simp only [Piece.text, Piece.kind, List.cons_append, List.append_assoc, List.nil_append,
      List.length_cons, List.length_append, List.length_nil, hlength]
    rw [scan_pragma hp rest]
    congr 1
    omega
  | literal s =>
    have := scan_literal hp (fun c hc => by simpa [Piece.endsBefore] using hrest c hc)
    simpa [Piece.text, Piece.kind] using this
  | sign c => exact scan_sign hp fun d hd => by simpa [Piece.endsBefore] using hrest d hd

/-! ## Scanning a row -/

/-- A row of pieces that are told apart: each is written as its kind is, and ends where the next one
begins. -/
structure IsReadable (ps : List Piece) : Prop where
  plain : ∀ p ∈ ps, p.IsPlain
  apart : ps.IsChain Piece.Meets

instance : DecidablePred IsReadable := fun ps =>
  decidable_of_iff ((∀ p ∈ ps, p.IsPlain) ∧ ps.IsChain Piece.Meets)
    ⟨fun h => ⟨h.1, h.2⟩, fun h => ⟨h.plain, h.apart⟩⟩

/-- The text of a row of pieces. -/
def piecesText (ps : List Piece) : List Char := ps.flatMap Piece.text

@[simp] theorem piecesText_nil : piecesText [] = [] := rfl

@[simp] theorem piecesText_cons (p : Piece) (ps : List Piece) :
    piecesText (p :: ps) = p.text ++ piecesText ps := List.flatMap_cons

@[simp] theorem piecesText_append (ps qs : List Piece) :
    piecesText (ps ++ qs) = piecesText ps ++ piecesText qs := List.flatMap_append

/-- Pieces as lexemes, the first of them on `line`. -/
def numbered (line : Nat) : List Piece → List Lexeme
  | [] => []
  | p :: ps => p.lexeme line :: numbered (line + lineEnds p.text) ps

theorem Piece.text_ne_nil {p : Piece} (h : p.IsPlain) : p.text ≠ [] := by
  cases p with
  | word w =>
    obtain ⟨c, cs, hw, -⟩ := isPlainWord_cons h
    exact fun hnil => List.cons_ne_nil c cs (hw.symm.trans hnil)
  | blank s => exact fun hnil => h.1 (String.toList_eq_nil_iff.mp hnil)
  | _ => exact List.cons_ne_nil _ _

/-- No sign has a letter, a blank or the beginning of another piece as its second character. -/
theorem isDouble_eq_false {c d : Char}
    (h : isNameStart d = true ∨ d ∈ [' ', '\n', '/', '#', '"']) : Piece.isDouble c d = false := by
  have hsecond : ∀ sign ∈ doubleSigns, (sign.toList.drop 1).all (fun e =>
      isNameStart e = false ∧ e ∉ [' ', '\n', '/', '#', '"']) = true := by decide
  refine List.any_eq_false.mpr fun sign hsign hcd => ?_
  obtain ⟨hletter, hother⟩ := List.all_iff_forall_prop.mp (hsecond sign hsign) d (by
    rw [of_decide_eq_true hcd]
    exact List.mem_singleton_self d)
  rcases h with h | h
  · rw [h] at hletter
    cases hletter
  · exact hother h

/-- What ends before a word ends before its first letter. -/
theorem Piece.endsBefore_letter {p : Piece} {w : String} (h : p.Meets (.word w)) {c : Char}
    (hc : isNameStart c = true) : p.endsBefore c = true := by
  have hgap := isGap_of_isNameChar (isNameChar_of_isNameStart hc)
  have hquote : c ≠ '"' := by
    rintro rfl
    revert hc
    decide
  cases p with
  | word v => cases h
  | comment s => cases h
  | blank s => simp [Piece.endsBefore, hgap]
  | pragma s => rfl
  | literal s => simpa [Piece.endsBefore] using hquote
  | sign a => simp [Piece.endsBefore, isDouble_eq_false (.inl hc)]

/-- What ends before blanks ends before the first of them. -/
theorem Piece.endsBefore_blank {p : Piece} {s : String} (h : p.Meets (.blank s)) {c : Char}
    (hc : c ∈ s.toList.head?) (hblank : c = ' ' ∨ c = '\n') : p.endsBefore c = true := by
  cases p with
  | blank t => cases h
  | comment t =>
    have hline : s.toList.head? = some '\n' := of_decide_eq_true h
    simpa [Piece.endsBefore] using Option.some.inj (hc.symm.trans hline)
  | pragma t => rfl
  | sign a =>
    have hother : c ∈ [' ', '\n', '/', '#', '"'] := by rcases hblank with rfl | rfl <;> decide
    simp [Piece.endsBefore, isDouble_eq_false (.inr hother)]
  | word v => rcases hblank with rfl | rfl <;> rfl
  | literal t => rcases hblank with rfl | rfl <;> rfl

/-- What ends before a sign ends before its character. -/
theorem Piece.endsBefore_sign {p : Piece} {c : Char} (h : p.Meets (.sign c))
    (hc : c ∈ Piece.signs) :
    p.endsBefore c = true := by
  have hsigns : ∀ e ∈ Piece.signs, isWordChar e = false ∧ isGap e = false ∧ e ≠ '"' :=
    List.all_iff_forall_prop.mp (by decide)
  obtain ⟨hword, hgap, hquote⟩ := hsigns c hc
  cases p with
  | comment t => cases h
  | sign a => simpa [Piece.endsBefore, Piece.Meets, Piece.meets] using h
  | word v => simp [Piece.endsBefore, hword]
  | blank t => simp [Piece.endsBefore, hgap]
  | pragma t => rfl
  | literal t => simpa [Piece.endsBefore] using hquote

/-- A piece ends before the first character of the next one. -/
theorem Piece.Meets.endsBefore {p q : Piece} (h : p.Meets q) (hq : q.IsPlain) :
    ∀ c ∈ q.text.head?, p.endsBefore c = true := by
  intro c hc
  cases q with
  | word w =>
    obtain ⟨d, ds, hw, hd, -⟩ := isPlainWord_cons hq
    obtain rfl : d = c := by simpa [Piece.text, hw] using hc
    exact Piece.endsBefore_letter h hd
  | blank s => exact Piece.endsBefore_blank h hc (hq.2 c (List.mem_of_mem_head? hc))
  | sign d =>
    obtain rfl : d = c := Option.some.inj hc
    exact Piece.endsBefore_sign h hq
  | comment s =>
    obtain rfl : '/' = c := Option.some.inj hc
    cases p with
    | comment t => cases h
    | sign a => simp [Piece.endsBefore, isDouble_eq_false (d := '/') (.inr (by decide))]
    | _ => rfl
  | pragma s =>
    obtain rfl : '#' = c := Option.some.inj hc
    cases p with
    | comment t => cases h
    | sign a => simp [Piece.endsBefore, isDouble_eq_false (d := '#') (.inr (by decide))]
    | _ => rfl
  | literal s =>
    obtain rfl : '"' = c := Option.some.inj hc
    cases p with
    | comment t => cases h
    | literal t => cases h
    | sign a => simp [Piece.endsBefore, isDouble_eq_false (d := '"') (.inr (by decide))]
    | _ => rfl

theorem isReadable_nil : IsReadable [] := ⟨fun _ h => absurd h List.not_mem_nil, .nil⟩

theorem isReadable_cons {p : Piece} {ps : List Piece} : IsReadable (p :: ps) ↔
    p.IsPlain ∧ (∀ q ∈ ps.head?, p.Meets q) ∧ IsReadable ps := by
  constructor
  · rintro ⟨hplain, hapart⟩
    obtain ⟨hmeets, htail⟩ := List.isChain_cons.mp hapart
    exact ⟨hplain p List.mem_cons_self, hmeets, fun q hq => hplain q (List.mem_cons_of_mem p hq),
      htail⟩
  · rintro ⟨hp, hmeets, hplain, hapart⟩
    exact ⟨List.forall_mem_cons.mpr ⟨hp, hplain⟩, List.isChain_cons.mpr ⟨hmeets, hapart⟩⟩

theorem isReadable_singleton {p : Piece} : IsReadable [p] ↔ p.IsPlain :=
  isReadable_cons.trans ⟨fun h => h.1, fun h => ⟨h, (fun _ hq => nomatch hq), isReadable_nil⟩⟩

theorem isReadable_cons_cons {p q : Piece} {ps : List Piece} : IsReadable (p :: q :: ps) ↔
    p.IsPlain ∧ p.Meets q ∧ IsReadable (q :: ps) := by
  rw [isReadable_cons, List.head?_cons]
  simp only [Option.mem_some_iff, forall_eq']

theorem isReadable_append {ps qs : List Piece} : IsReadable (ps ++ qs) ↔
    IsReadable ps ∧ IsReadable qs ∧ ∀ p ∈ ps.getLast?, ∀ q ∈ qs.head?, p.Meets q := by
  constructor
  · rintro ⟨hplain, hapart⟩
    obtain ⟨hps, hqs⟩ := List.forall_mem_append.mp hplain
    obtain ⟨hleft, hright, hmeets⟩ := List.isChain_append.mp hapart
    exact ⟨⟨hps, hleft⟩, ⟨hqs, hright⟩, hmeets⟩
  · rintro ⟨⟨hps, hleft⟩, ⟨hqs, hright⟩, hmeets⟩
    exact ⟨List.forall_mem_append.mpr ⟨hps, hqs⟩, List.isChain_append.mpr ⟨hleft, hright, hmeets⟩⟩

theorem IsReadable.tail {p : Piece} {ps : List Piece} (h : IsReadable (p :: ps)) : IsReadable ps :=
  (isReadable_cons.mp h).2.2

/-- Each piece of a readable row ends where the rest of the row begins. -/
theorem IsReadable.endsBefore {p : Piece} {ps : List Piece} (h : IsReadable (p :: ps)) :
    ∀ c ∈ (piecesText ps).head?, p.endsBefore c = true := by
  intro c hc
  cases ps with
  | nil => cases hc
  | cons q ps =>
    have hq : q.IsPlain := h.plain q (List.mem_cons_of_mem p List.mem_cons_self)
    rw [piecesText_cons, List.head?_append_of_ne_nil _ (Piece.text_ne_nil hq)] at hc
    exact (List.isChain_cons_cons.mp h.apart).1.endsBefore hq c hc

theorem lexemesFuel_pieces {ps : List Piece} {fuel : Nat} (line : Nat) (h : IsReadable ps)
    (hfuel : (piecesText ps).length ≤ fuel) :
    lexemesFuel fuel line (piecesText ps) = numbered line ps := by
  induction ps generalizing line fuel with
  | nil => cases fuel <;> rfl
  | cons p ps ih =>
    have hp : p.IsPlain := h.plain p List.mem_cons_self
    have hscan := scan_piece hp h.endsBefore
    obtain ⟨c, cs, hcs⟩ := List.exists_cons_of_ne_nil (Piece.text_ne_nil hp)
    have hmax : max 1 p.text.length = p.text.length := by
      rw [hcs, List.length_cons]
      omega
    rw [piecesText_cons, List.length_append] at hfuel
    cases fuel with
    | zero =>
      rw [hcs, List.length_cons] at hfuel
      omega
    | succ fuel =>
      have hstep : lexemesFuel (fuel + 1) line (p.text ++ piecesText ps) =
          ⟨p.kind, p.text, line⟩ ::
            lexemesFuel fuel (line + lineEnds p.text) (piecesText ps) := by
        rw [hcs, List.cons_append] at hscan ⊢
        simp only [lexemesFuel, hscan]
        rw [← List.cons_append, ← hcs, hmax, List.take_left, List.drop_left]
      rw [piecesText_cons, hstep, ih _ h.tail (by rw [hcs, List.length_cons] at hfuel; omega)]
      rfl

/-- **The lexemes of a readable row are its pieces.** -/
theorem lexemes_pieces {ps : List Piece} (h : IsReadable ps) :
    lexemes (piecesText ps) = numbered 1 ps := lexemesFuel_pieces 1 h (Nat.le_refl _)

/-! ## Tokens of a row -/

/-- The tokens of a row: each piece of code with the other pieces before it, behind the lexemes
`before` (last first). -/
def pieceTokens (before : List Lexeme) (line : Nat) : List Piece → List Token
  | [] => []
  | p :: ps =>
    if p.isCode then
      ⟨before.reverse, p.lexeme line⟩ :: pieceTokens [] (line + lineEnds p.text) ps
    else pieceTokens (p.lexeme line :: before) (line + lineEnds p.text) ps

/-- No piece opens a condition. -/
theorem isDirective_if (p : Piece) (line : Nat) : (p.lexeme line).isDirective "if" = false := by
  cases p with
  | pragma s =>
    have hword : directiveWord (((Piece.pragma s).lexeme line).text.drop 1) = "pragma" :=
      directiveWord_pragma _
    rw [Lexeme.isDirective, hword]
    exact Bool.and_eq_false_iff.mpr (.inr (by decide))
  | _ => rfl

theorem joinConditional_plain {xs : List Lexeme} (h : ∀ x ∈ xs, x.isDirective "if" = false) :
    joinConditional 0 [] xs = xs := by
  induction xs with
  | nil => rfl
  | cons x xs ih =>
    simp [joinConditional, h x List.mem_cons_self, ih fun y hy => h y (List.mem_cons_of_mem x hy)]

theorem joinConditional_numbered (line : Nat) (ps : List Piece) :
    joinConditional 0 [] (numbered line ps) = numbered line ps := by
  refine joinConditional_plain fun x hx => ?_
  induction ps generalizing line with
  | nil => cases hx
  | cons p ps ih =>
    rcases List.mem_cons.mp hx with rfl | hx
    · exact isDirective_if p line
    · exact ih _ hx

theorem tokensFrom_numbered (brackets : List (List Char)) (before : List Lexeme) (line : Nat)
    (ps : List Piece) :
    tokensFrom brackets before (numbered line ps) = pieceTokens before line ps := by
  induction ps generalizing brackets before line with
  | nil => rfl
  | cons p ps ih =>
    have hcode : isCode brackets (p.lexeme line) = p.isCode := by cases p <;> rfl
    simp only [numbered, tokensFrom, pieceTokens, hcode, ih]

/-- **The tokens of a readable row are its pieces of code**, each behind the other pieces before
it. -/
theorem tokens_pieces {ps : List Piece} (h : IsReadable ps) :
    tokens (piecesText ps) = pieceTokens [] 1 ps := by
  unfold tokens
  rw [lexemes_pieces h, joinConditional_numbered, tokensFrom_numbered]

/-- The tokens of a row that goes on are those of both parts. -/
theorem pieceTokens_append (before : List Lexeme) (line : Nat) (ps : List Piece) :
    ∃ before' line', ∀ qs,
      pieceTokens before line (ps ++ qs) =
        pieceTokens before line ps ++ pieceTokens before' line' qs := by
  induction ps generalizing before line with
  | nil => exact ⟨before, line, fun _ => rfl⟩
  | cons p ps ih =>
    cases hp : p.isCode with
    | false =>
      obtain ⟨before', line', h⟩ := ih (p.lexeme line :: before) (line + lineEnds p.text)
      exact ⟨before', line', fun qs => by simpa [pieceTokens, hp] using h qs⟩
    | true =>
      obtain ⟨before', line', h⟩ := ih [] (line + lineEnds p.text)
      exact ⟨before', line', fun qs => by simpa [pieceTokens, hp] using h qs⟩

/-! ## The text of a row -/

theorem pieceTokens_text (before : List Lexeme) (line : Nat) {ps : List Piece}
    (hlast : ∀ p ∈ ps.getLast?, p.isCode = true) (hempty : ps = [] → before = []) :
    (pieceTokens before line ps).flatMap (fun t => lexemesText t.before ++ t.lexeme.text) =
      lexemesText before.reverse ++ piecesText ps := by
  induction ps generalizing before line with
  | nil => rw [hempty rfl]; rfl
  | cons p ps ih =>
    have hrest : ∀ q ∈ ps.getLast?, q.isCode = true := by
      intro q hq
      refine hlast q ?_
      rw [List.getLast?_cons, hq]
      rfl
    rw [pieceTokens]
    cases hp : p.isCode with
    | false =>
      have hne : ps ≠ [] := by
        rintro rfl
        rw [hlast p rfl] at hp
        cases hp
      rw [if_neg Bool.false_ne_true, ih _ _ hrest fun h => absurd h hne]
      simp [lexemesText, Piece.lexeme]
    | true =>
      rw [if_pos rfl, List.flatMap_cons, ih _ _ hrest fun _ => rfl]
      simp [lexemesText, Piece.lexeme]

/-- **A row from one piece of code to another has its own text as the source text.** -/
theorem sourceText_pieces (before : List Lexeme) (line : Nat) {p : Piece} {ps : List Piece}
    (hp : p.isCode = true) (hlast : ∀ q ∈ ps.getLast?, q.isCode = true) :
    sourceText (pieceTokens before line (p :: ps)) = String.ofList (piecesText (p :: ps)) := by
  rw [pieceTokens, if_pos hp, sourceText, pieceTokens_text _ _ hlast fun _ => rfl]
  rfl

end FieldWiring.CSharp
