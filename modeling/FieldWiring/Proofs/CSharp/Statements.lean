import FieldWiring.Proofs.CSharp.Lines
import FieldWiring.Proofs.CSharp.Pieces
import FieldWiring.Proofs.Text.Leading
import Mathlib.Data.Option.Basic

/-!
# Reading plain statements

What a row of plain pieces is read as. Its tokens grow into trees (`Becomes`), and the trees of a
unit are read run by run, so a row *declares* members when it does so wherever it stands and
whatever follows it (`Declares`). Import directives and statements for a namespace are the first
such rows.

Results:
* `trees_of_grows`: trees that grow back from their own tokens are the trees of the source.
* `readUnit_run`: a unit that begins with a whole run declares what the run does, and then the rest.
* `Declares.append`: rows declare what their parts do, from left to right.
* `declares_import`, `declares_namespace`: a plain statement declares what it says.
-/

namespace FieldWiring

/-! ## Blanks in names -/

namespace Text

theorem squeeze_of_none {s : String} (h : ∀ c ∈ s.toList, isBlank c = false) : squeeze s = s := by
  unfold squeeze
  rw [List.filter_eq_self.mpr fun c hc => by simp [h c hc], String.ofList_toList]

/-- Two words a space apart stay so. -/
theorem collapse_pair {a b : String} (ha : a ≠ "") (hb : b ≠ "")
    (hablank : ∀ c ∈ a.toList, isBlank c = false) (hbblank : ∀ c ∈ b.toList, isBlank c = false) :
    collapse (a ++ " " ++ b) = a ++ " " ++ b := by
  have htext : (a ++ " " ++ b).toList = a.toList ++ ' ' :: b.toList := by simp
  have hwords : words (a.toList ++ ' ' :: b.toList) = [a.toList, b.toList] := by
    unfold words
    rw [pieces_append_cut (by decide), pieces_of_none hablank, pieces_of_none hbblank]
    simp [ha, hb]
  rw [collapse, htext, hwords, ← String.toList_inj, htext, String.toList_ofList]
  simp [List.intercalate]

end Text

namespace CSharp

/-! ## Trees of a row -/

/-- Trees that grow back from their own tokens, whatever stands around these. -/
def Grows (us : List Tree) : Prop :=
  ∀ pending done ts, grow pending done (flatten us ++ ts) = grow pending (us.reverse ++ done) ts

theorem Grows.nil : Grows [] := fun _ _ _ => rfl

theorem Grows.append {us vs : List Tree} (hu : Grows us) (hv : Grows vs) : Grows (us ++ vs) := by
  intro pending done ts
  rw [flatten_append, List.append_assoc, hu, hv, List.reverse_append, List.append_assoc]

/-- Brackets grow back around trees that do. -/
theorem Grows.group {o c : Token} {us : List Tree} (ho : opensBracket o.lexeme = true)
    (hopens : opensBracket c.lexeme = false) (hc : closesBracket c.lexeme = true) (h : Grows us) :
    Grows [.group o us c] := by
  intro pending done ts
  simp only [flatten, Tree.tokens, List.append_nil, List.cons_append, List.append_assoc, grow, ho,
    if_true, List.nil_append]
  rw [h, grow, hopens, if_neg Bool.false_ne_true, if_pos hc]
  simp

/-- Trees that grow back from the tokens of a whole source are its trees. -/
theorem trees_of_grows {source : List Char} {us : List Tree} (h : Grows us)
    (htokens : tokens source = flatten us) : trees source = us := by
  unfold trees
  have := h [] [] []
  rw [List.append_nil, List.append_nil] at this
  rw [htokens, this, grow, abandon, List.reverse_reverse]

/-- The characters of brackets. -/
def brackets : List Char := ['(', '[', '{', ')', ']', '}']

/-- The piece is a bracket. -/
def Piece.isBracket : Piece → Bool
  | sign c => brackets.contains c
  | _ => false

/-- The tokens of a row as trees of their own. -/
def leaves (before : List Lexeme) (line : Nat) (ps : List Piece) : List Tree :=
  (pieceTokens before line ps).map .leaf

theorem flatten_leaves (before : List Lexeme) (line : Nat) (ps : List Piece) :
    flatten (leaves before line ps) = pieceTokens before line ps := by
  unfold leaves
  induction pieceTokens before line ps with
  | nil => rfl
  | cons t ts ih => rw [List.map_cons, flatten, ih, Tree.tokens, List.singleton_append]

theorem isBracket_of_head {x : Lexeme} (h : ∀ c ∈ x.text.head?, c ∉ brackets) :
    opensBracket x = false ∧ closesBracket x = false := by
  cases htext : x.text with
  | nil => simp [opensBracket, closesBracket, htext]
  | cons c cs =>
    have hc := h c (by simp [htext])
    simp only [brackets, List.mem_cons, List.not_mem_nil, or_false, not_or] at hc
    simp [opensBracket, closesBracket, htext, hc]

/-- A plain piece that is no bracket counts as none. -/
theorem isBracket_lexeme {p : Piece} (hp : p.IsPlain) (hb : p.isBracket = false) (line : Nat) :
    opensBracket (p.lexeme line) = false ∧ closesBracket (p.lexeme line) = false := by
  refine isBracket_of_head fun c hc => ?_
  cases p with
  | word w =>
    obtain ⟨d, ds, hw, hd, -⟩ := isPlainWord_cons hp
    obtain rfl : d = c := by simpa [Piece.lexeme, Piece.text, hw] using hc
    intro hbracket
    have : ∀ e ∈ brackets, isNameStart e = false := List.all_iff_forall_prop.mp (by decide)
    rw [this d hbracket] at hd
    cases hd
  | blank s => rcases hp.2 c (List.mem_of_mem_head? hc) with rfl | rfl <;> decide
  | comment s =>
    obtain rfl : '/' = c := Option.some.inj hc
    decide
  | pragma s =>
    obtain rfl : '#' = c := Option.some.inj hc
    decide
  | literal s =>
    obtain rfl : '"' = c := Option.some.inj hc
    decide
  | sign d =>
    obtain rfl : d = c := Option.some.inj hc
    simpa [Piece.isBracket] using hb

theorem Grows.leaf {t : Token} (ho : opensBracket t.lexeme = false)
    (hc : closesBracket t.lexeme = false) : Grows [.leaf t] := by
  intro pending done ts
  simp [flatten, Tree.tokens, grow, ho, hc]

theorem grows_leaves {ps : List Piece} (hp : ∀ p ∈ ps, p.IsPlain)
    (hb : ∀ p ∈ ps, p.isBracket = false) (before : List Lexeme) (line : Nat) :
    Grows (leaves before line ps) := by
  induction ps generalizing before line with
  | nil => exact .nil
  | cons p ps ih =>
    have ih := ih (fun q hq => hp q (List.mem_cons_of_mem p hq))
      (fun q hq => hb q (List.mem_cons_of_mem p hq))
    unfold leaves at ih ⊢
    rw [pieceTokens]
    split
    · have hlexeme := isBracket_lexeme (hp p List.mem_cons_self) (hb p List.mem_cons_self) line
      exact (Grows.leaf (t := ⟨before.reverse, p.lexeme line⟩) hlexeme.1 hlexeme.2).append (ih _ _)
    · exact ih _ _

/-- Trees that a row of pieces becomes at some place of a source. -/
structure Forms (before : List Lexeme) (line : Nat) (ps : List Piece) (us : List Tree) : Prop where
  grows : Grows us
  tokens : flatten us = pieceTokens before line ps

/-- A row of pieces becomes trees of which `Q` holds, wherever it stands. -/
def Becomes (Q : List Tree → Prop) (ps : List Piece) : Prop :=
  ∀ before line, ∃ us, Q us ∧ Forms before line ps us

section

variable {Q R : List Tree → Prop} {ps qs : List Piece}

theorem Becomes.imp (h : Becomes Q ps) (himp : ∀ us, Q us → R us) : Becomes R ps := by
  intro before line
  obtain ⟨us, hQ, hforms⟩ := h before line
  exact ⟨us, himp us hQ, hforms⟩

theorem Becomes.append (hp : Becomes Q ps) (hq : Becomes R qs) :
    Becomes (fun us => ∃ as bs, us = as ++ bs ∧ Q as ∧ R bs) (ps ++ qs) := by
  intro before line
  obtain ⟨before', line', hsplit⟩ := pieceTokens_append before line ps
  obtain ⟨as, hQ, ha⟩ := hp before line
  obtain ⟨bs, hR, hb⟩ := hq before' line'
  exact ⟨as ++ bs, ⟨as, bs, rfl, hQ, hR⟩, ha.grows.append hb.grows,
    by rw [flatten_append, ha.tokens, hb.tokens, hsplit]⟩

/-- Without brackets every token is a tree of its own. -/
theorem becomes_leaves (hp : ∀ p ∈ ps, p.IsPlain) (hb : ∀ p ∈ ps, p.isBracket = false) :
    Becomes (fun us => ∃ before line, us = leaves before line ps) ps := fun before line =>
  ⟨leaves before line ps, ⟨before, line, rfl⟩, grows_leaves hp hb before line, flatten_leaves ..⟩

/-- Pieces that are no code become no trees. -/
theorem becomes_nothing (h : ∀ p ∈ ps, p.isCode = false) : Becomes (· = []) ps := by
  refine fun before line => ⟨[], rfl, .nil, ?_⟩
  induction ps generalizing before line with
  | nil => rfl
  | cons p ps ih =>
    rw [pieceTokens, h p List.mem_cons_self, if_neg Bool.false_ne_true]
    exact ih (fun q hq => h q (List.mem_cons_of_mem p hq)) _ _

end

/-! ## Runs -/

theorem itemsOf_eq_map (ts : List Tree) : itemsOf ts = ts.map fun t => (t, t.members) := by
  induction ts with
  | nil => rfl
  | cons t ts ih => rw [itemsOf, ih, List.map_cons]

/-- What ends a run behind the trees `init`: a semicolon, or braces when no value has begun and none
follows. -/
def EndsRun (init : List Tree) (last : Tree) (rest : List Tree) : Prop :=
  last.isSign ";" = true ∨
    last.isGroup '{' = true ∧ (∀ t ∈ init, t.isSign "=" = false ∧ t.isSign "=>" = false) ∧
      ∀ t ∈ rest.head?, t.isSign "=" = false

theorem runsFrom_end {valued : Bool} (current : List Item) {init rest : List Tree} {last : Tree}
    (hinit : ∀ t ∈ init, t.isSign ";" = false ∧ t.isGroup '{' = false)
    (hlast : last.isSign ";" = true ∨ valued = false ∧ EndsRun init last rest) :
    runsFrom valued current (itemsOf (init ++ last :: rest)) =
      (current.reverse ++ itemsOf (init ++ [last])) :: runs (itemsOf rest) := by
  induction init generalizing valued current with
  | nil =>
    rw [List.nil_append, itemsOf, runsFrom, if_pos]
    · rw [List.reverse_cons]
      rfl
    · rcases hlast with h | ⟨rfl, h | ⟨hgroup, -, hrest⟩⟩
      · rw [h, Bool.true_or]
      · rw [h, Bool.true_or]
      · have hnext : (itemsOf rest).head?.any (fun next => next.1.isSign "=") = false := by
          cases rest with
          | nil => rfl
          | cons u us => simpa [itemsOf] using hrest u rfl
        rw [hgroup, hnext]
        simp
  | cons t init ih =>
    obtain ⟨hsemicolon, hgroup⟩ := hinit t List.mem_cons_self
    rw [List.cons_append, itemsOf, runsFrom, if_neg (by simp [hsemicolon, hgroup]),
      ih _ (fun u hu => hinit u (List.mem_cons_of_mem t hu)), List.reverse_cons, List.append_assoc]
    · rfl
    · rcases hlast with h | ⟨rfl, h | ⟨hbraces, hvalue, hrest⟩⟩
      · exact .inl h
      · exact .inl h
      · obtain ⟨hequals, harrow⟩ := hvalue t List.mem_cons_self
        refine .inr ⟨by simp [hequals, harrow], .inr ⟨hbraces, fun u hu => ?_, hrest⟩⟩
        exact hvalue u (List.mem_cons_of_mem t hu)

/-- A unit that begins with a whole run declares what the run does, and then the rest. -/
theorem readUnit_run {init rest : List Tree} {last : Tree}
    (hinit : ∀ t ∈ init, t.isSign ";" = false ∧ t.isGroup '{' = false)
    (hlast : EndsRun init last rest) :
    readUnit (init ++ last :: rest) =
      (readRun (itemsOf (init ++ [last]))).toList ++ readUnit rest := by
  unfold readUnit
  rw [runs, runsFrom_end [] hinit (.inr ⟨rfl, hlast⟩), List.reverse_nil, List.nil_append,
    List.filterMap_cons]
  cases readRun (itemsOf (init ++ [last])) <;> rfl

/-! ## Words and signs of a row -/

/-- A word as a tree. -/
def wordTree (before : List Lexeme) (line : Nat) (w : String) : Tree :=
  .leaf ⟨before, (Piece.word w).lexeme line⟩

/-- A sign as a tree. -/
def signTree (before : List Lexeme) (line : Nat) (c : Char) : Tree :=
  .leaf ⟨before, (Piece.sign c).lexeme line⟩

section

variable (before : List Lexeme) (line : Nat)

@[simp] theorem leaves_nil : leaves before line [] = [] := rfl

@[simp] theorem leaves_word (w : String) (ps : List Piece) : leaves before line (.word w :: ps) =
    wordTree before.reverse line w :: leaves [] (line + lineEnds w.toList) ps := rfl

@[simp] theorem leaves_sign (c : Char) (ps : List Piece) : leaves before line (.sign c :: ps) =
    signTree before.reverse line c :: leaves [] (line + lineEnds [c]) ps := rfl

@[simp] theorem leaves_blank (s : String) (ps : List Piece) : leaves before line (.blank s :: ps) =
    leaves ((Piece.blank s).lexeme line :: before) (line + lineEnds s.toList) ps := rfl

@[simp] theorem wordTree_word? (w : String) : (wordTree before line w).word? = some w := by
  simp [wordTree, Tree.word?, Token.word?, Token.text, Piece.lexeme, Piece.kind, Piece.text]

@[simp] theorem wordTree_isWord (w v : String) :
    (wordTree before line w).isWord v = decide (w = v) := by
  simp [Tree.isWord]

@[simp] theorem wordTree_isSign (w sign : String) :
    (wordTree before line w).isSign sign = false := rfl

@[simp] theorem wordTree_isGroup (w : String) (c : Char) :
    (wordTree before line w).isGroup c = false := rfl

@[simp] theorem signTree_word? (c : Char) : (signTree before line c).word? = none := rfl

@[simp] theorem signTree_isSign (c : Char) (sign : String) :
    (signTree before line c).isSign sign = decide (String.ofList [c] = sign) := rfl

@[simp] theorem signTree_isGroup (c d : Char) : (signTree before line c).isGroup d = false := rfl

end

/-- The trees of a row that goes on are those of both parts. -/
theorem leaves_append (before : List Lexeme) (line : Nat) (ps : List Piece) :
    ∃ before' line', ∀ qs,
      leaves before line (ps ++ qs) = leaves before line ps ++ leaves before' line' qs := by
  obtain ⟨before', line', h⟩ := pieceTokens_append before line ps
  exact ⟨before', line', fun qs => by rw [leaves, h, List.map_append]; rfl⟩

/-- A tree of a row is one of its pieces of code. -/
theorem mem_leaves {t : Tree} {before : List Lexeme} {line : Nat} {ps : List Piece}
    (h : t ∈ leaves before line ps) :
    ∃ p ∈ ps, p.isCode = true ∧ ∃ before' line', t = .leaf ⟨before', p.lexeme line'⟩ := by
  induction ps generalizing before line with
  | nil => cases h
  | cons p ps ih =>
    unfold leaves at h ih
    rw [pieceTokens] at h
    split at h
    · rename_i hp
      rcases List.mem_cons.mp h with rfl | h
      · exact ⟨p, List.mem_cons_self, hp, _, _, rfl⟩
      · obtain ⟨q, hq, hrest⟩ := ih h
        exact ⟨q, List.mem_cons_of_mem p hq, hrest⟩
    · obtain ⟨q, hq, hrest⟩ := ih h
      exact ⟨q, List.mem_cons_of_mem p hq, hrest⟩

/-! ## Joined words -/

/-- Words with the pieces `between` between them. -/
def joinedPieces (between : List Piece) : List String → List Piece
  | [] => []
  | [w] => [.word w]
  | w :: ws => .word w :: (between ++ joinedPieces between ws)

section

variable {between : List Piece} {words : List String}

theorem piecesText_joined (between : List Piece) (words : List String) :
    piecesText (joinedPieces between words) =
      ((String.ofList (piecesText between)).intercalate words).toList := by
  induction words using joinedPieces.induct with
  | case1 => rfl
  | case2 w => simp [joinedPieces, Piece.text, String.intercalate_singleton]
  | case3 w ws hws ih =>
    obtain ⟨v, vs, rfl⟩ := List.exists_cons_of_ne_nil hws
    rw [String.intercalate_cons_cons, String.toList_append, String.toList_append, ← ih]
    simp [joinedPieces, Piece.text]

theorem mem_joined {p : Piece} (h : p ∈ joinedPieces between words) :
    p ∈ between ∨ ∃ w ∈ words, p = .word w := by
  induction words using joinedPieces.induct with
  | case1 => cases h
  | case2 w => exact .inr ⟨w, List.mem_cons_self, List.mem_singleton.mp h⟩
  | case3 w ws hws ih =>
    rw [joinedPieces.eq_3 _ _ _ hws] at h
    rcases List.mem_cons.mp h with rfl | h
    · exact .inr ⟨w, List.mem_cons_self, rfl⟩
    · rcases List.mem_append.mp h with h | h
      · exact .inl h
      · exact (ih h).imp_right fun ⟨v, hv, hp⟩ => ⟨v, List.mem_cons_of_mem w hv, hp⟩

theorem head?_joined (between : List Piece) (w : String) (ws : List String) :
    (joinedPieces between (w :: ws)).head? = some (.word w) := by
  cases ws <;> rfl

theorem joined_ne_nil (between : List Piece) (w : String) (ws : List String) :
    joinedPieces between (w :: ws) ≠ [] := by
  intro hnil
  have := head?_joined between w ws
  rw [hnil] at this
  cases this

theorem getLast?_joined {p : Piece} (h : p ∈ (joinedPieces between words).getLast?) :
    ∃ w, p = .word w := by
  induction words using joinedPieces.induct with
  | case1 => cases h
  | case2 w => exact ⟨w, (Option.some.inj h).symm⟩
  | case3 w ws hws ih =>
    obtain ⟨v, vs, rfl⟩ := List.exists_cons_of_ne_nil hws
    rw [joinedPieces.eq_3 _ _ _ hws, ← List.cons_append,
      List.getLast?_append_of_ne_nil _ (joined_ne_nil between v vs)] at h
    exact ih h

/-- Joined words are readable when two of them are. -/
theorem isReadable_joined (hbetween : ∀ w v, isPlainWord w = true → isPlainWord v = true →
      IsReadable (.word w :: (between ++ [.word v])))
    (h : ∀ w ∈ words, isPlainWord w = true) : IsReadable (joinedPieces between words) := by
  induction words using joinedPieces.induct with
  | case1 => exact isReadable_nil
  | case2 w => exact isReadable_singleton.mpr (h w List.mem_cons_self)
  | case3 w ws hws ih =>
    obtain ⟨v, vs, rfl⟩ := List.exists_cons_of_ne_nil hws
    have hpair := hbetween w v (h w List.mem_cons_self)
      (h v (List.mem_cons_of_mem w List.mem_cons_self))
    rw [← List.cons_append, isReadable_append] at hpair
    obtain ⟨hlead, -, hmeets⟩ := hpair
    rw [joinedPieces.eq_3 _ _ _ hws, ← List.cons_append, isReadable_append]
    refine ⟨hlead, ih fun u hu => h u (List.mem_cons_of_mem w hu), fun p hp q hq => ?_⟩
    rw [head?_joined] at hq
    exact hmeets p hp q hq

/-- What follows joined words has nothing before it but what stands behind them. -/
theorem leaves_joined_append (before : List Lexeme) (line : Nat) (between : List Piece)
    {words : List String} (h : words ≠ []) :
    ∃ line', ∀ qs, leaves before line (joinedPieces between words ++ qs) =
      leaves before line (joinedPieces between words) ++ leaves [] line' qs := by
  induction words using joinedPieces.induct generalizing before line with
  | case1 => exact absurd rfl h
  | case2 w => exact ⟨_, fun qs => leaves_word ..⟩
  | case3 w ws hws ih =>
    obtain ⟨gap, line₁, hbetween⟩ := leaves_append [] (line + lineEnds w.toList) between
    obtain ⟨line', hline⟩ := ih gap line₁ hws
    refine ⟨line', fun qs => ?_⟩
    rw [joinedPieces.eq_3 _ _ _ hws, List.cons_append, leaves_word, leaves_word, List.append_assoc,
      hbetween, hbetween, hline, List.cons_append, List.append_assoc]

end

/-! ## Names -/

/-- Segments with dots between them. -/
abbrev namePieces : List String → List Piece := joinedPieces [.sign '.']

theorem isReadable_names {parts : List String} (h : ∀ w ∈ parts, isPlainWord w = true) :
    IsReadable (namePieces parts) :=
  isReadable_joined (fun w v hw hv => isReadable_cons_cons.mpr ⟨hw, rfl,
    isReadable_cons_cons.mpr ⟨by decide, rfl, isReadable_singleton.mpr hv⟩⟩) h

theorem mem_names {parts : List String} {p : Piece} (h : p ∈ namePieces parts) :
    p = .sign '.' ∨ ∃ w ∈ parts, p = .word w := by
  rcases mem_joined h with h | h
  · exact .inl (List.mem_singleton.mp h)
  · exact .inr h

theorem piecesText_names (parts : List String) :
    piecesText (namePieces parts) = (dotted parts).toList := piecesText_joined _ _

theorem isBlank_of_isNameChar {c : Char} (h : isNameChar c = true) : Text.isBlank c = false := by
  have := isGap_of_isNameChar h
  unfold isGap at this
  exact (Bool.or_eq_false_iff.mp this).1

/-- A name of plain words holds no blank. -/
theorem isBlank_names {parts : List String} (h : ∀ w ∈ parts, isPlainWord w = true) :
    ∀ c ∈ (dotted parts).toList, Text.isBlank c = false := by
  intro c hc
  rw [← piecesText_names, piecesText, List.mem_flatMap] at hc
  obtain ⟨p, hp, hc⟩ := hc
  rcases mem_names hp with rfl | ⟨w, hw, rfl⟩
  · obtain rfl := List.mem_singleton.mp hc
    decide
  · obtain ⟨d, ds, hlist, -, hchars⟩ := isPlainWord_cons (h w hw)
    rw [Piece.text, hlist] at hc
    exact isBlank_of_isNameChar (hchars c hc)

/-- The trees of a name: the first segment, and no sign but dots. -/
theorem leaves_names (before : List Lexeme) (line : Nat) (w : String) (ws : List String) :
    (∃ line' rest, leaves before line (namePieces (w :: ws)) =
      wordTree before.reverse line' w :: rest ∧ rest.head?.any (·.isSign "=") = false) ∧
      ∀ t ∈ leaves before line (namePieces (w :: ws)),
        t.isSign ";" = false ∧ t.isSign "=" = false ∧ t.isGroup '{' = false := by
  refine ⟨?_, fun t ht => ?_⟩
  · cases ws with
    | nil => exact ⟨_, _, rfl, rfl⟩
    | cons v ws =>
      refine ⟨_, _, leaves_word .., ?_⟩
      rw [List.singleton_append, leaves_sign, List.head?_cons, Option.any_some, signTree_isSign]
      decide
  · obtain ⟨p, hp, -, before', line', rfl⟩ := mem_leaves ht
    rcases mem_names hp with rfl | ⟨v, -, rfl⟩
    · exact ⟨(signTree_isSign ..).trans (by decide), (signTree_isSign ..).trans (by decide), rfl⟩
    · exact ⟨rfl, rfl, rfl⟩

theorem hasWordPair_cons {t : Tree} (h : t.word? = none) (ts : List Tree) :
    hasWordPair (t :: ts) = hasWordPair ts := by
  cases ts with
  | nil => rfl
  | cons u us => rw [hasWordPair, h, Option.isSome_none, Bool.false_and, Bool.false_or]

/-- No two segments of a name stand side by side. -/
theorem hasWordPair_names (before : List Lexeme) (line : Nat) (parts : List String) :
    hasWordPair (leaves before line (namePieces parts)) = false := by
  induction parts using joinedPieces.induct generalizing before line with
  | case1 => rfl
  | case2 w => rfl
  | case3 w ws hws ih =>
    rw [namePieces, joinedPieces.eq_3 _ _ _ hws, List.singleton_append, leaves_word, leaves_sign,
      hasWordPair, signTree_word?, Option.isSome_none, Bool.and_false, Bool.false_or,
      hasWordPair_cons (signTree_word? ..)]
    exact ih _ _

/-! ## Statements -/

/-- A word that says what a statement does, and the name that it is about. -/
def statementPieces (lead : String) (parts : List String) : List Piece :=
  .word lead :: .blank " " :: (namePieces parts ++ [.sign ';'])

theorem isReadable_statement {lead : String} (hlead : isPlainWord lead = true) {parts : List String}
    (hne : parts ≠ []) (h : ∀ w ∈ parts, isPlainWord w = true) :
    IsReadable (statementPieces lead parts) := by
  obtain ⟨w, ws, rfl⟩ := List.exists_cons_of_ne_nil hne
  rw [statementPieces, isReadable_cons_cons, isReadable_cons, isReadable_append]
  refine ⟨hlead, rfl, by decide, fun q hq => ?_, isReadable_names h,
    isReadable_singleton.mpr (by decide), fun p hp q hq => ?_⟩
  · rw [List.head?_append, head?_joined] at hq
    cases hq
    rfl
  · obtain ⟨v, rfl⟩ := getLast?_joined hp
    cases hq
    rfl

theorem statement_leaves (before : List Lexeme) (line : Nat) (lead : String) {parts : List String}
    (h : parts ≠ []) : ∃ gap line' line'', leaves before line (statementPieces lead parts) =
      wordTree before.reverse line lead ::
        (leaves gap line' (namePieces parts) ++ [signTree [] line'' ';']) := by
  let line' := line + lineEnds lead.toList
  obtain ⟨line'', hline⟩ :=
    leaves_joined_append [(Piece.blank " ").lexeme line']
    (line' + lineEnds " ".toList) [.sign '.'] h
  refine ⟨[(Piece.blank " ").lexeme line'], line' + lineEnds " ".toList, line'', ?_⟩
  rw [statementPieces, leaves_word, leaves_blank, hline]
  rfl

theorem piecesText_statement (lead : String) (parts : List String) :
    piecesText (statementPieces lead parts) = (lead ++ " " ++ (dotted parts ++ ";")).toList := by
  simp [statementPieces, Piece.text, piecesText_names]

/-- The source text of a statement is its text. -/
theorem treesText_statement (before : List Lexeme) (line : Nat) (lead : String)
    (parts : List String) : treesText (leaves before line (statementPieces lead parts)) =
      lead ++ " " ++ (dotted parts ++ ";") := by
  have hlast : ∀ q ∈ (.blank " " :: (namePieces parts ++ [.sign ';'])).getLast?,
      q.isCode = true := by
    intro q hq
    rw [← List.cons_append, List.getLast?_concat] at hq
    cases hq
    rfl
  rw [treesText, flatten_leaves, statementPieces, sourceText_pieces before line rfl hlast,
    ← statementPieces, piecesText_statement, String.ofList_toList]

/-- A plain statement has no blanks to lose. -/
theorem collapse_statement {lead : String} (hlead : isPlainWord lead = true) {parts : List String}
    (h : ∀ w ∈ parts, isPlainWord w = true) :
    Text.collapse (lead ++ " " ++ (dotted parts ++ ";")) =
      lead ++ " " ++ (dotted parts ++ ";") := by
  obtain ⟨d, ds, hletters, -, hchars⟩ := isPlainWord_cons hlead
  refine Text.collapse_pair ?_ (fun hnil => ?_) (fun c hc => ?_) fun c hc => ?_
  · rintro rfl
    cases hletters
  · have := congrArg String.toList hnil
    simp at this
  · rw [hletters] at hc
    exact isBlank_of_isNameChar (hchars c hc)
  · rw [String.toList_append] at hc
    rcases List.mem_append.mp hc with hc | hc
    · exact isBlank_names h c hc
    · obtain rfl : c = ';' := by simpa using hc
      decide

/-- The source text of a name is the name. -/
theorem treesText_names (before : List Lexeme) (line : Nat) (parts : List String) :
    treesText (leaves before line (namePieces parts)) = dotted parts := by
  have hcode : ∀ p ∈ namePieces parts, p.isCode = true := by
    intro p hp
    rcases mem_names hp with rfl | ⟨w, -, rfl⟩ <;> rfl
  rw [treesText, flatten_leaves]
  cases hpieces : namePieces parts with
  | nil =>
    have hnil := piecesText_names parts
    rw [hpieces] at hnil
    exact (String.toList_eq_nil_iff.mp hnil.symm).symm
  | cons p ps =>
    rw [hpieces] at hcode
    rw [sourceText_pieces before line (hcode p List.mem_cons_self)
      (fun q hq => hcode q (List.mem_cons_of_mem p (List.mem_of_mem_getLast? hq))), ← hpieces,
      piecesText_names, String.ofList_toList]

/-- An import directive for a namespace. -/
def importOf (scope target : String) : ImportDirective :=
  { text := "using " ++ target ++ ";", target := target, scope := scope }

theorem isAnyWord_of_not_mem {t : Tree} {w : String} {words : List String} (ht : t.word? = some w)
    (h : w ∉ words) : t.isAnyWord words = false := by
  unfold Tree.isAnyWord
  rw [ht, Option.any_some, List.contains_eq_mem]
  exact decide_eq_false h

/-- A name is what an import directive names. -/
theorem readTarget_names (before : List Lexeme) (line : Nat) (w : String) (ws : List String) :
    readTarget false (leaves before line (namePieces (w :: ws))) =
      some (.names, "", leaves before line (namePieces (w :: ws))) := by
  obtain ⟨⟨line', rest, hhead, hnext⟩, hsigns⟩ := leaves_names before line w ws
  have hpair := hasWordPair_names before line (w :: ws)
  have hequals : (leaves before line (namePieces (w :: ws))).any (·.isSign "=") = false :=
    List.any_eq_false.mpr fun t ht => by simp [(hsigns t ht).2.1]
  rw [hhead] at hpair hequals ⊢
  unfold readTarget
  simp only [hnext, hequals, hpair, wordTree_word?]
  rfl

/-- **A plain import directive is read as it is written.** -/
theorem readImport_plain {parts : List String} (hne : parts ≠ [])
    (h : ∀ w ∈ parts, isPlainName w = true) (before : List Lexeme) (line : Nat) :
    readImport (leaves before line (statementPieces "using" parts)) =
      some (importOf "" (dotted parts)) := by
  obtain ⟨w, ws, rfl⟩ := List.exists_cons_of_ne_nil hne
  have hblank := isBlank_names fun v hv => isPlainWord_of_isPlainName (h v hv)
  have htext := treesText_statement before line "using" (w :: ws)
  obtain ⟨gap, line', line'', hleaves⟩ := statement_leaves before line "using" hne
  obtain ⟨⟨line₁, rest, hhead, -⟩, hsigns⟩ := leaves_names gap line' w ws
  have hname := treesText_names gap line' (w :: ws)
  have htarget := readTarget_names gap line' w ws
  generalize leaves gap line' (namePieces (w :: ws)) = name at *
  have hleads : (name ++ [signTree [] line'' ';']).takeWhile (·.isAnyWord ["static", "unsafe"]) =
      [] := by
    have hreserved : ∀ v ∈ ["static", "unsafe"], v ∈ reservedWords := by decide
    have hlead : (wordTree gap.reverse line₁ w).isAnyWord ["static", "unsafe"] = false :=
      isAnyWord_of_not_mem (wordTree_word? ..) fun hw =>
        (isPlainName_iff.mp (h w List.mem_cons_self)).2.1 (hreserved w hw)
    rw [hhead, List.cons_append, List.takeWhile_cons_of_neg (by simp [hlead])]
  have hbody : (name ++ [signTree [] line'' ';']).takeWhile (fun t => !t.isSign ";") = name :=
    takeWhile_ends (fun t ht => by simp [(hsigns t ht).1]) (by simp)
  have hlate : (name ++ [signTree [] line'' ';']).drop name.length = [signTree [] line'' ';'] :=
    List.drop_left
  have hcollapse : Text.collapse ("using" ++ " " ++ (dotted (w :: ws) ++ ";")) =
      "using" ++ " " ++ (dotted (w :: ws) ++ ";") :=
    collapse_statement (by decide) fun v hv => isPlainWord_of_isPlainName (h v hv)
  have hglobal : decide ("using" = "global") = false := by decide
  rw [hleaves] at htext ⊢
  simp only [readImport, List.head?_cons, Option.any_some, wordTree_isWord, hglobal,
    Bool.false_eq_true, if_false, List.drop_succ_cons, List.drop_zero, hleads,
    List.length_nil, hbody, Nat.add_comm 1, hlate, List.any_nil, htarget, htext, hcollapse]
  show some ({ text := _, target := Text.squeeze (treesText name) } : ImportDirective) = _
  have hspace : "using" ++ " " = "using " := by decide
  rw [hname, Text.squeeze_of_none hblank, importOf, hspace, String.append_assoc]

/-- A plain statement that opens a namespace is read as its name. -/
theorem readNamespace_plain {parts : List String} (hne : parts ≠ [])
    (h : ∀ w ∈ parts, isPlainWord w = true) (before : List Lexeme) (line : Nat) :
    readNamespace (leaves before line (statementPieces "namespace" parts)) =
      some (dotted parts) := by
  obtain ⟨w, ws, rfl⟩ := List.exists_cons_of_ne_nil hne
  obtain ⟨gap, line', line'', hleaves⟩ := statement_leaves before line "namespace" hne
  obtain ⟨-, hsigns⟩ := leaves_names gap line' w ws
  have hname := treesText_names gap line' (w :: ws)
  generalize leaves gap line' (namePieces (w :: ws)) = name at *
  have hbody : (name ++ [signTree [] line'' ';']).takeWhile
      (fun t => !(t.isGroup '{' || t.isSign ";")) = name :=
    takeWhile_ends (fun t ht => by simp [hsigns t ht]) (by simp)
  rw [hleaves, readNamespace, wordTree_isWord, if_pos (by decide)]
  rw [hbody, hname, Text.squeeze_of_none (isBlank_names h)]

/-! ## Runs of plain trees -/

/-- A run that begins with no attributes is read by how it begins. -/
theorem readRun_plain {t : Tree} (h : t.isGroup '[' = false) (ts : List Tree) :
    readRun (itemsOf (t :: ts)) =
      match readImport (t :: ts), readNamespace (t :: ts),
        readType (takeModifiers (t :: ts)).1 t.first.line (takeModifiers (t :: ts)).2 with
      | some directive, _, _ => some (.importing directive)
      | none, some name, _ =>
        match runBody (itemsOf (t :: ts)) with
        | some members => some (.block name members)
        | none => some (.fileScoped name)
      | none, none, some head => some (.type head ((runBody (itemsOf (t :: ts))).getD []))
      | none, none, none =>
        (readField [] t.first.line (takeModifiers (t :: ts)).2).map .field := by
  have hglobal : isGlobalList t = false := by rw [isGlobalList, h, Bool.false_and]
  have hrow : (t :: ts).dropWhile isGlobalList = t :: ts :=
    List.dropWhile_cons_of_neg (by simp [hglobal])
  have hlists : (t :: ts).takeWhile (·.isGroup '[') = [] :=
    List.takeWhile_cons_of_neg (by simp [h])
  simp only [readRun, itemsOf_map, hrow, hlists]
  rfl

/-- Trees that are read as members whatever follows them, except a value. -/
structure ReadAs (us : List Tree) (ms : List Member) : Prop where
  head : ∀ t ∈ us.head?, t.isSign "=" = false
  read : ∀ vs, (∀ t ∈ vs.head?, t.isSign "=" = false) → readUnit (us ++ vs) = ms ++ readUnit vs

theorem ReadAs.nil : ReadAs [] [] := ⟨(fun _ h => nomatch h), fun _ _ => rfl⟩

theorem ReadAs.append {us vs : List Tree} {ms ns : List Member} (hu : ReadAs us ms)
    (hv : ReadAs vs ns) : ReadAs (us ++ vs) (ms ++ ns) := by
  refine ⟨?_, fun ws hws => ?_⟩
  · cases us with
    | nil => exact hv.head
    | cons u us => exact hu.head
  · rw [List.append_assoc, hu.read _ ?_, hv.read ws hws, List.append_assoc]
    cases vs with
    | nil => exact hws
    | cons v vs => exact hv.head

/-- A whole run is read as the member that it declares, if any. -/
theorem ReadAs.run {init : List Tree} {last : Tree} {m : Option Member}
    (hhead : ∀ t ∈ (init ++ [last]).head?, t.isSign "=" = false)
    (hinit : ∀ t ∈ init, t.isSign ";" = false ∧ t.isGroup '{' = false)
    (hlast : ∀ vs, (∀ t ∈ vs.head?, t.isSign "=" = false) → EndsRun init last vs)
    (hread : readRun (itemsOf (init ++ [last])) = m) : ReadAs (init ++ [last]) m.toList := by
  refine ⟨hhead, fun vs hvs => ?_⟩
  rw [List.append_assoc, List.singleton_append, readUnit_run hinit (hlast vs hvs), hread]

/-- A row of pieces declares members wherever it stands. -/
abbrev Declares (ps : List Piece) (ms : List Member) : Prop := Becomes (ReadAs · ms) ps

/-- Rows declare what their parts do, from left to right. -/
theorem Declares.append {ps qs : List Piece} {ms ns : List Member} (hp : Declares ps ms)
    (hq : Declares qs ns) : Declares (ps ++ qs) (ms ++ ns) :=
  (Becomes.append hp hq).imp fun _ ⟨_, _, h, hread, hread'⟩ => h ▸ hread.append hread'

/-- Pieces that are no code declare nothing. -/
theorem declares_gaps {ps : List Piece} (h : ∀ p ∈ ps, p.isCode = false) : Declares ps [] :=
  (becomes_nothing h).imp fun _ hnil => hnil ▸ .nil

/-- A statement declares the member that its run is read as. -/
theorem declares_statement {lead : String} (hlead : isPlainWord lead = true) {parts : List String}
    (hne : parts ≠ []) (h : ∀ w ∈ parts, isPlainWord w = true) {m : Member}
    (hread : ∀ before line,
      readRun (itemsOf (leaves before line (statementPieces lead parts))) = some m) :
    Declares (statementPieces lead parts) [m] := by
  obtain ⟨w, ws, rfl⟩ := List.exists_cons_of_ne_nil hne
  have hpieces : ∀ p ∈ statementPieces lead (w :: ws), p.IsPlain ∧ p.isBracket = false := by
    refine fun p hp => ⟨(isReadable_statement hlead hne h).plain p hp, ?_⟩
    simp only [statementPieces, List.mem_cons, List.mem_append, List.not_mem_nil, or_false] at hp
    rcases hp with rfl | rfl | hp | rfl
    · rfl
    · rfl
    · rcases mem_names hp with rfl | ⟨v, -, rfl⟩ <;> rfl
    · rfl
  refine (becomes_leaves (fun p hp => (hpieces p hp).1) (fun p hp => (hpieces p hp).2)).imp ?_
  rintro _ ⟨before, line, rfl⟩
  obtain ⟨gap, line', line'', hleaves⟩ := statement_leaves before line lead hne
  obtain ⟨-, hsigns⟩ := leaves_names gap line' w ws
  have hrun := hread before line
  rw [hleaves, ← List.cons_append] at hrun ⊢
  refine ReadAs.run (by simp) (fun t ht => ?_) (fun _ _ => .inl (by simp)) hrun
  rcases List.mem_cons.mp ht with rfl | ht
  · exact ⟨rfl, rfl⟩
  · exact ⟨(hsigns t ht).1, (hsigns t ht).2.2⟩

/-- **A plain import directive declares an import.** -/
theorem declares_import {parts : List String} (hne : parts ≠ [])
    (h : ∀ w ∈ parts, isPlainName w = true) :
    Declares (statementPieces "using" parts) [.importing (importOf "" (dotted parts))] := by
  refine declares_statement (by decide) hne (fun w hw => isPlainWord_of_isPlainName (h w hw))
    fun before line => ?_
  obtain ⟨gap, line', line'', hleaves⟩ := statement_leaves before line "using" hne
  have hread := readImport_plain hne h before line
  rw [hleaves] at hread ⊢
  rw [readRun_plain (wordTree_isGroup ..), hread]

/-- A run whose first word is neither of an import directive's is none. -/
theorem readImport_eq_none {t : Tree} (hglobal : t.isWord "global" = false)
    (husing : t.isWord "using" = false) (ts : List Tree) : readImport (t :: ts) = none := by
  simp only [readImport, List.head?_cons, Option.any_some, hglobal, husing, Bool.false_eq_true,
    if_false]
  rfl

theorem find?_braces {ts : List Tree} (h : ∀ t ∈ ts, t.isGroup '{' = false) :
    (itemsOf ts).find? (fun i => i.1.isGroup '{') = none := by
  rw [itemsOf_eq_map, List.find?_eq_none]
  intro i hi
  obtain ⟨t, ht, rfl⟩ := List.mem_map.mp hi
  simp [h t ht]

/-- Without braces a run has no body. -/
theorem runBody_eq_none {ts : List Tree} (h : ∀ t ∈ ts, t.isGroup '{' = false) :
    runBody (itemsOf ts) = none := by
  rw [runBody, find?_braces h, Option.map_none]

/-- Braces behind a row without any are its body. -/
theorem runBody_concat {init : List Tree} {last : Tree} (hinit : ∀ t ∈ init, t.isGroup '{' = false)
    (hlast : last.isGroup '{' = true) : runBody (itemsOf (init ++ [last])) = some last.members := by
  have hfind := find?_braces hinit
  rw [itemsOf_eq_map] at hfind
  rw [runBody, itemsOf_eq_map, List.map_append, List.find?_append, hfind]
  simp [hlast]

/-- **A plain statement for a namespace opens it for the rest of the file.** -/
theorem declares_namespace {parts : List String} (hne : parts ≠ [])
    (h : ∀ w ∈ parts, isPlainWord w = true) :
    Declares (statementPieces "namespace" parts) [.fileScoped (dotted parts)] := by
  refine declares_statement (by decide) hne h fun before line => ?_
  obtain ⟨w, ws, rfl⟩ := List.exists_cons_of_ne_nil hne
  obtain ⟨gap, line', line'', hleaves⟩ := statement_leaves before line "namespace" hne
  obtain ⟨-, hsigns⟩ := leaves_names gap line' w ws
  have hread := readNamespace_plain hne h before line
  have hbody : runBody (itemsOf (leaves before line (statementPieces "namespace" (w :: ws)))) =
      none := by
    rw [hleaves]
    refine runBody_eq_none fun t ht => ?_
    rcases List.mem_cons.mp ht with rfl | ht
    · rfl
    · rcases List.mem_append.mp ht with ht | ht
      · exact (hsigns t ht).2.2
      · rw [List.mem_singleton.mp ht]
        rfl
  rw [hleaves] at hread hbody ⊢
  rw [readRun_plain (wordTree_isGroup ..), readImport_eq_none (by simp) (by simp), hread, hbody]

end CSharp

end FieldWiring
