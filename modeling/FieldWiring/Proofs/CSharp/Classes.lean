import FieldWiring.Proofs.CSharp.Statements

/-!
# Reading plain classes

Brackets make one tree of what stands between them. A method becomes a run that declares nothing of
interest; a class becomes a run that declares itself, with what its body declares. `Spans` says of a
row that it is readable, has balanced brackets, and with which pieces it begins and ends: such rows
can be put side by side wherever these pieces meet.

Results:
* `Becomes.group`: brackets around a row become one tree around its trees.
* `declares_method`: a method declares nothing of interest.
* `readRun_class`: the head of a class is read as it is written.
* `spans_class`: a class is a row of its own.
* `becomes_class`: a class declares itself.
-/

namespace FieldWiring.CSharp

/-! ## Brackets -/

/-- The signs of a pair of brackets. -/
structure IsPair (o c : Char) : Prop where
  left : o ∈ Piece.signs
  right : c ∈ Piece.signs
  opens : ∀ line, opensBracket ((Piece.sign o).lexeme line) = true
  closes : ∀ line, closesBracket ((Piece.sign c).lexeme line) = true
  ends : ∀ line, opensBracket ((Piece.sign c).lexeme line) = false

theorem isPair_parentheses : IsPair '(' ')' :=
  ⟨by decide, by decide, fun _ => rfl, fun _ => rfl, fun _ => rfl⟩

theorem isPair_braces : IsPair '{' '}' :=
  ⟨by decide, by decide, fun _ => rfl, fun _ => rfl, fun _ => rfl⟩

/-- Brackets around a row become one tree around its trees. -/
theorem Becomes.group {o c : Char} (h : IsPair o c) {Q : List Tree → Prop} {ps : List Piece}
    (hps : Becomes Q ps) :
    Becomes (fun us => ∃ t, us = [t] ∧ t.isGroup o = true ∧ Q t.inner ∧
      t.members = readUnit t.inner)
      (.sign o :: (ps ++ [.sign c])) := by
  intro before line
  obtain ⟨us, hQ, hus⟩ := hps [] (line + lineEnds [o])
  obtain ⟨before', line', hsplit⟩ := pieceTokens_append [] (line + lineEnds [o]) ps
  refine ⟨_, ⟨.group ⟨before.reverse, (Piece.sign o).lexeme line⟩ us
    ⟨before'.reverse, (Piece.sign c).lexeme line'⟩, rfl, decide_eq_true rfl, hQ, ?_⟩,
    .group (h.opens line) (h.ends line') (h.closes line') hus.grows, ?_⟩
  · rw [Tree.members]
    rfl
  · simp only [flatten, Tree.tokens, List.append_nil, hus.tokens]
    show _ = _ :: pieceTokens [] (line + lineEnds [o]) (ps ++ [.sign c])
    rw [hsplit]
    rfl

/-- A row whose tokens make trees of their own: every bracket in it has its partner. -/
abbrev IsBalanced (ps : List Piece) : Prop := Becomes (fun _ => True) ps

theorem IsBalanced.append {ps qs : List Piece} (hp : IsBalanced ps) (hq : IsBalanced qs) :
    IsBalanced (ps ++ qs) := (Becomes.append hp hq).imp fun _ _ => trivial

theorem IsBalanced.group {o c : Char} (h : IsPair o c) {ps : List Piece} (hps : IsBalanced ps) :
    IsBalanced (.sign o :: (ps ++ [.sign c])) := (Becomes.group h hps).imp fun _ _ => trivial

/-! ## Rows from one piece to another -/

/-- A readable row with balanced brackets, from one piece to another. -/
structure Spans (ps : List Piece) (first last : Piece) : Prop where
  readable : IsReadable ps
  balanced : IsBalanced ps
  head : ps.head? = some first
  last : ps.getLast? = some last

section

variable {ps qs : List Piece} {a b c d p : Piece}

theorem Spans.ne_nil (h : Spans ps a b) : ps ≠ [] := by
  rintro rfl
  cases h.head

theorem spans_of_leaves (h : IsReadable ps) (hbracket : ∀ p ∈ ps, p.isBracket = false)
    (hhead : ps.head? = some a) (hlast : ps.getLast? = some b) : Spans ps a b :=
  ⟨h, (becomes_leaves h.plain hbracket).imp fun _ _ => trivial, hhead, hlast⟩

theorem spans_singleton (hp : p.IsPlain) (hb : p.isBracket = false) : Spans [p] p p :=
  spans_of_leaves (isReadable_singleton.mpr hp) (by simpa using hb) rfl rfl

theorem Spans.append (hp : Spans ps a b) (hq : Spans qs c d) (h : b.Meets c) :
    Spans (ps ++ qs) a d where
  readable := by
    refine isReadable_append.mpr ⟨hp.readable, hq.readable, ?_⟩
    rw [hp.last, hq.head]
    rintro _ ⟨⟩ _ ⟨⟩
    exact h
  balanced := hp.balanced.append hq.balanced
  head := by rw [List.head?_append, hp.head]; rfl
  last := by rw [List.getLast?_append, hq.last]; rfl

/-- A piece that is no bracket before a row. -/
theorem Spans.cons (hq : Spans qs c d) (hp : p.IsPlain) (hb : p.isBracket = false)
    (h : p.Meets c) : Spans (p :: qs) p d := (spans_singleton hp hb).append hq h

/-- Brackets around a row. -/
theorem Spans.group {x y : Char} (hpair : IsPair x y) (h : Spans ps a b)
    (hleft : (Piece.sign x).Meets a) (hright : b.Meets (.sign y)) :
    Spans (.sign x :: (ps ++ [.sign y])) (.sign x) (.sign y) where
  readable := by
    have hclose : IsReadable (ps ++ [.sign y]) := by
      refine isReadable_append.mpr ⟨h.readable, isReadable_singleton.mpr hpair.right, ?_⟩
      rw [h.last]
      rintro _ ⟨⟩ _ ⟨⟩
      exact hright
    refine isReadable_cons.mpr ⟨hpair.left, ?_, hclose⟩
    rw [List.head?_append, h.head]
    rintro _ ⟨⟩
    exact hleft
  balanced := .group hpair h.balanced
  head := rfl
  last := by rw [← List.cons_append, List.getLast?_concat]

/-- Parentheses around nothing. -/
theorem spans_call : Spans [.sign '(', .sign ')'] (.sign '(') (.sign ')') where
  readable := by decide
  balanced :=
    have hnone : ∀ p ∈ [], Piece.isCode p = false := fun _ h => nomatch h
    .group isPair_parentheses ((becomes_nothing hnone).imp fun _ _ => trivial)
  head := rfl
  last := rfl

end

/-! ## Methods -/

/-- What stands before the parameters of a public method that hides another and returns nothing. -/
def methodHead (name : String) : List Piece :=
  [.word "public", .blank " ", .word "new", .blank " ", .word "void", .blank " ", .word name]

/-- Such a method without parameters. -/
def methodPieces (name : String) (body : List Piece) : List Piece :=
  methodHead name ++ (.sign '(' :: ([] ++ [.sign ')'])) ++
    .blank "\n    " :: .sign '{' :: (body ++ [.sign '}'])

/-- Brackets are no words, no signs and no other brackets. -/
theorem isGroup_facts {t : Tree} {c : Char} (h : t.isGroup c = true) :
    t.word? = none ∧ (∀ sign, t.isSign sign = false) ∧ ∀ d, d ≠ c → t.isGroup d = false := by
  cases t with
  | leaf t => cases h
  | group o us c' =>
    refine ⟨rfl, fun _ => rfl, fun d hd => ?_⟩
    have hc : o.lexeme.text = [c] := of_decide_eq_true h
    refine decide_eq_false fun hd' => hd ?_
    rw [hc] at hd'
    exact (List.singleton_inj.mp hd').symm

/-- A word behind a word is no name of a field when it is reserved, or nothing ends it as a name. -/
theorem readField_words (markers : List Marker) (n : Nat) (before before' : List Lexeme)
    (line line' : Nat) {w v : String} {ts : List Tree}
    (hlead : isTypeLead w (wordTree before' line' v :: ts) = false) (hpointer : w ≠ "delegate")
    (hends : v ∈ reservedWords ∨ endsName ts = false) :
    readField markers n (wordTree before line w :: wordTree before' line' v :: ts) = none := by
  have hspan :
      typeSpan .start 0 (wordTree before line w :: wordTree before' line' v :: ts) = 1 := by
    simp [typeSpan, hlead, hpointer]
  unfold readField
  simp only [hspan, List.drop_succ_cons, List.drop_zero]
  rcases hends with hv | hends
  · have hname : (wordTree before' line' v).identifier? = none := by
      simp [Tree.identifier?, Option.filter, hv]
    rw [hname]
  · rw [hends]
    cases (wordTree before' line' v).identifier? <;> rfl

/-- A word at the beginning of a run modifies what follows. -/
theorem takeModifiers_modifier (before : List Lexeme) (line : Nat) {w : String} {ts : List Tree}
    (hw : w ∈ modifierWords)
    (hfile : w = "file" → readField [] 0 (wordTree before line w :: ts) = none) :
    takeModifiers (wordTree before line w :: ts) =
      (w :: (takeModifiers ts).1, (takeModifiers ts).2) := by
  have hfield : (decide (w = "file") && (readField [] 0 (wordTree before line w :: ts)).isSome) =
      false := by
    by_cases hname : w = "file"
    · rw [hfile hname, Option.isSome_none, Bool.and_false]
    · rw [decide_eq_false hname, Bool.false_and]
  rw [takeModifiers, wordTree_word?]
  simp only [hfield, Bool.false_eq_true, if_false, List.contains_eq_mem, decide_eq_true hw, if_true]

/-- Other words begin what is modified. -/
theorem takeModifiers_other (before : List Lexeme) (line : Nat) {w : String} (ts : List Tree)
    (hw : w ∉ "ref" :: modifierWords) :
    takeModifiers (wordTree before line w :: ts) = ([], wordTree before line w :: ts) := by
  rw [List.mem_cons, not_or] at hw
  obtain ⟨href, hmodifier⟩ := hw
  have hfile : w ≠ "file" := by
    rintro rfl
    exact hmodifier (by decide)
  rw [takeModifiers, wordTree_word?]
  simp [hmodifier, href, hfile]

/-- A run that begins like a method is no declaration of interest. -/
theorem readRun_method (before : List Lexeme) (line : Nat) (name : String) {parameters : Tree}
    (hparameters : parameters.isGroup '(' = true) (body : Tree) :
    readRun (itemsOf (leaves before line (methodHead name) ++ [parameters, body])) = none := by
  obtain ⟨-, hsign, hgroup⟩ := isGroup_facts hparameters
  have hends : endsName [parameters, body] = false := by
    simp [endsName, Tree.isAnySign, hsign, hgroup '[' (by decide)]
  simp only [methodHead, leaves_word, leaves_blank, leaves_nil, List.cons_append, List.nil_append]
  rw [readRun_plain (wordTree_isGroup ..), readImport_eq_none (by simp) (by simp),
    takeModifiers_modifier _ _ (by decide) (fun h => absurd h (by decide)),
    takeModifiers_modifier _ _ (by decide) (fun h => absurd h (by decide)),
    takeModifiers_other _ _ _ (by decide),
    readField_words _ _ _ _ _ _ (by simp [isTypeLead]) (by decide) (.inr hends)]
  simp [readNamespace, readType, takeKind]

/-- **A method declares nothing of interest.** -/
theorem declares_method {name : String} (hname : isPlainWord name = true) {body : List Piece}
    (hbody : IsBalanced body) : Declares (methodPieces name body) [] := by
  have hpieces : ∀ p ∈ methodHead name, p.IsPlain ∧ p.isBracket = false := by
    simp only [methodHead, List.forall_mem_cons]
    exact ⟨by decide, by decide, by decide, by decide, by decide, by decide, ⟨hname, rfl⟩,
      fun _ h => absurd h List.not_mem_nil⟩
  have hhead := becomes_leaves (fun p hp => (hpieces p hp).1) (fun p hp => (hpieces p hp).2)
  have hnone : ∀ p ∈ [], Piece.isCode p = false := fun _ h => nomatch h
  have hparameters := Becomes.group isPair_parentheses (becomes_nothing hnone)
  have hgap := becomes_nothing (show ∀ p ∈ [Piece.blank "\n    "], p.isCode = false by decide)
  have hbraces := Becomes.group isPair_braces hbody
  refine ((hhead.append hparameters).append (hgap.append hbraces)).imp ?_
  rintro _
    ⟨_, _, rfl, ⟨_, _, rfl, ⟨before, line, rfl⟩, t, rfl, ht, -⟩, _, _, rfl, rfl, u, rfl, hu, -⟩
  obtain ⟨-, hsign, hgroup⟩ := isGroup_facts ht
  have hrun := readRun_method before line name ht u
  rw [List.nil_append]
  rw [List.append_cons] at hrun
  refine ReadAs.run (by simp [methodHead]) ?_ (fun vs hvs => .inr ⟨hu, ?_, hvs⟩) hrun
  · simp [methodHead, hsign, hgroup '{' (by decide)]
  · simp [methodHead, hsign]

/-- A method is a row of its own. -/
theorem spans_method {name : String} (hname : isPlainWord name = true) {body : List Piece}
    {first last : Piece} (hbody : Spans body first last) (hfirst : (Piece.sign '{').Meets first)
    (hlast : last.Meets (.sign '}')) :
    Spans (methodPieces name body) (.word "public") (.sign '}') := by
  have hlead : Spans [.word "public", .blank " ", .word "new", .blank " ", .word "void", .blank " "]
      (.word "public") (.blank " ") := spans_of_leaves (by decide) (by decide) rfl rfl
  have hhead : Spans (methodHead name) (.word "public") (.word name) :=
    hlead.append (spans_singleton hname rfl) rfl
  have hbraces := hbody.group isPair_braces hfirst hlast
  exact (hhead.append spans_call rfl).append (hbraces.cons (by decide) rfl rfl) rfl

/-! ## Heads of classes -/

/-- Words that modify what follows. -/
def modifierPieces (modifiers : List String) : List Piece :=
  modifiers.flatMap fun m => [.word m, .blank " "]

/-- Names with commas between them. -/
abbrev listPieces : List String → List Piece := joinedPieces [.sign ',', .blank " "]

/-- Type parameters in angle brackets, if there are any. -/
def parameterPieces (names : List String) : List Piece :=
  if names = [] then [] else .sign '<' :: (listPieces names ++ [.sign '>'])

/-- What stands before the body of a class with one base type. -/
def classHead (modifiers : List String) (name : String) (parameters : List String) (base : String) :
    List Piece :=
  modifierPieces modifiers ++ .word "class" :: .blank " " :: .word name ::
    (parameterPieces parameters ++ [.blank " ", .sign ':', .blank " ", .word base])

/-- A class with one base type. -/
def classPieces (modifiers : List String) (name : String) (parameters : List String) (base : String)
    (body : List Piece) : List Piece :=
  classHead modifiers name parameters base ++
    ([.blank "\n"] ++ .sign '{' :: (body ++ [.sign '}']))

/-- A class begins with a word: its first modifier, or the word for its kind. -/
theorem leaves_modifiers (before : List Lexeme) (line : Nat) (modifiers : List String)
    (ps : List Piece) : ∃ w ∈ "class" :: modifiers, ∃ before' line' ts,
      leaves before line (modifierPieces modifiers ++ .word "class" :: ps) =
        wordTree before' line' w :: ts := by
  cases modifiers with
  | nil => exact ⟨"class", List.mem_cons_self, _, _, _, rfl⟩
  | cons m ms => exact ⟨m, List.mem_cons_of_mem _ List.mem_cons_self, _, _, _, rfl⟩

theorem endsName_word (before : List Lexeme) (line : Nat) (w : String) (ts : List Tree) :
    endsName (wordTree before line w :: ts) = false := by
  simp [endsName, Tree.isAnySign]

/-- Modifiers before a class are taken as they stand. -/
theorem takeModifiers_class (before : List Lexeme) (line : Nat) {modifiers : List String}
    (h : ∀ m ∈ modifiers, m ∈ modifierWords) (ps : List Piece) (vs : List Tree) :
    ∃ before' line',
      takeModifiers (leaves before line (modifierPieces modifiers ++ .word "class" :: ps) ++ vs) =
        (modifiers, leaves before' line' (.word "class" :: ps) ++ vs) := by
  induction modifiers generalizing before line with
  | nil =>
    refine ⟨before, line, ?_⟩
    rw [modifierPieces, List.flatMap_nil, List.nil_append, leaves_word, List.cons_append,
      takeModifiers_other _ _ _ (by decide)]
  | cons m ms ih =>
    have hms : ∀ m' ∈ ms, m' ∈ modifierWords := fun m' hm' => h m' (List.mem_cons_of_mem m hm')
    obtain ⟨before', line', hrest⟩ := ih [(Piece.blank " ").lexeme (line + lineEnds m.toList)]
      (line + lineEnds m.toList + lineEnds " ".toList) hms
    refine ⟨before', line', ?_⟩
    have hcons : modifierPieces (m :: ms) ++ .word "class" :: ps =
        .word m :: .blank " " :: (modifierPieces ms ++ .word "class" :: ps) := rfl
    rw [hcons, leaves_word, leaves_blank, List.cons_append,
      takeModifiers_modifier _ _ (h m List.mem_cons_self) ?_, hrest]
    rintro rfl
    -- the word that hides a class from other files is no type: no name of a field follows it
    cases ms with
    | nil => exact readField_words _ _ _ _ _ _ (by simp [isTypeLead]) (by decide) (.inl (by decide))
    | cons m' ms =>
      refine readField_words _ _ _ _ _ _ (by simp [isTypeLead]) (by decide) (.inr ?_)
      obtain ⟨w, -, b, l, ts, hts⟩ := leaves_modifiers
        [(Piece.blank " ").lexeme _] (_ + lineEnds m'.toList + lineEnds " ".toList) ms ps
      exact (congrArg (fun us => endsName (us ++ vs)) hts).trans (endsName_word ..)

/-- Type parameters are taken as they stand. -/
theorem splitTypes_list (before : List Lexeme) (line : Nat) {names : List String} (h : names ≠ []) :
    (nonEmpty (splitTypes 0 [] (leaves before line (listPieces names)))).filterMap parameterName =
      names := by
  induction names using joinedPieces.induct generalizing before line with
  | case1 => exact absurd rfl h
  | case2 w => simp [joinedPieces, splitTypes, nonEmpty, parameterName]
  | case3 w ws hws ih =>
    have hcons : listPieces (w :: ws) = .word w :: .sign ',' :: .blank " " :: listPieces ws :=
      joinedPieces.eq_3 _ _ _ hws
    have ih := ih [(Piece.blank " ").lexeme (line + lineEnds w.toList + lineEnds [','])]
      (line + lineEnds w.toList + lineEnds [','] + lineEnds " ".toList) hws
    rw [hcons, leaves_word, leaves_sign, leaves_blank]
    simp [splitTypes, nonEmpty, parameterName] at ih ⊢
    exact ih

/-- The trees of a list of names hold no sign but commas. -/
theorem leaves_list_isSign {before : List Lexeme} {line : Nat} {names : List String} {t : Tree}
    (ht : t ∈ leaves before line (listPieces names)) : t.isSign ">" = false := by
  obtain ⟨p, hp, hcode, b, l, rfl⟩ := mem_leaves ht
  rcases mem_joined hp with hp | ⟨w, -, rfl⟩
  · rcases List.mem_pair.mp hp with rfl | rfl
    · exact (signTree_isSign ..).trans (by decide)
    · cases hcode
  · rfl

/-- Type parameters are taken as they stand, up to the colon. -/
theorem takeParameters_class (before : List Lexeme) (line : Nat) (names : List String)
    (ps : List Piece) (vs : List Tree) : ∃ before' line',
      takeParameters
          (leaves before line (parameterPieces names ++ .blank " " :: .sign ':' :: ps) ++ vs) =
        (names, signTree before' line' ':' :: (leaves [] (line' + lineEnds [':']) ps ++ vs)) := by
  unfold parameterPieces
  by_cases hnames : names = []
  · subst hnames
    refine ⟨((Piece.blank " ").lexeme line :: before).reverse, line + lineEnds " ".toList, ?_⟩
    rw [if_pos rfl, List.nil_append, leaves_blank, leaves_sign, List.cons_append, takeParameters,
      signTree_isSign, if_neg (by decide)]
  · obtain ⟨line', hlist⟩ := leaves_joined_append [] (line + lineEnds ['<'])
      [.sign ',', .blank " "] hnames
    have hsplit := splitTypes_list [] (line + lineEnds ['<']) hnames
    have htake (ts : List Tree) : (leaves [] (line + lineEnds ['<']) (listPieces names) ++
        signTree [] line' '>' :: ts).takeWhile (!·.isSign ">") =
          leaves [] (line + lineEnds ['<']) (listPieces names) :=
      takeWhile_ends (fun t ht => by simp [leaves_list_isSign ht]) (by simp)
    refine ⟨[(Piece.blank " ").lexeme (line' + lineEnds ['>'])],
      line' + lineEnds ['>'] + lineEnds " ".toList, ?_⟩
    rw [if_neg hnames, List.cons_append, List.append_assoc, List.singleton_append, leaves_sign,
      hlist, leaves_sign, leaves_blank, leaves_sign]
    generalize leaves [] (line + lineEnds ['<']) (listPieces names) = list at *
    rw [List.cons_append, List.append_assoc, List.cons_append, List.cons_append, takeParameters,
      signTree_isSign, if_pos (by decide), List.reverse_nil]
    have hdrop (t : Tree) (ts : List Tree) : (list ++ t :: ts).drop (list.length + 1) = ts := by
      rw [List.append_cons]
      exact List.drop_left' (by simp)
    simp only [htake, hsplit, hdrop]
    rfl

/-- The source text of a word is the word. -/
theorem treesText_word (before : List Lexeme) (line : Nat) (w : String) :
    treesText [wordTree before line w] = w := by
  simp [treesText, flatten, Tree.tokens, wordTree, sourceText, Piece.lexeme, Piece.text]

/-- The only base type of a class is read as it stands. -/
theorem readBases_class (before : List Lexeme) (line line' line'' : Nat)
    (base : String) {body : Tree}
    (hbody : body.isGroup '{' = true) :
    readBases [signTree before line ':',
      wordTree [(Piece.blank " ").lexeme line'] line'' base, body] = [⟨base⟩] := by
  have hlist : baseList [wordTree [(Piece.blank " ").lexeme line'] line'' base, body] =
      [wordTree [(Piece.blank " ").lexeme line'] line'' base] := by
    simp [baseList, beginsConstraint, hbody]
  have hdirectives : (wordTree [(Piece.blank " ").lexeme line'] line'' base).directives = [] := rfl
  rw [readBases, List.dropWhile_cons_of_neg (by simp)]
  simp only [signTree_isSign, hlist, baseTexts, hdirectives, nonEmpty]
  simp [treesText_word]

/-- The head of a class is read as it stands. -/
theorem readType_class (before : List Lexeme) (line n : Nat) (modifiers parameters : List String)
    (name base : String) {body : Tree} (hbody : body.isGroup '{' = true) :
    readType modifiers n (leaves before line (.word "class" :: .blank " " :: .word name ::
        (parameterPieces parameters ++ [.blank " ", .sign ':', .blank " ", .word base])) ++
          [body]) =
      some ⟨.classType, name, modifiers, parameters, [⟨base⟩], n⟩ := by
  obtain ⟨before', line', htake⟩ := takeParameters_class []
    (line + lineEnds "class".toList + lineEnds " ".toList + lineEnds name.toList) parameters
    [.blank " ", .word base] [body]
  rw [leaves_word, leaves_blank, leaves_word, List.cons_append, List.cons_append, readType]
  simp only [takeKind, wordTree_isWord, decide_true, if_true, Option.bind_eq_bind, Option.bind_some,
    List.head?_cons, wordTree_word?, List.drop_succ_cons, List.drop_zero, htake, leaves_blank,
    leaves_word, leaves_nil, List.cons_append, List.nil_append, List.reverse_singleton]
  rw [readBases_class _ _ _ _ _ hbody]
  rfl

/-- **A class is read as it stands**, with the members that stand between its braces. -/
theorem readRun_class (before : List Lexeme) (line : Nat) {modifiers : List String}
    (h : ∀ m ∈ modifiers, m ∈ modifierWords) (name : String) (parameters : List String)
    (base : String) {body : Tree} (hbody : body.isGroup '{' = true) :
    ∃ n,
      readRun (itemsOf (leaves before line (classHead modifiers name parameters base) ++ [body])) =
      some (.type ⟨.classType, name, modifiers, parameters, [⟨base⟩], n⟩ body.members) := by
  let rest : List Piece := .blank " " :: .word name ::
    (parameterPieces parameters ++ [.blank " ", .sign ':', .blank " ", .word base])
  have hleaves : ∀ t ∈ leaves before line (classHead modifiers name parameters base),
      t.isGroup '{' = false := by
    intro t ht
    obtain ⟨p, -, -, b, l, rfl⟩ := mem_leaves ht
    rfl
  have hmembers := runBody_concat hleaves hbody
  obtain ⟨w, hw, b, l, ts, hhead⟩ := leaves_modifiers before line modifiers rest
  obtain ⟨b', l', hmodifiers⟩ := takeModifiers_class before line h rest [body]
  have hword : ∀ v ∈ "class" :: modifierWords, v ≠ "global" ∧ v ≠ "using" ∧ v ≠ "namespace" := by
    decide
  obtain ⟨hglobal, husing, hnamespace⟩ := hword w (by
    rcases List.mem_cons.mp hw with rfl | hw
    · exact List.mem_cons_self
    · exact List.mem_cons_of_mem _ (h w hw))
  have hrow : leaves before line (classHead modifiers name parameters base) ++ [body] =
      wordTree b l w :: (ts ++ [body]) := congrArg (· ++ [body]) hhead
  have hmodifiers : takeModifiers
      (leaves before line (classHead modifiers name parameters base) ++ [body]) =
        (modifiers, leaves b' l' (.word "class" :: rest) ++ [body]) := hmodifiers
  refine ⟨(wordTree b l w).first.line, ?_⟩
  rw [hrow] at hmembers hmodifiers ⊢
  rw [readRun_plain (wordTree_isGroup ..), readImport_eq_none (by simp [hglobal])
    (by simp [husing]), hmodifiers, readType_class _ _ _ _ _ _ _ hbody, hmembers]
  simp [readNamespace, hnamespace]

theorem mem_parameterPieces {names : List String} {p : Piece} (h : p ∈ parameterPieces names) :
    (∃ w ∈ names, p = .word w) ∨ p = .blank " " ∨ ∃ c ∈ ['<', ',', '>'], p = .sign c := by
  unfold parameterPieces at h
  split at h
  · cases h
  · rcases List.mem_cons.mp h with rfl | h
    · exact .inr (.inr ⟨'<', by decide, rfl⟩)
    · rcases List.mem_append.mp h with h | h
      · rcases mem_joined h with h | h
        · rcases List.mem_pair.mp h with rfl | rfl
          · exact .inr (.inr ⟨',', by decide, rfl⟩)
          · exact .inr (.inl rfl)
        · exact .inl h
      · exact .inr (.inr ⟨'>', by decide, List.mem_singleton.mp h⟩)

/-- The pieces before the body of a class: words, spaces, and signs that end no run. -/
theorem mem_classHead {modifiers parameters : List String} {name base : String} {p : Piece}
    (h : p ∈ classHead modifiers name parameters base) :
    (∃ w ∈ "class" :: name :: base :: (modifiers ++ parameters), p = .word w) ∨ p = .blank " " ∨
      ∃ c ∈ ['<', ',', '>', ':'], p = .sign c := by
  rcases List.mem_append.mp h with h | h
  · obtain ⟨m, hm, hp⟩ := List.mem_flatMap.mp h
    rcases List.mem_pair.mp hp with rfl | rfl
    · exact .inl ⟨m, by simp [hm], rfl⟩
    · exact .inr (.inl rfl)
  · simp only [List.mem_cons, List.mem_append, List.not_mem_nil, or_false] at h
    rcases h with rfl | rfl | rfl | h | rfl | rfl | rfl | rfl
    · exact .inl ⟨_, by simp, rfl⟩
    · exact .inr (.inl rfl)
    · exact .inl ⟨_, by simp, rfl⟩
    · rcases mem_parameterPieces h with ⟨w, hw, rfl⟩ | rfl | ⟨c, hc, rfl⟩
      · exact .inl ⟨w, by simp [hw], rfl⟩
      · exact .inr (.inl rfl)
      · exact .inr (.inr ⟨c, List.mem_append_left [':'] hc, rfl⟩)
    · exact .inr (.inl rfl)
    · exact .inr (.inr ⟨':', by decide, rfl⟩)
    · exact .inr (.inl rfl)
    · exact .inl ⟨_, by simp, rfl⟩

/-- Type parameters and what follows them are a row that a name can stand before. -/
theorem spans_parameters {names : List String} (h : ∀ n ∈ names, isPlainWord n = true)
    {ps : List Piece} {s : String} {last : Piece} (hps : Spans ps (.blank s) last) :
    ∃ first, Spans (parameterPieces names ++ ps) first last ∧ ∀ w, (Piece.word w).Meets first := by
  unfold parameterPieces
  split
  · exact ⟨_, hps, fun _ => rfl⟩
  · rename_i hne
    obtain ⟨n, ns, rfl⟩ := List.exists_cons_of_ne_nil hne
    have hcomma (w v : String) (hw : isPlainWord w = true) (hv : isPlainWord v = true) :
        IsReadable (.word w :: ([.sign ',', .blank " "] ++ [.word v])) :=
      isReadable_cons_cons.mpr ⟨hw, rfl, isReadable_cons_cons.mpr ⟨by decide, rfl,
        isReadable_cons_cons.mpr ⟨by decide, rfl, isReadable_singleton.mpr hv⟩⟩⟩
    have hbracket : ∀ p ∈ listPieces (n :: ns), p.isBracket = false := by
      intro p hp
      rcases mem_joined hp with hp | ⟨w, -, rfl⟩
      · rcases List.mem_pair.mp hp with rfl | rfl <;> decide
      · rfl
    have hlast := List.getLast?_eq_some_getLast (joined_ne_nil [.sign ',', .blank " "] n ns)
    obtain ⟨w, hw⟩ := getLast?_joined hlast
    rw [hw] at hlast
    have hlist : Spans (listPieces (n :: ns)) (.word n) (.word w) :=
      spans_of_leaves (isReadable_joined hcomma h) hbracket (head?_joined ..) hlast
    have hclose : Spans [.sign '>'] (.sign '>') (.sign '>') := spans_singleton (by decide) rfl
    exact ⟨_, ((hlist.append hclose rfl).cons (by decide) rfl rfl).append hps rfl, fun _ => rfl⟩

/-- Modifiers before a row that a word begins are a row with it. -/
theorem spans_modifiers {modifiers : List String} (h : ∀ m ∈ modifiers, isPlainWord m = true)
    {ps : List Piece} {w : String} {last : Piece} (hps : Spans ps (.word w) last) :
    ∃ v, Spans (modifierPieces modifiers ++ ps) (.word v) last := by
  induction modifiers with
  | nil => exact ⟨w, hps⟩
  | cons m ms ih =>
    obtain ⟨v, hrest⟩ := ih fun m' hm' => h m' (List.mem_cons_of_mem m hm')
    exact ⟨m, (hrest.cons (p := .blank " ") (by decide) rfl rfl).cons
      (h m List.mem_cons_self) rfl rfl⟩

section

variable {modifiers parameters : List String} {name base : String} {body : List Piece}

theorem spans_classHead (hmodifiers : ∀ m ∈ modifiers, m ∈ modifierWords)
    (hname : isPlainWord name = true) (hparameters : ∀ p ∈ parameters, isPlainWord p = true)
    (hbase : isPlainWord base = true) :
    ∃ w, Spans (classHead modifiers name parameters base) (.word w) (.word base) := by
  have hmodifierWords : ∀ m ∈ modifierWords, isPlainWord m = true := by decide
  have hcolon : Spans [.blank " ", .sign ':', .blank " "] (.blank " ") (.blank " ") :=
    spans_of_leaves (by decide) (by decide) rfl rfl
  have hend := hcolon.append (spans_singleton (p := .word base) hbase rfl) rfl
  obtain ⟨first, hrest, hmeets⟩ := spans_parameters hparameters hend
  have hkind : Spans [.word "class", .blank " "] (.word "class") (.blank " ") :=
    spans_of_leaves (by decide) (by decide) rfl rfl
  exact spans_modifiers (fun m hm => hmodifierWords m (hmodifiers m hm))
    (hkind.append (hrest.cons hname rfl (hmeets name)) rfl)

/-- A class is a row of its own. -/
theorem spans_class (hmodifiers : ∀ m ∈ modifiers, m ∈ modifierWords)
    (hname : isPlainWord name = true) (hparameters : ∀ p ∈ parameters, isPlainWord p = true)
    (hbase : isPlainWord base = true) {first last : Piece} (hbody : Spans body first last)
    (hfirst : (Piece.sign '{').Meets first) (hlast : last.Meets (.sign '}')) :
    ∃ w, Spans (classPieces modifiers name parameters base body) (.word w) (.sign '}') := by
  obtain ⟨w, hhead⟩ := spans_classHead hmodifiers hname hparameters hbase
  have hbraces := hbody.group isPair_braces hfirst hlast
  exact ⟨w, hhead.append (hbraces.cons (by decide) rfl rfl) rfl⟩

/-- The head of a class holds no brackets, and no sign that ends a run or begins a value. -/
theorem leaves_classHead {before : List Lexeme} {line : Nat} {t : Tree}
    (ht : t ∈ leaves before line (classHead modifiers name parameters base)) :
    (∀ sign ∈ [";", "=", "=>"], t.isSign sign = false) ∧ t.isGroup '{' = false := by
  have hsigns : ∀ c ∈ ['<', ',', '>', ':'], ∀ sign ∈ [";", "=", "=>"], String.ofList [c] ≠ sign :=
    List.all_iff_forall_prop.mp (by decide)
  obtain ⟨p, hp, hcode, b, l, rfl⟩ := mem_leaves ht
  refine ⟨fun sign hsign => ?_, rfl⟩
  rcases mem_classHead hp with ⟨w, -, rfl⟩ | rfl | ⟨c, hc, rfl⟩
  · rfl
  · cases hcode
  · exact (signTree_isSign ..).trans (decide_eq_false (hsigns c hc sign hsign))

/-- **A class declares itself**, with nothing in it when its body declares nothing. -/
theorem becomes_class (hmodifiers : ∀ m ∈ modifiers, m ∈ modifierWords)
    (hname : isPlainWord name = true) (hparameters : ∀ p ∈ parameters, isPlainWord p = true)
    (hbase : isPlainWord base = true) (hbody : Declares body []) :
    Becomes (fun us => ∃ n,
        ReadAs us [.type ⟨.classType, name, modifiers, parameters, [⟨base⟩], n⟩ []])
      (classPieces modifiers name parameters base body) := by
  obtain ⟨w, hspans⟩ := spans_classHead hmodifiers hname hparameters hbase
  have hbracket : ∀ p ∈ classHead modifiers name parameters base, p.isBracket = false := by
    have hsigns : ∀ c ∈ ['<', ',', '>', ':'], (Piece.sign c).isBracket = false :=
      List.all_iff_forall_prop.mp (by decide)
    intro p hp
    rcases mem_classHead hp with ⟨w, -, rfl⟩ | rfl | ⟨c, hc, rfl⟩
    · rfl
    · rfl
    · exact hsigns c hc
  have hhead := becomes_leaves hspans.readable.plain hbracket
  have hgap := becomes_nothing (show ∀ p ∈ [Piece.blank "\n"], p.isCode = false by decide)
  have hbraces := Becomes.group isPair_braces hbody
  refine (hhead.append (hgap.append hbraces)).imp ?_
  rintro _ ⟨_, _, rfl, ⟨before, line, rfl⟩, _, _, rfl, rfl, t, rfl, ht, hread, hmembers⟩
  have hempty : t.members = [] := by
    have := hread.read [] fun _ h => nomatch h
    rw [List.append_nil] at this
    exact hmembers.trans this
  obtain ⟨n, hrun⟩ := readRun_class before line hmodifiers name parameters base ht
  rw [hempty] at hrun
  refine ⟨n, ReadAs.run (fun u hu => ?_) (fun u hu => ?_)
    (fun vs hvs => .inr ⟨ht, fun u hu => ?_, hvs⟩)
    hrun⟩
  · rcases List.mem_append.mp (List.mem_of_mem_head? hu) with hu | hu
    · exact (leaves_classHead hu).1 "=" (by decide)
    · rw [List.mem_singleton.mp hu]
      exact (isGroup_facts ht).2.1 "="
  · exact ⟨(leaves_classHead hu).1 ";" (by decide), (leaves_classHead hu).2⟩
  · exact ⟨(leaves_classHead hu).1 "=" (by decide), (leaves_classHead hu).1 "=>" (by decide)⟩

end

end FieldWiring.CSharp
