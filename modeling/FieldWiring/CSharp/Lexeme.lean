import FieldWiring.Text.Blank

/-!
# Lexemes of C#

A C# source as a row of lexemes: gaps (blanks and comments), directives, words, literals and signs.
Every character belongs to exactly one lexeme. String literals are taken whole, with the code that
interpolated ones hold: `Frame` says where in such a literal a character stands.

Stands for the lexical part of the grammar that parses the sources.

Results:
* `flatten_lexemes`: the texts of the lexemes, one after the other, are the source.
-/

namespace FieldWiring.CSharp

/-! ## Literals -/

/-- How a string literal is written: how many quotes close it, whether a doubled quote stands for
one, and how many braces open code in it (none when it is not interpolated). -/
structure StringStyle where
  quotes : Nat
  isVerbatim : Bool
  braces : Nat
deriving DecidableEq, Repr

/-- Where in a string literal a character stands: in its text, in code between braces with some
brackets open and some choices whose colon is still to come, or in the format behind such code. -/
inductive Frame where
  | text (style : StringStyle)
  | code (braces depth choices : Nat)
  | format (braces : Nat)
deriving DecidableEq, Repr

/-- How many times `c` stands at the beginning of a text. -/
def runOf (c : Char) (s : List Char) : Nat := (s.takeWhile (· == c)).length

/-- The style of the string literal that begins here and the length of its opening. -/
def openString? (s : List Char) : Option (Nat × StringStyle) :=
  let dollars := runOf '$' s
  let ats := min 1 (runOf '@' (s.drop dollars))
  let late := if ats = 1 ∧ dollars = 0 then min 1 (runOf '$' (s.drop 1)) else 0
  let lead := dollars + ats + late
  let quotes := runOf '"' (s.drop lead)
  if quotes = 0 then none
  else if ats = 1 then some (lead + 1, ⟨1, true, min 1 (dollars + late)⟩)
  else if 3 ≤ quotes then some (lead + quotes, ⟨quotes, false, dollars⟩)
  else some (lead + 1, ⟨1, false, min 1 dollars⟩)

/-- The rest of a character literal, with the quote that closes it. -/
def charRest : List Char → Nat
  | [] => 0
  | '\\' :: _ :: cs => 2 + charRest cs
  | '\'' :: _ => 1
  | _ :: cs => 1 + charRest cs

/-- The rest of a comment that a star and a slash close. -/
def commentRest : List Char → Nat
  | [] => 0
  | '*' :: '/' :: _ => 2
  | _ :: cs => 1 + commentRest cs

/-- What is left of a line, without its end. -/
def lineRest (s : List Char) : Nat := (s.takeWhile fun c => c != '\n' && c != '\r').length

/-- A question mark before this text chooses between two values: it neither makes a type nullable
nor guards a member. -/
def opensChoice (s : List Char) : Bool :=
  match s with
  | '?' :: _ => false
  | '[' :: _ => false
  | '.' :: d :: _ => d.isDigit
  | _ =>
    match s.dropWhile Text.isBlank with
    | [] => false
    | c :: _ => !(">,)]\x7d:;=".toList.contains c)

/-- A step in the text of a string literal. -/
def textStep (style : StringStyle) (outer : List Frame) (s : List Char) : Nat × List Frame :=
  let here := Frame.text style :: outer
  match s with
  | [] => (0, [])
  | c :: _ =>
    if c = '\\' ∧ style.quotes = 1 ∧ !style.isVerbatim then (2, here)
    else if c = '"' then
      let run := runOf '"' s
      if style.isVerbatim ∧ 2 ≤ run then (2, here)
      else if style.quotes ≤ run then (style.quotes, outer)
      else (run, here)
    else if c = '{' ∧ 0 < style.braces then
      let run := runOf '{' s
      if style.quotes = 1 then if 2 ≤ run then (2, here) else (1, .code 1 0 0 :: here)
      else if style.braces ≤ run then (run, .code style.braces 0 0 :: here)
      else (run, here)
    else (1, here)

/-- A step in the code of an interpolated literal. A colon that belongs to no choice begins a
format. -/
def codeStep (braces depth choices : Nat) (outer : List Frame) (s : List Char) : Nat × List Frame :=
  let here (d n : Nat) := Frame.code braces d n :: outer
  match openString? s with
  | some (n, style) => (n, .text style :: here depth choices)
  | none =>
    match s with
    | [] => (0, [])
    | '\'' :: cs => (1 + charRest cs, here depth choices)
    | '/' :: '/' :: cs => (2 + lineRest cs, here depth choices)
    | '/' :: '*' :: cs => (2 + commentRest cs, here depth choices)
    | ':' :: ':' :: _ => (2, here depth choices)
    | '?' :: '?' :: _ => (2, here depth choices)
    | c :: cs =>
      if c = '(' ∨ c = '[' ∨ c = '{' then (1, here (depth + 1) choices)
      else if c = '}' ∧ depth = 0 then (braces, outer)
      else if c = ')' ∨ c = ']' ∨ c = '}' then (1, here (depth - 1) choices)
      else if depth ≠ 0 then (1, here depth choices)
      else if c = '?' ∧ opensChoice cs then (1, here 0 (choices + 1))
      else if c = ':' then
        if choices = 0 then (1, .format braces :: outer) else (1, here 0 (choices - 1))
      else (1, here 0 choices)

/-- A step in the format behind the code of an interpolated literal. -/
def formatStep (braces : Nat) (outer : List Frame) (s : List Char) : Nat × List Frame :=
  match s with
  | [] => (0, [])
  | '}' :: _ => (braces, outer)
  | _ => (1, .format braces :: outer)

/-- How many characters one step takes, and where the next one stands. -/
def literalStep (frame : Frame) (outer : List Frame) (s : List Char) : Nat × List Frame :=
  match frame with
  | .text style => textStep style outer s
  | .code braces depth choices => codeStep braces depth choices outer s
  | .format braces => formatStep braces outer s

/-- The rest of a string literal; `fuel` bounds the number of steps. -/
def literalRest : (fuel : Nat) → List Frame → List Char → Nat
  | 0, _, _ => 0
  | _, [], _ => 0
  | fuel + 1, frame :: outer, s =>
    let (n, frames) := literalStep frame outer s
    n + literalRest fuel frames (s.drop n)

/-! ## Words and signs -/

/-- A character of a gap: a blank, or the byte order mark. -/
def isGap (c : Char) : Bool := Text.isBlank c || c == Char.ofNat 0xFEFF

/-- A character that begins a word. -/
def isWordStart (c : Char) : Bool :=
  c.isAlpha || c == '_' || c == '\\' || (decide (0x80 ≤ c.toNat) && !isGap c)

/-- A character inside a word. -/
def isWordChar (c : Char) : Bool := isWordStart c || c.isDigit

/-- The length of a number; a point belongs to it before a digit. -/
def numberLength : List Char → Nat
  | '.' :: d :: cs => if d.isDigit then 1 + numberLength (d :: cs) else 0
  | c :: cs => if isWordChar c then 1 + numberLength cs else 0
  | [] => 0

/-- The signs of two characters. -/
def doubleSigns : List String :=
  ["=>", "==", "!=", "<=", ">=", "::", "->", "++", "--", "&&", "||", "??", "+=", "-=", "*=", "/=",
   "%=", "&=", "|=", "^=", ".."]

/-- The length of a sign. -/
def signLength (s : List Char) : Nat :=
  if doubleSigns.any fun sign => sign.toList.isPrefixOf s then 2 else 1

/-! ## Directives -/

/-- The word of a directive, behind the hash sign. -/
def directiveWord (s : List Char) : String :=
  String.ofList ((s.dropWhile isGap).takeWhile isWordChar)

/-- The directives that hold any text. -/
def textDirectives : List String := ["region", "endregion", "error", "warning", "define", "undef"]

/-- The text of a directive up to the end of its line. A backslash before the end joins the next
line, and a slash takes the character behind it along. -/
def directiveText : List Char → Nat
  | [] => 0
  | '\n' :: _ => 0
  | '/' :: c :: cs => if c = '*' then 2 + lineRest cs else 2 + directiveText cs
  | '\\' :: '\n' :: cs => 2 + directiveText cs
  | '\\' :: '\r' :: '\n' :: cs => 3 + directiveText cs
  | _ :: cs => 1 + directiveText cs

/-- The rest of a directive behind the hash sign, with the end of its line. -/
def directiveRest (s : List Char) : Nat :=
  let word := directiveWord s
  let lead := (s.takeWhile fun c => c != '\n' && isGap c).length + word.length
  let text := s.drop lead
  let blanks := (text.takeWhile fun c => c != '\n' && isGap c).length
  let holdsText := textDirectives.contains word && !"//".toList.isPrefixOf (text.drop blanks)
  let length :=
    if holdsText then lead + blanks + directiveText (text.drop blanks)
    else (s.takeWhile (· != '\n')).length
  length + min 1 (s.drop length).length

/-! ## Lexemes -/

/-- What a lexeme is. Conditional code is a lexeme of its own where the code around it matters;
`onlyLists` says that it holds nothing but lists of attributes. -/
inductive LexemeKind where
  | gap
  | directive
  | conditional (onlyLists : Bool)
  | word
  | literal
  | sign
deriving DecidableEq, Repr

/-- A lexeme and the line that it begins on. -/
structure Lexeme where
  kind : LexemeKind
  text : List Char
  line : Nat
deriving DecidableEq, Repr

/-- The kind of the lexeme at the beginning of a text, and its length. -/
def scan (s : List Char) : LexemeKind × Nat :=
  match openString? s with
  | some (n, style) => (.literal, n + literalRest s.length [.text style] (s.drop n))
  | none =>
    match s with
    | [] => (.gap, 0)
    | '/' :: '/' :: cs => (.gap, 2 + lineRest cs)
    | '/' :: '*' :: cs => (.gap, 2 + commentRest cs)
    | '#' :: cs => (.directive, 1 + directiveRest cs)
    | '\'' :: cs => (.literal, 1 + charRest cs)
    | '@' :: cs =>
      if cs.head?.any isWordStart then (.word, 1 + (cs.takeWhile isWordChar).length) else (.sign, 1)
    | c :: cs =>
      if isGap c then (.gap, ((c :: cs).takeWhile isGap).length)
      else if isWordStart c then (.word, ((c :: cs).takeWhile isWordChar).length)
      else if c.isDigit then (.literal, numberLength (c :: cs))
      else (.sign, signLength (c :: cs))

/-- How many lines a text ends. -/
def lineEnds (s : List Char) : Nat := s.countP (· == '\n')

/-- The lexemes of a text that begins on `line`; `fuel` bounds their number. -/
def lexemesFuel : (fuel line : Nat) → List Char → List Lexeme
  | 0, _, _ => []
  | _, _, [] => []
  | fuel + 1, line, c :: cs =>
    let (kind, n) := scan (c :: cs)
    let text := (c :: cs).take (max 1 n)
    ⟨kind, text, line⟩ :: lexemesFuel fuel (line + lineEnds text) ((c :: cs).drop (max 1 n))

/-- The lexemes of a source. -/
def lexemes (source : List Char) : List Lexeme := lexemesFuel source.length 1 source

theorem flatten_lexemesFuel {fuel line : Nat} {s : List Char} (h : s.length ≤ fuel) :
    (lexemesFuel fuel line s).flatMap (·.text) = s := by
  induction fuel generalizing line s with
  | zero => simp_all [lexemesFuel]
  | succ fuel ih =>
    cases s with
    | nil => simp [lexemesFuel]
    | cons c cs =>
      simp only [lexemesFuel, List.flatMap_cons]
      rw [ih, List.take_append_drop]
      simp only [List.length_drop, List.length_cons] at h ⊢
      omega

/-- The texts of the lexemes, one after the other, are the source. -/
theorem flatten_lexemes (source : List Char) : (lexemes source).flatMap (·.text) = source :=
  flatten_lexemesFuel (Nat.le_refl _)

end FieldWiring.CSharp
