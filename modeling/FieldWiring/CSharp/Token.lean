import FieldWiring.CSharp.Lexeme

/-!
# Tokens and brackets of C#

The words, literals and signs of a source, each with the lexemes that stand before it and are no
code, and the trees that brackets make of them. What stands between `#if` and its `#endif` is one
lexeme. It is a value where values stand in parentheses, and no code elsewhere; where it holds
nothing but attributes, these belong to the declaration that follows, which begins at the `#if`
then. The text of a row of trees is the source text from the first token to the last.

Stands, with what is in `Lexeme` and `Reader`, for the grammar that parses the sources. How that
grammar goes on behind an error in a source is left out.

Results:
* `flatten_joinConditional`: joining conditional code loses no text.
* `flatten_grow`: growing trees keeps the tokens and their order.
-/

namespace FieldWiring.CSharp

/-! ## Conditional code -/

/-- The text of lexemes. -/
def lexemesText (xs : List Lexeme) : List Char := xs.flatMap (·.text)

/-- The lexeme is a directive with a given word. -/
def Lexeme.isDirective (word : String) (x : Lexeme) : Bool :=
  x.kind = .directive && directiveWord (x.text.drop 1) = word

/-- What lexemes of conditional code hold: how many lists of attributes, how deep in brackets they
stand, whether a list has just been opened, and whether all else is in lists. -/
structure Contents where
  lists : Nat := 0
  brackets : Nat := 0
  isOpened : Bool := false
  onlyLists : Bool := true
deriving DecidableEq, Repr

/-- Goes on to a lexeme of conditional code. A list for the whole program belongs to no
declaration, and conditions inside of conditions hold more than lists. -/
def Contents.step (c : Contents) (x : Lexeme) : Contents :=
  if x.kind = .gap then c
  else if x.kind = .directive then
    { c with onlyLists := c.onlyLists && !x.isDirective "if" }
  else if x.text = ['['] then
    { c with
      brackets := c.brackets + 1, isOpened := c.brackets = 0
      lists := if c.brackets = 0 then c.lists + 1 else c.lists }
  else if x.text = [']'] then { c with brackets := c.brackets - 1, isOpened := false }
  else
    let isForeign := c.brackets = 0 ||
      c.isOpened && (x.text = "assembly".toList || x.text = "module".toList)
    { c with isOpened := false, onlyLists := c.onlyLists && !isForeign }

/-- The lexeme for conditional code behind its first directive, up to its last one. -/
def conditional (first : Lexeme) (rest : List Lexeme) : Lexeme :=
  let contents := rest.foldl Contents.step {}
  { first with
    kind := .conditional (contents.onlyLists && decide (0 < contents.lists))
    text := lexemesText (first :: rest) }

/-- How much of a directive stands before its line goes on behind the word. -/
def wordEnd (text : List Char) : Nat :=
  1 + ((text.drop 1).takeWhile isGap).length + (directiveWord (text.drop 1)).length

/-- What the lexemes of conditional code become at the directive that closes it; `inside` are those
before it, last first. What follows the word of the directive on its line is a gap. -/
def closeConditional (inside : List Lexeme) (x : Lexeme) : List Lexeme :=
  let n := wordEnd x.text
  match inside.reverse with
  | [] => [x]
  | first :: rest =>
    [conditional first (rest ++ [{ x with text := x.text.take n }]),
      { x with kind := .gap, text := x.text.drop n }]

theorem lexemesText_nil : lexemesText [] = [] := rfl

theorem lexemesText_cons (x : Lexeme) (xs : List Lexeme) :
    lexemesText (x :: xs) = x.text ++ lexemesText xs := rfl

theorem lexemesText_append (xs ys : List Lexeme) :
    lexemesText (xs ++ ys) = lexemesText xs ++ lexemesText ys := List.flatMap_append

theorem lexemesText_closeConditional (inside : List Lexeme) (x : Lexeme) :
    lexemesText (closeConditional inside x) = lexemesText (inside.reverse ++ [x]) := by
  unfold closeConditional
  cases inside.reverse <;> simp [lexemesText, conditional]

/-- Puts conditional code together; `inside` are the lexemes of the one that is open, last first,
and `depth` counts the conditions open in it. -/
def joinConditional (depth : Nat) (inside : List Lexeme) : List Lexeme → List Lexeme
  | [] => inside.reverse
  | x :: xs =>
    if inside.isEmpty then
      if x.isDirective "if" then joinConditional 0 [x] xs else x :: joinConditional 0 [] xs
    else if x.isDirective "if" then joinConditional (depth + 1) (x :: inside) xs
    else if x.isDirective "endif" then
      match depth with
      | 0 => closeConditional inside x ++ joinConditional 0 [] xs
      | depth + 1 => joinConditional depth (x :: inside) xs
    else joinConditional depth (x :: inside) xs

theorem flatten_joinConditional (depth : Nat) (inside xs : List Lexeme) :
    lexemesText (joinConditional depth inside xs) = lexemesText (inside.reverse ++ xs) := by
  fun_induction joinConditional depth inside xs <;>
    simp_all [lexemesText_nil, lexemesText_cons, lexemesText_append, lexemesText_closeConditional]

/-! ## Tokens -/

/-- A lexeme of code with the lexemes between it and the code before. -/
structure Token where
  before : List Lexeme
  lexeme : Lexeme
deriving DecidableEq, Repr

namespace Token

/-- The text of a token. -/
def text (t : Token) : String := String.ofList t.lexeme.text

/-- The token is a given sign. -/
def isSign (sign : String) (t : Token) : Bool := t.lexeme.kind = .sign && t.text = sign

/-- The word that a token is. -/
def word? (t : Token) : Option String := if t.lexeme.kind = .word then some t.text else none

/-- The line on which a declaration begins that begins with a token: conditional attributes before
it are part of the declaration. -/
def line (t : Token) : Nat :=
  let lead := t.before.foldl (fun lead x =>
    match x.kind with
    | .conditional true => some (lead.getD x.line)
    | .conditional false => none
    | _ => lead) none
  lead.getD t.lexeme.line

end Token

/-- A sign that opens brackets. -/
def opensBracket (x : Lexeme) : Bool := [['('], ['['], ['{']].contains x.text

/-- A sign that closes brackets. -/
def closesBracket (x : Lexeme) : Bool := [[')'], [']'], ['}']].contains x.text

/-- The brackets that are open behind a lexeme, the last one first. -/
def nest (brackets : List (List Char)) (x : Lexeme) : List (List Char) :=
  if opensBracket x then x.text :: brackets
  else if closesBracket x then brackets.tail
  else brackets

/-- The lexeme is code when it stands inside of `brackets`. -/
def isCode (brackets : List (List Char)) (x : Lexeme) : Bool :=
  match x.kind with
  | .gap => false
  | .directive => false
  | .conditional _ => brackets.head? == some ['(']
  | _ => true

/-- The tokens of a row of lexemes inside of brackets and behind the lexemes `before` (last
first). -/
def tokensFrom (brackets : List (List Char)) (before : List Lexeme) : List Lexeme → List Token
  | [] => []
  | x :: xs =>
    if isCode brackets x then ⟨before.reverse, x⟩ :: tokensFrom (nest brackets x) [] xs
    else tokensFrom brackets (x :: before) xs

/-- The tokens of a source. -/
def tokens (source : List Char) : List Token :=
  tokensFrom [] [] (joinConditional 0 [] (lexemes source))

/-! ## Trees -/

/-- A token, or a pair of brackets with what stands between them. -/
inductive Tree where
  | leaf (token : Token)
  | group (opening : Token) (inner : List Tree) (closing : Token)

mutual
/-- The tokens of a tree. -/
def Tree.tokens : Tree → List Token
  | .leaf t => [t]
  | .group opening inner closing => opening :: (flatten inner ++ [closing])
/-- The tokens of a row of trees. -/
def flatten : List Tree → List Token
  | [] => []
  | t :: ts => t.tokens ++ flatten ts
end

theorem flatten_append (ts us : List Tree) : flatten (ts ++ us) = flatten ts ++ flatten us := by
  induction ts with
  | nil => rfl
  | cons t ts ih => simp [flatten, ih]

/-- An open bracket and the trees before it, last first. -/
structure Pending where
  opening : Token
  earlier : List Tree

/-- The trees when brackets stay open: these count as plain tokens. -/
def abandon (done : List Tree) : List Pending → List Tree
  | [] => done.reverse
  | p :: ps => abandon (done ++ .leaf p.opening :: p.earlier) ps

/-- The trees of tokens, behind the trees `done` (last first) in the brackets `pending`. -/
def grow (pending : List Pending) (done : List Tree) : List Token → List Tree
  | [] => abandon done pending
  | t :: ts =>
    if opensBracket t.lexeme then grow (⟨t, done⟩ :: pending) [] ts
    else if closesBracket t.lexeme then
      match pending with
      | [] => grow [] (.leaf t :: done) ts
      | p :: ps => grow ps (.group p.opening done.reverse t :: p.earlier) ts
    else grow pending (.leaf t :: done) ts

/-- The trees of a source. -/
def trees (source : List Char) : List Tree := grow [] [] (tokens source)

/-- The tokens before a place in the source that `grow` has reached. -/
def reached (done : List Tree) : List Pending → List Token
  | [] => flatten done.reverse
  | p :: ps => reached p.earlier ps ++ p.opening :: flatten done.reverse

theorem reached_append (done : List Tree) (pending : List Pending) (extra : List Tree) :
    reached (extra.reverse ++ done) pending = reached done pending ++ flatten extra := by
  cases pending <;> simp [reached, flatten_append]

theorem flatten_abandon (done : List Tree) (pending : List Pending) :
    flatten (abandon done pending) = reached done pending := by
  induction pending generalizing done with
  | nil => rfl
  | cons p ps ih =>
    have h := reached_append p.earlier ps (.leaf p.opening :: done.reverse)
    simp only [List.reverse_cons, List.reverse_reverse, List.append_assoc, List.singleton_append]
      at h
    simp [abandon, ih, h, reached, flatten, Tree.tokens]

theorem flatten_grow (pending : List Pending) (done : List Tree) (ts : List Token) :
    flatten (grow pending done ts) = reached done pending ++ ts := by
  induction ts generalizing pending done with
  | nil => simp [grow, flatten_abandon]
  | cons t ts ih =>
    have leafStep (pending : List Pending) :
        reached (.leaf t :: done) pending ++ ts = reached done pending ++ t :: ts := by
      have h := reached_append done pending [.leaf t]
      simp only [List.reverse_singleton, List.singleton_append] at h
      simp [h, flatten, Tree.tokens]
    simp only [grow]
    split
    · simp [ih, reached, flatten]
    · split
      · split
        · rw [ih]
          exact leafStep []
        · rename_i p ps
          have h := reached_append p.earlier ps [.group p.opening done.reverse t]
          simp only [List.reverse_singleton, List.singleton_append] at h
          simp [ih, h, reached, flatten, Tree.tokens]
      · rw [ih]
        exact leafStep pending

/-- The source text from the first token to the last. -/
def sourceText (ts : List Token) : String :=
  match ts with
  | [] => ""
  | t :: ts =>
    String.ofList (t.lexeme.text ++ ts.flatMap fun u => lexemesText u.before ++ u.lexeme.text)

namespace Tree

/-- The word that a tree is. -/
def word? : Tree → Option String
  | leaf t => t.word?
  | group .. => none

/-- The tree is a given word. -/
def isWord (w : String) (t : Tree) : Bool := t.word? = some w

/-- The tree is a given sign. -/
def isSign (sign : String) : Tree → Bool
  | leaf t => t.isSign sign
  | group .. => false

/-- The tree is a pair of brackets that opens with a given sign. -/
def isGroup (opening : Char) : Tree → Bool
  | leaf _ => false
  | group t .. => t.lexeme.text = [opening]

/-- What stands between the brackets of a tree. -/
def inner : Tree → List Tree
  | leaf _ => []
  | group _ ts _ => ts

/-- The first token of a tree. -/
def first : Tree → Token
  | leaf t => t
  | group t .. => t

/-- The tree is a literal, or conditional code that stands for one. -/
def isLiteral : Tree → Bool
  | leaf t =>
    match t.lexeme.kind with
    | .literal => true
    | .conditional _ => true
    | _ => false
  | group .. => false

/-- The lexemes before a tree that are no blanks and no comments. -/
def directives (t : Tree) : List Lexeme := t.first.before.filter (·.kind = .directive)

end Tree

/-- The source text of a row of trees. -/
def treesText (ts : List Tree) : String := sourceText (flatten ts)

end FieldWiring.CSharp
