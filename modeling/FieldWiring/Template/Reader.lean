import FieldWiring.Template.Basic
import FieldWiring.Text.Lines

/-!
# Reading templates

A template in writing is text with tags: a value between double braces, and the beginnings and ends
of choices and repetitions between braces with percent signs. A line that holds nothing but a tag of
the second kind leaves no trace: the blanks before it and the line end behind it are dropped.

Model of the environment's settings for the packaged templates: line ends behind tags are trimmed,
blanks before them stripped, the last line end is kept.

Results:
* `parts_of_plain`: text without braces is a single part.
-/

namespace FieldWiring.Template

/-! ## Tokens -/

/-- A piece of a written template. -/
inductive Token where
  | text (s : List Char)
  | value (inside : List Char)
  | tag (inside : List Char)
deriving DecidableEq, Repr

/-- Which kind of piece is being read: text, or the inside of a tag that ends in the character given
and a closing brace. -/
inductive Inside where
  | text
  | value
  | tag
deriving DecidableEq, Repr

/-- The character before the closing brace. -/
def Inside.closer : Inside → Char
  | text => ' '
  | value => '}'
  | tag => '%'

/-- The token for a piece. -/
def Inside.token (i : Inside) (s : List Char) : Token :=
  match i with
  | text => .text s
  | value => .value s
  | tag => .tag s

/-- Cuts a written template into tokens; `piece` is what was read of the current one, backwards. -/
def tokensFrom (inside : Inside) (piece : List Char) : List Char → Except Error (List Token)
  | [] => if inside = .text then .ok [.text piece.reverse] else .error .malformed
  | '{' :: '{' :: cs =>
    if inside = .text then do
      let rest ← tokensFrom .value [] cs
      return .text piece.reverse :: rest
    else tokensFrom inside ('{' :: '{' :: piece) cs
  | '{' :: '%' :: cs =>
    if inside = .text then do
      let rest ← tokensFrom .tag [] cs
      return .text piece.reverse :: rest
    else tokensFrom inside ('%' :: '{' :: piece) cs
  | c :: '}' :: cs =>
    if inside ≠ .text ∧ c = inside.closer then do
      let rest ← tokensFrom .text [] cs
      return inside.token piece.reverse :: rest
    else tokensFrom inside (c :: piece) ('}' :: cs)
  | c :: cs => tokensFrom inside (c :: piece) cs
termination_by cs => cs.length

/-! ## Lines that hold a tag only -/

/-- The text before a tag without the blanks between the last line end and the tag, if nothing else
is there. -/
def dropIndent (startsLine : Bool) (s : List Char) : List Char :=
  let indent := s.reverse.takeWhile (· != '\n')
  if indent.all Text.isBlank && (startsLine || indent.length < s.length) then
    s.take (s.length - indent.length)
  else s

/-- Drops what only sets tags apart: `afterTag` says that a tag stands before, and `startsLine` that
a line begins here. -/
def tidy (afterTag startsLine : Bool) : List Token → List Token
  | [] => []
  | .text s :: rest =>
    let trimmed := if afterTag && s.head? = some '\n' then s.drop 1 else s
    let starts := if afterTag then s.head? = some '\n' else startsLine
    match rest with
    | .tag _ :: _ => .text (dropIndent starts trimmed) :: tidy false false rest
    | _ => .text trimmed :: tidy false false rest
  | .value inside :: rest => .value inside :: tidy false false rest
  | .tag inside :: rest => .tag inside :: tidy true false rest

/-! ## References -/

/-- A character that a name can begin with. -/
def beginsName (c : Char) : Bool :=
  c.isAlpha || c == '_' || (0x80 ≤ c.toNat && !Text.isBlank c)

/-- A word that can be a name. -/
def isName (w : List Char) : Bool :=
  match w with
  | [] => false
  | c :: cs => beginsName c && cs.all fun c => beginsName c || c.isDigit

/-- A word that can stand for a value. -/
def standsForValue (w : List Char) : Bool := isName w && w ≠ "not".toList

/-- The number that a word writes, with a zero in front only if it is nothing but zeros. Single
underscores may stand between digits. -/
def readIndex (w : List Char) : Option Nat :=
  let groups := Text.pieces (· == '_') w
  if groups.all fun g => !g.isEmpty && g.all Char.isDigit then
    let digits := groups.flatten
    if digits.head? = some '0' ∧ digits.any (· ≠ '0') then none
    else some (digits.foldl (fun n c => 10 * n + (c.toNat - '0'.toNat)) 0)
  else none

/-- The step that a word behind a dot writes. -/
def readStep (w : List Char) : Except Error Step :=
  if isName w then .ok (.member (String.ofList w))
  else
    match readIndex w with
    | some n => .ok (.element n)
    | none => .error .malformed

/-- The reference that a text writes: a name and steps with dots between them. -/
def readReference (s : List Char) : Except Error Reference :=
  match (Text.pieces (· == '.') s).map Text.trimChars with
  | name :: steps =>
    if standsForValue name then return ⟨String.ofList name, ← steps.mapM readStep⟩
    else .error .malformed
  | [] => .error .malformed

/-! ## Parts -/

/-- What is still open when a template is read from its end: a choice or a repetition, with the
parts of its second branch once they are known. -/
inductive Ending where
  | choice (no : Option (List Part))
  | each (otherwise : Option (List Part))

/-- The reading so far, from the end of a template: the parts of the innermost open piece, and for
every open piece its ending and the parts behind it. -/
structure Reading where
  parts : List Part := []
  pending : List (Ending × List Part) := []

/-- The reading with a part before it. -/
def Reading.add (r : Reading) (p : Part) : Reading := { r with parts := p :: r.parts }

/-- The reference that words write. -/
def joinReference (ws : List (List Char)) : Except Error Reference :=
  readReference ([' '].intercalate ws)

/-- Reads a tag. -/
def readTag (r : Reading) (inside : List Char) : Except Error Reading := do
  match Text.words inside with
  | [] => throw .malformed
  | word :: ws =>
    match String.ofList word, ws, r.pending with
    | "endif", [], pending => return ⟨[], (.choice none, r.parts) :: pending⟩
    | "endfor", [], pending => return ⟨[], (.each none, r.parts) :: pending⟩
    | "else", [], (.choice none, behind) :: pending =>
      return ⟨[], (.choice (some r.parts), behind) :: pending⟩
    | "else", [], (.each none, behind) :: pending =>
      return ⟨[], (.each (some r.parts), behind) :: pending⟩
    | "elif", condition, (.choice no, behind) :: pending =>
      let condition ← joinReference condition
      return ⟨[], (.choice (some [.choice condition r.parts (no.getD [])]), behind) :: pending⟩
    | "if", condition, (.choice no, behind) :: pending =>
      let condition ← joinReference condition
      return ⟨.choice condition r.parts (no.getD []) :: behind, pending⟩
    | "for", item :: ['i', 'n'] :: among, (.each otherwise, behind) :: pending =>
      let among ← joinReference among
      let item := String.ofList item
      if standsForValue item.toList && (constants.lookup item).isNone then
        return ⟨.each item among r.parts (otherwise.getD []) :: behind, pending⟩
      else throw .malformed
    | _, _, _ => throw .malformed

/-- Reads a token. -/
def readToken (r : Reading) : Token → Except Error Reading
  | .text [] => .ok r
  | .text s => .ok (r.add (.text (String.ofList s)))
  | .value inside => do return r.add (.value (← readReference inside))
  | .tag inside => readTag r inside

/-- The parts of a template in writing. -/
def parts (source : String) : Except Error (List Part) := do
  let tokens ← tokensFrom .text [] (Text.unixLinesChars source.toList)
  let r ← (tidy false true tokens).foldrM (fun t r => readToken r t) {}
  if r.pending.isEmpty then return r.parts else throw .malformed

/-! ## Text without tags -/

theorem tokensFrom_plain (piece cs : List Char) (h : '{' ∉ cs) :
    tokensFrom .text piece cs = .ok [.text (piece.reverse ++ cs)] := by
  induction cs generalizing piece with
  | nil => simp [tokensFrom]
  | cons c cs ih =>
    have hc : c ≠ '{' := fun e => h (by simp [e])
    have hr : '{' ∉ cs := fun e => h (by simp [e])
    have step : tokensFrom .text piece (c :: cs) = tokensFrom .text (c :: piece) cs := by
      rw [tokensFrom.eq_def]
      split <;> simp_all
    rw [step, ih _ hr]
    simp

theorem parts_of_plain (source : String) (hb : '{' ∉ source.toList)
    (hr : '\r' ∉ source.toList) (hne : source ≠ "") : parts source = .ok [.text source] := by
  have hs : source.toList ≠ [] := by simpa using hne
  simp only [parts, Text.unixLinesChars_eq_self hr, tokensFrom_plain [] _ hb, bind, Except.bind]
  cases h : source.toList with
  | nil => exact absurd h hs
  | cons c cs =>
    have hof : String.ofList (c :: cs) = source := by rw [← h, String.ofList_toList]
    simp [tidy, readToken, Reading.add, hof, pure, Except.pure, bind, Except.bind]

end FieldWiring.Template
