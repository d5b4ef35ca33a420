import FieldWiring.Text.Blank
import FieldWiring.Yaml.Value

/-!
# Tokens of a document

A document as a row of tokens. Blocks are delimited by indentation, so the scan keeps the columns of
the open blocks and writes their beginnings and ends as tokens. A key is known only when the colon
behind it is read: the scan remembers where one may have begun and puts the key's token there.

Model of the safe loader that `_read_config` calls, its scanner.

Results:
* `rest_forward`: moving forward drops as many characters.
* `scanTokens_ends`: a scan ends with the end of the stream or with a fault.
-/

namespace FieldWiring.Yaml

/-- A token of a document. A scan that fails ends with the fault as a token. -/
inductive Token where
  | version (major : Nat)
  | handle (name lead : String)
  | directive
  | documentStart
  | documentEnd
  | streamEnd
  | sequenceStart
  | mappingStart
  | blockEnd
  | openList
  | closeList
  | openMap
  | closeMap
  | item
  | comma
  | key
  | colon
  | reference (name : String)
  | anchor (name : String)
  | tag (handle : Option String) (suffix : String)
  | scalar (text : String) (isPlain : Bool)
  | failed (fault : Fault)
deriving DecidableEq, Repr

/-! ## Characters -/

/-- What is read behind the last character. -/
def endMark : Char := Char.ofNat 0

/-- A character that ends a line. -/
def isBreak (c : Char) : Bool :=
  c == '\n' || c == '\r' || c == Char.ofNat 0x85 || c == Char.ofNat 0x2028 ||
    c == Char.ofNat 0x2029

/-- A character that ends a line, or the end of the document. -/
def isEnd (c : Char) : Bool := c == endMark || isBreak c

/-- A space, or what ends a line. -/
def isSpaceOrEnd (c : Char) : Bool := c == ' ' || isEnd c

/-- A blank, or what ends a line. -/
def isBlankOrEnd (c : Char) : Bool := c == '\t' || isSpaceOrEnd c

/-- A character of the names of anchors and handles. -/
def isNameChar (c : Char) : Bool := c.isAlphanum || c == '-' || c == '_'

/-- A character of a tag besides those of names. -/
def isTagChar (c : Char) : Bool := isNameChar c || ";/?:@&=+$,.!~*'()[]%".toList.contains c

/-- A character that a document may hold. -/
def isAllowed (c : Char) : Bool :=
  Text.inRanges [(0x09, 0x0A), (0x0D, 0x0D), (0x20, 0x7E), (0x85, 0x85), (0xA0, 0xD7FF),
    (0xE000, 0xFFFD), (0x10000, 0x10FFFF)] c.toNat

/-! ## The place in a document -/

/-- What is left of a document, and where this place is. -/
structure Cursor where
  rest : List Char
  index : Nat := 0
  line : Nat := 0
  column : Nat := 0
deriving Repr

namespace Cursor

/-- The character `n` places ahead. -/
def peek (c : Cursor) (n : Nat := 0) : Char := (c.rest.drop n).headD endMark

/-- Passes one character. -/
def next (c : Cursor) : Cursor :=
  match c.rest with
  | [] => c
  | ch :: cs =>
    if isBreak ch && !(ch == '\r' && cs.head? == some '\n') then ⟨cs, c.index + 1, c.line + 1, 0⟩
    else ⟨cs, c.index + 1, c.line, if ch = Char.ofNat 0xFEFF then c.column else c.column + 1⟩

/-- Passes characters. -/
def forward : (n : Nat) → Cursor → Cursor
  | 0, c => c
  | n + 1, c => forward n c.next

theorem rest_next (c : Cursor) : c.next.rest = c.rest.drop 1 := by
  unfold next
  split
  · rename_i h
    simp [h]
  · rename_i h
    split <;> simp [h]

theorem rest_forward (n : Nat) (c : Cursor) : (forward n c).rest = c.rest.drop n := by
  induction n generalizing c with
  | zero => rfl
  | succ n ih => simp [forward, ih, rest_next]

/-- The characters of a class from here on. -/
def run (c : Cursor) (p : Char → Bool) : List Char := c.rest.takeWhile p

/-- Passes the characters of a class. -/
def skip (c : Cursor) (p : Char → Bool) : Cursor := forward (c.run p).length c

/-- Passes the end of a line: what it stands for in text, and the place behind it. -/
def lineBreak (c : Cursor) : List Char × Cursor :=
  let ch := c.peek
  if ch = '\r' ∧ c.peek 1 = '\n' then (['\n'], forward 2 c)
  else if ch = '\r' ∨ ch = '\n' ∨ ch = Char.ofNat 0x85 then (['\n'], c.next)
  else if isBreak ch then ([ch], c.next)
  else ([], c)

/-- A line of three equal characters that delimits documents begins here. -/
def atMarker (c : Cursor) (ch : Char) : Bool :=
  c.rest.take 3 == [ch, ch, ch] && isBlankOrEnd (c.peek 3)

/-- A line that delimits documents begins here. -/
def atDelimiter (c : Cursor) : Bool := c.atMarker '-' || c.atMarker '.'

end Cursor

/-! ## Scalars in quotes -/

/-- What an escaped character stands for. -/
def escapes : List (Char × Nat) :=
  [('0', 0), ('a', 7), ('b', 8), ('t', 9), ('\t', 9), ('n', 10), ('v', 11), ('f', 12), ('r', 13),
   ('e', 0x1B), (' ', 0x20), ('"', 0x22), ('\\', 0x5C), ('/', 0x2F), ('N', 0x85), ('_', 0xA0),
   ('L', 0x2028), ('P', 0x2029)]

/-- How many hexadecimal digits follow an escaped letter. -/
def codeLengths : List (Char × Nat) := [('x', 2), ('u', 4), ('U', 8)]

/-- A hexadecimal digit. -/
def isHexDigit (c : Char) : Bool :=
  c.isDigit || (decide ('a' ≤ c) && decide (c ≤ 'f')) || (decide ('A' ≤ c) && decide (c ≤ 'F'))

/-- The character with a code. -/
def charOfCode (n : Nat) : Except Fault Char :=
  if 0x7FFFFFFF < n then .error (.tooLarge "Python int too large to convert to C int")
  else if 0x10FFFF < n then .error (.noValue "chr() arg not in range(0x110000)")
  else if Text.isHalf n then .ok (Text.ofHalf n)
  else .ok (Char.ofNat n)

/-- The line ends between the lines of a scalar in quotes; a line that delimits documents is not
allowed there. `fuel` bounds the number of lines. -/
def quotedBreaks : (fuel : Nat) → List Char → Cursor → Except Fault (List Char × Cursor)
  | 0, _, _ => .error (.malformed "found unexpected end of stream")
  | fuel + 1, acc, c =>
    if c.atDelimiter then .error (.malformed "found unexpected document separator")
    else
      let c := c.skip fun ch => ch == ' ' || ch == '\t'
      if isBreak c.peek then
        let (brk, c) := c.lineBreak
        quotedBreaks fuel (acc ++ brk) c
      else .ok (acc, c)

/-- What an escape at a backslash stands for. -/
def escapeSequence (fuel : Nat) (c : Cursor) : Except Fault (List Char × Cursor) :=
  let letter := c.peek 1
  match escapes.lookup letter, codeLengths.lookup letter with
  | some code, _ => .ok ([Char.ofNat code], Cursor.forward 2 c)
  | none, some n =>
    let digits := (c.rest.drop 2).take n
    if digits.length = n ∧ digits.all isHexDigit then do
      let code := (Text.digitsIn 16 digits).getD 0
      return ([← charOfCode code], Cursor.forward (n + 2) c)
    else .error (.malformed "expected escape sequence of hexadecimal numbers")
  | none, none =>
    if isBreak letter then
      let (_, c) := c.next.lineBreak
      quotedBreaks fuel [] c
    else .error (.malformed "found unknown escape character")

/-- The characters of a scalar in quotes up to a blank, a line end or the closing quote, behind
those of `acc` (last first). -/
def quotedRun (isDouble : Bool) : (fuel : Nat) → (acc : List Char) → Cursor →
    Except Fault (List Char × Cursor)
  | 0, acc, c => .ok (acc.reverse, c)
  | fuel + 1, acc, c => do
    let ch := c.peek
    if !isDouble && ch == '\'' && c.peek 1 == '\'' then
      quotedRun isDouble fuel ('\'' :: acc) (Cursor.forward 2 c)
    else if isDouble && ch == '\\' then
      let (text, c) ← escapeSequence fuel c
      quotedRun isDouble fuel (text.reverse ++ acc) c
    else if isBlankOrEnd ch || ch == (if isDouble then '"' else '\'') then return (acc.reverse, c)
    else quotedRun isDouble fuel (ch :: acc) c.next

/-- The blanks and line ends inside a scalar in quotes, as they count in its text. -/
def quotedGap (fuel : Nat) (c : Cursor) : Except Fault (List Char × Cursor) := do
  let blanks := c.run fun ch => ch == ' ' || ch == '\t'
  let c := Cursor.forward blanks.length c
  if c.peek = endMark then throw (.malformed "found unexpected end of stream")
  else if isBreak c.peek then
    let (brk, c) := c.lineBreak
    let (breaks, c) ← quotedBreaks fuel [] c
    let lead := if brk ≠ ['\n'] then brk else if breaks.isEmpty then [' '] else []
    return (lead ++ breaks, c)
  else return (blanks, c)

/-- The rest of a scalar in quotes, behind the text `acc` (last first). -/
def quotedRest (isDouble : Bool) : (fuel : Nat) → List Char → Cursor →
    Except Fault (List Char × Cursor)
  | 0, _, _ => .error (.malformed "found unexpected end of stream")
  | fuel + 1, acc, c => do
    let (text, c) ← quotedRun isDouble (fuel + 1) [] c
    let acc := text.reverse ++ acc
    if c.peek = (if isDouble then '"' else '\'') then return (acc.reverse, c.next)
    else
      let (gap, c) ← quotedGap (fuel + 1) c
      quotedRest isDouble fuel (gap.reverse ++ acc) c

/-- A scalar in quotes. -/
def scanQuoted (isDouble : Bool) (c : Cursor) : Except Fault (Token × Cursor) := do
  let (text, c) ← quotedRest isDouble (c.rest.length + 1) [] c.next
  return (.scalar (String.ofList text) false, c)

/-! ## Scalars in blocks -/

/-- How a block scalar ends: with all its last line ends, with one, or with none. -/
inductive Chomping where
  | keep
  | clip
  | strip
deriving DecidableEq, Repr

/-- A sign for the end of a block scalar. -/
def chompingSign (c : Char) : Option Chomping :=
  if c = '+' then some .keep else if c = '-' then some .strip else none

/-- The end of a block scalar and its indentation, as written behind the sign that opens it. -/
def blockHeader (c : Cursor) : Except Fault (Chomping × Option Nat × Cursor) := do
  let digit (c : Cursor) : Except Fault (Option Nat × Cursor) :=
    let ch := c.peek
    if ch.isDigit then
      if ch = '0' then .error (.malformed "expected indentation indicator in the range 1-9")
      else .ok (some (ch.toNat - 48), c.next)
    else .ok (none, c)
  let (chomping, n, c) ←
    match chompingSign c.peek with
    | some chomping => do
      let (n, c) ← digit c.next
      pure (chomping, n, c)
    | none => do
      let (n, c) ← digit c
      match n, chompingSign c.peek with
      | some _, some chomping => pure (chomping, n, c.next)
      | _, _ => pure (.clip, n, c)
  if isSpaceOrEnd c.peek then return (chomping, n, c)
  else throw (.malformed "expected chomping or indentation indicators")

/-- The rest of a line on which only a comment may stand. -/
def ignoredLine (c : Cursor) : Except Fault Cursor :=
  let c := c.skip (· == ' ')
  let c := if c.peek = '#' then c.skip fun ch => !isEnd ch else c
  if isEnd c.peek then .ok c.lineBreak.2 else .error
    (.malformed "expected a comment or a line break")

/-- The empty lines before the text of a block scalar and the greatest column of a space among
them. -/
def firstBreaks : (fuel : Nat) → List Char → (greatest : Nat) → Cursor → List Char × Nat × Cursor
  | 0, acc, greatest, c => (acc, greatest, c)
  | fuel + 1, acc, greatest, c =>
    if c.peek = ' ' then firstBreaks fuel acc (max greatest c.next.column) c.next
    else if isBreak c.peek then
      let (brk, c) := c.lineBreak
      firstBreaks fuel (acc ++ brk) greatest c
    else (acc, greatest, c)

/-- Passes the spaces before a column. -/
def skipIndent (column : Nat) (c : Cursor) : Cursor :=
  Cursor.forward (min (column - c.column) (c.run (· == ' ')).length) c

/-- The empty lines inside a block scalar that is indented to a column. -/
def innerBreaks (column : Nat) : (fuel : Nat) → List Char → Cursor → List Char × Cursor
  | 0, acc, c => (acc, c)
  | fuel + 1, acc, c =>
    let c := skipIndent column c
    if isBreak c.peek then
      let (brk, c) := c.lineBreak
      innerBreaks column fuel (acc ++ brk) c
    else (acc, c)

/-- The lines of a block scalar, behind those of `acc` (last first). In a folded one a line end
between two lines of text counts as a space. The result is the text, the end of its last line and
the empty lines behind it. -/
def blockLines (isFolded : Bool) (column : Nat) : (fuel : Nat) → (acc brk breaks : List Char) →
    Cursor → List Char × List Char × List Char × Cursor
  | 0, acc, brk, breaks, c => (acc.reverse, brk, breaks, c)
  | fuel + 1, acc, brk, breaks, c =>
    if c.column = column ∧ c.peek ≠ endMark then
      let isText := c.peek ≠ ' ' ∧ c.peek ≠ '\t'
      let line := c.run fun ch => !isEnd ch
      let acc := line.reverse ++ breaks.reverse ++ acc
      let (brk, c) := (Cursor.forward line.length c).lineBreak
      let (breaks, c) := innerBreaks column (fuel + 1) [] c
      if c.column = column ∧ c.peek ≠ endMark then
        let joint :=
          if isFolded ∧ brk = ['\n'] ∧ isText ∧ c.peek ≠ ' ' ∧ c.peek ≠ '\t' then
            if breaks.isEmpty then [' '] else []
          else brk
        blockLines isFolded column fuel (joint.reverse ++ acc) brk breaks c
      else (acc.reverse, brk, breaks, c)
    else (acc.reverse, brk, breaks, c)

/-- A block scalar in a block that is indented to `indent`. -/
def scanBlock (isFolded : Bool) (indent : Int) (c : Cursor) : Except Fault (Token × Cursor) := do
  let (chomping, increment, c) ← blockHeader c.next
  let c ← ignoredLine c
  let fuel := c.rest.length + 1
  let least := (max 1 (indent + 1)).toNat
  let (column, breaks, c) :=
    match increment with
    | none =>
      let (breaks, greatest, c) := firstBreaks fuel [] 0 c
      (max least greatest, breaks, c)
    | some n =>
      let column := least + n - 1
      let (breaks, c) := innerBreaks column fuel [] c
      (column, breaks, c)
  let (text, brk, breaks, c) := blockLines isFolded column fuel [] [] breaks c
  let tail :=
    match chomping with
    | .keep => brk ++ breaks
    | .clip => brk
    | .strip => []
  return (.scalar (String.ofList (text ++ tail)) false, c)

/-! ## Plain scalars -/

/-- A plain scalar ends before `ch`, which `next` follows. -/
def endsPlain (inFlow : Bool) (ch next : Char) : Bool :=
  isBlankOrEnd ch ||
    (ch == ':' && (isBlankOrEnd next || (inFlow && ",[]\x7b\x7d".toList.contains next))) ||
    (inFlow && ",?[]\x7b\x7d".toList.contains ch)

/-- The characters of a plain scalar up to a gap. -/
def plainRun (inFlow : Bool) : List Char → List Char
  | [] => []
  | ch :: cs => if endsPlain inFlow ch (cs.headD endMark) then [] else ch :: plainRun inFlow cs

/-- The line ends behind one in a plain scalar; `none` before a line that delimits documents. -/
def plainBreaks : (fuel : Nat) → List Char → Cursor → Option (List Char) × Cursor
  | 0, acc, c => (some acc, c)
  | fuel + 1, acc, c =>
    if c.peek = ' ' then plainBreaks fuel acc c.next
    else if isBreak c.peek then
      let (brk, c) := c.lineBreak
      if c.atDelimiter then (none, c) else plainBreaks fuel (acc ++ brk) c
    else (some acc, c)

/-- The gap behind a run of a plain scalar, as it counts in the text if the scalar goes on; whether
it holds a line end, and the place behind it. `fuel` bounds the characters of the gap. -/
def plainGap (fuel : Nat) (c : Cursor) : List Char × Bool × Cursor :=
  let spaces := c.run (· == ' ')
  let c := Cursor.forward spaces.length c
  if isBreak c.peek then
    let (brk, c) := c.lineBreak
    if c.atDelimiter then ([], true, c)
    else
      match plainBreaks fuel [] c with
      | (none, c) => ([], true, c)
      | (some breaks, c) =>
        let lead := if brk ≠ ['\n'] then brk else if breaks.isEmpty then [' '] else []
        (lead ++ breaks, true, c)
  else (spaces, false, c)

/-- The rest of a plain scalar behind the text `acc` (last first) and the gap `gap`; `freed` says
that the last gap held a line end. -/
def plainRest (inFlow : Bool) (indent : Int) : (fuel : Nat) → (acc gap : List Char) →
    (freed : Bool) → Cursor → List Char × Bool × Cursor
  | 0, acc, _, freed, c => (acc.reverse, freed, c)
  | fuel + 1, acc, gap, freed, c =>
    let text := plainRun inFlow c.rest
    if c.peek = '#' ∨ text = [] then (acc.reverse, freed, c)
    else
      let acc := text.reverse ++ gap.reverse ++ acc
      let (gap, broken, c) := plainGap (fuel + 1) (Cursor.forward text.length c)
      if gap = [] ∨ c.peek = '#' ∨ (!inFlow ∧ (c.column : Int) < indent + 1) then
        (acc.reverse, broken, c)
      else plainRest inFlow indent fuel acc gap broken c

/-! ## Names, tags and directives -/

/-- The name of an anchor or of a reference to one. -/
def scanName (c : Cursor) : Except Fault (String × Cursor) :=
  let name := c.next.run isNameChar
  let c := Cursor.forward (name.length + 1) c
  if name.isEmpty then .error (.malformed "expected alphabetic or numeric character")
  else if isBlankOrEnd c.peek || "?:,]\x7d%@".toList.contains c.peek || c.peek == '\x60' then
    .ok (String.ofList name, c)
  else .error (.malformed "expected alphabetic or numeric character")

/-- The characters that escaped bytes write. -/
def tagEscapes : (fuel : Nat) → List UInt8 → Cursor → Except Fault (List Char × Cursor)
  | 0, _, _ => .error (.malformed "expected URI escape sequence")
  | fuel + 1, acc, c =>
    if c.peek = '%' then
      match Text.digitsIn 16 ((c.rest.drop 1).take 2) with
      | some n =>
        if isHexDigit (c.peek 1) && isHexDigit (c.peek 2) then
          tagEscapes fuel (acc ++ [UInt8.ofNat n]) (Cursor.forward 3 c)
        else .error (.malformed "expected URI escape sequence")
      | none => .error (.malformed "expected URI escape sequence")
    else
      match String.fromUTF8? ⟨acc.toArray⟩ with
      | some s => .ok (s.toList, c)
      | none => .error (.malformed "invalid escape sequence")

/-- The text of a tag. -/
def tagText : (fuel : Nat) → List Char → Cursor → Except Fault (List Char × Cursor)
  | 0, acc, c => .ok (acc, c)
  | fuel + 1, acc, c => do
    if c.peek = '%' then
      let (text, c) ← tagEscapes (c.rest.length + 1) [] c
      tagText fuel (acc ++ text) c
    else if isTagChar c.peek then tagText fuel (acc ++ [c.peek]) c.next
    else return (acc, c)

/-- The text of a tag, which may not be missing. -/
def scanTagText (c : Cursor) : Except Fault (String × Cursor) := do
  let (text, c') ← tagText (c.rest.length + 1) [] c
  if c'.index = c.index then throw (.malformed "expected URI")
  else return (String.ofList text, c')

/-- The handle of a tag: a name between exclamation marks, or one such mark before a space. -/
def scanHandle (c : Cursor) : Except Fault (String × Cursor) :=
  if c.peek ≠ '!' then .error (.malformed "expected '!'")
  else if c.peek 1 = ' ' then .ok ("!", c.next)
  else
    let name := c.next.run isNameChar
    if c.peek (name.length + 1) = '!' then
      .ok (String.ofList ('!' :: name ++ ['!']), Cursor.forward (name.length + 2) c)
    else .error (.malformed "expected '!'")

/-- A tag. -/
def scanTag (c : Cursor) : Except Fault (Token × Cursor) := do
  let ch := c.peek 1
  let (handle, suffix, c) ←
    if ch = '<' then do
      let (suffix, c) ← scanTagText (Cursor.forward 2 c)
      if c.peek ≠ '>' then throw (.malformed "expected '>'")
      pure (none, suffix, c.next)
    else if isBlankOrEnd ch then pure (none, "!", c.next)
    else do
      let word := c.next.run fun ch => !isSpaceOrEnd ch
      let (handle, c) ← if word.contains '!' then scanHandle c else pure ("!", c.next)
      let (suffix, c) ← scanTagText c
      pure (some handle, suffix, c)
  if isSpaceOrEnd c.peek then return (.tag handle suffix, c)
  else throw (.malformed "expected ' '")

/-- The digits of a version. -/
def scanVersionPart (c : Cursor) : Except Fault (Nat × Cursor) :=
  let digits := c.run Char.isDigit
  if digits.isEmpty then .error (.malformed "expected a digit")
  else if Text.maxDigits < digits.length then .error (.tooManyDigits digits.length)
  else .ok ((Text.digitsIn 10 digits).getD 0, Cursor.forward digits.length c)

/-- A directive. -/
def scanDirective (c : Cursor) : Except Fault (Token × Cursor) := do
  let name := c.next.run isNameChar
  let c := Cursor.forward (name.length + 1) c
  if name.isEmpty || !isSpaceOrEnd c.peek then
    throw (.malformed "expected alphabetic or numeric character")
  let (token, c) ←
    if name = "YAML".toList then do
      let (major, c) ← scanVersionPart (c.skip (· == ' '))
      if c.peek ≠ '.' then throw (.malformed "expected a digit or '.'")
      let (_, c) ← scanVersionPart c.next
      if !isSpaceOrEnd c.peek then throw (.malformed "expected a digit or ' '")
      pure (Token.version major, c)
    else if name = "TAG".toList then do
      let (handle, c) ← scanHandle (c.skip (· == ' '))
      if c.peek ≠ ' ' then throw (.malformed "expected ' '")
      let (lead, c) ← scanTagText (c.skip (· == ' '))
      if !isSpaceOrEnd c.peek then throw (.malformed "expected ' '")
      pure (Token.handle handle lead, c)
    else pure (Token.directive, c.skip fun ch => !isEnd ch)
  return (token, ← ignoredLine c)

/-! ## The scan -/

/-- A place where a key may have begun. -/
structure KeyMark where
  position : Nat
  isRequired : Bool
  index : Nat
  line : Nat
  column : Nat
deriving Repr

/-- The state of a scan: the tokens so far (last first), the columns of the open blocks, how many
brackets are open, whether a key may begin here, and the marks of possible keys by depth. -/
structure Scan where
  cursor : Cursor
  tokens : List Token := []
  count : Nat := 0
  indent : Int := -1
  indents : List Int := []
  depth : Nat := 0
  mayKey : Bool := true
  marks : List (Nat × KeyMark) := []

namespace Scan

/-- Adds a token. -/
def push (s : Scan) (t : Token) : Scan :=
  { s with tokens := t :: s.tokens, count := s.count + 1 }

/-- Puts a token at a position among those scanned. -/
def insertAt (s : Scan) (position : Nat) (t : Token) : Scan :=
  let later := s.count - position
  { s with
    tokens := s.tokens.take later ++ t :: s.tokens.drop later
    count := s.count + 1 }

/-- Says whether a key may begin at the next token. -/
def allowKey (s : Scan) (may : Bool) : Scan := { s with mayKey := may }

/-- Passes characters. -/
def advance (s : Scan) (n : Nat) : Scan := { s with cursor := Cursor.forward n s.cursor }

/-- The mark of a possible key at the present depth. -/
def mark? (s : Scan) : Option KeyMark := s.marks.lookup s.depth

/-- Forgets the possible key at the present depth; a required one must not be lost. -/
def dropMark (s : Scan) : Except Fault Scan :=
  if s.mark?.any (·.isRequired) then .error (.malformed "could not find expected ':'")
  else .ok { s with marks := s.marks.filter fun m => m.1 ≠ s.depth }

/-- Remembers that a key may begin here. -/
def saveMark (s : Scan) : Except Fault Scan :=
  if s.mayKey then do
    let c := s.cursor
    let required := s.depth = 0 ∧ s.indent = c.column
    let s ← s.dropMark
    return { s with marks := (s.depth, ⟨s.count, required, c.index, c.line, c.column⟩) :: s.marks }
  else .ok s

/-- A possible key is given up on another line, or behind too many characters. -/
def isStale (s : Scan) (m : KeyMark) : Bool :=
  m.line ≠ s.cursor.line || m.index + 1024 < s.cursor.index

/-- Forgets the possible keys that are given up. -/
def dropStale (s : Scan) : Except Fault Scan :=
  if s.marks.any fun m => s.isStale m.2 && m.2.isRequired then
    .error (.malformed "could not find expected ':'")
  else .ok { s with marks := s.marks.filter fun m => !s.isStale m.2 }

/-- Closes open blocks; `indents` are the columns around the innermost one. -/
def closeBlocks (column : Int) (s : Scan) : List Int → Scan
  | [] => { s with indents := [] }
  | outer :: indents =>
    if column < s.indent then closeBlocks column { s.push .blockEnd with indent := outer } indents
    else { s with indents := outer :: indents }

/-- Closes the blocks that are indented further than a column. -/
def unwind (column : Int) (s : Scan) : Scan :=
  if s.depth = 0 then closeBlocks column s s.indents else s

/-- Opens a block at a column, unless one is open there; says whether it did. -/
def openBlock (s : Scan) (column : Int) : Bool × Scan :=
  if s.indent < column then
    (true, { s with indents := s.indent :: s.indents, indent := column })
  else (false, s)

/-- Opens a block at the present column and writes its beginning. -/
def beginBlock (s : Scan) (t : Token) : Scan :=
  match s.openBlock s.cursor.column with
  | (true, s) => s.push t
  | (false, s) => s

/-- Passes what may stand before a token: spaces, comments and line ends. -/
def skipGap : (fuel : Nat) → Scan → Scan
  | 0, s => s
  | fuel + 1, s =>
    let c := s.cursor.skip (· == ' ')
    let c := if c.peek = '#' then c.skip fun ch => !isEnd ch else c
    if isBreak c.peek then
      skipGap fuel { s with cursor := c.lineBreak.2, mayKey := s.mayKey || s.depth == 0 }
    else { s with cursor := c }

/-- Ends the stream. -/
def endStream (s : Scan) : Except Fault Scan := do
  let s ← (s.unwind (-1)).dropMark
  return (s.allowKey false).push .streamEnd

/-- Takes a line that delimits documents. -/
def takeDelimiter (s : Scan) (t : Token) : Except Fault Scan := do
  let s ← (s.unwind (-1)).dropMark
  return ((s.allowKey false).advance 3).push t

/-- Takes a bracket that opens. -/
def takeOpening (s : Scan) (t : Token) : Except Fault Scan := do
  let s ← s.saveMark
  return ({ s with depth := s.depth + 1, mayKey := true }.advance 1).push t

/-- Takes a bracket that closes. -/
def takeClosing (s : Scan) (t : Token) : Except Fault Scan := do
  if s.depth = 0 then throw (.malformed "expected the node content")
  let s ← s.dropMark
  return ({ s with depth := s.depth - 1, mayKey := false }.advance 1).push t

/-- Takes a comma. -/
def takeComma (s : Scan) : Except Fault Scan := do
  let s ← (s.allowKey true).dropMark
  return (s.advance 1).push .comma

/-- Takes the sign of an item. -/
def takeItem (s : Scan) : Except Fault Scan := do
  if s.depth = 0 ∧ !s.mayKey then
    throw (.malformed "sequence entries are not allowed here")
  let s := if s.depth = 0 then s.beginBlock .sequenceStart else s
  let s ← (s.allowKey true).dropMark
  return (s.advance 1).push .item

/-- Takes the sign of a key. -/
def takeKey (s : Scan) : Except Fault Scan := do
  if s.depth = 0 ∧ !s.mayKey then throw (.malformed "mapping keys are not allowed here")
  let s := if s.depth = 0 then s.beginBlock .mappingStart else s
  let s ← (s.allowKey (s.depth = 0)).dropMark
  return (s.advance 1).push .key

/-- Takes a colon: what stands before it on the line was a key. -/
def takeColon (s : Scan) : Except Fault Scan := do
  match s.mark? with
  | some m =>
    let s := { s with marks := s.marks.filter fun n => n.1 ≠ s.depth }
    let s := s.insertAt m.position .key
    let s :=
      if s.depth = 0 then
        match s.openBlock m.column with
        | (true, s) => s.insertAt m.position .mappingStart
        | (false, s) => s
      else s
    return ((s.allowKey false).advance 1).push .colon
  | none =>
    if s.depth = 0 ∧ !s.mayKey then throw (.malformed "mapping values are not allowed here")
    let s := if s.depth = 0 then s.beginBlock .mappingStart else s
    let s ← (s.allowKey (s.depth = 0)).dropMark
    return (s.advance 1).push .colon

/-- Takes a token that a key may begin with. -/
def takeStart (s : Scan) (scan : Cursor → Except Fault (Token × Cursor)) : Except Fault Scan := do
  let s ← s.saveMark
  let (t, c) ← scan s.cursor
  return { s.push t with cursor := c, mayKey := false }

/-- Takes a block scalar. -/
def takeBlock (s : Scan) (isFolded : Bool) : Except Fault Scan := do
  let s ← (s.allowKey true).dropMark
  let (t, c) ← scanBlock isFolded s.indent s.cursor
  return { s.push t with cursor := c }

/-- Takes a plain scalar. -/
def takePlain (s : Scan) : Except Fault Scan := do
  let s ← s.saveMark
  let c := s.cursor
  let (text, broken, c) := plainRest (0 < s.depth) s.indent (c.rest.length + 1) [] [] false c
  return { s.push (.scalar (String.ofList text) true) with cursor := c, mayKey := broken }

/-- Takes a directive. -/
def takeDirective (s : Scan) : Except Fault Scan := do
  let s ← (s.unwind (-1)).dropMark
  let (t, c) ← scanDirective s.cursor
  return { s.push t with cursor := c, mayKey := false }

/-- A plain scalar may begin here. -/
def atPlain (s : Scan) : Bool :=
  let ch := s.cursor.peek
  let special := isBlankOrEnd ch || "-?:,[]\x7b\x7d#&*!|>'\"%@".toList.contains ch || ch == '\x60'
  !special ||
    (!isBlankOrEnd (s.cursor.peek 1) &&
      (ch == '-' || (s.depth == 0 && (ch == '?' || ch == ':'))))

/-- Takes the token that begins here. -/
def take (s : Scan) : Except Fault Scan :=
  let c := s.cursor
  let ch := c.peek
  let inFlow := decide (0 < s.depth)
  let spaced := isBlankOrEnd (c.peek 1)
  if c.rest.isEmpty then s.endStream
  else if ch = '%' ∧ c.column = 0 then s.takeDirective
  else if c.column = 0 ∧ c.atMarker '-' then s.takeDelimiter .documentStart
  else if c.column = 0 ∧ c.atMarker '.' then s.takeDelimiter .documentEnd
  else if ch = '[' then s.takeOpening .openList
  else if ch = '\x7b' then s.takeOpening .openMap
  else if ch = ']' then s.takeClosing .closeList
  else if ch = '\x7d' then s.takeClosing .closeMap
  else if ch = ',' then s.takeComma
  else if ch = '-' ∧ spaced then s.takeItem
  else if ch = '?' ∧ (inFlow ∨ spaced) then s.takeKey
  else if ch = ':' ∧ (inFlow ∨ spaced) then s.takeColon
  else if ch = '*' then s.takeStart fun c => (scanName c).map fun (n, c) => (.reference n, c)
  else if ch = '&' then s.takeStart fun c => (scanName c).map fun (n, c) => (.anchor n, c)
  else if ch = '!' then s.takeStart scanTag
  else if ch = '|' ∧ !inFlow then s.takeBlock false
  else if ch = '>' ∧ !inFlow then s.takeBlock true
  else if ch = '\'' then s.takeStart (scanQuoted false)
  else if ch = '"' then s.takeStart (scanQuoted true)
  else if s.atPlain then s.takePlain
  else .error (.malformed "found character that cannot start any token")

/-- Passes to the next token and takes it; `fuel` bounds the lines passed. -/
@[irreducible] def step (fuel : Nat) (s : Scan) : Except Fault Scan := do
  let s ← (skipGap fuel s).dropStale
  (s.unwind s.cursor.column).take

/-- The tokens of a scan that fails. A token that may turn out to be a key is not known before the
scan has gone on, so the fault stands in the place of the first such token. -/
def failing (s : Scan) (f : Fault) : List Token :=
  let open? := s.marks.filter fun m => !s.isStale m.2
  let count := (open?.map fun m => m.2.position).foldl min s.count
  s.tokens.reverse.take count ++ [.failed f]

/-- The tokens from a state on; `fuel` bounds the number of steps. -/
def run : (fuel : Nat) → Scan → List Token
  | 0, s => s.tokens.reverse ++ [.failed (.malformed "unexpected end")]
  | fuel + 1, s =>
    match s.step (fuel + 1) with
    | .error f => s.failing f
    | .ok s => if s.tokens.head? = some .streamEnd then s.tokens.reverse else run fuel s

end Scan

/-- The tokens of a document. -/
def scanTokens (text : String) : List Token :=
  let chars := text.toList
  if chars.all isAllowed then
    let start : Cursor := ⟨chars, 0, 0, 0⟩
    let start := if start.peek = Char.ofNat 0xFEFF then start.next else start
    (({ cursor := start } : Scan)).run (chars.length + 2)
  else [.failed (.malformed "special characters are not allowed")]

/-- The token that ends a scan. -/
def Token.isLast : Token → Bool
  | .streamEnd => true
  | .failed _ => true
  | _ => false

theorem Scan.run_ends (fuel : Nat) (s : Scan) :
    ∃ t, (s.run fuel).getLast? = some t ∧ t.isLast = true := by
  induction fuel generalizing s with
  | zero => exact ⟨.failed (.malformed "unexpected end"), by simp [run], rfl⟩
  | succ fuel ih =>
    simp only [run]
    split
    · rename_i f _
      exact ⟨.failed f, by simp [failing], rfl⟩
    · split
      · rename_i h
        exact ⟨.streamEnd, by simp [List.getLast?_reverse, h], rfl⟩
      · exact ih _

/-- A scan ends with the end of the stream or with a fault. -/
theorem scanTokens_ends (text : String) :
    ∃ t, (scanTokens text).getLast? = some t ∧ t.isLast = true := by
  simp only [scanTokens]
  split
  · exact Scan.run_ends _ _
  · exact ⟨.failed (.malformed "special characters are not allowed"), by simp, rfl⟩

end FieldWiring.Yaml
