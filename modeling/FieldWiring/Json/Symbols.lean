import FieldWiring.Text.Quoted

/-!
# Texts of JSON documents

A text is a sequence of symbols: Unicode characters, and halves of surrogate pairs that stand alone,
which an escape can write although no character is encoded so. In writing every symbol outside of
the printable ASCII range is an escape, characters beyond the first plane as two of them.

Results:
* `toText_ofString`: the symbols of a text make that text.
* `escape_printable`: a printable ASCII character stands for itself.
* `readUnit_hexUnit`: four hexadecimal digits are read as the number they write.
-/

namespace FieldWiring.Json

/-- A symbol of a text. -/
inductive Symbol where
  | char (c : Char)
  | half (n : Nat)
deriving DecidableEq, Repr

/-- A text of a document. -/
abbrev Symbols := List Symbol

/-- The symbol that a character is, or the half that it holds. -/
def Symbol.ofChar (c : Char) : Symbol :=
  match Text.half? c with
  | some n => .half n
  | none => .char c

/-- The character that a symbol is, or that holds it. -/
def Symbol.toChar : Symbol → Char
  | char c => c
  | half n => Text.ofHalf n

theorem Symbol.toChar_ofChar (c : Char) : (ofChar c).toChar = c := by
  unfold ofChar
  cases h : Text.half? c with
  | none => rfl
  | some n => exact Text.ofHalf_of_half? h

/-- The number of a symbol. -/
def Symbol.code : Symbol → Nat
  | char c => c.toNat
  | half n => n

namespace Symbols

/-- The symbols of a text. -/
def ofString (s : String) : Symbols := s.toList.map Symbol.ofChar

/-- The symbols of a text that is known to hold no halves. -/
def ofPlain (s : String) : Symbols := s.toList.map Symbol.char

/-- The text that symbols make. -/
def toText (t : Symbols) : String := String.ofList (t.map Symbol.toChar)

theorem toText_ofString (s : String) : (ofString s).toText = s := by
  have hsame : (Symbol.toChar ∘ Symbol.ofChar) = id := funext Symbol.toChar_ofChar
  rw [toText, ofString, List.map_map, hsame, List.map_id, String.ofList_toList]

theorem ofString_injective {s t : String} (h : ofString s = ofString t) : s = t := by
  rw [← toText_ofString s, ← toText_ofString t, h]

/-- Texts in the order of the numbers of their symbols. -/
def precedes : Symbols → Symbols → Bool
  | [], _ => true
  | _ :: _, [] => false
  | x :: xs, y :: ys => x.code < y.code || (x.code = y.code && precedes xs ys)

end Symbols

/-! ## Writing -/

/-- A number below 65536 as an escape. -/
def hexUnit (n : Nat) : List Char := '\\' :: 'u' :: Text.hexDigits 4 n

/-- The escape that stands for a symbol by its number. -/
def numbered : Symbol → List Char
  | .half n => hexUnit n
  | .char c =>
    if c.toNat < 0x10000 then hexUnit c.toNat
    else
      hexUnit (0xD800 + (c.toNat - 0x10000) / 0x400) ++
        hexUnit (0xDC00 + (c.toNat - 0x10000) % 0x400)

/-- The letters that stand for a symbol behind a backslash. -/
def letters : List (Char × Char) :=
  [('"', '"'), ('\\', '\\'), ('n', '\n'), ('r', '\r'), ('t', '\t'), ('f', Char.ofNat 0x0C),
    ('b', Char.ofNat 0x08)]

/-- A printable ASCII character. -/
def isPlain (c : Char) : Bool := 0x20 ≤ c.toNat && c.toNat ≤ 0x7E

/-- A symbol in writing. -/
def escape : Symbol → List Char
  | .half n => numbered (.half n)
  | .char c =>
    match letters.find? fun l => l.2 = c with
    | some l => ['\\', l.1]
    | none => if isPlain c then [c] else numbered (.char c)

theorem escape_printable {c : Char} (h : isPlain c = true) (hq : c ≠ '"') (hb : c ≠ '\\') :
    escape (.char c) = [c] := by
  have hn : letters.find? (fun l => decide (l.2 = c)) = none := by
    refine List.find?_eq_none.2 fun l hl => ?_
    simp only [letters, List.mem_cons, List.not_mem_nil, or_false] at hl
    rcases hl with rfl | rfl | rfl | rfl | rfl | rfl | rfl <;>
      simp only [decide_eq_true_eq] <;> rintro rfl
    · exact hq rfl
    · exact hb rfl
    all_goals exact absurd h (by decide)
  simp [escape, hn, h]

/-- A text in writing, between double quotes. -/
def writeText (t : Symbols) : List Char := '"' :: t.flatMap escape ++ ['"']

/-! ## Reading -/

/-- The value of a hexadecimal digit. -/
def hexValue (c : Char) : Option Nat :=
  if '0' ≤ c ∧ c ≤ '9' then some (c.toNat - '0'.toNat)
  else if 'a' ≤ c ∧ c ≤ 'f' then some (c.toNat - 'a'.toNat + 10)
  else if 'A' ≤ c ∧ c ≤ 'F' then some (c.toNat - 'A'.toNat + 10)
  else none

/-- Reads four hexadecimal digits. -/
def readUnit : List Char → Option (Nat × List Char)
  | a :: b :: c :: d :: rest => do
    let a ← hexValue a
    let b ← hexValue b
    let c ← hexValue c
    let d ← hexValue d
    some (((a * 16 + b) * 16 + c) * 16 + d, rest)
  | _ => none

theorem hexValue_hexDigit {n : Nat} (h : n < 16) :
    hexValue (Text.hexDigit n) = some n := by
  have all : ∀ m, m < 16 → hexValue (Text.hexDigit m) = some m := by decide
  exact all n h

theorem readUnit_hexUnit {n : Nat} (h : n < 0x10000) (rest : List Char) :
    readUnit (Text.hexDigits 4 n ++ rest) = some (n, rest) := by
  simp only [Text.hexDigits, List.nil_append, List.cons_append, readUnit,
    hexValue_hexDigit (Nat.mod_lt _ (by decide : 0 < 16)), Option.bind_eq_bind, Option.bind_some,
    Option.some.injEq, Prod.mk.injEq, and_true]
  omega

/-- A number that a first half of a pair has. -/
def isHigh (n : Nat) : Bool := 0xD800 ≤ n && n < 0xDC00

/-- A number that a second half of a pair has. -/
def isLow (n : Nat) : Bool := 0xDC00 ≤ n && n < 0xE000

/-- The symbol with a number. -/
def symbolOf (n : Nat) : Symbol := if isHigh n || isLow n then .half n else .char (Char.ofNat n)

/-- Reads the escape behind a backslash and the letter u: two of them when they make a pair. -/
def readNumbered (cs : List Char) : Option (Symbol × List Char) := do
  let (n, rest) ← readUnit cs
  if isHigh n then
    match rest with
    | '\\' :: 'u' :: more => do
      let (m, rest') ← readUnit more
      if isLow m then
        some (.char (Char.ofNat (0x10000 + (n - 0xD800) * 0x400 + (m - 0xDC00))), rest')
      else some (.half n, rest)
    | _ => some (.half n, rest)
  else some (symbolOf n, rest)

/-- Reads the escape behind a backslash. -/
def readEscape : List Char → Option (Symbol × List Char)
  | 'u' :: cs => readNumbered cs
  | '/' :: cs => some (.char '/', cs)
  | c :: cs => (letters.find? fun l => l.1 = c).map fun l => (.char l.2, cs)
  | [] => none

/-- Reads a text up to its closing quote. -/
def readText : (fuel : Nat) → List Char → Option (Symbols × List Char)
  | 0, _ => none
  | _ + 1, [] => none
  | _ + 1, '"' :: cs => some ([], cs)
  | fuel + 1, '\\' :: cs => do
    let (x, rest) ← readEscape cs
    let (t, rest) ← readText fuel rest
    some (x :: t, rest)
  | fuel + 1, c :: cs =>
    if c.toNat < 0x20 then none
    else do
      let (t, rest) ← readText fuel cs
      some (.char c :: t, rest)

end FieldWiring.Json
