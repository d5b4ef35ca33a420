import FieldWiring.Text.Blank
import FieldWiring.Text.Half
import FieldWiring.Text.PrintableTable

/-!
# Quoted texts

A text between quotes, as messages show a value: single quotes, unless the text holds some and no
double quote. The quote and the backslash are escaped, tab and line ends by letter, and every other
character that cannot be printed by its code in two, four or eight hexadecimal digits. Halves of
surrogate pairs are written by their numbers.

Results:
* `escape_of_printable`: a printable character that is neither a quote nor a backslash is written
  as it is.
-/

namespace FieldWiring.Text

/-- The hexadecimal digit of a number below sixteen. -/
def hexDigit (n : Nat) : Char :=
  if n < 10 then Char.ofNat (48 + n) else Char.ofNat (87 + n)

/-- The last `width` hexadecimal digits of a number. -/
def hexDigits : (width : Nat) → Nat → List Char
  | 0, _ => []
  | width + 1, n => hexDigits width (n / 16) ++ [hexDigit (n % 16)]

/-- A character that stands for itself between quotes. -/
def isPrintable (c : Char) : Bool := !inRanges unprintableRanges c.toNat

/-- A character by its number. -/
def numbered (n : Nat) : List Char :=
  if n < 0x100 then '\\' :: 'x' :: hexDigits 2 n
  else if n < 0x10000 then '\\' :: 'u' :: hexDigits 4 n
  else '\\' :: 'U' :: hexDigits 8 n

/-- A character as it is written between the quotes `quote`. -/
def escape (quote c : Char) : List Char :=
  if c = quote ∨ c = '\\' then ['\\', c]
  else if c = '\t' then ['\\', 't']
  else if c = '\n' then ['\\', 'n']
  else if c = '\r' then ['\\', 'r']
  else if isPrintable c then [c]
  else numbered (code c)

theorem escape_of_printable {quote c : Char} (hq : c ≠ quote) (hb : c ≠ '\\')
    (h : isPrintable c = true) : escape quote c = [c] := by
  have ht : c ≠ '\t' := by rintro rfl; revert h; decide
  have hn : c ≠ '\n' := by rintro rfl; revert h; decide
  have hr : c ≠ '\r' := by rintro rfl; revert h; decide
  simp [escape, hq, hb, ht, hn, hr, h]

/-- The quote around a text: the single one unless only it occurs. -/
def quoteFor (s : List Char) : Char :=
  if s.contains '\'' && !s.contains '"' then '"' else '\''

/-- A text between quotes. -/
def quoted (s : String) : String :=
  let q := quoteFor s.toList
  String.ofList (q :: s.toList.flatMap (escape q) ++ [q])

/-! ## Bytes -/

/-- A byte as it is written between the quotes `quote`. -/
def escapeByte (quote : Char) (b : UInt8) : List Char :=
  let c := Char.ofNat b.toNat
  if 0x20 ≤ b.toNat ∧ b.toNat < 0x7F ∨ c = '\t' ∨ c = '\n' ∨ c = '\r' then escape quote c
  else '\\' :: 'x' :: hexDigits 2 b.toNat

/-- Bytes between quotes. -/
def quotedBytes (bytes : List UInt8) : String :=
  let q := quoteFor (bytes.map fun b => Char.ofNat b.toNat)
  String.ofList ('b' :: q :: bytes.flatMap (escapeByte q) ++ [q])

end FieldWiring.Text
