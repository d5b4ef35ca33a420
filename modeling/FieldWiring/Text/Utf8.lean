import FieldWiring.Text.Lines

/-!
# Text in files

Reading bytes as UTF-8: strictly (`decode?`), without the mark that some editors put before a text
(`dropMark`), and with line feeds for all line ends (`readText?`).

Results:
* `decode?_toUTF8`: a written text is read back.
-/

namespace FieldWiring.Utf8

/-- The text that bytes write in UTF-8, when they do. -/
def decode? (bytes : ByteArray) : Option String := String.fromUTF8? bytes

theorem decode?_toUTF8 (s : String) : decode? s.toUTF8 = some s := by
  simp only [decode?, String.fromUTF8?]
  split
  · rfl
  · rename_i h
    exact absurd s.isValidUTF8 h

/-- The text of a file, with line feeds for its line ends. -/
def readText? (bytes : ByteArray) : Option String := (decode? bytes).map Text.unixLines

/-- The byte order mark as a character. -/
def mark : Char := Char.ofNat 0xFEFF

/-- A text without one byte order mark before it. -/
def dropMark (s : String) : String :=
  match s.toList with
  | c :: cs => if c = mark then String.ofList cs else s
  | [] => s

end FieldWiring.Utf8
