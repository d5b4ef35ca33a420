import FieldWiring.Text.Blank

/-!
# Lines

`unixLines` writes every line end as a line feed, as text files are read. `splitLines` cuts a text
into lines at all the characters that end one, among them form feeds and the Unicode separators.

Results:
* `unixLines_noReturn`: no carriage return is left.
* `unixLinesChars_eq_self`: a text without carriage returns stays as it is.
-/

namespace FieldWiring.Text

/-- Writes carriage returns, alone or before a line feed, as line feeds. -/
def unixLinesChars : List Char → List Char
  | [] => []
  | '\r' :: '\n' :: cs => '\n' :: unixLinesChars cs
  | c :: cs => (if c = '\r' then '\n' else c) :: unixLinesChars cs

/-- A text with line feeds for line ends. -/
def unixLines (s : String) : String := String.ofList (unixLinesChars s.toList)

theorem unixLines_noReturn (s : List Char) : '\r' ∉ unixLinesChars s := by
  fun_induction unixLinesChars s with
  | case1 => simp
  | case2 cs ih => simp [ih]
  | case3 c cs _ ih => by_cases h : c = '\r' <;> simp [h, ih, Ne.symm]

theorem unixLinesChars_eq_self {s : List Char} (h : '\r' ∉ s) : unixLinesChars s = s := by
  fun_induction unixLinesChars s with
  | case1 => rfl
  | case2 cs ih => simp at h
  | case3 c cs _ ih =>
    simp only [List.mem_cons, not_or] at h
    rw [ih h.2, if_neg (Ne.symm h.1)]

/-- The characters that end a line. -/
def isLineEnd (c : Char) : Bool :=
  inRanges [(0x0A, 0x0D), (0x1C, 0x1E), (0x85, 0x85), (0x2028, 0x2029)] c.toNat

/-- The lines of a text; a line end at the very end begins no further line. -/
def splitLines (s : String) : List String :=
  let ps := pieces isLineEnd (unixLinesChars s.toList)
  ((if ps.getLast? = some [] then ps.dropLast else ps)).map String.ofList

end FieldWiring.Text
