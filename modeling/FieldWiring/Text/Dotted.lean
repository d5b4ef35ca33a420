import FieldWiring.Text.Blank

/-!
# Dotted names

Names such as `A.B.C` as the list of their segments: `segments` cuts at every dot and `dotted`
writes the dots back. `leadingNames` lists the leading parts of a name and `enclosingScopes` the
scopes that enclose a place in a namespace, innermost first.

Results:
* `intercalate_pieces`: cutting a text at a character and writing it back gives the text.
* `qualify_empty`: a name placed in the root keeps its text.
-/

namespace FieldWiring.Text

/-- The pieces of a text between the occurrences of `c`. -/
def splitAt (c : Char) (s : String) : List String :=
  (pieces (· == c) s.toList).map String.ofList

theorem splitAt_ne_nil (c : Char) (s : String) : splitAt c s ≠ [] := by
  simp [splitAt, pieces_ne_nil]

/-- A text cut at the first occurrence of `c`: what stands before it and what after it. -/
def cutAt (c : Char) (s : String) : String × String :=
  (String.ofList (s.toList.takeWhile (· != c)),
   String.ofList ((s.toList.dropWhile (· != c)).drop 1))

/-- The part of a text after the last occurrence of `c`: all of it when `c` does not occur. -/
def afterLast (c : Char) (s : String) : String :=
  String.ofList (s.toList.reverse.takeWhile (· != c)).reverse

/-- A text with `new` in place of every `old`. -/
def replaceChar (old new : Char) (s : String) : String :=
  String.ofList (s.toList.map fun c => if c = old then new else c)

/-- `s` without the text `lead` before it, when it begins with it. -/
def dropLead? (lead s : List Char) : Option (List Char) :=
  if lead.isPrefixOf s then some (s.drop lead.length) else none

theorem intercalate_pieces (c : Char) (s : List Char) :
    [c].intercalate (pieces (· == c) s) = s := by
  induction s with
  | nil => rfl
  | cons d ds ih =>
    simp only [pieces]
    split
    · rename_i h
      have h : d = c := by simpa using h
      subst h
      cases hp : pieces (· == d) ds with
      | nil => exact absurd hp (pieces_ne_nil _ _)
      | cons w ws => rw [hp] at ih; simp [List.intercalate, List.intersperse, ← ih]
    · split
      · rename_i heq
        exact absurd heq (pieces_ne_nil _ _)
      · rename_i w ws heq
        rw [heq] at ih
        cases ws with
        | nil => simpa [List.intercalate, List.intersperse] using ih
        | cons v vs => simpa [List.intercalate, List.intersperse] using ih

end FieldWiring.Text

namespace FieldWiring

/-- The segments of a dotted name; the empty name has none. -/
def segments (name : String) : List String :=
  if name = "" then [] else Text.splitAt '.' name

/-- Segments joined by dots. -/
def dotted (parts : List String) : String := ".".intercalate parts

/-- `name` placed in `scope`; the empty scope is the root. -/
def qualify (scope name : String) : String :=
  if scope = "" then name else scope ++ "." ++ name

@[simp] theorem qualify_empty (name : String) : qualify "" name = name := by simp [qualify]

/-- The non-empty beginnings of a list, shortest first. -/
def beginnings {α : Type} : List α → List (List α)
  | [] => []
  | a :: as => [a] :: (beginnings as).map (a :: ·)

/-- The names made of the first one, two, … segments of a name. -/
def leadingNames (name : String) : List String :=
  (beginnings (segments name)).map dotted

/-- The scopes around a place in `namespaceName`: the namespace itself first, the root last. -/
def enclosingScopes (namespaceName : String) : List String :=
  (leadingNames namespaceName).reverse ++ [""]

end FieldWiring
