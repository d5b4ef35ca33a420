import FieldWiring.Text.Dotted

/-!
# Markers and fields

A field of a type with the attributes written on it. The first argument of a marker, when it is a
string literal, gives the key under which the field's value is looked up: the body of a regular
literal, ready to stand between plain double quotes.

Model of `Marker` and `FieldDeclaration` (specification, §3). `Marker.lookupKey` is the property
`lookup_key`; `Marker.simpleName` is the last part of a name as `GeneratorKind.matches` cuts it.

Results:
* `undouble_doubled`: in a verbatim literal a doubled quote stands for one.
* `lookupKey_nil`: a marker without arguments has the empty key.
-/

namespace FieldWiring

/-- An attribute as written on a field: its name and the texts of its arguments. -/
structure Marker where
  name : String
  arguments : List String := []
deriving DecidableEq, Repr

/-- A field declared on a type. -/
structure Field where
  typeText : String
  name : String
  markers : List Marker := []
  line : Int := 0
deriving DecidableEq, Repr

/-! ## String literals -/

/-- The characters between `@"` and the last quote of a verbatim literal. -/
def verbatimBody? : List Char → Option (List Char)
  | '@' :: '"' :: rest => if rest.getLast? = some '"' then some rest.dropLast else none
  | _ => none

/-- Reads doubled quotes as single ones. -/
def undouble : List Char → List Char
  | '"' :: '"' :: cs => '"' :: undouble cs
  | c :: cs => c :: undouble cs
  | [] => []

/-- Writes every quote twice. -/
def doubled (s : List Char) : List Char := s.flatMap fun c => if c = '"' then ['"', '"'] else [c]

theorem undouble_cons {c : Char} (h : c ≠ '"') (s : List Char) :
    undouble (c :: s) = c :: undouble s := by
  cases s with
  | nil => simp [undouble]
  | cons d ds =>
    rw [undouble]
    intro _ hc
    exact absurd hc h

/-- In a verbatim literal a doubled quote stands for one. -/
theorem undouble_doubled (s : List Char) : undouble (doubled s) = s := by
  induction s with
  | nil => rfl
  | cons c cs ih =>
    by_cases hc : c = '"'
    · have : doubled (c :: cs) = '"' :: '"' :: doubled cs := by simp [doubled, hc]
      rw [this, undouble, ih, hc]
    · have : doubled (c :: cs) = c :: doubled cs := by simp [doubled, hc]
      rw [this, undouble_cons hc, ih]

/-- A character as a regular literal writes it: backslashes and quotes behind a backslash. -/
def escapeLiteral (c : Char) : List Char := if c = '\\' ∨ c = '"' then ['\\', c] else [c]

/-- The body of a regular literal for the literal `text`; any other text loses the quotes at its
ends. -/
def literalBody (text : List Char) : List Char :=
  match verbatimBody? text with
  | some body => (undouble body).flatMap escapeLiteral
  | none => Text.trimBoth (· == '"') text

/-- The key of a marker: its first argument as the body of a regular literal. -/
def Marker.lookupKey (m : Marker) : String :=
  match m.arguments with
  | [] => ""
  | a :: _ => String.ofList (literalBody (Text.trimChars a.toList))

@[simp] theorem Marker.lookupKey_nil (name : String) : (Marker.mk name []).lookupKey = "" := rfl

/-! ## Names -/

/-- The word before a name that is looked up from the root only. -/
def globalLead : List Char := "global::".toList

/-- A name without the word that roots it. -/
def dropGlobal (s : List Char) : List Char := (Text.dropLead? globalLead s).getD s

/-- The last segment of a marker's name. -/
def Marker.simpleName (m : Marker) : String :=
  Text.afterLast '.' (String.ofList (dropGlobal (Text.trimChars m.name.toList)))

end FieldWiring
