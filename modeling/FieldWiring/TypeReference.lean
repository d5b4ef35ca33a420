import FieldWiring.Marker

/-!
# References to types

A reference to a type as written, such as `global::A.Base<int, List<string>>`: its name without the
type arguments, the number of these, and the identifiers that occur in it.

Model of `TypeReference` with its properties `name` and `arity` (specification, §3), and of
`identifiers_in`, which is `identifiersIn`.

Results:
* `identifiers_ascii`: an identifier holds letters, digits and underscores only.
-/

namespace FieldWiring

/-- A reference to a type, as written. -/
structure TypeReference where
  text : String
deriving DecidableEq, Repr

namespace TypeReference

/-- The characters outside of angle brackets that are no blanks; `depth` counts the brackets open
so far. -/
def outerChars : (depth : Int) → List Char → List Char
  | _, [] => []
  | depth, c :: cs =>
    if c = '<' then outerChars (depth + 1) cs
    else if c = '>' then outerChars (depth - 1) cs
    else if depth = 0 ∧ Text.isBlank c = false then c :: outerChars depth cs
    else outerChars depth cs

/-- The openings of a list at depth one and the commas in it. -/
def countArguments : (depth : Int) → List Char → Nat
  | _, [] => 0
  | depth, c :: cs =>
    if c = '<' then (if depth = 0 then 1 else 0) + countArguments (depth + 1) cs
    else if c = '>' then countArguments (depth - 1) cs
    else (if c = ',' ∧ depth = 1 then 1 else 0) + countArguments depth cs

/-- The name that a reference looks up, without type arguments and without the mark of a nullable
type. -/
def name (r : TypeReference) : String :=
  String.ofList (Text.trimEnd (· == '?') (outerChars 0 (dropGlobal (Text.trimChars r.text.toList))))

/-- The number of type arguments. -/
def arity (r : TypeReference) : Nat := countArguments 0 r.text.toList

/-- The reference is looked up from the root only. -/
def isRooted (r : TypeReference) : Bool := globalLead.isPrefixOf (Text.trimChars r.text.toList)

end TypeReference

/-! ## Identifiers -/

/-- A character that begins an identifier. -/
def isIdentifierStart (c : Char) : Bool := c.isAlpha || c == '_'

/-- A character inside an identifier. -/
def isIdentifierChar (c : Char) : Bool := c.isAlphanum || c == '_'

/-- The identifiers of a text, read from left to right; `open?` is the one being read, last
character first. -/
def identifiersFrom (open? : Option (List Char)) : List Char → List String
  | [] => (open?.map fun w => String.ofList w.reverse).toList
  | c :: cs =>
    match open? with
    | some w =>
      if isIdentifierChar c then identifiersFrom (some (c :: w)) cs
      else String.ofList w.reverse :: identifiersFrom none cs
    | none => identifiersFrom (if isIdentifierStart c then some [c] else none) cs

/-- The identifiers that a type text mentions, in order. -/
def identifiersIn (text : String) : List String := identifiersFrom none text.toList

theorem identifiers_ascii_from {cs : List Char} {w : Option (List Char)} {s : String}
    (hw : ∀ v ∈ w, ∀ c ∈ v, isIdentifierChar c = true) (h : s ∈ identifiersFrom w cs) :
    ∀ c ∈ s.toList, isIdentifierChar c = true := by
  induction cs generalizing w with
  | nil =>
    simp only [identifiersFrom, Option.mem_toList, Option.map_eq_some_iff] at h
    obtain ⟨v, hv, rfl⟩ := h
    intro c hc
    exact hw v (by simpa using hv) c (by simpa using hc)
  | cons d ds ih =>
    cases w with
    | none =>
      refine ih ?_ h
      intro v hv c hc
      split at hv
      · rename_i hd
        simp only [Option.mem_def, Option.some.injEq] at hv
        subst hv
        simp only [List.mem_singleton] at hc
        subst hc
        simp only [isIdentifierStart, Bool.or_eq_true] at hd
        rcases hd with hd | hd
        · simp [isIdentifierChar, Char.isAlphanum, hd]
        · simp [isIdentifierChar, hd]
      · simp at hv
    | some v =>
      simp only [identifiersFrom] at h
      split at h
      · rename_i hd
        refine ih ?_ h
        intro u hu c hc
        simp only [Option.mem_def, Option.some.injEq] at hu
        subst hu
        rcases List.mem_cons.1 hc with rfl | hc
        · exact hd
        · exact hw v rfl c hc
      · rcases List.mem_cons.1 h with rfl | h
        · intro c hc
          exact hw v rfl c (by simpa using hc)
        · exact ih (by simp) h

/-- An identifier holds letters, digits and underscores only. -/
theorem identifiers_ascii {text s : String} (h : s ∈ identifiersIn text) :
    ∀ c ∈ s.toList, isIdentifierChar c = true :=
  identifiers_ascii_from (by simp) h

end FieldWiring
