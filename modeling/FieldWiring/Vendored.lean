import FieldWiring.Text.Dotted

/-!
# Vendored sources

Paths below a directory such as `addons/` hold other people's code. A segment of directories
excludes a path when it stands in it as whole directory names.

Model of `is_excluded_path` and `DEFAULT_EXCLUDED_SEGMENTS` (specification, §4.1).

Results:
* `occursIn_iff`: occurring is standing somewhere inside.
* `isVendored_nil`: without segments nothing is excluded.
-/

namespace FieldWiring

/-- `part` stands somewhere in a text. -/
def occursIn (part : List Char) : List Char → Bool
  | [] => part.isEmpty
  | c :: cs => part.isPrefixOf (c :: cs) || occursIn part cs

theorem occursIn_iff {part s : List Char} :
    occursIn part s = true ↔ ∃ before after, s = before ++ part ++ after := by
  induction s with
  | nil =>
    simp only [occursIn, List.isEmpty_iff]
    constructor
    · rintro rfl
      exact ⟨[], [], rfl⟩
    · rintro ⟨before, after, h⟩
      have := congrArg List.length h
      simp only [List.length_nil, List.length_append] at this
      exact List.eq_nil_of_length_eq_zero (by omega)
  | cons c cs ih =>
    simp only [occursIn, Bool.or_eq_true, List.isPrefixOf_iff_prefix, ih]
    constructor
    · rintro (⟨after, h⟩ | ⟨before, after, h⟩)
      · exact ⟨[], after, by simpa using h.symm⟩
      · exact ⟨c :: before, after, by simp [h]⟩
    · rintro ⟨before, after, h⟩
      cases before with
      | nil => exact .inl ⟨after, by simpa using h.symm⟩
      | cons d before =>
        simp only [List.cons_append, List.cons.injEq] at h
        exact .inr ⟨before, after, h.2⟩

/-- The characters of a path with slashes for backslashes. -/
def slashed (path : String) : List Char := path.toList.map fun c => if c = '\\' then '/' else c

/-- The segment names directories on the path. -/
def segmentOccurs (path segment : String) : Bool :=
  let cleaned := Text.trimBoth (· == '/') (slashed segment)
  !cleaned.isEmpty &&
    occursIn ('/' :: cleaned ++ ['/']) ('/' :: (slashed path).dropWhile (· == '/'))

/-- The path lies below one of the segments. -/
def isVendored (path : String) (excluded : List String) : Bool :=
  excluded.any (segmentOccurs path)

@[simp] theorem isVendored_nil (path : String) : isVendored path [] = false := rfl

/-- The segments that are excluded unless a project says otherwise. -/
def defaultExcluded : List String := ["addons/"]

end FieldWiring
