import FieldWiring.Glob
import FieldWiring.Text.Dotted

/-!
# Exclude patterns

One pattern stands on a line of an ignore file or of the configuration: `!` before it includes
again, a slash behind it restricts it to directories, a slash before it ties it to the root. The
last pattern that applies to an entry decides.

Model of `parse_pattern`, which is `parse?`, of `ExcludePattern.matches`, which is `applies`, and of
`PathFilter.excluded`, which is `isExcluded` (specification, §2).

Results:
* `isExcluded_append`: a further pattern decides when it applies, and else changes nothing.
-/

namespace FieldWiring

/-- A pattern with what its line says about it; `glob` holds no slash at its ends. -/
structure ExcludePattern where
  glob : String
  isNegated : Bool := false
  dirOnly : Bool := false
  isAnchored : Bool := false
deriving DecidableEq, Repr

namespace ExcludePattern

/-- The pattern on a line; blank lines and comments hold none. -/
def parse? (line : String) : Option ExcludePattern :=
  let text := Text.trimChars line.toList
  if text.isEmpty || text.head? = some '#' then none
  else
    let rest := text.dropWhile (· == '!')
    let glob := Text.trimBoth (· == '/') rest
    if glob.isEmpty then none
    else
      some
        { glob := String.ofList glob
          isNegated := text.head? = some '!'
          dirOnly := rest.getLast? = some '/'
          isAnchored := rest.head? = some '/' }

/-- The pattern speaks about whole paths, not about the names in them. -/
def isPath (p : ExcludePattern) : Bool := p.isAnchored || p.glob.toList.contains '/'

/-- The pattern applies to the entry at a path from the root. -/
def applies (p : ExcludePattern) (path : String) (isDir : Bool) : Bool :=
  (isDir || !p.dirOnly) &&
    if p.isPath then Glob.accepts p.glob path
    else (Text.splitAt '/' path).any (Glob.accepts p.glob)

end ExcludePattern

/-- The patterns on lines. -/
def parsePatterns (lines : List String) : List ExcludePattern :=
  lines.filterMap ExcludePattern.parse?

/-- The last pattern that applies to the entry excludes it. -/
def isExcluded (patterns : List ExcludePattern) (path : String) (isDir : Bool) : Bool :=
  match patterns.reverse.find? fun p => p.applies path isDir with
  | some p => !p.isNegated
  | none => false

theorem isExcluded_append (patterns : List ExcludePattern) (p : ExcludePattern) (path : String)
    (isDir : Bool) :
    isExcluded (patterns ++ [p]) path isDir =
      if p.applies path isDir then !p.isNegated else isExcluded patterns path isDir := by
  cases h : p.applies path isDir <;> simp [isExcluded, h]

end FieldWiring
