import FieldWiring.Configuration
import FieldWiring.Exclusion
import FieldWiring.Sources
import FieldWiring.Text.Case

/-!
# Scanning a project

The C# sources of a project: every file with a source's name, unless it is excluded or a directory
above it is. Build output and the state of editors are never looked into. The exclude patterns are
the lines of the project's ignore file and then those that the caller adds. Where a system takes no
longer paths, a directory is passed over, and a source ends the scan.

Model of `SourceScanner` and `PathFilter.for_project` (specification, §2):
* `isSourceName` is `_is_source`, and `isAdmitted` says which files `_walk_sources` comes to and
  yields: every directory above is entered, the file itself is not excluded.
* `ignoreLines` are the lines that `for_project` reads, `configuredExcludes` is `_excludes_for`, and
  `scan` is the method `scan`.

Links are left out, and so are errors in reading a source other than a path too long.

Results:
* `mem_sourcesBelow`: which files a scan lists.
* `sorted_sourcesBelow`: a scan lists its files in the order of their paths.
* `unreadable?_eq_none_iff`: when a scan can read all of them.
-/

namespace FieldWiring

/-! ## Names -/

/-- Directories that never hold sources written by hand. -/
def skippedDirectories : List String :=
  [".git", ".hg", ".svn", ".godot", ".mono", ".import", ".vs", ".idea", ".resolvergen", "bin",
    "obj", "node_modules"]

/-- How the names of generated sources end. -/
def generatedEndings : List String := [".g.cs", ".generated.cs", ".designer.cs"]

/-- A name that a source written by hand has. -/
def isSourceName (name : String) : Bool :=
  let lowered := Text.lower name
  Path.suffixOf lowered = ".cs" &&
    !generatedEndings.any fun ending => ending.toList.isSuffixOf lowered.toList

/-- The language of a source. -/
def sourceLanguage : String := "C#"

/-! ## Admission -/

/-- A location below the root in writing. -/
def relativeText (l : Location) : String := "/".intercalate l

/-- The directory at `l` is looked into. -/
def isEntered (patterns : List ExcludePattern) (l : Location) : Bool :=
  !skippedDirectories.contains (l.getLast?.getD "") && !isExcluded patterns (relativeText l) true

/-- The directories above an entry, outermost first; the root is not among them. -/
def directoriesAbove (l : Location) : List Location := (beginnings l).dropLast

/-- The file at `l` is a source of the project. -/
def isAdmitted (patterns : List ExcludePattern) (l : Location) : Bool :=
  isSourceName (l.getLast?.getD "") && !isExcluded patterns (relativeText l) false &&
    (directoriesAbove l).all (isEntered patterns)

/-! ## Scanning -/

/-- Where the root of a project lies: its names as directories list them. -/
def placeOf (root : Location) : Location := (Path.ofLocation root).locate []

/-- The admitted files of the project at `root`, with their locations as seen from it. What a
directory holds is not looked at when the path of the directory is too long. -/
def admittedFiles (t : FileTree) (root : Location) (patterns : List ExcludePattern) :
    List (Location × ByteArray) :=
  (t.filesBelow (placeOf root)).filter fun f =>
    isAdmitted patterns f.1 && !(Path.ofLocation (root ++ f.1.dropLast)).isTooLong

/-- A file as a manifest lists it. -/
def SourceFile.ofEntry (l : Location) (content : ByteArray) : SourceFile :=
  ⟨relativeText l, content.size, sourceLanguage, Sha256.hex content⟩

/-- The sources of the project at `root`, in the order of their paths. -/
def sourcesBelow (t : FileTree) (root : Location) (patterns : List ExcludePattern) :
    List SourceFile :=
  sortFiles ((admittedFiles t root patterns).map fun f => .ofEntry f.1 f.2)

theorem mem_admittedFiles {t : FileTree} {root l : Location} {patterns : List ExcludePattern}
    {content : ByteArray} :
    (l, content) ∈ admittedFiles t root patterns ↔ (l, content) ∈ t.filesBelow (placeOf root) ∧
      isAdmitted patterns l = true ∧ (Path.ofLocation (root ++ l.dropLast)).isTooLong = false := by
  simp [admittedFiles]

theorem mem_sourcesBelow {t : FileTree} {root : Location} {patterns : List ExcludePattern}
    {f : SourceFile} :
    f ∈ sourcesBelow t root patterns ↔
      ∃ l content, (l, content) ∈ admittedFiles t root patterns ∧
        SourceFile.ofEntry l content = f := by
  simp only [sourcesBelow, sortFiles, (perm_sortBy _ _).mem_iff, List.mem_map, Prod.exists]

theorem sorted_sourcesBelow (t : FileTree) (root : Location) (patterns : List ExcludePattern) :
    (sourcesBelow t root patterns).Pairwise fun f g => Text.precedes f.path g.path = true :=
  sorted_sortFiles _

/-- A walk comes to the file at the one location first, or both are the same: the files of a
directory come before those of the directories in it, and either come in the order of their
names. -/
def isMetFirst : Location → Location → Bool
  | [], _ => true
  | _ :: _, [] => false
  | [a], [b] => Text.precedes a b
  | [_], _ :: _ :: _ => true
  | _ :: _ :: _, [_] => false
  | a :: as, b :: bs => if a = b then isMetFirst as bs else Text.precedes a b

/-- The first source that a walk comes to and that cannot be read, because its path is too long. -/
def unreadable? (t : FileTree) (root : Location) (patterns : List ExcludePattern) : Option Path :=
  let met := sortBy isMetFirst ((admittedFiles t root patterns).map (·.1))
  (met.map fun l => Path.ofLocation (root ++ l)).find? (·.isTooLong)

theorem unreadable?_eq_none_iff {t : FileTree} {root : Location} {patterns : List ExcludePattern} :
    unreadable? t root patterns = none ↔
      ∀ l content, (l, content) ∈ admittedFiles t root patterns →
        (Path.ofLocation (root ++ l)).isTooLong = false := by
  simp [unreadable?, (perm_sortBy _ _).mem_iff]

/-- The name of the ignore file of a project. -/
def ignoreName : String := ".gitignore"

/-- The lines of a project's ignore file, none when there is no such file. -/
def ignoreLines (t : FileTree) (root : Location) : Except RunError (List String) := do
  let file := Path.ofLocation (root ++ [ignoreName])
  if ← (t.leadsToFile [] file).mapError .file then
    return Text.splitLines (← t.readText [] file)
  else return []

/-- The exclude lines of a project's configuration; a configuration that says what it may not has
none. -/
def configuredExcludes (t : FileTree) (s : Surroundings) (root : Location) :
    Except RunError (List String) :=
  match Configuration.read t s (.ofLocation root) with
  | .ok c => .ok c.excludePaths
  | .error (.configuration _) => .ok []
  | .error e => .error e

/-- The sources of the project that a path leads to, under the exclude lines given or else those of
its configuration. -/
def scan (t : FileTree) (s : Surroundings) (excludes : Option (List String)) (p : Path) :
    Except RunError SourceManifest := do
  let expanded ← (p.expandHome s.homes).mapError .home
  let root ← s.resolve expanded
  match ← (t.look [] (.ofLocation root)).mapError .file with
  | none => throw (.noProject p)
  | some (.file _) => throw (.noProjectDirectory p)
  | some .directory =>
    let extra ←
      match excludes with
      | some lines => pure lines
      | none => configuredExcludes t s root
    let patterns := parsePatterns ((← ignoreLines t root) ++ extra)
    match unreadable? t root patterns with
    | some file => throw (.file ⟨.nameTooLong, file⟩)
    | none => return ⟨(Path.ofLocation root).text, sourcesBelow t root patterns⟩

end FieldWiring
