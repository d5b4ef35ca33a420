import FieldWiring.Files.Tree
import FieldWiring.Text.Quoted
import FieldWiring.Text.Utf8

/-!
# Access to files

Reading and changing a file tree by paths, and why that fails. A path is followed name by name:
every name but the last has to lead to a directory, and two dots lead to the parent of a directory
that is there. An action that fails leaves what it did before it failed.

Actions and the order of their causes are those of the system's calls; links and permissions are
left out.

Results:
* `write_other`, `remove_other`: writing or removing a file changes its own location alone.
-/

namespace FieldWiring

/-! ## Failures -/

/-- Why a path cannot be used as asked. -/
inductive FileCause where
  | notFound
  | notDirectory
  | isDirectory
  | alreadyExists
  | nameTooLong
  | nulByte
  | noEncoding
deriving DecidableEq, Repr

/-- A failure and the path that it concerns. -/
structure FileError where
  cause : FileCause
  path : Path
deriving DecidableEq, Repr

/-- The name of a failure in reports. -/
def FileCause.label : FileCause → String
  | notFound => "FileNotFoundError"
  | notDirectory => "NotADirectoryError"
  | isDirectory => "IsADirectoryError"
  | alreadyExists => "FileExistsError"
  | nameTooLong => "OSError"
  | nulByte => "ValueError"
  | noEncoding => "UnicodeEncodeError"

/-- No system could do what was asked, whatever files it holds. -/
def FileCause.isUnwritable (c : FileCause) : Bool := c = .nulByte || c = .noEncoding

/-- A failure in words. -/
def FileError.message (e : FileError) : String :=
  let about number words := "[Errno " ++ number ++ "] " ++ words ++ ": " ++ Text.quoted e.path.text
  match e.cause with
  | .notFound => about "2" "No such file or directory"
  | .notDirectory => about "20" "Not a directory"
  | .isDirectory => about "21" "Is a directory"
  | .alreadyExists => about "17" "File exists"
  | .nameTooLong => about "36" "File name too long"
  | .nulByte => "embedded null byte"
  | .noEncoding => "the name has no encoding"

/-! ## Following paths -/

namespace FileTree

/-- Follows names from a location. Where the last one leads there need not be an entry. -/
def follow (t : FileTree) : Location → List String → Except FileCause Location
  | l, [] => .ok l
  | l, part :: rest =>
    match t.find? l with
    | none => .error .notFound
    | some (.file _) => .error .notDirectory
    | some .directory =>
      if FileName.isTooLong part then .error .nameTooLong else t.follow (Path.along l part) rest

/-- The location that a path leads to when one is at `here`. -/
def reach (t : FileTree) (here : Location) (p : Path) : Except FileError Location :=
  let cause? : Except FileCause Location :=
    if p.lacksEncoding then .error .noEncoding
    else if p.holdsNul then .error .nulByte
    else if p.isTooLong then .error .nameTooLong
    else t.follow (if p.isAbsolute then [] else here) p.parts
  cause?.mapError (⟨·, p⟩)

/-! ## Reading -/

/-- What a path leads to. Nothing, when the way there does not exist either. -/
def look (t : FileTree) (here : Location) (p : Path) : Except FileError (Option Entry) :=
  match t.reach here p with
  | .ok l => .ok (t.find? l)
  | .error ⟨.nameTooLong, q⟩ => .error ⟨.nameTooLong, q⟩
  | .error _ => .ok none

/-- A path leads to a directory. -/
def leadsToDirectory (t : FileTree) (here : Location) (p : Path) : Except FileError Bool :=
  return (← t.look here p) = some .directory

/-- A path leads to a file. -/
def leadsToFile (t : FileTree) (here : Location) (p : Path) : Except FileError Bool := do
  match ← t.look here p with
  | some (.file _) => return true
  | _ => return false

/-- The bytes of the file that a path leads to. -/
def read (t : FileTree) (here : Location) (p : Path) : Except FileError ByteArray := do
  match t.find? (← t.reach here p) with
  | some (.file content) => .ok content
  | some .directory => .error ⟨.isDirectory, p⟩
  | none => .error ⟨.notFound, p⟩

/-! ## Single changes -/

/-- The tree with bytes in the file that a path leads to, which need not be there before. -/
def write (t : FileTree) (here : Location) (p : Path) (content : ByteArray) :
    Except FileError FileTree := do
  let l ← t.reach here p
  if t.isDirectory l then .error ⟨.isDirectory, p⟩ else .ok (t.put l (.file content))

/-- The tree with bytes behind those of the file that a path leads to, which need not be there
before. -/
def append (t : FileTree) (here : Location) (p : Path) (content : ByteArray) :
    Except FileError FileTree := do
  match t.find? (← t.reach here p) with
  | some (.file before) => t.write here p (before ++ content)
  | _ => t.write here p content

/-- The tree without the file that a path leads to. -/
def remove (t : FileTree) (here : Location) (p : Path) : Except FileError FileTree := do
  let l ← t.reach here p
  match t.find? l with
  | some (.file _) => .ok (t.erase l)
  | some .directory => .error ⟨.isDirectory, p⟩
  | none => .error ⟨.notFound, p⟩

/-- The tree with a new directory where a path leads. -/
def addDirectory (t : FileTree) (here : Location) (p : Path) : Except FileError FileTree := do
  let l ← t.reach here p
  match t.find? l with
  | some _ => .error ⟨.alreadyExists, p⟩
  | none => .ok (t.put l .directory)

theorem write_other {t u : FileTree} {here l k : Location} {p : Path} {content : ByteArray}
    (hl : t.reach here p = .ok l) (h : t.write here p content = .ok u) (hk : k ≠ l) :
    u.find? k = t.find? k := by
  simp only [write, hl, bind, Except.bind] at h
  split at h
  · cases h
  · cases h
    exact find?_put_of_ne hk

theorem remove_other {t u : FileTree} {here l k : Location} {p : Path}
    (hl : t.reach here p = .ok l) (h : t.remove here p = .ok u) (hk : k ≠ l) :
    u.find? k = t.find? k := by
  simp only [remove, hl, bind, Except.bind] at h
  split at h
  · cases h
    exact find?_erase_of_ne hk
  · cases h
  · cases h

end FileTree

/-! ## Actions -/

/-- A course of changes to a file tree, which may fail on the way. -/
abbrev FileAction := ExceptT FileError (StateM FileTree)

namespace FileAction

/-- A single change as an action; it does nothing when it fails. -/
def change (f : FileTree → Except FileError FileTree) : FileAction Unit := fun t =>
  match f t with
  | .ok u => (.ok (), u)
  | .error e => (.error e, t)

/-- A question as an action; it changes nothing. -/
def ask {α : Type} (f : FileTree → Except FileError α) : FileAction α := fun t => (f t, t)

/-- Writes a text into a file, which is left empty when the text has no encoding. -/
def writeText (here : Location) (p : Path) (text : String) : FileAction Unit :=
  match Text.encode? text with
  | none => do
    change fun t => t.write here p .empty
    throw ⟨.noEncoding, p⟩
  | some bytes => change fun t => t.write here p bytes

/-- Makes a directory unless one is there. -/
def ensureDirectory (here : Location) (p : Path) (orElse : FileError → FileAction Unit) :
    FileAction Unit := fun t =>
  match t.addDirectory here p with
  | .ok u => (.ok (), u)
  | .error e =>
    if e.cause = .notFound then orElse e t
    else if e.cause = .nulByte then (.error e, t)
    else
      match t.leadsToDirectory here p with
      | .ok true => (.ok (), t)
      | _ => (.error e, t)

/-- Makes a directory and those above it, as far as they are missing. -/
def ensureDirectories (here : Location) (p : Path) : FileAction Unit :=
  ensureDirectory here p fun e =>
    if _h : p.parts = [] then throw e
    else do
      ensureDirectories here p.parent
      ensureDirectory here p throw
termination_by p.parts.length
decreasing_by
  simp only [Path.parent, List.length_dropLast]
  have := List.length_pos_iff.2 _h
  omega

end FileAction

end FieldWiring
