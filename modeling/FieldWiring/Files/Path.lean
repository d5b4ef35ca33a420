import FieldWiring.Files.Name
import FieldWiring.Text.Dotted

/-!
# Paths

A path as its start and its parts. A text is cut at its slashes; empty parts and single dots say
nothing and are dropped. Two dots are kept: what they mean is decided where a path is followed, or
by `locate`, which takes them as a step to the parent.

Results:
* `parts_ofText`: no part of a path that was read is empty or a single dot.
* `join_of_absolute`: a path from the root does not depend on what it is joined to.
* `parent_join_part`: the parent of an entry of a directory is that directory.
-/

namespace FieldWiring

/-- Where a path starts: where one is, or at the root. A root written with exactly two slashes keeps
them. -/
inductive PathStart where
  | here
  | root
  | doubleRoot
deriving DecidableEq, Repr

/-- What a path begins with in writing. -/
def PathStart.text : PathStart → String
  | here => ""
  | root => "/"
  | doubleRoot => "//"

/-- A path to a file or directory. -/
structure Path where
  start : PathStart := .here
  parts : List String := []
deriving DecidableEq, Repr

/-- The names that lead from the root to an entry. -/
abbrev Location := List String

namespace Path

/-! ## Reading and writing -/

/-- Where a text starts. -/
def startOf : List Char → PathStart
  | '/' :: '/' :: '/' :: _ => .root
  | '/' :: '/' :: _ => .doubleRoot
  | '/' :: _ => .root
  | _ => .here

/-- A part that leads somewhere. -/
def isStep (part : String) : Bool := part ≠ "" && part ≠ "."

/-- The path that a text writes. -/
def ofText (s : String) : Path := ⟨startOf s.toList, (Text.splitAt '/' s).filter isStep⟩

theorem parts_ofText {s part : String} (h : part ∈ (ofText s).parts) : part ≠ "" ∧ part ≠ "." := by
  have := (List.mem_filter.1 h).2
  simpa [isStep] using this

/-- The path to a location. -/
def ofLocation (l : Location) : Path := ⟨.root, l⟩

/-- A path in writing; the empty one is a single dot. -/
def text (p : Path) : String :=
  if p.start = .here ∧ p.parts = [] then "." else p.start.text ++ "/".intercalate p.parts

/-! ## Taking apart and putting together -/

/-- A path that starts at the root. -/
def isAbsolute (p : Path) : Bool := p.start ≠ .here

/-- The path `q` as seen from `p`. -/
def join (p q : Path) : Path := if q.isAbsolute then q else { p with parts := p.parts ++ q.parts }

theorem join_of_absolute {p q : Path} (h : q.isAbsolute = true) : p.join q = q := by
  simp [join, h]

/-- The path that a text writes, as seen from `p`. -/
def joinText (p : Path) (s : String) : Path := p.join (ofText s)

/-- The path without its last part. -/
def parent (p : Path) : Path := { p with parts := p.parts.dropLast }

theorem parent_join_part (p : Path) (part : String) : (p.join ⟨.here, [part]⟩).parent = p := by
  simp [join, isAbsolute, parent]

/-- The last part; the empty text when there is none. -/
def name (p : Path) : String := p.parts.getLast?.getD ""

/-- A name from its last dot on, unless the dot begins or ends the name. -/
def suffixOf (name : String) : String :=
  let ending := name.toList.reverse.takeWhile (· != '.')
  if ending.isEmpty || name.length ≤ ending.length + 1 then ""
  else "." ++ String.ofList ending.reverse

/-- The path as seen from `q`, when `q` leads to a directory above it. -/
def relativeTo? (p q : Path) : Option Path :=
  if p.start = q.start ∧ q.parts.isPrefixOf p.parts then some ⟨.here, p.parts.drop q.parts.length⟩
  else none

/-! ## Locations -/

/-- Some part holds a NUL character, which no name does. -/
def holdsNul (p : Path) : Bool := p.parts.any fun part => part.toList.contains (Char.ofNat 0)

/-- Some part cannot be the name of a file. -/
def lacksEncoding (p : Path) : Bool := p.parts.any FileName.isUnencodable

/-- A whole path has fewer bytes than this. -/
def maxBytes : Nat := 4096

/-- The path has more bytes in writing than a system takes. -/
def isTooLong (p : Path) : Bool := maxBytes ≤ FileName.size p.text

/-- Goes along a part; two dots lead to the parent. An entry is found under any name of its file. -/
def along (l : Location) (part : String) : Location :=
  if part = ".." then l.dropLast else l ++ [FileName.onDisk part]

/-- The location of a path when one is at `here`. -/
def locate (here : Location) (p : Path) : Location :=
  p.parts.foldl along (if p.isAbsolute then [] else here)

/-- The names from the root on that a path writes when one is at `here`, as it spells them. -/
def spelledFrom (here : Location) (p : Path) : List String :=
  p.parts.foldl (fun l part => if part = ".." then l.dropLast else l ++ [part])
    (if p.isAbsolute then [] else here)

end Path

/-! ## Home directories -/

/-- The home directory of the caller and those of the accounts. -/
structure Homes where
  own : String := "/root"
  accounts : List (String × String) := [("root", "/root")]

/-- Why a path has no home directory in place of its first part. -/
inductive HomeError where
  | unknownAccount
  | nulByte
  | noEncoding
deriving DecidableEq, Repr

/-- The home directories of the accounts in a table, which has a line with seven fields between
colons for each of them. -/
def Homes.readAccounts (table : String) : List (String × String) :=
  (Text.splitAt '\n' table).filterMap fun line =>
    match Text.splitAt ':' line with
    | [name, _, _, _, _, home, _] => some (name, home)
    | _ => none

/-- The home directory that a part after a tilde names. -/
def Homes.find (homes : Homes) (account : String) : Except HomeError String :=
  if account = "" then .ok homes.own
  else if FileName.isUnencodable account then .error .noEncoding
  else if account.toList.contains (Char.ofNat 0) then .error .nulByte
  else
    match homes.accounts.lookup account with
    | some home => .ok home
    | none => .error .unknownAccount

/-- The directory that a part after a tilde stands for. The slashes at the end of its name say
nothing but in the root's, and a name that begins with a tilde itself stands for none. -/
def Homes.directory (homes : Homes) (account : String) : Except HomeError Path := do
  match Text.trimEnd (· == '/') (← homes.find account).toList with
  | [] => return ⟨.root, []⟩
  | '~' :: _ => throw .unknownAccount
  | home => return Path.ofText (String.ofList home)

/-- A path with the home directory in place of a first part that begins with a tilde. -/
def Path.expandHome (homes : Homes) (p : Path) : Except HomeError Path :=
  match p with
  | ⟨.here, first :: rest⟩ =>
    match first.toList with
    | '~' :: account => do
      let home ← homes.directory (String.ofList account)
      return home.join ⟨.here, rest⟩
    | _ => .ok p
  | _ => .ok p

end FieldWiring
