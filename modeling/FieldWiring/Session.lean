import FieldWiring.Log
import FieldWiring.RunError

/-!
# Sessions

The state in which a run takes place: the files, what was noted, and the log file that takes the
notes as they are made. A log file that is removed takes no more notes, even if a file of its name
comes back.

Model of the handlers that `configure_logging` attaches, as far as they touch files (specification,
§10).

Results:
* `note_files`: without a log file a note changes no file.
* `note_notes`: a note comes behind those before it.
-/

namespace FieldWiring

/-- The times that a run writes: the one in manifests, and the one before a line of a log file. -/
structure Clock where
  updated : String := ""
  logged : String := ""
deriving DecidableEq, Repr

/-- The files at some moment of a run, the notes so far and the log file. -/
structure Session where
  files : FileTree
  notes : List Note := []
  logFile : Option Location := none

namespace Session

/-- The session with a line behind those of its log file. -/
def logLine (s : Session) (line : String) : Session :=
  match s.logFile with
  | none => s
  | some l =>
    match s.files.find? l with
    | some (.file before) => { s with files := s.files.put l (.file (before ++ line.toUTF8)) }
    | _ => { s with logFile := none }

/-- The session with a further note. -/
def note (clock : Clock) (n : Note) (s : Session) : Session :=
  { s.logLine (n.fileLine clock.logged) with notes := s.notes ++ [n] }

theorem note_notes (clock : Clock) (n : Note) (s : Session) :
    (s.note clock n).notes = s.notes ++ [n] := rfl

theorem note_files {clock : Clock} {n : Note} {s : Session} (h : s.logFile = none) :
    (s.note clock n).files = s.files := by
  simp [note, logLine, h]

end Session

/-- A course of changes to a session, which may end early. -/
abbrev Course (α : Type) := ExceptT RunError (StateM Session) α

namespace Course

/-- Notes something. -/
def note (clock : Clock) (n : Note) : Course Unit := fun s => (.ok (), s.note clock n)

/-- A question about the files; it changes nothing. -/
def ask {α : Type} (f : FileTree → Except RunError α) : Course α := fun s => (f s.files, s)

/-- An action on the files. What it did before it failed stays done. -/
def act {α : Type} (a : FileAction α) : Course α := fun s =>
  let (result, files) := a.run.run s.files
  (result.mapError .file, { s with files })

/-- An action on the files whose failure does not end the course. -/
def attempt {α : Type} (a : FileAction α) : Course (Except FileError α) := fun s =>
  let (result, files) := a.run.run s.files
  (.ok result, { s with files })

end Course

end FieldWiring
