import FieldWiring.Generation

/-!
# The dump of a run

The reports about all candidates of a run as one text, and writing it. A dump that cannot be written
is noted and does not end the run.

Model of `DiagnosticsCollector`: `dumpText` is `render` and `writeDump` is `flush` (specification,
§6).

Results:
* `dumpText_nil`: a run without candidates has a dump of one line.
* `dumpLines_append`: the reports of two runs stand one after the other.
-/

namespace FieldWiring

/-- The first line of a dump. -/
def dumpHeader : String := "=== GENERATION RUN ==="

/-- The lines of a dump. -/
def dumpLines (reports : List CandidateReport) : List String :=
  dumpHeader :: reports.flatMap (·.lines)

/-- The text of a dump. -/
def dumpText (reports : List CandidateReport) : String :=
  String.join ((dumpLines reports).map (· ++ "\n"))

theorem dumpText_nil : dumpText [] = dumpHeader ++ "\n" := by
  simp [dumpText, dumpLines, String.join]

theorem dumpLines_append (rs ss : List CandidateReport) :
    dumpLines (rs ++ ss) = dumpLines rs ++ ss.flatMap (·.lines) := by
  simp [dumpLines]

/-- Writes a dump. -/
def writeDump (here : Location) (path : Path) (reports : List CandidateReport) :
    FileAction Unit := do
  FileAction.ensureDirectories here path.parent
  FileAction.writeText here path (dumpText reports)

/-- What is noted about a dump. -/
def dumpNote (path : Path) : Option FileError → Note
  | none => ⟨.debug, "diagnostics", "Wrote debug dump to " ++ path.text⟩
  | some e =>
    ⟨.warning, "diagnostics", "Could not write debug dump " ++ path.text ++ ": " ++ e.message⟩

end FieldWiring
