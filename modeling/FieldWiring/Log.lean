/-!
# Notes of a run

What a run says about its course, and the two forms in which it is written: for the console, which
shows what is urgent enough, and for a log file, which takes everything.

Model of the records, levels and two formats of `configure_logging` (specification, §10).

Results:
* `Urgency.shown_trans`: what a strict threshold shows, a laxer one shows too.
-/

namespace FieldWiring

/-- How urgent a note is. -/
inductive Urgency where
  | debug
  | info
  | warning
deriving DecidableEq, Repr

namespace Urgency

/-- The word for an urgency. -/
def word : Urgency → String
  | debug => "DEBUG"
  | info => "INFO"
  | warning => "WARNING"

/-- Urgencies as numbers, more urgent ones higher. -/
def rank : Urgency → Nat
  | debug => 0
  | info => 1
  | warning => 2

/-- Notes of this urgency are shown under a threshold. -/
def isShown (threshold u : Urgency) : Bool := threshold.rank ≤ u.rank

theorem shown_trans {s t u : Urgency} (h : s.isShown t = true) (k : t.isShown u = true) :
    s.isShown u = true := by
  simp only [isShown, decide_eq_true_eq] at *
  exact Nat.le_trans h k

end Urgency

/-- Something that a part of the program says about the course of a run. -/
structure Note where
  urgency : Urgency
  speaker : String
  text : String
deriving DecidableEq, Repr

namespace Note

/-- A note as a line on the console. -/
def consoleLine (n : Note) : String := "[resolvergen] " ++ n.urgency.word ++ " " ++ n.text ++ "\n"

/-- A note as a line in a log file, after the time at which it was made. -/
def fileLine (time : String) (n : Note) : String :=
  time ++ " " ++ n.urgency.word ++ " resolvergen." ++ n.speaker ++ ": " ++ n.text ++ "\n"

end Note

end FieldWiring
