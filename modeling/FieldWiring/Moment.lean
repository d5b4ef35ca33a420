import FieldWiring.Session

/-!
# Moments

A moment of universal time as a date and a time of day, and the two forms in which a run writes it:
in manifests, and before the lines of a log file. Years are counted from March on, so that a leap
day is the last day of its year.

`manifestText` is the form of `_store_manifest`, and `logText` that of `configure_logging`.

Results:
* `month_le`: a date has one of twelve months.
* `nanoseconds_eq`: no part of a moment is lost.
-/

namespace FieldWiring

/-- A number of nanoseconds since the beginning of 1970. -/
structure Moment where
  nanoseconds : Nat
deriving DecidableEq, Repr

/-- A day of the calendar. -/
structure CivilDate where
  year : Nat
  month : Nat
  day : Nat
deriving DecidableEq, Repr

/-- The year that a day lies in and its place there, when it lies `days` days behind the first of
March of the year 0. Of four centuries and of four years, the last one takes the day that is left
over. -/
def yearAndDay (days : Nat) : Nat × Nat :=
  let inEra := days % 146097
  let century := min 3 (inEra / 36524)
  let inCentury := inEra - 36524 * century
  let inQuad := inCentury % 1461
  let year := min 3 (inQuad / 365)
  (400 * (days / 146097) + 100 * century + 4 * (inCentury / 1461) + year, inQuad - 365 * year)

theorem yearAndDay_le (days : Nat) : (yearAndDay days).2 ≤ 365 := by
  simp only [yearAndDay]
  omega

/-- The day that lies `days` days behind the first of March of the year 0. Five months from March or
August on have 153 days. -/
def CivilDate.ofMarchDays (days : Nat) : CivilDate :=
  let (year, day) := yearAndDay days
  let monthFromMarch := (5 * day + 2) / 153
  { year := if monthFromMarch < 10 then year else year + 1
    month := if monthFromMarch < 10 then monthFromMarch + 3 else monthFromMarch - 9
    day := day - (153 * monthFromMarch + 2) / 5 + 1 }

theorem CivilDate.month_le (days : Nat) :
    1 ≤ (ofMarchDays days).month ∧ (ofMarchDays days).month ≤ 12 := by
  have := yearAndDay_le days
  simp only [ofMarchDays]
  split <;> omega

namespace Moment

/-- The days from the first of March of the year 0 to the beginning of 1970. -/
def daysBefore1970 : Nat := 719468

/-- Whole seconds. -/
def seconds (m : Moment) : Nat := m.nanoseconds / 1000000000

/-- Nanoseconds behind the last whole second. -/
def fraction (m : Moment) : Nat := m.nanoseconds % 1000000000

theorem nanoseconds_eq (m : Moment) : m.seconds * 1000000000 + m.fraction = m.nanoseconds := by
  simp only [seconds, fraction]
  omega

/-- The day on which a moment lies. -/
def date (m : Moment) : CivilDate := .ofMarchDays (daysBefore1970 + m.seconds / 86400)

/-- A number with zeros before it, as wide as asked for. -/
def padded (width n : Nat) : String :=
  let digits := Text.natText n
  String.ofList (List.replicate (width - digits.length) '0') ++ digits

/-- The date in writing. -/
def dateText (m : Moment) : String :=
  padded 4 m.date.year ++ "-" ++ padded 2 m.date.month ++ "-" ++ padded 2 m.date.day

/-- The time of day in writing, without the fraction of a second. -/
def timeText (m : Moment) : String :=
  padded 2 (m.seconds / 3600 % 24) ++ ":" ++ padded 2 (m.seconds / 60 % 60) ++ ":" ++
    padded 2 (m.seconds % 60)

/-- The moment as manifests write it: with microseconds, if there are any. -/
def manifestText (m : Moment) : String :=
  let micros := m.fraction / 1000
  m.dateText ++ "T" ++ m.timeText ++ (if micros = 0 then "" else "." ++ padded 6 micros) ++ "Z"

/-- The moment as log files write it: with milliseconds. -/
def logText (m : Moment) : String :=
  m.dateText ++ " " ++ m.timeText ++ "," ++ padded 3 (m.fraction / 1000000)

/-- The times that a run writes at a moment. -/
def clock (m : Moment) : Clock := ⟨m.manifestText, m.logText⟩

end Moment

end FieldWiring
