import FieldWiring.Number.Double
import FieldWiring.Text.Quoted

/-!
# Values of a document

The data that a document holds, and how messages show it. A value that contains itself is cut where
it occurs again.

Results:
* `isTrue_text`: of the texts only the empty one counts as nothing.
-/

namespace FieldWiring.Yaml

/-- A day of the calendar. -/
structure Date where
  year : Nat
  month : Nat
  day : Nat
deriving DecidableEq, Repr

/-- A time of a day, with the seconds by which its clock is ahead of universal time if known. -/
structure Moment where
  date : Date
  hour : Nat
  minute : Nat
  second : Nat := 0
  micro : Nat := 0
  ahead : Option Int := none
deriving DecidableEq, Repr

/-- The days before a day, counted from a fixed one. -/
def Date.ordinal (d : Date) : Int :=
  -- Years begin in March here, so that a leap day is the last one.
  let year : Int := if d.month ≤ 2 then d.year - 1 else d.year
  let month : Int := if d.month ≤ 2 then d.month + 9 else d.month - 3
  year * 365 + year / 4 - year / 100 + year / 400 + (month * 153 + 2) / 5 + d.day

/-- The microseconds before a time, counted from a fixed one in the zone of its clock, or in
universal time when that is known. -/
def Moment.instant (m : Moment) : Int :=
  let seconds := m.date.ordinal * 86400 + (m.hour * 3600 + m.minute * 60 + m.second : Nat)
  (seconds - m.ahead.getD 0) * 1000000 + m.micro

/-- The data of a document. `noNumber` is the value of the word for what is no number; a number that
is read and turns out to be none is a value apart. -/
inductive Value where
  | null
  | bool (b : Bool)
  | int (n : Int)
  | float (x : Double)
  | noNumber
  | text (s : String)
  | bytes (b : List UInt8)
  | date (d : Date)
  | moment (m : Moment)
  | list (items : List Value)
  | pair (first second : Value)
  | dict (entries : List (Value × Value))
  | group (items : List Value)
  | listAgain
  | dictAgain

namespace Value

/-! ## Equality of keys -/

/-- The number that a value is, when it is one. -/
def number? : Value → Option (Int ⊕ Double)
  | bool b => some (.inl (if b then 1 else 0))
  | int n => some (.inl n)
  | float x =>
    match x.toInt? with
    | some n => some (.inl n)
    | none => some (.inr x)
  | _ => none

/-- Two values are the same key of a mapping: equal numbers are, whatever their type, and times at
the same instant. -/
def sameKey : Value → Value → Bool
  | null, null => true
  | noNumber, noNumber => true
  | text s, text t => s = t
  | bytes b, bytes c => b = c
  | date d, date e => d = e
  | moment m, moment n => m.ahead.isSome = n.ahead.isSome && m.instant = n.instant
  | v, w =>
    match v.number?, w.number? with
    | some x, some y => x = y && x ≠ .inr .nan
    | _, _ => false

/-- The value under a text key. -/
def find? (key : String) : List (Value × Value) → Option Value
  | [] => none
  | (k, v) :: entries => if k.sameKey (text key) then some v else find? key entries

/-- Whether a value counts as something: not nothing, zero or empty. -/
def isTrue : Value → Bool
  | null => false
  | bool b => b
  | int n => n ≠ 0
  | float x => !x.isZero
  | text s => s ≠ ""
  | bytes b => !b.isEmpty
  | list items => !items.isEmpty
  | dict entries => !entries.isEmpty
  | group items => !items.isEmpty
  | _ => true

theorem isTrue_text (s : String) : (text s).isTrue = decide (s ≠ "") := rfl

/-! ## Text -/

/-- A length of time in days and seconds. -/
def spanText (seconds : Int) : String :=
  let days := seconds / 86400
  let rest := seconds % 86400
  let parts :=
    (if days = 0 then [] else ["days=" ++ Text.intText days]) ++
      (if rest = 0 then [] else ["seconds=" ++ Text.intText rest])
  "datetime.timedelta(" ++ (if parts.isEmpty then "0" else ", ".intercalate parts) ++ ")"

/-- A zone by how far its clock is ahead. -/
def zoneText (seconds : Int) : String :=
  if seconds = 0 then "datetime.timezone.utc"
  else "datetime.timezone(" ++ spanText seconds ++ ")"

/-- Numbers in a row. -/
def numbersText (ns : List Nat) : String := ", ".intercalate (ns.map Text.natText)

/-- A day as messages show it. -/
def dateText (d : Date) : String := "datetime.date(" ++ numbersText [d.year, d.month, d.day] ++ ")"

/-- A time as messages show it, without the parts that are zero at its end. -/
def momentText (m : Moment) : String :=
  let tail :=
    if m.micro ≠ 0 then [m.second, m.micro] else if m.second ≠ 0 then [m.second] else []
  "datetime.datetime(" ++
    numbersText ([m.date.year, m.date.month, m.date.day, m.hour, m.minute] ++ tail) ++
    (match m.ahead with
      | none => ""
      | some s => ", tzinfo=" ++ zoneText s) ++ ")"

mutual
/-- A value as messages show it. -/
def literal : Value → String
  | null => "None"
  | bool b => if b then "True" else "False"
  | int n => Text.intText n
  | float x => x.text
  | noNumber => Double.nan.text
  | text s => Text.quoted s
  | bytes b => Text.quotedBytes b
  | date d => dateText d
  | moment m => momentText m
  | list items => "[" ++ ", ".intercalate (literals items) ++ "]"
  | pair a b => "(" ++ a.literal ++ ", " ++ b.literal ++ ")"
  | dict entries => "\x7b" ++ ", ".intercalate (entryLiterals entries) ++ "\x7d"
  | group items =>
    if items.isEmpty then "set()" else "\x7b" ++ ", ".intercalate (literals items) ++ "\x7d"
  | listAgain => "[...]"
  | dictAgain => "\x7b...\x7d"
/-- Values as messages show them. -/
def literals : List Value → List String
  | [] => []
  | v :: vs => v.literal :: literals vs
/-- Entries as messages show them. -/
def entryLiterals : List (Value × Value) → List String
  | [] => []
  | (k, v) :: es => (k.literal ++ ": " ++ v.literal) :: entryLiterals es
end

/-! ## Values that are never shown -/

/-- A whole number has more digits than are ever written. -/
def isUnwritable (n : Int) : Bool := Nat.pow 10 Text.maxDigits ≤ n.natAbs

/-- Why a value cannot be shown: it holds a number that is too long to be written, or too many
values stand inside of each other. -/
inductive ShowFault where
  | longNumber
  | tooDeep
deriving DecidableEq, Repr

/-- The most values that may stand inside of each other when they are shown. -/
def maxShown : Nat := 992

mutual
/-- What keeps a value from being shown, the first thing that is met; `room` is how many values may
stand inside of each other, this one included. -/
def obstacle? : (room : Nat) → Value → Option ShowFault
  | 0, _ => some .tooDeep
  | _ + 1, int n => if isUnwritable n then some .longNumber else none
  | room + 1, list items => itemObstacle? room items
  | room + 1, pair a b => (a.obstacle? room).or (b.obstacle? room)
  | room + 1, dict entries => entryObstacle? room entries
  | room + 1, group items => itemObstacle? room items
  | _ + 1, _ => none
/-- What keeps the first of several values that cannot be shown from being shown. -/
def itemObstacle? (room : Nat) : List Value → Option ShowFault
  | [] => none
  | v :: vs => (v.obstacle? room).or (itemObstacle? room vs)
/-- What keeps the first of several entries that cannot be shown from being shown. -/
def entryObstacle? (room : Nat) : List (Value × Value) → Option ShowFault
  | [] => none
  | (k, v) :: es => ((k.obstacle? room).or (v.obstacle? room)).or (entryObstacle? room es)
end

end Value

/-! ## Faults -/

/-- Why a document cannot be read: it is malformed or nested too deep, or a scalar has no value of
the type asked for. -/
inductive Fault where
  | malformed (reason : String)
  | noValue (message : String)
  | noWord (word : String)
  | emptyNumber
  | noTimestamp
  | noText
  | tooLarge (message : String)
  | tooDeep
deriving DecidableEq, Repr

namespace Fault

/-- Refuses a number with too many digits. -/
def tooManyDigits (n : Nat) : Fault :=
  .noValue ("Exceeds the limit (4300 digits) for integer string conversion: value has " ++
    Text.natText n ++ " digits; use sys.set_int_max_str_digits() to increase the limit")

/-- The name of a fault in reports. -/
def label : Fault → String
  | malformed _ => "YAMLError"
  | noValue _ => "ValueError"
  | noWord _ => "KeyError"
  | emptyNumber => "IndexError"
  | noTimestamp => "AttributeError"
  | noText => "TypeError"
  | tooLarge _ => "OverflowError"
  | tooDeep => "RecursionError"

/-- What a fault reports. -/
def message : Fault → String
  | malformed reason => reason
  | noValue message => message
  | noWord word => Text.quoted word
  | emptyNumber => "string index out of range"
  | noTimestamp => "'NoneType' object has no attribute 'groupdict'"
  | noText => "expected string or bytes-like object, got 'list'"
  | tooLarge message => message
  | tooDeep => "maximum recursion depth exceeded"

end Fault

end FieldWiring.Yaml
