import FieldWiring.Text.Case
import FieldWiring.Text.Dotted
import FieldWiring.Yaml.Token

/-!
# Tags and scalars

The type of every node of a document: named by its tag, or told from the text of a plain scalar.
`scalarValue` reads the value that a scalar of a type writes.

Model of the safe loader that `_read_config` calls, its resolver of tags.

Results:
* `Tag.ofText_str`: the tag of texts.
* `implicitTag_quoted`: a scalar in quotes is a text.
-/

namespace FieldWiring.Yaml

/-- The types of nodes; `other` is a type that documents may not use. -/
inductive Tag where
  | null
  | bool
  | int
  | float
  | binary
  | timestamp
  | orderedMap
  | pairs
  | keys
  | str
  | seq
  | map
  | merge
  | value
  | other (text : String)
deriving DecidableEq, Repr

/-- What the tags of the common types begin with. -/
def commonLead : String := "tag:yaml.org,2002:"

/-- The common types by their names. -/
def commonTags : List (String × Tag) :=
  [("null", .null), ("bool", .bool), ("int", .int), ("float", .float), ("binary", .binary),
   ("timestamp", .timestamp), ("omap", .orderedMap), ("pairs", .pairs), ("set", .keys),
   ("str", .str), ("seq", .seq), ("map", .map), ("merge", .merge), ("value", .value)]

/-- The type that a tag names. -/
def Tag.ofText (text : String) : Tag :=
  match Text.dropLead? commonLead.toList text.toList with
  | none => .other text
  | some name => (commonTags.lookup (String.ofList name)).getD (.other text)

theorem Tag.ofText_str : Tag.ofText "tag:yaml.org,2002:str" = .str := by decide +kernel

/-! ## Plain scalars -/

/-- A text without one line end at its end. -/
def dropLastBreak (s : List Char) : List Char :=
  if 2 ≤ s.length ∧ s.getLast? = some '\n' then s.dropLast else s

/-- A digit or an underscore. -/
def isDigitOrGap (c : Char) : Bool := c.isDigit || c == '_'

/-- Digits and underscores, the first a digit. -/
def isDigits : List Char → Bool
  | [] => false
  | c :: cs => c.isDigit && cs.all isDigitOrGap

/-- A number below sixty in one or two digits. -/
def isSixtieth : List Char → Bool
  | [a] => a.isDigit
  | [a, b] => decide ('0' ≤ a) && decide (a ≤ '5') && b.isDigit
  | _ => false

/-- Digits, and then numbers below sixty behind colons. -/
def isSixtieths (s : List Char) : Bool :=
  match Text.pieces (· == ':') s with
  | first :: p :: ps => isDigits first && (p :: ps).all isSixtieth
  | _ => false

/-- A text without a sign before it. -/
def dropSign : List Char → List Char
  | '-' :: cs => cs
  | '+' :: cs => cs
  | cs => cs

/-- The text writes a whole number: in base two, eight, ten, sixteen or sixty. -/
def isInt (s : List Char) : Bool :=
  match dropSign s with
  | ['0'] => true
  | '0' :: 'b' :: cs => !cs.isEmpty && cs.all fun c => c == '0' || c == '1' || c == '_'
  | '0' :: 'x' :: cs => !cs.isEmpty && cs.all fun c => isHexDigit c || c == '_'
  | '0' :: cs => !cs.isEmpty && cs.all fun c => (isDigitOrGap c && c != '8' && c != '9')
  | cs => isDigits cs || isSixtieths cs

/-- A power of ten with its sign, or nothing. -/
def isPower : List Char → Bool
  | [] => true
  | e :: sign :: cs =>
    (e == 'e' || e == 'E') && (sign == '-' || sign == '+') && !cs.isEmpty && cs.all Char.isDigit
  | _ => false

/-- The text writes a number with a point. -/
def isFloat (s : List Char) : Bool :=
  let whole := (dropSign s).takeWhile (· != '.')
  let part := (dropSign s).drop (whole.length + 1)
  let hasPoint := whole.length < (dropSign s).length
  hasPoint &&
    (if whole.isEmpty then
      ["inf", "Inf", "INF"].contains (String.ofList part) ||
        (s.head? == some '.' &&
          (["nan", "NaN", "NAN"].contains (String.ofList part) ||
            (part.head?.any Char.isDigit && isPower (part.dropWhile isDigitOrGap))))
    else
      (isDigits whole && isPower (part.dropWhile isDigitOrGap)) ||
        (isSixtieths whole && part.all isDigitOrGap))

/-- The parts of a time as written. -/
structure ClockParts where
  hour : Nat
  minute : Nat
  second : Nat
  fraction : List Char
  zone : Option (Int × Nat × Nat)
deriving Repr

/-- One or two digits and what follows. -/
def oneOrTwo : List Char → Option (Nat × Nat × List Char)
  | a :: b :: cs =>
    if a.isDigit then
      if b.isDigit then some (2, (a.toNat - 48) * 10 + (b.toNat - 48), cs)
      else some (1, a.toNat - 48, b :: cs)
    else none
  | [a] => if a.isDigit then some (1, a.toNat - 48, []) else none
  | [] => none

/-- A given character and then two digits, and what follows. -/
def twoBehind (c : Char) : List Char → Option (Nat × List Char)
  | d :: cs =>
    if d = c then
      match oneOrTwo cs with
      | some (2, n, rest) => some (n, rest)
      | _ => none
    else none
  | [] => none

/-- A zone: nothing, the letter for universal time, or a sign with hours and minutes. -/
def readZone (s : List Char) : Option (Option (Int × Nat × Nat)) :=
  match s.dropWhile fun c => c == ' ' || c == '\t' with
  | [] => if s.isEmpty then some none else none
  | ['Z'] => some (some (1, 0, 0))
  | c :: cs =>
    if c = '-' ∨ c = '+' then
      match oneOrTwo cs with
      | none => none
      | some (_, hours, rest) =>
        let sign : Int := if c = '-' then -1 else 1
        match rest, twoBehind ':' rest with
        | [], _ => some (some (sign, hours, 0))
        | _, some (minutes, []) => some (some (sign, hours, minutes))
        | _, _ => none
    else none

/-- A time and a zone. -/
def readClock (s : List Char) : Option ClockParts := do
  let (_, hour, rest) ← oneOrTwo s
  let (minute, rest) ← twoBehind ':' rest
  let (second, rest) ← twoBehind ':' rest
  let (fraction, rest) :=
    match rest with
    | '.' :: cs => (cs.takeWhile Char.isDigit, cs.dropWhile Char.isDigit)
    | cs => ([], cs)
  let zone ← readZone rest
  return ⟨hour, minute, second, fraction, zone⟩

/-- A day, with whether it is written in full, and the time behind it if there is one. -/
def readTimestamp (s : List Char) : Option (Date × Bool × Option ClockParts) := do
  let year := s.take 4
  guard (year.length = 4 ∧ year.all Char.isDigit ∧ (s.drop 4).head? = some '-')
  let (monthWidth, month, rest) ← oneOrTwo (s.drop 5)
  guard (rest.head? = some '-')
  let (dayWidth, day, rest) ← oneOrTwo (rest.drop 1)
  let date : Date := ⟨Text.ofDigits 10 (year.map fun c => c.toNat - 48), month, day⟩
  let isFull := monthWidth = 2 ∧ dayWidth = 2
  match rest with
  | [] => return (date, isFull, none)
  | c :: cs =>
    if c = 'T' ∨ c = 't' then return (date, isFull, some (← readClock cs))
    else if c = ' ' ∨ c = '\t' then
      return (date, isFull,
        some (← readClock (cs.dropWhile fun c => c == ' ' || c == '\t')))
    else failure

/-- The text writes a day in full, or a time. -/
def isTimestamp (s : List Char) : Bool :=
  match readTimestamp s with
  | some (_, isFull, clock) => isFull || clock.isSome
  | none => false

/-- The words for truth values. -/
def truthWords : List (String × Bool) :=
  [("yes", true), ("no", false), ("true", true), ("false", false), ("on", true), ("off", false)]

/-- The spellings of a word for which it counts in a plain scalar. -/
def spellings (w : String) : List String :=
  [w, w.toUpper, String.ofList ((w.toList.take 1).map Char.toUpper ++ w.toList.drop 1)]

/-- The type of a plain scalar. -/
def plainTag (text : String) : Tag :=
  let s := dropLastBreak text.toList
  let word := String.ofList s
  if truthWords.any fun w => (spellings w.1).contains word then .bool
  else if isFloat s then .float
  else if isInt s then .int
  else if word = "<<" then .merge
  else if ["", "~", "null", "Null", "NULL"].contains word then .null
  else if isTimestamp s then .timestamp
  else if word = "=" then .value
  else if ["!", "&", "*"].contains word then .other (commonLead ++ "yaml")
  else .str

/-- The type of a scalar without a tag. -/
def implicitTag (isPlain : Bool) (text : String) : Tag := if isPlain then plainTag text else .str

theorem implicitTag_quoted (text : String) : implicitTag false text = .str := rfl

/-! ## Values of scalars -/

/-- How much of a text that writes no number is shown. -/
def maxShown : Nat := 200

/-- Refuses a text that does not write a number in a base. -/
def badNumeral (base : Nat) (text : String) : Fault :=
  .noValue ("invalid literal for int() with base " ++ Text.natText base ++ ": " ++
    String.ofList ((Text.quoted text).toList.take maxShown))

/-- A whole number in decimal digits. -/
def decimalValue (text : String) : Except Fault Int :=
  match Text.readInt text with
  | .ok n => .ok n
  | .error .malformed => .error (badNumeral 10 text)
  | .error (.tooLong n) => .error (.tooManyDigits n)

/-- A whole number in another base. -/
def basedValue (base : Nat) (letter : Char) (text : String) : Except Fault Int :=
  match Text.readInBase base letter text with
  | some n => .ok n
  | none => .error (badNumeral base text)

/-- Digits of base sixty, the first the most significant one. -/
def sixtiesValue (digits : List Int) : Int := digits.foldl (fun n d => n * 60 + d) 0

/-- A sign and the text behind it, without underscores. -/
def signedText (text : String) : Except Fault (Int × List Char) :=
  match text.toList.filter (· ≠ '_') with
  | [] => .error .emptyNumber
  | '-' :: cs => .ok (-1, cs)
  | '+' :: cs => .ok (1, cs)
  | cs => .ok (1, cs)

/-- The whole number that a scalar writes. -/
def intValue (text : String) : Except Fault Int := do
  let (sign, s) ← signedText text
  match s with
  | [] => throw .emptyNumber
  | ['0'] => return 0
  | '0' :: 'b' :: cs => return sign * (← basedValue 2 'b' (String.ofList cs))
  | '0' :: 'x' :: cs => return sign * (← basedValue 16 'x' (String.ofList cs))
  | '0' :: cs => return sign * (← basedValue 8 'o' (String.ofList ('0' :: cs)))
  | s =>
    let parts := Text.pieces (· == ':') s
    return sign * sixtiesValue (← parts.mapM fun p => decimalValue (String.ofList p))

/-- A number with a point, as one of its parts writes it. -/
def floatPart (s : List Char) : Except Fault Double :=
  match Double.read? (String.ofList s) with
  | some x => .ok x
  | none =>
    .error (.noValue ("could not convert string to float: " ++ Text.quoted (String.ofList s)))

/-- The sum of digits of base sixty, the last one first; `unit` is what the next one counts. -/
def sixtiesSum (unit : Nat) (sum : Double) : List Double → Double
  | [] => sum
  | d :: ds => sixtiesSum (unit * 60) (sum.plus (d.times (.ofNat unit))) ds

/-- The floating point number that a scalar writes. -/
def floatValue (text : String) : Except Fault Value := do
  let (sign, s) ← signedText (Text.lower text)
  let signed (x : Double) : Value := .float (if sign < 0 then x.negate else x)
  if s = ".inf".toList then return signed (.infinite false)
  else if s = ".nan".toList then return .noNumber
  else
    match Text.pieces (· == ':') s with
    | [] => throw .emptyNumber
    | [s] => return signed (← floatPart s)
    | parts =>
      let digits ← parts.mapM floatPart
      return signed (sixtiesSum 1 (.ofNat 0) digits.reverse)

/-- How many days a month has. -/
def daysIn (year month : Nat) : Nat :=
  if month = 2 then
    if (year % 4 = 0 ∧ year % 100 ≠ 0) ∨ year % 400 = 0 then 29 else 28
  else if [4, 6, 9, 11].contains month then 30
  else 31

/-- Refuses a day that is not in the calendar. -/
def checkDate (d : Date) : Except Fault Unit :=
  if d.year = 0 then .error (.noValue "year 0 is out of range")
  else if d.month = 0 ∨ 12 < d.month then .error (.noValue "month must be in 1..12")
  else if d.day = 0 ∨ daysIn d.year d.month < d.day then
    .error (.noValue "day is out of range for month")
  else .ok ()

/-- How far a zone is ahead of universal time, in seconds. -/
def zoneAhead (sign : Int) (hours minutes : Nat) : Except Fault Int :=
  let ahead := sign * (hours * 3600 + minutes * 60 : Nat)
  if ahead.natAbs < 86400 then .ok ahead
  else
    .error (.noValue ("offset must be a timedelta strictly between -timedelta(hours=24) and " ++
      "timedelta(hours=24), not " ++ Value.spanText ahead ++ "."))

/-- The day or the time that a scalar writes. -/
def timestampValue (text : String) : Except Fault Value := do
  match readTimestamp (dropLastBreak text.toList) with
  | none => throw .noTimestamp
  | some (date, _, none) =>
    checkDate date
    return .date date
  | some (date, _, some clock) =>
    let digits := (clock.fraction ++ List.replicate 6 '0').take 6
    let micro := Text.ofDigits 10 (digits.map fun c => c.toNat - 48)
    let ahead ← clock.zone.mapM fun (sign, hours, minutes) => zoneAhead sign hours minutes
    checkDate date
    if 23 < clock.hour then throw (.noValue "hour must be in 0..23")
    if 59 < clock.minute then throw (.noValue "minute must be in 0..59")
    if 59 < clock.second then throw (.noValue "second must be in 0..59")
    return .moment ⟨date, clock.hour, clock.minute, clock.second, micro, ahead⟩

/-- The six bits that a character of binary data writes. -/
def sixBits (c : Char) : Option Nat :=
  if c.isUpper then some (c.toNat - 65)
  else if c.isLower then some (c.toNat - 71)
  else if c.isDigit then some (c.toNat + 4)
  else if c = '+' then some 62
  else if c = '/' then some 63
  else none

/-- The bytes of binary data: `left` holds the bits left over from the `count` characters before in
the present group of four, and `pads` padding signs stand just before. Other characters than those
of the alphabet are passed over. `none` when the last group is not complete. -/
def bytesFrom (left count pads : Nat) : List Char → Option (List UInt8)
  | [] => if count = 0 then some [] else none
  | c :: cs =>
    if c = '=' then
      if 2 ≤ count ∧ 4 ≤ count + (pads + 1) then some []
      else bytesFrom left count (if 2 ≤ count then pads + 1 else pads) cs
    else
      match sixBits c with
      | none => bytesFrom left count pads cs
      | some n =>
        match count with
        | 0 => bytesFrom n 1 0 cs
        | 1 => (bytesFrom (n % 16) 2 0 cs).map (UInt8.ofNat (left * 4 + n / 16) :: ·)
        | 2 => (bytesFrom (n % 4) 3 0 cs).map (UInt8.ofNat (left * 16 + n / 4) :: ·)
        | _ => (bytesFrom 0 0 0 cs).map (UInt8.ofNat (left * 64 + n) :: ·)

/-- The bytes that a scalar writes. -/
def binaryValue (text : String) : Except Fault (List UInt8) :=
  if text.toList.all fun c => decide (c.toNat < 128) then
    match bytesFrom 0 0 0 text.toList with
    | some bytes => .ok bytes
    | none => .error (.malformed "failed to decode base64 data")
  else .error (.malformed "failed to convert base64 data into ascii")

/-- The truth value that a scalar writes. -/
def boolValue (text : String) : Except Fault Bool :=
  match truthWords.lookup (Text.lower text) with
  | some b => .ok b
  | none => .error (.noWord (Text.lower text))

/-- The value of a scalar; `none` when its type is not one of scalars. -/
def scalarValue (tag : Tag) (text : String) : Option (Except Fault Value) :=
  match tag with
  | .null => some (.ok .null)
  | .bool => some ((boolValue text).map .bool)
  | .int => some ((intValue text).map .int)
  | .float => some (floatValue text)
  | .binary => some ((binaryValue text).map .bytes)
  | .timestamp => some (timestampValue text)
  | .str => some (.ok (.text text))
  | _ => none

end FieldWiring.Yaml
