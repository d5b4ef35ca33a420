import FieldWiring.Json.Symbols
import FieldWiring.Number.Double
import FieldWiring.Text.Numeral

/-!
# JSON documents

Values and their two forms. `write` puts every member and item on a line of its own, two blanks
deeper than what holds it. `read` takes any document that is not nested too deep; of members with
one name the last counts, and the words for what is no number, and for infinity, are numbers too.

Model of the reading and the indented writing of the manifest in `_load_manifest` and
`_store_manifest`.

Results:
* `find?_set_self`, `find?_set_of_ne`: setting a member changes no other one.
-/

namespace FieldWiring.Json

/-- A value of a document. -/
inductive Value where
  | null
  | bool (b : Bool)
  | int (n : Int)
  | float (x : Double)
  | text (t : Symbols)
  | list (items : List Value)
  | dict (members : List (Symbols × Value))

/-! ## Members -/

/-- The members with `v` under `key`, in the place of what stood there. -/
def set (key : Symbols) (v : Value) : List (Symbols × Value) → List (Symbols × Value)
  | [] => [(key, v)]
  | (k, w) :: rest => if k = key then (key, v) :: rest else (k, w) :: set key v rest

/-- The member with a name. -/
def find? (key : Symbols) : List (Symbols × Value) → Option Value
  | [] => none
  | (k, v) :: rest => if k = key then some v else find? key rest

theorem find?_set_self (key : Symbols) (v : Value) (ms : List (Symbols × Value)) :
    find? key (set key v ms) = some v := by
  induction ms with
  | nil => simp [set, find?]
  | cons m ms ih =>
    by_cases h : m.1 = key <;> simp [set, find?, h, ih]

theorem find?_set_of_ne {key other : Symbols} (v : Value) (ms : List (Symbols × Value))
    (h : other ≠ key) : find? other (set key v ms) = find? other ms := by
  induction ms with
  | nil => simp [set, find?, h.symm]
  | cons m ms ih =>
    by_cases hk : m.1 = key
    · simp [set, find?, hk, h.symm]
    · by_cases ho : m.1 = other
      · simp [set, find?, ho, h]
      · simp [set, find?, hk, ho, ih]

/-- The member of a value with a name; only objects have members. -/
def Value.member (v : Value) (name : String) : Option Value :=
  match v with
  | .dict members => find? (Symbols.ofString name) members
  | _ => none

/-! ## Writing -/

/-- The begin of a line at a depth. -/
def newLine (depth : Nat) : List Char := '\n' :: List.replicate (2 * depth) ' '

/-- A number in writing. -/
def writeFloat : Double → List Char
  | .nan => "NaN".toList
  | .infinite isNegative => (if isNegative then "-Infinity" else "Infinity").toList
  | x => x.text.toList

mutual
/-- A value in writing, inside of `depth` others. -/
def write (depth : Nat) : Value → List Char
  | .null => "null".toList
  | .bool b => (if b then "true" else "false").toList
  | .int n => (Text.intText n).toList
  | .float x => writeFloat x
  | .text t => writeText t
  | .list [] => ['[', ']']
  | .list (v :: vs) =>
    '[' :: newLine (depth + 1) ++ write (depth + 1) v ++ writeItems (depth + 1) vs ++
      newLine depth ++ [']']
  | .dict [] => ['{', '}']
  | .dict ((k, v) :: ms) =>
    '{' :: newLine (depth + 1) ++ writeText k ++ [':', ' '] ++ write (depth + 1) v ++
      writeMembers (depth + 1) ms ++ newLine depth ++ ['}']
/-- Items in writing, each behind a comma. -/
def writeItems (depth : Nat) : List Value → List Char
  | [] => []
  | v :: vs => ',' :: newLine depth ++ write depth v ++ writeItems depth vs
/-- Members in writing, each behind a comma. -/
def writeMembers (depth : Nat) : List (Symbols × Value) → List Char
  | [] => []
  | (k, v) :: ms =>
    ',' :: newLine depth ++ writeText k ++ [':', ' '] ++ write depth v ++ writeMembers depth ms
end

/-! ## Reading numbers -/

/-- The digits at the start of a text and what follows. -/
def digitsAndRest (cs : List Char) : List Char × List Char :=
  (cs.takeWhile Char.isDigit, cs.dropWhile Char.isDigit)

/-- The fraction at the start of a text, with its point, and what follows. -/
def fractionAndRest : List Char → List Char × List Char
  | '.' :: cs =>
    match digitsAndRest cs with
    | ([], _) => ([], '.' :: cs)
    | (ds, rest) => ('.' :: ds, rest)
  | cs => ([], cs)

/-- The exponent at the start of a text, with its letter, and what follows. -/
def exponentAndRest (cs : List Char) : List Char × List Char :=
  match cs with
  | e :: rest =>
    if e = 'e' ∨ e = 'E' then
      let (sign, rest) :=
        match rest with
        | '-' :: r => (['-'], r)
        | '+' :: r => (['+'], r)
        | r => ([], r)
      match digitsAndRest rest with
      | ([], _) => ([], cs)
      | (ds, rest) => (e :: sign ++ ds, rest)
    else ([], cs)
  | [] => ([], [])

/-- The whole part at the start of a text and what follows: a zero, or digits that begin with
another one. -/
def wholeAndRest : List Char → Option (List Char × List Char)
  | '0' :: cs => some (['0'], cs)
  | c :: cs => if c.isDigit then some (digitsAndRest (c :: cs)) else none
  | [] => none

/-- Why a text holds no value: it is no document, or a list or an object stands inside of too many
others. -/
inductive Fault where
  | malformed
  | deepList
  | deepObject
deriving DecidableEq, Repr

/-- Reads a number. A whole number with too many digits is none. -/
def readNumber (cs : List Char) : Option (Value × List Char) := do
  let (sign, rest) :=
    match cs with
    | '-' :: r => (['-'], r)
    | r => ([], r)
  let (whole, rest) ← wholeAndRest rest
  let (fraction, rest) := fractionAndRest rest
  let (exponent, rest) := exponentAndRest rest
  if fraction.isEmpty && exponent.isEmpty then
    match Text.readInt (String.ofList (sign ++ whole)) with
    | .ok n => some (.int n, rest)
    | .error _ => none
  else (Double.read? (String.ofList (sign ++ whole ++ fraction ++ exponent))).map (.float ·, rest)

/-! ## Reading values -/

/-- Drops the blanks that may stand between the parts of a document. -/
def skip (cs : List Char) : List Char :=
  cs.dropWhile fun c => c == ' ' || c == '\t' || c == '\n' || c == '\r'

/-- The words that stand for values. -/
def words : List (String × Value) :=
  [("null", .null), ("true", .bool true), ("false", .bool false), ("NaN", .float .nan),
    ("Infinity", .float (.infinite false)), ("-Infinity", .float (.infinite true))]

/-- Reads a word. -/
def readWord (cs : List Char) : Option (Value × List Char) :=
  (words.find? fun w => w.1.toList.isPrefixOf cs).map fun w => (w.2, cs.drop w.1.length)

/-- The most lists and objects that may stand inside of each other. -/
def maxDepth : Nat := 988

/-- What was read, or else no document. -/
def orMalformed {α : Type} : Option α → Except Fault α
  | some a => .ok a
  | none => .error .malformed

mutual
/-- Reads a value that stands inside of `depth` lists and objects. -/
def readValue : (fuel depth : Nat) → List Char → Except Fault (Value × List Char)
  | 0, _, _ => .error .malformed
  | fuel + 1, _, '"' :: cs => do
    let (t, rest) ← orMalformed (readText fuel cs)
    return (.text t, rest)
  | fuel + 1, depth, '[' :: cs =>
    if maxDepth ≤ depth then .error .deepList
    else
      match skip cs with
      | ']' :: rest => .ok (.list [], rest)
      | rest => do
        let (items, rest) ← readItems fuel (depth + 1) rest
        return (.list items, rest)
  | fuel + 1, depth, '{' :: cs =>
    if maxDepth ≤ depth then .error .deepObject
    else
      match skip cs with
      | '}' :: rest => .ok (.dict [], rest)
      | rest => do
        let (members, rest) ← readMembers fuel (depth + 1) [] rest
        return (.dict members, rest)
  | _ + 1, _, cs => orMalformed ((readWord cs).or (readNumber cs))
/-- Reads one item or more, up to the closing bracket. -/
def readItems : (fuel depth : Nat) → List Char → Except Fault (List Value × List Char)
  | 0, _, _ => .error .malformed
  | fuel + 1, depth, cs => do
    let (v, rest) ← readValue fuel depth cs
    match skip rest with
    | ']' :: rest => return ([v], rest)
    | ',' :: rest => do
      let (vs, rest) ← readItems fuel depth (skip rest)
      return (v :: vs, rest)
    | _ => throw .malformed
/-- Reads one member or more after those before them, up to the closing brace. -/
def readMembers : (fuel depth : Nat) → List (Symbols × Value) → List Char →
    Except Fault (List (Symbols × Value) × List Char)
  | 0, _, _, _ => .error .malformed
  | fuel + 1, depth, before, '"' :: cs => do
    let (k, rest) ← orMalformed (readText fuel cs)
    match skip rest with
    | ':' :: rest => do
      let (v, rest) ← readValue fuel depth (skip rest)
      match skip rest with
      | '}' :: rest => return (set k v before, rest)
      | ',' :: rest => readMembers fuel depth (set k v before) (skip rest)
      | _ => throw .malformed
    | _ => throw .malformed
  | _ + 1, _, _, _ => .error .malformed
end

/-- The value that a document holds. Each step of reading takes a character at least, so that its
length bounds the steps. -/
def read (source : String) : Except Fault Value := do
  let cs := skip source.toList
  let (v, rest) ← readValue (cs.length + 2) 0 cs
  if (skip rest).isEmpty then return v else throw .malformed

end FieldWiring.Json
