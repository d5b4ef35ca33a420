import FieldWiring.Text.Blank
import FieldWiring.Text.DigitTable

/-!
# Whole numbers in text

`readInt` reads a decimal whole number: blanks around it, a sign, digits of any script, and single
underscores between digits. More than `maxDigits` digits are refused.

Results:
* `digitValue_lt`: a digit is worth less than ten.
-/

namespace FieldWiring.Text

/-- Why a text is not read as a number. -/
inductive NumeralError where
  | malformed
  | tooLong (digits : Nat)
deriving DecidableEq

/-- The most digits a decimal number may have. -/
def maxDigits : Nat := 4300

/-- The value of a decimal digit of any script. -/
def digitValue (c : Char) : Option Nat :=
  (digitZeros.find? fun z => decide (z ≤ c.toNat) && decide (c.toNat < z + 10)).map (c.toNat - ·)

theorem digitValue_lt {c : Char} {n : Nat} (h : digitValue c = some n) : n < 10 := by
  obtain ⟨z, hz, rfl⟩ := Option.map_eq_some_iff.1 h
  have := List.find?_some hz
  simp only [Bool.and_eq_true, decide_eq_true_eq] at this
  omega

/-- The blanks allowed around a number: not the separators of records. -/
def isNumeralBlank (c : Char) : Bool :=
  isBlank c && !(decide (0x1C ≤ c.toNat) && decide (c.toNat ≤ 0x1F))

/-- The digits at the start of a text, with single underscores between them, and what follows.
`none` when there is no digit or an underscore does not stand between two digits. -/
def digitRun : List Char → Option (List Nat × List Char)
  | [] => none
  | c :: cs =>
    match digitValue c, cs with
    | none, _ => none
    | some d, '_' :: rest => (digitRun rest).map fun (ds, r) => (d :: ds, r)
    | some d, rest =>
      match digitRun rest with
      | some (ds, r) => some (d :: ds, r)
      | none =>
        -- A digit that begins a run which is broken later breaks this one too.
        match rest with
        | [] => some ([d], [])
        | e :: es => if (digitValue e).isSome then none else some ([d], e :: es)

/-- The number that digits write in a base. -/
def ofDigits (base : Nat) (ds : List Nat) : Nat := ds.foldl (fun n d => n * base + d) 0

/-- A sign at the start of a number, as the factor it stands for, and the rest. -/
def signAndRest : List Char → Int × List Char
  | '-' :: cs => (-1, cs)
  | '+' :: cs => (1, cs)
  | cs => (1, cs)

/-- The whole number that a text writes. -/
def readInt (s : String) : Except NumeralError Int :=
  let (sign, rest) := signAndRest (trimBoth isNumeralBlank s.toList)
  match digitRun rest with
  | none => .error .malformed
  | some (ds, tail) =>
    if maxDigits < ds.length then .error (.tooLong ds.length)
    else if tail.isEmpty then .ok (sign * ofDigits 10 ds)
    else .error .malformed

/-- The value of a digit in bases up to thirty-six. -/
def letterValue (c : Char) : Option Nat :=
  match digitValue c with
  | some d => some d
  | none =>
    let l := c.toLower
    if 'a' ≤ l ∧ l ≤ 'z' then some (l.toNat - 'a'.toNat + 10) else none

/-- The value of digits in a base; `none` when there are none, or other characters among them. -/
def digitsIn (base : Nat) (s : List Char) : Option Nat := do
  let ds ← s.mapM letterValue
  if ds.isEmpty || ds.any fun d => decide (base ≤ d) then none else some (ofDigits base ds)

/-- The whole number that a text without underscores writes in a base; the letter that marks the
base may stand between a zero and the digits. -/
def readInBase (base : Nat) (letter : Char) (s : String) : Option Int :=
  let (sign, rest) := signAndRest (trimBoth isNumeralBlank s.toList)
  let digits :=
    match rest with
    | '0' :: c :: cs => if c.toLower = letter ∧ !cs.isEmpty then cs else rest
    | _ => rest
  (digitsIn base digits).map (sign * ·)

/-- The decimal digits of a number. -/
def natText (n : Nat) : String := String.ofList (Nat.toDigits 10 n)

/-- A whole number in decimal digits, with a minus sign when it is negative. -/
def intText (n : Int) : String :=
  if n < 0 then "-" ++ natText n.natAbs else natText n.natAbs

end FieldWiring.Text
