import FieldWiring.Text.Numeral

/-!
# Binary floating point

Numbers with 53 binary digits, as a mantissa and an exponent: rounding of fractions to the nearest
one, reading of decimal text, and the shortest decimal text that reads back as the same number.

Results:
* `nearest_zero`: nothing is lost on zero.
* `negate_negate`: changing the sign twice gives the number back.
-/

namespace FieldWiring

/-- A floating point number: a mantissa below 2⁵³ times a power of two, or one of the values outside
of the range. -/
inductive Double where
  | finite (isNegative : Bool) (mantissa : Nat) (exponent : Int)
  | infinite (isNegative : Bool)
  | nan
deriving DecidableEq, Repr

namespace Double

/-- The least exponent, that of the numbers next to zero. -/
def minExponent : Int := -1074

/-- The greatest exponent of a finite number. -/
def maxExponent : Int := 971

/-! ## Rounding -/

/-- The fraction `num / den` divided by a power of two, as a quotient with the remainder and the
divisor. -/
def scaled (num den : Nat) (exponent : Int) : Nat × Nat × Nat :=
  let n := num * Nat.pow 2 (-exponent).toNat
  let d := den * Nat.pow 2 exponent.toNat
  (n / d, n % d, d)

/-- The exponent at which a positive fraction has 53 binary digits, if it is in range. -/
def exponentOf (num den : Nat) : Int :=
  let guess : Int := (Nat.log2 num : Int) - Nat.log2 den - 52
  let (q, _, _) := scaled num den guess
  max minExponent (if q < Nat.pow 2 52 then guess - 1 else guess)

/-- Rounds a quotient to the nearest whole number, the even one when two are as near. -/
def roundEven (q r d : Nat) : Nat :=
  if d < 2 * r ∨ (2 * r = d ∧ q % 2 = 1) then q + 1 else q

/-- The number nearest to a fraction. -/
def nearest (isNegative : Bool) (num den : Nat) : Double :=
  if num = 0 then finite isNegative 0 minExponent
  else
    let e := exponentOf num den
    let (q, r, d) := scaled num den e
    let m := roundEven q r d
    let (m, e) := if m = Nat.pow 2 53 then (Nat.pow 2 52, e + 1) else (m, e)
    if maxExponent < e then infinite isNegative else finite isNegative m e

theorem nearest_zero (isNegative : Bool) (den : Nat) :
    nearest isNegative 0 den = finite isNegative 0 minExponent := rfl

/-! ## Arithmetic -/

/-- The number with the other sign. -/
def negate : Double → Double
  | finite s m e => finite (!s) m e
  | infinite s => infinite (!s)
  | nan => nan

theorem negate_negate (x : Double) : x.negate.negate = x := by cases x <;> simp [negate]

/-- The number nearest to a whole number times a power of two. -/
def ofScaled (isNegative : Bool) (m : Nat) (e : Int) : Double :=
  nearest isNegative (m * Nat.pow 2 e.toNat) (Nat.pow 2 (-e).toNat)

/-- The number nearest to a natural number. -/
def ofNat (n : Nat) : Double := nearest false n 1

/-- The product of two numbers. -/
def times : Double → Double → Double
  | finite s m e, finite t n f => ofScaled (s != t) (m * n) (e + f)
  | finite s m _, infinite t => if m = 0 then nan else infinite (s != t)
  | infinite s, finite t m _ => if m = 0 then nan else infinite (s != t)
  | infinite s, infinite t => infinite (s != t)
  | _, _ => nan

/-- A mantissa with its sign, as a whole number of a smaller power of two. -/
def shifted (isNegative : Bool) (m : Nat) (e low : Int) : Int :=
  let n : Int := (m * Nat.pow 2 (e - low).toNat : Nat)
  if isNegative then -n else n

/-- The sum of two numbers. -/
def plus : Double → Double → Double
  | finite s m e, finite t n f =>
    let low := min e f
    let sum := shifted s m e low + shifted t n f low
    if sum = 0 then finite (s && t) 0 minExponent
    else ofScaled (decide (sum < 0)) sum.natAbs low
  | finite .., infinite t => infinite t
  | infinite s, finite .. => infinite s
  | infinite s, infinite t => if s = t then infinite s else nan
  | _, _ => nan

/-- The number is zero, of either sign. -/
def isZero : Double → Bool
  | finite _ m _ => m = 0
  | _ => false

/-- A finite number as a fraction, without its sign. -/
def fraction (m : Nat) (e : Int) : Nat × Nat := (m * Nat.pow 2 e.toNat, Nat.pow 2 (-e).toNat)

/-- The whole number that a number is. -/
def toInt? : Double → Option Int
  | finite s m e =>
    let (num, den) := fraction m e
    if num % den = 0 then
      some (if s then -((num / den : Nat) : Int) else ((num / den : Nat) : Int))
    else none
  | _ => none

/-! ## Reading decimals -/

/-- The digits at the beginning of a text and what follows. -/
def takeDigits : List Char → List Nat × List Char
  | [] => ([], [])
  | c :: cs =>
    match Text.digitValue c with
    | some d =>
      let (ds, rest) := takeDigits cs
      (d :: ds, rest)
    | none => ([], c :: cs)

/-- A power of ten behind a decimal; `none` when it has no digits or something follows them. -/
def readExponent : List Char → Option Int
  | [] => some 0
  | c :: cs =>
    if c = 'e' ∨ c = 'E' then
      let (sign, rest) := Text.signAndRest cs
      match takeDigits rest with
      | ([], _) => none
      | (ds, []) => some (sign * Text.ofDigits 10 ds)
      | _ => none
    else none

/-- The number nearest to decimal digits times a power of ten. -/
def ofDecimal (digits : List Nat) (power : Int) : Double :=
  let n := Text.ofDigits 10 digits
  -- Beyond these bounds every number is infinite, or zero.
  if n = 0 ∨ power + digits.length < -400 then finite false 0 minExponent
  else if 400 < power then infinite false
  else nearest false (n * Nat.pow 10 power.toNat) (Nat.pow 10 (-power).toNat)

/-- Reads a number without a sign. -/
def readUnsigned (s : List Char) : Option Double :=
  let word := String.ofList (s.map Char.toLower)
  if word = "inf" ∨ word = "infinity" then some (infinite false)
  else if word = "nan" then some nan
  else
    let (whole, rest) := takeDigits s
    let (part, rest) :=
      match rest with
      | '.' :: rest => takeDigits rest
      | rest => ([], rest)
    if whole.isEmpty ∧ part.isEmpty then none
    else
      (readExponent rest).map fun power => ofDecimal (whole ++ part) (power - part.length)

/-- Reads a number: blanks around it, a sign, digits with a point and a power of ten, or one of the
words for the values outside of the range. -/
def read? (s : String) : Option Double :=
  let (sign, rest) := Text.signAndRest (Text.trimBoth Text.isNumeralBlank s.toList)
  (readUnsigned rest).map fun x => if sign < 0 then x.negate else x

/-! ## Writing decimals -/

/-- The number of digits before the point of a positive fraction; negative or zero when zeros
follow the point. `fuel` bounds the zeros looked for. -/
def pointPosition (num den : Nat) : (fuel : Nat) → Int
  | 0 => 0
  | fuel + 1 =>
    if den ≤ num then (Nat.toDigits 10 (num / den)).length
    else pointPosition (num * 10) den fuel - 1

/-- The decimals with `count` digits next to a fraction whose point stands at `point`: the one below
and the one above. -/
def decimalsNear (num den count : Nat) (point : Int) : List Nat :=
  let power : Int := count - point
  let q := (num * Nat.pow 10 power.toNat) / (den * Nat.pow 10 (-power).toNat)
  [q, q + 1]

/-- How far a decimal is from a fraction, over a common denominator. -/
def distance (num den digits : Nat) (power : Int) : Nat :=
  let a := num * Nat.pow 10 (-power).toNat
  let b := digits * den * Nat.pow 10 power.toNat
  max a b - min a b

/-- The decimal with the fewest digits that reads back as the number, the nearest one of these, and
of two as near the even one: its digits and the position of its point. -/
def shortest (x : Double) (num den : Nat) : List Char × Int :=
  let point := pointPosition num den 400
  let fitting (count : Nat) : Option (Nat × Int) :=
    let power := point - count
    let fits := (decimalsNear num den count point).filter fun d =>
      nearest false (d * Nat.pow 10 power.toNat) (Nat.pow 10 (-power).toNat) = x
    match fits with
    | [] => none
    | [d] => some (d, power)
    | d :: d' :: _ =>
      let below := distance num den d power
      let above := distance num den d' power
      some (if above < below ∨ (above = below ∧ d % 2 = 1) then d' else d, power)
  match (List.range 18).findSome? fun n => fitting (n + 1) with
  | none => (['0'], 1)
  | some (d, power) =>
    let all := Nat.toDigits 10 d
    (Text.trimEnd (· == '0') all, power + all.length)

/-- Digits with a point among them, or with zeros between them and the point. -/
def fixedText (digits : List Char) (point : Int) : List Char :=
  if point ≤ 0 then '0' :: '.' :: (List.replicate (-point).toNat '0' ++ digits)
  else
    let n := point.toNat
    if digits.length ≤ n then digits ++ List.replicate (n - digits.length) '0' ++ ['.', '0']
    else digits.take n ++ '.' :: digits.drop n

/-- Digits with a point behind the first one, and a power of ten. -/
def powerText (digits : List Char) (point : Int) : List Char :=
  let power := point - 1
  let ds := Nat.toDigits 10 power.natAbs
  digits.take 1 ++ (if digits.length ≤ 1 then [] else '.' :: digits.drop 1) ++
    ('e' :: (if power < 0 then '-' else '+') :: (if ds.length < 2 then '0' :: ds else ds))

/-- The text of a number. -/
def text : Double → String
  | nan => "nan"
  | infinite s => if s then "-inf" else "inf"
  | finite s m e =>
    let lead := if s then ['-'] else []
    if m = 0 then String.ofList (lead ++ ['0', '.', '0'])
    else
      let (num, den) := fraction m e
      let (digits, point) := shortest (finite false m e) num den
      String.ofList
        (lead ++ if -4 < point ∧ point ≤ 16 then fixedText digits point
          else powerText digits point)

end Double

end FieldWiring
