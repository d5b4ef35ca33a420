/-!
# Globs

Patterns for names: `*` stands for any text, `?` for any character, and brackets for one of the
characters listed in them, with ranges, or for any other character when a `!` begins the list. A
bracket that is never closed stands for itself. A range that runs downwards lists nothing and
takes its ends with it.

Model of `fnmatchcase`, by which patterns are matched.

Results:
* `matches_one`: a piece for one character takes the first one and leaves the rest to the others.
* `matches_star_iff`: a star takes any beginning of the text.
* `accepts_eq`: the table of ends gives the same answer as reading the pieces one by one.
-/

namespace FieldWiring.Glob

/-- Characters by closed ranges, or all the others. -/
structure CharSet where
  isNegated : Bool
  ranges : List (Char × Char)
deriving DecidableEq, Repr

/-- The set holds a character. -/
def CharSet.holds (s : CharSet) (c : Char) : Bool :=
  s.isNegated != s.ranges.any fun r => decide (r.1 ≤ c) && decide (c ≤ r.2)

/-- Every character. -/
def CharSet.anyChar : CharSet := ⟨true, []⟩

/-- One character. -/
def CharSet.only (c : Char) : CharSet := ⟨false, [(c, c)]⟩

/-- What a pattern is made of: any text, or one character of a set. -/
inductive Piece where
  | star
  | one (chars : CharSet)
deriving DecidableEq, Repr

/-! ## Brackets -/

/-- A text cut at its first character when that is `c`. -/
def leading (c : Char) : List Char → List Char × List Char
  | [] => ([], [])
  | d :: ds => if d = c then ([d], ds) else ([], d :: ds)

/-- What stands between an opening bracket and its closing one, and what follows. A bracket that
closes at once, also behind a `!`, belongs to the list. -/
def bracketBody (s : List Char) : Option (List Char × List Char) :=
  let (bang, s₁) := leading '!' s
  let (close, s₂) := leading ']' s₁
  match s₂.dropWhile (· != ']') with
  | [] => none
  | _ :: rest => some (bang ++ close ++ s₂.takeWhile (· != ']'), rest)

/-- The texts between the hyphens of ranges; a hyphen stands for itself before `skip` characters of
`current` are read. -/
def rangeChunks (skip : Nat) (current : List Char) : List Char → List (List Char)
  | [] => [current]
  | c :: cs =>
    if c = '-' ∧ skip = 0 then current :: rangeChunks 2 [] cs
    else rangeChunks (skip - 1) (current ++ [c]) cs

/-- Gives a hyphen at the very end back to the text before it. -/
def closeChunks : List (List Char) → List (List Char)
  | [] => []
  | [c] => [c]
  | [c, []] => [c ++ ['-']]
  | c :: cs => c :: closeChunks cs

/-- Drops the ranges that run downwards, with both their ends. -/
def dropDownward : List (List Char) → List (List Char)
  | [] => []
  | c :: cs =>
    match dropDownward cs with
    | [] => [c]
    | d :: ds =>
      match c.getLast?, d with
      | some a, b :: bs => if b < a then (c.dropLast ++ bs) :: ds else c :: d :: ds
      | _, _ => c :: d :: ds

/-- A character of a list in brackets, or the hyphen of a range. -/
inductive Item where
  | char (c : Char)
  | hyphen
deriving DecidableEq, Repr

/-- The items of a list in brackets. -/
def items (body : List Char) : List Item :=
  let skip := if body.head? = some '!' then 2 else 1
  let chunks := dropDownward (closeChunks (rangeChunks skip [] body))
  [Item.hyphen].intercalate (chunks.map (·.map .char))

/-- The ranges that items list. -/
def ranges : List Item → List (Char × Char)
  | [] => []
  | .char a :: .hyphen :: .char b :: is => (a, b) :: ranges is
  | .char a :: is => (a, a) :: ranges is
  | .hyphen :: is => ('-', '-') :: ranges is

/-- The characters that items stand for. -/
def charSet (is : List Item) : CharSet :=
  match is with
  | .char '!' :: is => ⟨true, ranges is⟩
  | _ => ⟨false, ranges is⟩

/-! ## Patterns -/

/-- The pieces of a pattern; `fuel` bounds the number of pieces. -/
def piecesFuel : (fuel : Nat) → List Char → List Piece
  | 0, _ => []
  | _, [] => []
  | fuel + 1, c :: cs =>
    if c = '*' then .star :: piecesFuel fuel cs
    else if c = '?' then .one .anyChar :: piecesFuel fuel cs
    else if c = '[' then
      match bracketBody cs with
      | some (body, rest) => .one (charSet (items body)) :: piecesFuel fuel rest
      | none => .one (.only '[') :: piecesFuel fuel cs
    else .one (.only c) :: piecesFuel fuel cs

/-- The pieces of a pattern. -/
def pieces (pattern : List Char) : List Piece := piecesFuel pattern.length pattern

/-- Some end of a text, the whole included, has a property. -/
def anyEnd (p : List Char → Bool) : List Char → Bool
  | [] => p []
  | c :: cs => p (c :: cs) || anyEnd p cs

theorem anyEnd_iff {p : List Char → Bool} {s : List Char} :
    anyEnd p s = true ↔ ∃ before after, s = before ++ after ∧ p after = true := by
  induction s with
  | nil =>
    constructor
    · exact fun h => ⟨[], [], rfl, h⟩
    · rintro ⟨before, after, he, h⟩
      obtain ⟨_, rfl⟩ := List.append_eq_nil_iff.1 he.symm
      exact h
  | cons c cs ih =>
    simp only [anyEnd, Bool.or_eq_true, ih]
    constructor
    · rintro (h | ⟨before, after, rfl, h⟩)
      · exact ⟨[], c :: cs, rfl, h⟩
      · exact ⟨c :: before, after, rfl, h⟩
    · rintro ⟨before, after, he, h⟩
      cases before with
      | nil => exact .inl (by simpa [he] using h)
      | cons d before =>
        simp only [List.cons_append, List.cons.injEq] at he
        exact .inr ⟨before, after, he.2, h⟩

/-- The pieces stand for the whole of a text. -/
def matchPieces : List Piece → List Char → Bool
  | [], s => s.isEmpty
  | .star :: ps, s => anyEnd (matchPieces ps) s
  | .one chars :: ps, s =>
    match s with
    | [] => false
    | c :: cs => chars.holds c && matchPieces ps cs

/-! ## Tables of ends

A star makes the plain reading of `matchPieces` try the same end many times, so a pattern is
checked against all ends of the name at once, the last piece first. -/

/-- Each flag becomes: it or one behind it is set. -/
def orBehind : List Bool → List Bool
  | [] => []
  | b :: bs =>
    let rest := orBehind bs
    (b || rest.headD false) :: rest

/-- Which ends of a text the pieces stand for, the whole text first and the empty end last. -/
def endTable : List Piece → List Char → List Bool
  | [], s => s.map (fun _ => false) ++ [true]
  | .star :: ps, s => orBehind (endTable ps s)
  | .one chars :: ps, s =>
    List.zipWith (fun c b => chars.holds c && b) s (endTable ps s).tail ++ [false]

/-- The pattern stands for a name. -/
def accepts (pattern name : String) : Bool :=
  (endTable (pieces pattern.toList) name.toList).headD false

@[simp] theorem matches_one (chars : CharSet) (ps : List Piece) (c : Char) (cs : List Char) :
    matchPieces (.one chars :: ps) (c :: cs) = (chars.holds c && matchPieces ps cs) := rfl

theorem matches_star_iff {ps : List Piece} {s : List Char} :
    matchPieces (.star :: ps) s = true ↔
      ∃ before after, s = before ++ after ∧ matchPieces ps after = true := anyEnd_iff

/-- The ends of a text, the whole first. -/
def ends : List Char → List (List Char)
  | [] => [[]]
  | c :: cs => (c :: cs) :: ends cs

theorem ends_eq_cons (s : List Char) : ∃ t, ends s = s :: t := by
  cases s with
  | nil => exact ⟨[], rfl⟩
  | cons c cs => exact ⟨ends cs, rfl⟩

theorem headD_map_ends (p : List Char → Bool) (s : List Char) (b : Bool) :
    ((ends s).map p).headD b = p s := by
  obtain ⟨t, ht⟩ := ends_eq_cons s
  rw [ht, List.map_cons, List.headD_cons]

theorem orBehind_map_ends (p : List Char → Bool) (s : List Char) :
    orBehind ((ends s).map p) = (ends s).map (anyEnd p) := by
  induction s with
  | nil => simp [ends, orBehind, anyEnd]
  | cons c cs ih =>
    simp only [ends, List.map_cons, orBehind, ih, headD_map_ends, anyEnd]

theorem endTable_eq_map_ends (ps : List Piece) (s : List Char) :
    endTable ps s = (ends s).map (matchPieces ps) := by
  induction ps generalizing s with
  | nil =>
    induction s with
    | nil => rfl
    | cons c cs ih => simpa [endTable, ends, matchPieces] using ih
  | cons q ps ih =>
    cases q with
    | star => rw [endTable, ih, orBehind_map_ends]; rfl
    | one chars =>
      rw [endTable, ih]
      induction s with
      | nil => rfl
      | cons c cs ihs =>
        obtain ⟨t, ht⟩ := ends_eq_cons cs
        rw [ht] at ihs
        simp only [List.map_cons, List.tail_cons] at ihs
        simp [ends, ht, matchPieces, ihs]

theorem accepts_eq (pattern name : String) :
    accepts pattern name = matchPieces (pieces pattern.toList) name.toList := by
  rw [accepts, endTable_eq_map_ends, headD_map_ends]

end FieldWiring.Glob
