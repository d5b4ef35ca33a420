import FieldWiring.Text.Dotted
import FieldWiring.Text.Numeral
import FieldWiring.Text.Quoted

/-!
# Forms of commands

What a command takes from its arguments: options, by one or more names, and operands. Here each
argument is told apart on its own: an option may be written in full, as the unique beginning of a
long name, with its value behind an equals sign, or, under a name of one letter, together with its
value or with further such options.

Model of the argument parser that `_build_parser` builds, as far as it tells arguments apart
(specification, §6).

Results:
* `mem_named_of_find?`: what is found under a name has that name.
* `length_pieces`: telling arguments apart loses none.
-/

namespace FieldWiring.CommandLine

/-- What a program leaves when it ends: its exit code and what it wrote. -/
structure Reply where
  code : Nat
  out : String := ""
  err : String := ""
deriving DecidableEq, Repr

/-! ## Forms -/

/-- What an option does to the settings: shows the help instead, or changes them without or with a
value, which it may refuse. The separator in the place of the value stands for none. -/
inductive Effect (σ : Type) where
  | help
  | flag (change : σ → σ)
  | value (change : Option String → σ → Except String σ)

/-- An option under its names. -/
structure Switch (σ : Type) where
  names : List String
  effect : Effect σ

namespace Switch

variable {σ : Type}

/-- The option comes with a value. -/
def takesValue (s : Switch σ) : Bool :=
  match s.effect with
  | .value _ => true
  | _ => false

/-- A complaint about an option. -/
def about (s : Switch σ) (words : String) : String :=
  "argument " ++ "/".intercalate s.names ++ ": " ++ words

end Switch

/-- What the arguments are that belong to no option: at most one text, or a command's name with all
that follows it. -/
inductive Operand (σ : Type) where
  | optional (change : String → σ → σ)
  | command (name : String) (change : List String → σ → Except Reply (σ × List String))

/-- The form of a command. -/
structure Form (σ : Type) where
  program : String
  usage : String
  details : String
  switches : List (Switch σ)
  operand : Operand σ

namespace Form

variable {σ : Type}

/-- The reply to arguments that do not fit the form. -/
def misuse (form : Form σ) (complaint : String) : Reply :=
  { code := 2, err := form.usage ++ form.program ++ ": error: " ++ complaint ++ "\n" }

/-- The reply to a question for help. -/
def helpReply (form : Form σ) : Reply := { code := 0, out := form.usage ++ "\n" ++ form.details }

/-- All names with their options. -/
def named (form : Form σ) : List (String × Switch σ) :=
  form.switches.flatMap fun s => s.names.map (·, s)

/-- The option of a name. -/
def find? (form : Form σ) (name : String) : Option (Switch σ) := form.named.lookup name

theorem mem_named_of_find? {form : Form σ} {name : String} {s : Switch σ}
    (h : form.find? name = some s) : (name, s) ∈ form.named := by
  unfold find? at h
  generalize form.named = names at h
  induction names with
  | nil => cases h
  | cons x names ih =>
    obtain ⟨n, t⟩ := x
    rw [List.lookup_cons] at h
    split at h
    · rename_i hn
      cases h
      simp [beq_iff_eq.1 hn]
    · exact List.mem_cons_of_mem _ (ih h)

end Form

/-! ## Telling arguments apart -/

/-- What an argument is. To an option belongs what is attached to its name. -/
inductive Piece (σ : Type) where
  | word (text : String)
  | separator
  | option (text : String) (s : Switch σ) (name : String) (attached : Option (List Char))
  | unknown (text : String)

/-- An argument as it was written. -/
def Piece.text {σ : Type} : Piece σ → String
  | word text => text
  | separator => "--"
  | option text _ _ _ => text
  | unknown text => text

/-- A text before and after its first equals sign, if it has one. -/
def assigned? (text : String) : Option (String × List Char) :=
  match text.toList.dropWhile (· != '=') with
  | _ :: value => some (String.ofList (text.toList.takeWhile (· != '=')), value)
  | [] => none

/-- Digits and nothing else, at least one. -/
def isDigits (cs : List Char) : Bool := !cs.isEmpty && cs.all fun c => (Text.digitValue c).isSome

/-- A negative number, with or without a fraction. A line feed may follow it. -/
def isNegativeNumber (text : String) : Bool :=
  match text.toList with
  | '-' :: cs =>
    let cs := if cs.getLast? = some '\n' then cs.dropLast else cs
    isDigits cs ||
      match cs.dropWhile (· != '.') with
      | _ :: fraction =>
        (cs.takeWhile (· != '.')).all (fun c => (Text.digitValue c).isSome) && isDigits fraction
      | [] => false
  | _ => false

/-- A name with two hyphens. -/
def isLong (name : String) : Bool := "--".toList.isPrefixOf name.toList

/-- The options that an abbreviated argument may mean, each with its full name. -/
def Form.readings {σ : Type} (form : Form σ) (text : String) :
    List (String × Switch σ × Option (List Char)) :=
  if isLong text then
    let (beginning, attached) :=
      match assigned? text with
      | some (name, a) => (name, some a)
      | none => (text, none)
    (form.named.filter fun x => beginning.toList.isPrefixOf x.1.toList).map fun (name, s) =>
      (name, s, attached)
  else
    let name := String.ofList (text.toList.take 2)
    ((form.find? name).map fun s => (name, s, some (text.toList.drop 2))).toList

/-- What an argument is that begins with a hyphen and is no option in full. -/
def Form.abbreviated {σ : Type} (form : Form σ) (text : String) : Except Reply (Piece σ) :=
  match form.readings text with
  | [] =>
    if isNegativeNumber text || text.toList.contains ' ' then .ok (.word text)
    else .ok (.unknown text)
  | [(name, s, attached)] => .ok (.option text s name attached)
  | many =>
    .error <| form.misuse <|
      "ambiguous option: " ++ text ++ " could match " ++ ", ".intercalate (many.map (·.1))

/-- What an argument is that is not the separator. -/
def Form.piece {σ : Type} (form : Form σ) (text : String) : Except Reply (Piece σ) :=
  if text.toList.head? ≠ some '-' then .ok (.word text)
  else
    match form.find? text with
    | some s => .ok (.option text s text none)
    | none =>
      if text = "-" then .ok (.word text)
      else
        match assigned? text with
        | none => form.abbreviated text
        | some (name, attached) =>
          match form.find? name with
          | some s => .ok (.option text s name (some attached))
          | none => form.abbreviated text

/-- What each argument is. Behind the first separator there are no options. -/
def Form.pieces {σ : Type} (form : Form σ) : List String → Except Reply (List (Piece σ))
  | [] => .ok []
  | text :: rest =>
    if text = "--" then .ok (.separator :: rest.map .word)
    else do
      let p ← form.piece text
      return p :: (← form.pieces rest)

theorem length_pieces {σ : Type} {form : Form σ} {arguments : List String} {ps : List (Piece σ)}
    (h : form.pieces arguments = .ok ps) : ps.length = arguments.length := by
  induction arguments generalizing ps with
  | nil => cases h; rfl
  | cons text rest ih =>
    simp only [Form.pieces] at h
    split at h
    · cases h
      simp
    · cases hp : form.piece text with
      | error e => rw [hp] at h; cases h
      | ok p =>
        cases hr : form.pieces rest with
        | error e => rw [hp, hr] at h; cases h
        | ok qs =>
          rw [hp, hr] at h
          cases h
          simp [ih hr]

end FieldWiring.CommandLine
