import FieldWiring.CommandLine.Form

/-!
# Reading arguments

The arguments of a command from left to right: options change the settings, the first word that
belongs to none is the operand, and what has no use is left over. Options of one letter that share
an argument take effect only when the whole argument is understood.

Model of the argument parser that `_build_parser` builds, as far as it takes the values of options
(specification, §6).

Results:
* `uses_short`: a letter that takes a value takes all that is attached to it.
* `take_nil`: without arguments an optional operand changes nothing.
-/

namespace FieldWiring.CommandLine

variable {σ : Type}

/-! ## Single arguments -/

/-- An option and its value, if it has one. -/
structure Use (σ : Type) where
  switch : Switch σ
  value : Option String := none

/-- What an argument asks for: the options that have all they need, and one whose value is the next
argument. -/
structure Uses (σ : Type) where
  ready : List (Use σ) := []
  awaiting : Option (Switch σ) := none

/-- A further use before others. -/
def Uses.after (u : Use σ) (us : Uses σ) : Uses σ := { us with ready := u :: us.ready }

/-- The value that is attached to a name. The separator stands for none. -/
def attachedValue (text : List Char) : Option String :=
  if text = "--".toList then none else some (String.ofList text)

/-- The size of what is attached to a name. -/
def attachedLength : Option (List Char) → Nat
  | none => 0
  | some text => text.length + 1

/-- What an argument asks for in which an option stands. -/
def Form.uses (form : Form σ) (s : Switch σ) (name : String) :
    (attached : Option (List Char)) → Except Reply (Uses σ)
  | none =>
    if s.takesValue then .ok { awaiting := some s } else .ok { ready := [⟨s, none⟩] }
  | some text =>
    let ignored : Except Reply (Uses σ) :=
      .error (form.misuse (s.about
        ("ignored explicit argument " ++ Text.quoted (String.ofList text))))
    if s.takesValue then .ok { ready := [⟨s, attachedValue text⟩] }
    else if isLong name then ignored
    else
      match text with
      | [] => ignored
      | c :: rest =>
        let letter := String.ofList ['-', c]
        match form.find? letter with
        | none => ignored
        | some t =>
          (form.uses t letter (if rest.isEmpty then none else some rest)).map (.after ⟨s, none⟩)
termination_by attached => attachedLength attached
decreasing_by
  split <;> simp [attachedLength]

theorem uses_short {form : Form σ} {s : Switch σ} (name : String) {text : List Char}
    (h : s.takesValue = true) :
    form.uses s name (some text) = .ok { ready := [⟨s, attachedValue text⟩] } := by
  unfold Form.uses
  simp [h]

/-- The settings after an option. -/
def Form.perform (form : Form σ) (settings : σ) (u : Use σ) : Except Reply σ :=
  match u.switch.effect with
  | .help => .error form.helpReply
  | .flag change => .ok (change settings)
  | .value change => (change u.value settings).mapError fun words =>
    form.misuse (u.switch.about words)

/-! ## All arguments -/

/-- What was read so far. The next `skip` arguments have been used already. -/
structure Progress (σ : Type) where
  settings : σ
  wantsOperand : Bool := true
  left : List String := []
  skip : Nat := 0

/-- Passes over arguments. -/
def Progress.leave (p : Progress σ) (texts : List String) : Progress σ :=
  { p with left := p.left ++ texts }

/-- Goes on to the settings that an operand leads to. -/
def Progress.served (p : Progress σ) (settings : σ) (skip : Nat) : Progress σ :=
  { p with settings := settings, wantsOperand := false, skip := skip }

/-- Takes an option, whose value may be the next argument. -/
def Form.takeOption (form : Form σ) (p : Progress σ) (us : Uses σ) (next : Option (Piece σ)) :
    Except Reply (Progress σ) :=
  match us.awaiting, next with
  | none, _ => do
    return { p with settings := ← us.ready.foldlM form.perform p.settings }
  | some s, some (.word value) => do
    let uses := us.ready ++ [⟨s, some value⟩]
    return { p with settings := ← uses.foldlM form.perform p.settings, skip := 1 }
  | some s, _ => .error (form.misuse (s.about "expected one argument"))

/-- Takes a word that belongs to no option. A separator behind an operand ends it. -/
def Form.takeWord (form : Form σ) (p : Progress σ) (text : String) (rest : List (Piece σ)) :
    Except Reply (Progress σ) :=
  match p.wantsOperand, form.operand with
  | true, .optional change =>
    let skip := match rest with
      | .separator :: _ => 1
      | _ => 0
    .ok (p.served (change text p.settings) skip)
  | true, .command _ change => do
    let (settings, more) ← change (text :: rest.map Piece.text) p.settings
    return (p.served settings rest.length).leave more
  | false, _ => .ok (p.leave [text])

/-- Takes the separator. In front of an operand it says no more than that one follows. -/
def Form.takeSeparator (form : Form σ) (p : Progress σ) (rest : List (Piece σ)) :
    Except Reply (Progress σ) :=
  match p.wantsOperand, form.operand, rest with
  | true, .optional change, next :: _ => .ok (p.served (change next.text p.settings) 1)
  | true, .optional _, [] => .ok p
  | true, .command .., _ :: _ => form.takeWord p "--" rest
  | _, _, _ => .ok (p.leave ["--"])

/-- Takes an argument in front of others. -/
def Form.step (form : Form σ) (p : Progress σ) (rest : List (Piece σ)) :
    Piece σ → Except Reply (Progress σ)
  | .word text => form.takeWord p text rest
  | .separator => form.takeSeparator p rest
  | .unknown text => .ok (p.leave [text])
  | .option _ s name attached => do form.takeOption p (← form.uses s name attached) rest.head?

/-- The reply when nothing is left to read. -/
def Form.finish (form : Form σ) (p : Progress σ) : Except Reply (σ × List String) :=
  match p.wantsOperand, form.operand with
  | true, .command name _ =>
    .error (form.misuse ("the following arguments are required: " ++ name))
  | _, _ => .ok (p.settings, p.left)

/-- The settings that arguments lead to, and the arguments that are left over. -/
def Form.take (form : Form σ) (p : Progress σ) : List (Piece σ) → Except Reply (σ × List String)
  | [] => form.finish p
  | x :: rest =>
    match p.skip with
    | skip + 1 => form.take { p with skip := skip } rest
    | 0 => do form.take (← form.step p rest x) rest

theorem take_nil {form : Form σ} {change : String → σ → σ} (h : form.operand = .optional change)
    (settings : σ) : form.take { settings } [] = .ok (settings, []) := by
  rw [Form.take, Form.finish]
  simp [h]

/-- Reads all arguments of a command. -/
def Form.read (form : Form σ) (settings : σ) (arguments : List String) :
    Except Reply (σ × List String) := do
  form.take { settings } (← form.pieces arguments)

end FieldWiring.CommandLine
