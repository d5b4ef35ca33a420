import FieldWiring.Template.Value

/-!
# Loops of templates

A template can go through the items of a value, and meanwhile the loop itself is a value: it tells
at which item it is, and it can be gone through in turn, which takes its items away from it.
`advance` takes the next item of a loop, and `peek` looks at it without taking it.

Model of the variable `loop` of a repetition.

Results:
* `advance_fst`: what is taken is what a look ahead shows.
-/

namespace FieldWiring.Template

/-- Where the items of a loop come from: values of which some are left, or a loop around it. -/
inductive Source where
  | items (left : List Value)
  | outer (id : Nat)
deriving DecidableEq, Repr

/-- How far a loop is: how many items it has in all, how many it has taken, the last two of these,
and the next one if somebody looked at it. -/
structure Loop where
  length : Nat
  source : Source
  index : Nat := 0
  ahead : Option Value := none
  current : Option Value := none
  before : Option Value := none
deriving DecidableEq, Repr

/-- The loops of a template so far; each is known by its place. -/
abbrev Loops := Array Loop

/-- The loop at a further item. -/
def Loop.enter (l : Loop) (v : Value) : Loop :=
  { l with index := l.index + 1, ahead := none, before := l.current, current := some v }

namespace Loops

/-- A loop in writing. -/
def text (loops : Loops) (id : Nat) : String :=
  match loops[id]? with
  | some l => "<LoopContext " ++ Text.natText l.index ++ "/" ++ Text.natText l.length ++ ">"
  | none => "<LoopContext>"

/-- The loops when one of them has taken an item, if there was one. -/
def enter (loops : Loops) (id : Nat) : Option Value → Loops
  | some v => loops.modify id (·.enter v)
  | none => loops

/-- Takes an item from the source of a loop. A loop that goes through another one gets its items
together with that loop. -/
def fetch (loops : Loops) (id : Nat) : Option Value × Loops :=
  match loops[id]? with
  | none => (none, loops)
  | some l =>
    match l.source with
    | .items [] => (none, loops)
    | .items (v :: left) => (some v, loops.modify id fun l => { l with source := .items left })
    | .outer around =>
      if around < id then
        let (v, loops) :=
          match loops[around]?.bind (·.ahead) with
          | some v => (some v, loops)
          | none => fetch loops around
        (v.map fun v => .pair v (.loop around), loops.enter around v)
      else (none, loops)
termination_by id

/-- The next item of a loop, taken from its source unless somebody did so before. -/
def upcoming (loops : Loops) (id : Nat) : Option Value × Loops :=
  match loops[id]?.bind (·.ahead) with
  | some v => (some v, loops)
  | none => loops.fetch id

/-- Goes on to the next item of a loop. -/
def advance (loops : Loops) (id : Nat) : Option Value × Loops :=
  let (v, loops) := loops.upcoming id
  (v, loops.enter id v)

/-- Looks at the next item of a loop. -/
def peek (loops : Loops) (id : Nat) : Option Value × Loops :=
  let (v, loops) := loops.upcoming id
  (v, loops.modify id fun l => { l with ahead := v })

theorem advance_fst (loops : Loops) (id : Nat) : (loops.advance id).1 = (loops.peek id).1 := rfl

/-- What a loop tells about itself, and the loops after that. -/
def member? (loops : Loops) (id : Nat) (l : Loop) (name : String) : Option (Value × Loops) :=
  match name with
  | "index" => some (.number l.index, loops)
  | "index0" => some (.number (l.index - 1), loops)
  | "revindex" => some (.number (l.length + 1 - l.index), loops)
  | "revindex0" => some (.number (l.length - l.index), loops)
  | "first" => some (.flag (l.index = 1), loops)
  | "length" => some (.number l.length, loops)
  | "depth" => some (.number 1, loops)
  | "depth0" => some (.number 0, loops)
  | "previtem" => some (l.before.getD (.missing .noPrevious), loops)
  | "last" =>
    let (v, loops) := loops.peek id
    some (.flag v.isNone, loops)
  | "nextitem" =>
    let (v, loops) := loops.peek id
    some (v.getD (.missing .noNext), loops)
  | "__module__" => some (.text Class.loop.home, loops)
  | _ => none

end Loops

end FieldWiring.Template
