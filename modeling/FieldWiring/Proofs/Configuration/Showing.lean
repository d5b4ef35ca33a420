import FieldWiring.Yaml.Value

/-!
# Values that can be shown

A message shows a value as a whole. That fails where the value holds a number with too many digits,
and where too many values stand inside of each other. Both are told here from what stands in a value
and how deep, whatever the collections are that it stands in.

Results:
* `obstacle?_succ`: a value is looked at first, and then its parts one after the other.
* `obstacle?_eq_none_iff`: a value can be shown iff nothing in it stands too deep or is too long.
* `obstacle?_eq_some_iff`: what keeps it from being shown is what is met first.
-/

namespace FieldWiring.Yaml.Value

/-- The values of which a value is made: items, or keys with what stands under them. -/
def parts : Value → List Value
  | list items => items
  | pair a b => [a, b]
  | dict entries => entries.flatMap fun e => [e.1, e.2]
  | group items => items
  | _ => []

/-- A value stands in another one, inside of a number of values around it. -/
inductive Holds : Value → Nat → Value → Prop
  | self (v : Value) : Holds v 0 v
  | inside {v u w : Value} {n : Nat} : u ∈ v.parts → Holds u n w → Holds v (n + 1) w

/-- The value is a whole number with more digits than are ever written. -/
def IsLong (v : Value) : Prop := ∃ n, v = int n ∧ isUnwritable n = true

/-- Nothing in the value is too long to be written, or stands inside of `room` values or more. -/
def IsShown (room : Nat) (v : Value) : Prop := ∀ n w, v.Holds n w → n < room ∧ ¬ w.IsLong

/-- What is met first that keeps a value from being shown, when its parts are looked at in order. -/
inductive Meets : Value → Nat → ShowFault → Prop
  | deep (v : Value) : Meets v 0 .tooDeep
  | long {v : Value} {room : Nat} : v.IsLong → Meets v (room + 1) .longNumber
  | inside {v u : Value} {room : Nat} {f : ShowFault} {before after : List Value} :
    v.parts = before ++ u :: after → (∀ w ∈ before, w.IsShown room) → Meets u room f →
      Meets v (room + 1) f

theorem isLong_int {n : Int} : (int n).IsLong ↔ isUnwritable n = true := by
  constructor
  · rintro ⟨m, hm, h⟩
    exact Value.int.inj hm ▸ h
  · exact fun h => ⟨n, rfl, h⟩

theorem IsLong.parts_eq {v : Value} (h : v.IsLong) : v.parts = [] := by
  obtain ⟨n, rfl, -⟩ := h
  rfl

/-- Only whole numbers are long. -/
theorem not_isLong {v : Value} (h : ∀ n, v ≠ int n) : ¬ v.IsLong :=
  fun ⟨n, hn, _⟩ => h n hn

/-! ## Looking for what cannot be shown -/

theorem itemObstacle?_eq (room : Nat) (vs : List Value) :
    itemObstacle? room vs = vs.findSome? (obstacle? room) := by
  induction vs with
  | nil => rfl
  | cons v vs ih =>
    rw [itemObstacle?, List.findSome?_cons, ih]
    cases v.obstacle? room <;> rfl

theorem entryObstacle?_eq (room : Nat) (es : List (Value × Value)) :
    entryObstacle? room es = (es.flatMap fun e => [e.1, e.2]).findSome? (obstacle? room) := by
  induction es with
  | nil => rfl
  | cons e es ih =>
    obtain ⟨k, v⟩ := e
    rw [entryObstacle?, List.flatMap_cons, List.cons_append, List.cons_append, List.nil_append,
      List.findSome?_cons, List.findSome?_cons, ih]
    cases k.obstacle? room <;> cases v.obstacle? room <;> rfl

/-- A number is looked at itself, and of other values the parts, one after the other. -/
theorem obstacle?_succ (room : Nat) (v : Value) :
    (v.IsLong ∧ v.obstacle? (room + 1) = some .longNumber) ∨
      (¬ v.IsLong ∧ v.obstacle? (room + 1) = v.parts.findSome? (obstacle? room)) := by
  cases v with
  | int n =>
    rw [isLong_int, obstacle?]
    by_cases h : isUnwritable n = true
    · rw [if_pos h]
      exact .inl ⟨h, rfl⟩
    · rw [if_neg h]
      exact .inr ⟨h, rfl⟩
  | list items => exact .inr ⟨not_isLong nofun, itemObstacle?_eq room items⟩
  | group items => exact .inr ⟨not_isLong nofun, itemObstacle?_eq room items⟩
  | dict es => exact .inr ⟨not_isLong nofun, entryObstacle?_eq room es⟩
  | pair a b =>
    refine .inr ⟨not_isLong nofun, ?_⟩
    show (a.obstacle? room).or (b.obstacle? room) = [a, b].findSome? (obstacle? room)
    rw [List.findSome?_cons, List.findSome?_cons]
    cases a.obstacle? room <;> cases b.obstacle? room <;> rfl
  | _ => exact .inr ⟨not_isLong nofun, rfl⟩

theorem isShown_succ {room : Nat} {v : Value} :
    v.IsShown (room + 1) ↔ ¬ v.IsLong ∧ ∀ u ∈ v.parts, u.IsShown room := by
  constructor
  · intro h
    refine ⟨(h 0 v (.self v)).2, fun u hu n w hw => ?_⟩
    obtain ⟨hlt, hshort⟩ := h (n + 1) w (.inside hu hw)
    exact ⟨Nat.lt_of_succ_lt_succ hlt, hshort⟩
  · rintro ⟨hshort, hparts⟩ n w hw
    cases hw with
    | self => exact ⟨Nat.succ_pos room, hshort⟩
    | inside hu hw =>
      obtain ⟨hlt, hw⟩ := hparts _ hu _ w hw
      exact ⟨Nat.succ_lt_succ hlt, hw⟩

/-- A value can be shown iff nothing in it stands too deep or is too long. -/
theorem obstacle?_eq_none_iff {room : Nat} {v : Value} :
    v.obstacle? room = none ↔ v.IsShown room := by
  induction room generalizing v with
  | zero =>
    rw [obstacle?]
    exact iff_of_false (Option.some_ne_none _) fun h => absurd (h 0 v (.self v)).1 (Nat.lt_irrefl 0)
  | succ room ih =>
    rw [isShown_succ]
    rcases obstacle?_succ room v with ⟨hlong, heq⟩ | ⟨hshort, heq⟩
    · rw [heq]
      exact iff_of_false (Option.some_ne_none _) fun h => h.1 hlong
    · rw [heq, List.findSome?_eq_none_iff, and_iff_right hshort]
      exact forall₂_congr fun u _ => ih

/-- What keeps a value from being shown is what is met first. -/
theorem obstacle?_eq_some_iff {room : Nat} {v : Value} {f : ShowFault} :
    v.obstacle? room = some f ↔ v.Meets room f := by
  induction room generalizing v with
  | zero =>
    rw [obstacle?, Option.some_inj]
    constructor
    · rintro rfl
      exact .deep v
    · rintro ⟨⟩
      rfl
  | succ room ih =>
    rcases obstacle?_succ room v with ⟨hlong, heq⟩ | ⟨hshort, heq⟩
    · rw [heq, Option.some_inj]
      constructor
      · rintro rfl
        exact .long hlong
      · rintro (_ | _ | ⟨hparts, -, -⟩)
        · rfl
        · rw [hlong.parts_eq] at hparts
          exact absurd hparts (List.append_ne_nil_of_right_ne_nil _ (List.cons_ne_nil _ _)).symm
    · rw [heq, List.findSome?_eq_some_iff]
      constructor
      · rintro ⟨before, u, after, hparts, hu, hbefore⟩
        exact .inside hparts (fun w hw => obstacle?_eq_none_iff.mp (hbefore w hw)) (ih.mp hu)
      · rintro (_ | hlong | ⟨hparts, hbefore, hu⟩)
        · exact absurd hlong hshort
        · exact ⟨_, _, _, hparts, ih.mpr hu, fun w hw => obstacle?_eq_none_iff.mpr (hbefore w hw)⟩

end FieldWiring.Yaml.Value
