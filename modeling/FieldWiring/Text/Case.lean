import FieldWiring.Text.Blank
import FieldWiring.Text.CaseTable

/-!
# Lower case

`lower` writes a text in small letters by the Unicode rules: one letter for one letter, except that
a dotted capital I keeps its dot as an accent and a capital sigma at the end of a word takes its
final form.

Results:
* `lowerChar_of_isUpper`: on the Latin capitals this is core's `Char.toLower`.
-/

namespace FieldWiring.Text

/-- The lower-case letter of a character, itself when it has none. -/
def lowerChar (c : Char) : Char :=
  match lowerRanges.find? fun r =>
      decide (r.first ≤ c.toNat) && decide (c.toNat ≤ r.last) &&
      (c.toNat - r.first) % r.step == 0 with
  | some r => Char.ofNat (Int.toNat (c.toNat + r.offset))
  | none => c

/-- The Latin capitals by their codes. -/
theorem isUpper_iff {c : Char} : c.isUpper = true ↔ 65 ≤ c.toNat ∧ c.toNat ≤ 90 := by
  change decide (c.val ≥ 65 ∧ c.val ≤ 90) = true ↔ _
  rw [decide_eq_true_eq]
  simp [UInt32.le_iff_toNat_le]

theorem lowerChar_of_isUpper {c : Char} (h : c.isUpper = true) : lowerChar c = c.toLower := by
  have hr : ∃ n : Fin 26, c = Char.ofNat (65 + n.val) := by
    obtain ⟨h1, h2⟩ := isUpper_iff.mp h
    refine ⟨⟨c.toNat - 65, by omega⟩, ?_⟩
    have : 65 + (c.toNat - 65) = c.toNat := by omega
    simp only [this, Char.ofNat_toNat]
  obtain ⟨n, rfl⟩ := hr
  revert n
  decide

/-- A character that case rules look through. -/
def isCaseIgnorable (c : Char) : Bool := inRanges caseIgnorableRanges c.toNat

/-- A character that has a case. -/
def isCased (c : Char) : Bool := inRanges casedRanges c.toNat

/-- The nearest character that is not looked through has a case. -/
def meetsCased (s : List Char) : Bool :=
  match s.dropWhile isCaseIgnorable with
  | [] => false
  | c :: _ => isCased c

/-- The small letters for `c`, standing after `before` (nearest first) and followed by `after`. -/
def lowerAt (before : List Char) (c : Char) (after : List Char) : List Char :=
  if c = 'İ' then ['i', Char.ofNat 0x307]
  else if c = 'Σ' then
    if meetsCased before && !meetsCased after then ['ς'] else ['σ']
  else [lowerChar c]

/-- The small letters for a text that follows `before` (nearest first). -/
def lowerAfter (before : List Char) : List Char → List Char
  | [] => []
  | c :: cs => lowerAt before c cs ++ lowerAfter (c :: before) cs

/-- A text in small letters. -/
def lower (s : String) : String := String.ofList (lowerAfter [] s.toList)

end FieldWiring.Text
