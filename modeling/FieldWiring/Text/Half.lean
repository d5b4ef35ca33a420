/-!
# Halves of surrogate pairs, and the order of texts

Documents can write halves of surrogate pairs with escapes, and the names of files that are no UTF-8
are read with a half for each stray byte, although no character is encoded so. A half that stands
alone is held by a code point from U+DD800 on, in a plane in which no character lies: those code
points themselves cannot be told from halves. A text that holds a half has no encoding. Texts are
ordered by the numbers of their characters, where a half counts by its own number.

Results:
* `half?_ofHalf`, `ofHalf_of_half?`: a half is found again.
* `codes_injective`: texts with the same numbers are the same.
* `precedes_total`, `precedes_trans`, `precedes_antisymm`: texts are in a linear order.
* `before_of_precedes`: of two texts one comes before the other.
-/

namespace FieldWiring.Text

/-- The number of the code point for the first half. -/
def halfBase : Nat := 0xDD800

/-- The character that holds the half with a number. -/
def ofHalf (n : Nat) : Char := Char.ofNat (halfBase + (n - 0xD800))

/-- The number of the half that a character holds. -/
def half? (c : Char) : Option Nat :=
  if halfBase ≤ c.toNat ∧ c.toNat < halfBase + 0x800 then some (c.toNat - halfBase + 0xD800)
  else none

/-- Some character holds a half, so that the text has no encoding. -/
def holdsHalf (s : String) : Bool := s.toList.any fun c => (half? c).isSome

/-- The bytes of a text in UTF-8, when it has an encoding. -/
def encode? (s : String) : Option ByteArray := if holdsHalf s then none else some s.toUTF8

theorem holdsHalf_append (s t : String) : holdsHalf (s ++ t) = (holdsHalf s || holdsHalf t) := by
  simp [holdsHalf]

theorem encode?_eq_some_iff {s : String} {bytes : ByteArray} :
    encode? s = some bytes ↔ holdsHalf s = false ∧ s.toUTF8 = bytes := by
  unfold encode?
  cases holdsHalf s <;> simp

/-- The number is that of a half. -/
def isHalf (n : Nat) : Bool := decide (0xD800 ≤ n) && decide (n ≤ 0xDFFF)

theorem half?_ofHalf {n : Nat} (h : isHalf n = true) : half? (ofHalf n) = some n := by
  simp only [isHalf, Bool.and_eq_true, decide_eq_true_eq] at h
  have hv : (halfBase + (n - 0xD800)).isValidChar := by
    right
    simp only [halfBase]
    omega
  have hn : (ofHalf n).toNat = halfBase + (n - 0xD800) := by
    rw [ofHalf, Char.ofNat, dif_pos hv]
    rfl
  rw [half?, hn, if_pos (by omega)]
  exact congrArg some (by omega)

theorem ofHalf_of_half? {c : Char} {n : Nat} (h : half? c = some n) : ofHalf n = c := by
  unfold half? at h
  split at h
  · cases h
    rw [ofHalf, show halfBase + (c.toNat - halfBase + 0xD800 - 0xD800) = c.toNat by omega,
      Char.ofNat_toNat]
  · cases h

/-! ## Order -/

/-- The number of a character, and of the half that it holds, if it holds one. -/
def code (c : Char) : Nat := (half? c).getD c.toNat

/-- The numbers of the characters of a text, by which texts are ordered. -/
def codes (s : String) : List Nat := s.toList.map code

/-- A text is the same as another one or comes before it. -/
def precedes (s t : String) : Bool := !decide (codes t < codes s)

theorem code_injective : Function.Injective code := by
  intro c d h
  have hvalid : ∀ e : Char, e.toNat < 0xD800 ∨ 0xDFFF < e.toNat := fun e => by
    have := e.valid
    unfold UInt32.isValidChar Nat.isValidChar at this
    show e.val.toNat < _ ∨ _ < e.val.toNat
    omega
  have hc := hvalid c
  have hd := hvalid d
  refine Char.toNat_inj.mp ?_
  unfold code half? halfBase at h
  by_cases hhalf : 0xDD800 ≤ c.toNat ∧ c.toNat < 0xDD800 + 0x800 <;>
    by_cases hhalf' : 0xDD800 ≤ d.toNat ∧ d.toNat < 0xDD800 + 0x800 <;>
    simp only [hhalf, hhalf', if_true, if_false, Option.getD_some, Option.getD_none, and_self]
      at h <;> omega

theorem codes_injective : Function.Injective codes := fun _ _ h =>
  String.toList_inj.mp ((List.map_inj_right fun _ _ => @code_injective _ _).mp h)

theorem precedes_iff {s t : String} : precedes s t = true ↔ ¬codes t < codes s := by
  rw [precedes, Bool.not_eq_true', decide_eq_false_iff_not]

theorem precedes_total (s t : String) : precedes s t = true ∨ precedes t s = true := by
  simp only [precedes_iff]
  by_cases h : codes t < codes s
  · exact .inr (List.lt_asymm h)
  · exact .inl h

theorem precedes_trans {s t u : String} (h : precedes s t = true) (k : precedes t u = true) :
    precedes s u = true := by
  rw [precedes_iff] at *
  exact List.not_lt.mpr (List.le_trans (List.not_lt.mp h) (List.not_lt.mp k))

theorem precedes_antisymm {s t : String} (h : precedes s t = true) (k : precedes t s = true) :
    s = t := by
  rw [precedes_iff] at *
  exact codes_injective (List.le_antisymm (List.not_lt.mp h) (List.not_lt.mp k))

/-- A text comes before another one. -/
def Before (s t : String) : Prop := codes s < codes t

instance (s t : String) : Decidable (Before s t) := inferInstanceAs (Decidable (codes s < codes t))

instance : Std.Irrefl Before := ⟨fun s => List.lt_irrefl (codes s)⟩

instance : Std.Antisymm Before :=
  ⟨fun s _ h k => absurd (List.lt_trans h k) (List.lt_irrefl (codes s))⟩

theorem before_of_precedes {s t : String} (h : precedes s t = true) (hne : s ≠ t) : Before s t := by
  refine Decidable.byContradiction fun hnot => hne (precedes_antisymm h ?_)
  exact precedes_iff.mpr hnot

end FieldWiring.Text
