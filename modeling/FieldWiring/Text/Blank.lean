/-!
# Blanks

Which characters separate words, and the four things done with them: cutting them off both ends
(`trim`), the words between them (`words`), writing the words one space apart (`collapse`) and
dropping the blanks altogether (`squeeze`).

Results:
* `isBlank_of_isWhitespace`: every character that core calls white space is a blank.
* `mem_words_ne_nil`, `words_noBlank`: a word is not empty and holds no blank.
* `squeeze_eq_flatten_words`: without its blanks a text is its words, one after the other.
-/

namespace FieldWiring.Text

/-! ## The class of blanks -/

/-- Closed ranges of code points: `n` lies in one of them. -/
def inRanges (ranges : List (Nat × Nat)) (n : Nat) : Bool :=
  ranges.any fun r => decide (r.1 ≤ n) && decide (n ≤ r.2)

/-- The blanks: the controls that end lines or separate records, and the Unicode spaces. -/
def blankRanges : List (Nat × Nat) :=
  [(0x09, 0x0D), (0x1C, 0x20), (0x85, 0x85), (0xA0, 0xA0), (0x1680, 0x1680), (0x2000, 0x200A),
   (0x2028, 0x2029), (0x202F, 0x202F), (0x205F, 0x205F), (0x3000, 0x3000)]

/-- A character that separates words. -/
def isBlank (c : Char) : Bool := inRanges blankRanges c.toNat

theorem isBlank_of_isWhitespace {c : Char} (h : c.isWhitespace = true) : isBlank c = true := by
  simp only [Char.isWhitespace, Bool.or_eq_true, decide_eq_true_eq] at h
  rcases h with ((rfl | rfl) | rfl) | rfl <;> decide

/-! ## Cutting at both ends -/

/-- Drops the characters of a class from the end. -/
def trimEnd (p : Char → Bool) (s : List Char) : List Char :=
  (s.reverse.dropWhile p).reverse

/-- Drops the characters of a class from both ends. -/
def trimBoth (p : Char → Bool) (s : List Char) : List Char :=
  trimEnd p (s.dropWhile p)

/-- Drops the blanks at both ends. -/
def trimChars (s : List Char) : List Char := trimBoth isBlank s

/-- A text without the blanks at its ends. -/
def trim (s : String) : String := String.ofList (trimChars s.toList)

/-- A text without the occurrences of `c` at its ends. -/
def trimChar (c : Char) (s : String) : String := String.ofList (trimBoth (· == c) s.toList)

theorem trimEnd_concat (p : Char → Bool) (s : List Char) (c : Char) :
    trimEnd p (s ++ [c]) = if p c then trimEnd p s else s ++ [c] := by
  unfold trimEnd
  rw [List.reverse_append, List.reverse_singleton, List.singleton_append]
  by_cases hc : p c = true
  · rw [List.dropWhile_cons_of_pos hc, if_pos hc]
  · rw [List.dropWhile_cons_of_neg hc, if_neg hc, List.reverse_cons, List.reverse_reverse]

/-! ## Words -/

/-- The pieces between the characters of a class: one more than there are such characters. -/
def pieces (p : Char → Bool) : List Char → List (List Char)
  | [] => [[]]
  | c :: cs =>
    if p c then [] :: pieces p cs
    else
      match pieces p cs with
      | [] => [[c]]
      | w :: ws => (c :: w) :: ws

/-- The longest runs without a blank. -/
def words (s : List Char) : List (List Char) :=
  (pieces isBlank s).filter fun w => !w.isEmpty

/-- The words of a text, one space apart. -/
def collapse (s : String) : String :=
  String.ofList ([' '].intercalate (words s.toList))

/-- The characters of a text that are no blanks. -/
def squeeze (s : String) : String :=
  String.ofList (s.toList.filter fun c => !isBlank c)

theorem pieces_ne_nil (p : Char → Bool) (s : List Char) : pieces p s ≠ [] := by
  cases s with
  | nil => simp [pieces]
  | cons c cs =>
    simp only [pieces]
    split
    · simp
    · split <;> simp

theorem forall_mem_pieces {p : Char → Bool} {s : List Char} :
    ∀ w ∈ pieces p s, ∀ c ∈ w, p c = false := by
  induction s with
  | nil => simp [pieces]
  | cons c cs ih =>
    intro w hw
    simp only [pieces] at hw
    split at hw
    · rcases List.mem_cons.1 hw with rfl | hw
      · simp
      · exact ih w hw
    · rename_i hc
      have hc : p c = false := by simpa using hc
      split at hw
      · simp only [List.mem_singleton] at hw
        subst hw
        simp [hc]
      · rename_i w' ws heq
        rcases List.mem_cons.1 hw with rfl | hw
        · intro d hd
          rcases List.mem_cons.1 hd with rfl | hd
          · exact hc
          · exact ih w' (by simp [heq]) d hd
        · exact ih w (by simp [heq, hw])

theorem flatten_pieces (p : Char → Bool) (s : List Char) :
    (pieces p s).flatten = s.filter fun c => !p c := by
  induction s with
  | nil => rfl
  | cons c cs ih =>
    simp only [pieces, List.filter_cons]
    by_cases hc : p c = true
    · simp [hc, ih]
    · simp only [hc, Bool.false_eq_true, if_false, Bool.not_false, if_true]
      split
      · rename_i heq
        exact absurd heq (pieces_ne_nil p cs)
      · rename_i w ws heq
        rw [heq] at ih
        simpa using ih

theorem mem_words_ne_nil {s w : List Char} (h : w ∈ words s) : w ≠ [] := by
  have := (List.mem_filter.1 h).2
  rintro rfl
  simp at this

theorem words_noBlank {s w : List Char} (h : w ∈ words s) : ∀ c ∈ w, isBlank c = false :=
  forall_mem_pieces w (List.mem_filter.1 h).1

theorem flatten_filter_ne_nil (l : List (List Char)) :
    (l.filter fun w => !w.isEmpty).flatten = l.flatten := by
  induction l with
  | nil => rfl
  | cons w l ih => cases w <;> simp [ih]

/-- Without its blanks a text is its words, one after the other. -/
theorem squeeze_eq_flatten_words (s : List Char) :
    s.filter (fun c => !isBlank c) = (words s).flatten := by
  rw [words, flatten_filter_ne_nil, flatten_pieces]

end FieldWiring.Text
