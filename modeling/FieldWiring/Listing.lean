import FieldWiring.Text.Half

/-!
# Lists without repetition, and in order

`dedupe` keeps the first of equal elements. `sortBy` puts a list in order and keeps the given order
of elements that tie; `sorted` orders texts by the numbers of their
characters.

`dedupe` is the function of that name beside the corpus.

Results:
* `mem_dedupe`, `nodup_dedupe`: the elements are those of the list, each once.
* `perm_sortBy`: sorting keeps every element.
* `pairwise_sortBy`: a sorted list is in order, when any two elements can be compared.
-/

namespace FieldWiring

/-! ## First occurrences -/

/-- The elements of a list in the order in which they first occur. -/
def dedupe {α : Type} [DecidableEq α] : List α → List α
  | [] => []
  | a :: as => a :: (dedupe as).filter fun b => decide (b ≠ a)

theorem mem_dedupe {α : Type} [DecidableEq α] {a : α} {l : List α} : a ∈ dedupe l ↔ a ∈ l := by
  induction l with
  | nil => simp [dedupe]
  | cons b l ih =>
    by_cases h : a = b
    · simp [dedupe, h]
    · simp [dedupe, h, ih]

theorem nodup_dedupe {α : Type} [DecidableEq α] (l : List α) : (dedupe l).Nodup := by
  induction l with
  | nil => simp [dedupe]
  | cons a l ih =>
    simp only [dedupe, List.nodup_cons]
    exact ⟨by simp, ih.filter _⟩

/-! ## Order -/

/-- Puts `a` before the first element that does not come before it. -/
def insertBy {α : Type} (le : α → α → Bool) (a : α) : List α → List α
  | [] => [a]
  | b :: bs => if le a b then a :: b :: bs else b :: insertBy le a bs

/-- The elements of a list in the order `le`; elements that tie stay in the given order. -/
def sortBy {α : Type} (le : α → α → Bool) : List α → List α
  | [] => []
  | a :: as => insertBy le a (sortBy le as)

theorem perm_insertBy {α : Type} (le : α → α → Bool) (a : α) (l : List α) :
    (insertBy le a l).Perm (a :: l) := by
  induction l with
  | nil => exact .refl _
  | cons b l ih =>
    simp only [insertBy]
    split
    · exact .refl _
    · exact (ih.cons b).trans (.swap a b l)

theorem perm_sortBy {α : Type} (le : α → α → Bool) (l : List α) : (sortBy le l).Perm l := by
  induction l with
  | nil => exact .refl _
  | cons a l ih => exact (perm_insertBy le a _).trans (ih.cons a)

theorem pairwise_insertBy {α : Type} {le : α → α → Bool}
    (total : ∀ a b, le a b = true ∨ le b a = true)
    (trans : ∀ a b c, le a b = true → le b c = true → le a c = true) (a : α) {l : List α}
    (h : l.Pairwise fun a b => le a b = true) :
    (insertBy le a l).Pairwise fun a b => le a b = true := by
  induction l with
  | nil => simp [insertBy]
  | cons b l ih =>
    obtain ⟨hb, hl⟩ := List.pairwise_cons.1 h
    simp only [insertBy]
    split
    · rename_i hab
      refine List.pairwise_cons.2 ⟨fun c hc => ?_, h⟩
      rcases List.mem_cons.1 hc with rfl | hc
      · exact hab
      · exact trans a b c hab (hb c hc)
    · rename_i hab
      have hba : le b a = true := (total a b).resolve_left hab
      refine List.pairwise_cons.2 ⟨fun c hc => ?_, ih hl⟩
      rcases List.mem_cons.1 ((perm_insertBy le a l).mem_iff.1 hc) with rfl | hc
      · exact hba
      · exact hb c hc

theorem pairwise_sortBy {α : Type} {le : α → α → Bool}
    (total : ∀ a b, le a b = true ∨ le b a = true)
    (trans : ∀ a b c, le a b = true → le b c = true → le a c = true) (l : List α) :
    (sortBy le l).Pairwise fun a b => le a b = true := by
  induction l with
  | nil => simp [sortBy]
  | cons a l ih => exact pairwise_insertBy total trans a ih

/-- Texts in the order of the numbers of their characters. -/
def sorted (texts : List String) : List String := sortBy Text.precedes texts

theorem perm_sorted (texts : List String) : (sorted texts).Perm texts := perm_sortBy _ texts

end FieldWiring
