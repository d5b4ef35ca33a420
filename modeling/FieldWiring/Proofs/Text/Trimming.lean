import FieldWiring.Text.Blank
import Mathlib.Data.List.Basic
import Mathlib.Data.List.TakeWhile

/-!
# Texts between blanks

What is cut off a text at its ends, and what is left: `trimChars` leaves the text from its first
character that is no blank to its last one. So a blank is left iff it stands between two characters
that are none.

Results:
* `exists_trimChars`: a text is what is left of it, with blanks on both sides.
* `trimChars_between`: blanks around a text are cut off, and no more if it begins and ends without
  them.
* `mem_trimChars_iff`: what is left of a character that occurs between others.
-/

namespace FieldWiring.Text

theorem dropWhile_of_head {p : Char → Bool} {s : List Char} (h : ∀ c ∈ s.head?, p c = false) :
    s.dropWhile p = s := by
  cases s with
  | nil => rfl
  | cons c cs => exact List.dropWhile_cons_of_neg (by simp [h c rfl])

theorem dropWhile_append_of_exists {p : Char → Bool} {s : List Char} (h : ∃ c ∈ s, p c = false)
    (t : List Char) : (s ++ t).dropWhile p = s.dropWhile p ++ t := by
  induction s with
  | nil =>
    obtain ⟨c, hc, -⟩ := h
    exact absurd hc List.not_mem_nil
  | cons d s ih =>
    by_cases hd : p d = true
    · obtain ⟨c, hc, hpc⟩ := h
      have hrest : ∃ c ∈ s, p c = false := by
        rcases List.mem_cons.mp hc with rfl | hc
        · exact absurd (hpc.symm.trans hd) Bool.false_ne_true
        · exact ⟨c, hc, hpc⟩
      rw [List.cons_append, List.dropWhile_cons_of_pos hd, List.dropWhile_cons_of_pos hd, ih hrest]
    · rw [List.cons_append, List.dropWhile_cons_of_neg hd, List.dropWhile_cons_of_neg hd,
        List.cons_append]

theorem trimEnd_append_of_exists {p : Char → Bool} (s : List Char) {t : List Char}
    (h : ∃ c ∈ t, p c = false) : trimEnd p (s ++ t) = s ++ trimEnd p t := by
  have hreverse : ∃ c ∈ t.reverse, p c = false := by
    obtain ⟨c, hc, hpc⟩ := h
    exact ⟨c, List.mem_reverse.mpr hc, hpc⟩
  unfold trimEnd
  rw [List.reverse_append, dropWhile_append_of_exists hreverse, List.reverse_append,
    List.reverse_reverse]

/-- A text is what is left of it when its end is cut, and the characters that are cut off. -/
theorem exists_trimEnd (p : Char → Bool) (s : List Char) :
    ∃ trail, (∀ c ∈ trail, p c = true) ∧ s = trimEnd p s ++ trail := by
  refine ⟨(s.reverse.takeWhile p).reverse, fun c hc => ?_, ?_⟩
  · exact List.mem_takeWhile_imp (List.mem_reverse.mp hc)
  · unfold trimEnd
    rw [← List.reverse_append, List.takeWhile_append_dropWhile, List.reverse_reverse]

/-- A text is what is left of it, with blanks on both sides. -/
theorem exists_trimChars (s : List Char) :
    ∃ lead trail, (∀ c ∈ lead, isBlank c = true) ∧ (∀ c ∈ trail, isBlank c = true) ∧
      s = lead ++ trimChars s ++ trail := by
  obtain ⟨trail, htrail, hend⟩ := exists_trimEnd isBlank (s.dropWhile isBlank)
  refine ⟨s.takeWhile isBlank, trail, fun c hc => List.mem_takeWhile_imp hc, htrail, ?_⟩
  rw [List.append_assoc, trimChars, trimBoth, ← hend, List.takeWhile_append_dropWhile]

theorem trimChars_lead {lead : List Char} (h : ∀ c ∈ lead, isBlank c = true) (s : List Char) :
    trimChars (lead ++ s) = trimChars s := by
  unfold trimChars trimBoth
  rw [List.dropWhile_append_of_pos h]

/-- Blanks behind a text are trimmed, and no more when it begins and ends with others. -/
theorem trimChars_append {s blanks : List Char} (hfirst : ∀ c ∈ s.head?, isBlank c = false)
    (hlast : ∀ c ∈ s.getLast?, isBlank c = false) (hblanks : ∀ c ∈ blanks, isBlank c = true)
    (hne : s ≠ []) : trimChars (s ++ blanks) = s := by
  have hlead : (s ++ blanks).dropWhile isBlank = s ++ blanks :=
    dropWhile_of_head (by rwa [List.head?_append_of_ne_nil _ hne])
  unfold trimChars trimBoth trimEnd
  rw [hlead, List.reverse_append, List.dropWhile_append_of_pos fun c hc =>
    hblanks c (List.mem_reverse.mp hc), dropWhile_of_head (by rwa [List.head?_reverse]),
    List.reverse_reverse]

/-- Blanks around a text are trimmed, and no more when it begins and ends with others. -/
theorem trimChars_between {lead s trail : List Char} (hlead : ∀ c ∈ lead, isBlank c = true)
    (htrail : ∀ c ∈ trail, isBlank c = true) (hfirst : ∀ c ∈ s.head?, isBlank c = false)
    (hlast : ∀ c ∈ s.getLast?, isBlank c = false) (hne : s ≠ []) :
    trimChars (lead ++ s ++ trail) = s := by
  rw [List.append_assoc, trimChars_lead hlead, trimChars_append hfirst hlast htrail hne]

/-- Nothing is left of a text iff it is blank. -/
theorem trimChars_eq_nil_iff {s : List Char} : trimChars s = [] ↔ ∀ c ∈ s, isBlank c = true := by
  constructor
  · intro h c hc
    obtain ⟨lead, trail, hlead, htrail, hs⟩ := exists_trimChars s
    rw [hs, h, List.append_nil] at hc
    exact (List.mem_append.mp hc).elim (hlead c) (htrail c)
  · intro h
    unfold trimChars trimBoth
    rw [List.dropWhile_eq_nil_iff.mpr h]
    rfl

/-- What is left of a text neither begins nor ends with a blank. -/
theorem trimChars_ends {s : List Char} {c : Char}
    (h : (trimChars s).head? = some c ∨ (trimChars s).getLast? = some c) : isBlank c = false := by
  have hfirst : ∀ {t : List Char} {c}, (t.dropWhile isBlank).head? = some c →
      isBlank c = false := by
    intro t c hc
    have := List.head?_dropWhile_not isBlank t
    rw [hc] at this
    simpa using this
  rcases h with h | h
  · obtain ⟨trail, -, hend⟩ := exists_trimEnd isBlank (s.dropWhile isBlank)
    refine hfirst (t := s) ?_
    rw [hend, List.head?_append,
      show trimEnd isBlank (s.dropWhile isBlank) = trimChars s from rfl, h]
    rfl
  · unfold trimChars trimBoth trimEnd at h
    rw [List.getLast?_reverse] at h
    exact hfirst h

/-- A blank is left of a text iff it occurs between two characters that are none. -/
theorem mem_trimChars_iff {s : List Char} {c : Char} (hc : isBlank c = true) :
    c ∈ trimChars s ↔ ∃ u v, s = u ++ c :: v ∧ (∃ d ∈ u, isBlank d = false) ∧
      ∃ d ∈ v, isBlank d = false := by
  constructor
  · intro h
    obtain ⟨lead, trail, -, -, hs⟩ := exists_trimChars s
    obtain ⟨u, v, htrim⟩ := List.append_of_mem h
    -- the first and the last character that are left are no blanks, so they are not this one
    have hu : ∃ d ∈ u, isBlank d = false := by
      cases u with
      | nil =>
        have hfirst : (trimChars s).head? = some c := by rw [htrim]; rfl
        exact absurd (hc.symm.trans (trimChars_ends (.inl hfirst))) (by decide)
      | cons d u =>
        have hfirst : (trimChars s).head? = some d := by rw [htrim]; rfl
        exact ⟨d, List.mem_cons_self, trimChars_ends (.inl hfirst)⟩
    have hv : ∃ d ∈ v, isBlank d = false := by
      rcases List.eq_nil_or_concat' v with rfl | ⟨v, d, rfl⟩
      · have hlast : (trimChars s).getLast? = some c := by rw [htrim, List.getLast?_concat]
        exact absurd (hc.symm.trans (trimChars_ends (.inr hlast))) (by decide)
      · have hlast : (trimChars s).getLast? = some d := by
          rw [htrim, ← List.cons_append, ← List.append_assoc, List.getLast?_concat]
        exact ⟨d, by simp, trimChars_ends (.inr hlast)⟩
    obtain ⟨d, hd, hd'⟩ := hu
    obtain ⟨e, he, he'⟩ := hv
    refine ⟨lead ++ u, v ++ trail, ?_, ⟨d, List.mem_append_right _ hd, hd'⟩,
      ⟨e, List.mem_append_left _ he, he'⟩⟩
    rw [hs, htrim]
    simp only [List.append_assoc, List.cons_append]
  · rintro ⟨u, v, rfl, hu, e, he, he'⟩
    have hbehind : ∃ d ∈ c :: v, isBlank d = false := ⟨e, List.mem_cons_of_mem c he, he'⟩
    have hcons : trimEnd isBlank (c :: v) = c :: trimEnd isBlank v :=
      trimEnd_append_of_exists [c] ⟨e, he, he'⟩
    rw [trimChars, trimBoth, dropWhile_append_of_exists hu,
      trimEnd_append_of_exists _ hbehind, hcons]
    exact List.mem_append_right _ List.mem_cons_self

end FieldWiring.Text
