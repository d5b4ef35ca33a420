import FieldWiring.Output.Manifest
import FieldWiring.Proofs.Files.Following
import FieldWiring.Scan

/-!
# Names that a scan passes over

A run leaves units, whose names end in `.g.cs`, and a manifest. A scan takes neither for a source,
in whatever letters the rest of the name is written.

Results:
* `lowerAfter_append`: the end of a text in small letters is its end in small letters.
* `isSourceName_of_output`: what a run leaves has not the name of a source.
-/

namespace FieldWiring

namespace Text

/-- The end of a text in small letters is its end in small letters. -/
theorem lowerAfter_append (before a b : List Char) :
    ∃ x, lowerAfter before (a ++ b) = x ++ lowerAfter (a.reverse ++ before) b := by
  induction a generalizing before with
  | nil => exact ⟨[], rfl⟩
  | cons c cs ih =>
    obtain ⟨x, hx⟩ := ih (c :: before)
    refine ⟨lowerAt before c (cs ++ b) ++ x, ?_⟩
    rw [List.cons_append, lowerAfter, hx, List.reverse_cons, List.append_assoc, List.append_assoc]
    rfl

theorem lowerAt_of_lower {before after : List Char} {c : Char} (hi : c ≠ 'İ') (hs : c ≠ 'Σ')
    (hc : lowerChar c = c) : lowerAt before c after = [c] := by
  unfold lowerAt
  rw [if_neg hi, if_neg hs, hc]

theorem lowerAfter_of_lower {s : List Char}
    (h : ∀ c ∈ s, c ≠ 'İ' ∧ c ≠ 'Σ' ∧ lowerChar c = c) :
    ∀ before, lowerAfter before s = s := by
  induction s with
  | nil => exact fun _ => rfl
  | cons c cs ih =>
    intro before
    obtain ⟨hi, hs, hc⟩ := h c List.mem_cons_self
    rw [lowerAfter, lowerAt_of_lower hi hs hc, ih fun d hd => h d (List.mem_cons_of_mem c hd)]
    rfl

end Text

/-! ## Names -/

/-- The name of a file that a run leaves: that of a unit, or that of the manifest. -/
def IsOutputName (s : String) : Prop :=
  (∃ start, s = start ++ ".g.cs") ∨ s = OutputManifest.fileName

/-- What a run leaves has not the name of a source. -/
theorem isSourceName_of_output {s : String} (h : IsOutputName s) : isSourceName s = false := by
  rcases h with ⟨start, rfl⟩ | rfl
  · have hall : ".g.cs".toList.all
        (fun c => decide (c ≠ 'İ' ∧ c ≠ 'Σ' ∧ Text.lowerChar c = c)) = true := by decide +kernel
    have hending : ∀ c ∈ ".g.cs".toList, c ≠ 'İ' ∧ c ≠ 'Σ' ∧ Text.lowerChar c = c :=
      fun c hc => of_decide_eq_true (List.all_eq_true.mp hall c hc)
    obtain ⟨x, hx⟩ := Text.lowerAfter_append [] start.toList ".g.cs".toList
    rw [Text.lowerAfter_of_lower hending] at hx
    have hlower : (Text.lower (start ++ ".g.cs")).toList = x ++ ".g.cs".toList := by
      unfold Text.lower
      rw [String.toList_ofList, String.toList_append, hx]
    have hany : generatedEndings.any
        (fun ending => ending.toList.isSuffixOf (Text.lower (start ++ ".g.cs")).toList) = true := by
      rw [List.any_eq_true]
      refine ⟨".g.cs", List.mem_cons_self, ?_⟩
      rw [hlower, List.isSuffixOf_iff_suffix]
      exact List.suffix_append x _
    unfold isSourceName
    simp only [hany, Bool.not_true, Bool.and_false]
  · decide +kernel

/-- A name that ends as those of units do, without a slash in it. -/
theorem isName_of_output {s : String} (h : IsOutputName s) (hslash : '/' ∉ s.toList) :
    IsName s := by
  have hlong : 3 ≤ s.length := by
    rcases h with ⟨start, rfl⟩ | rfl
    · have hending : ".g.cs".length = 5 := by decide
      rw [String.length_append, hending]
      omega
    · decide +kernel
  refine ⟨?_, ?_, ?_, hslash⟩
  · rintro rfl
    exact absurd hlong (by decide)
  · rintro rfl
    exact absurd hlong (by decide)
  · rintro rfl
    exact absurd hlong (by decide)

end FieldWiring
