import FieldWiring.Proofs.Output.Pruning

/-!
# Names that a manifest may hold

A manifest is a document like any other, and whoever edits it may write any name into it. A name is
taken over only if it has no slash, and the halves of pairs in it make none either, so whatever file
such a name stands for is an entry of the directory. The names that lead to the directory itself or
to the one above it stand for no file, and clearing one of them fails.

Results:
* `no_slash_of_isOwnName`: a name that is taken over has no slash.
* `isName_of_returns`: a recorded name that was cleared is the name of an entry.
-/

namespace FieldWiring

namespace Output

open FileAction FileTree

/-- No half of a pair makes a slash. -/
theorem ofHalf_ne_slash (n : Nat) : Text.ofHalf n ≠ '/' := by
  intro h
  by_cases hv : (Text.halfBase + (n - 0xD800)).isValidChar
  · have hval := congrArg Char.toNat h
    rw [Text.ofHalf, Char.ofNat, dif_pos hv] at hval
    change 0xDD800 + (n - 0xD800) = 0x2F at hval
    omega
  · rw [Text.ofHalf, Char.ofNat, dif_neg hv] at h
    exact absurd h (by decide)

/-- A name that is taken over has no slash. -/
theorem no_slash_of_isOwnName {name : Json.Symbols}
    (hown : OutputManifest.isOwnName name = true) : '/' ∉ name.toText.toList := by
  rw [Json.Symbols.toText, String.toList_ofList, List.mem_map]
  rintro ⟨x, hx, hslash⟩
  cases x with
  | half n => exact ofHalf_ne_slash n hslash
  | char c =>
    obtain rfl : c = '/' := hslash
    unfold OutputManifest.isOwnName at hown
    rw [Bool.and_eq_true, Bool.not_eq_true', ← Bool.not_eq_true, List.contains_iff_mem] at hown
    exact hown.1 hx

/-! ## Names that were cleared -/

variable {here : Location} {t v : FileTree} {dir p : Path} {b : Bool}

/-- A directory cannot be removed as a file. -/
theorem not_returns_removeFile {l : Location} (hl : t.reach here p = .ok l)
    (hd : t.find? l = some .directory) : ¬ Returns (removeFile here p) t b v := by
  intro h
  have hrem : t.remove here p = .error ⟨.isDirectory, p⟩ := by
    unfold FileTree.remove
    rw [hl]
    simp only [bind, Except.bind, hd]
  rcases removeFile_returns h with ⟨-, hok⟩ | ⟨-, -, e, he, hcause⟩
  · rw [hrem] at hok
    cases hok
  · rw [hrem] at he
    cases he
    cases hcause

theorem not_returns_removeFile_of_error {e : FileError} (he : t.reach here p = .error e)
    (hcause : e.cause ≠ .notFound) : ¬ Returns (removeFile here p) t b v := by
  intro h
  have hrem : t.remove here p = .error e := by
    unfold FileTree.remove
    rw [he]
    rfl
  rcases removeFile_returns h with ⟨-, hok⟩ | ⟨-, -, f, hf, hfound⟩
  · rw [hrem] at hok
    cases hok
  · rw [hrem] at hf
    cases hf
    exact hcause hfound

theorem join_nil (dir : Path) : dir.join ⟨.here, []⟩ = dir := by
  show ({ dir with parts := dir.parts ++ [] } : Path) = dir
  rw [List.append_nil]

theorem joinText_empty (dir : Path) : dir.joinText "" = dir := by
  have htext : Path.ofText "" = ⟨.here, []⟩ := by decide +kernel
  rw [Path.joinText, htext, join_nil]

theorem joinText_dot (dir : Path) : dir.joinText "." = dir := by
  have htext : Path.ofText "." = ⟨.here, []⟩ := by decide +kernel
  rw [Path.joinText, htext, join_nil]

theorem joinText_dots (dir : Path) : dir.joinText ".." = ⟨dir.start, dir.parts ++ [".."]⟩ := by
  have htext : Path.ofText ".." = ⟨.here, [".."]⟩ := by decide +kernel
  rw [Path.joinText, htext]
  rfl

/-- Without a slash, a text that is not the name of an entry leads to the directory or above it. -/
theorem locate_of_not_isName (here : Location) (dir : Path) {s : String} (hslash : '/' ∉ s.toList)
    (hs : ¬ IsName s) : (dir.joinText s).locate here = dir.locate here ∨
      (dir.joinText s).locate here = (dir.locate here).dropLast := by
  have hcases : s = "" ∨ s = "." ∨ s = ".." := by
    refine Classical.byContradiction fun hne => ?_
    rw [not_or, not_or] at hne
    exact hs ⟨hne.1, hne.2.1, hne.2.2, hslash⟩
  rcases hcases with rfl | rfl | rfl
  · left
    rw [joinText_empty]
  · left
    rw [joinText_dot]
  · right
    rw [joinText_dots]
    unfold Path.locate Path.isAbsolute
    rw [List.foldl_append]
    rfl

/-- A recorded name that was cleared is the name of an entry: the others lead to directories. -/
theorem isName_of_returns {name : Json.Symbols} {o : Option Path}
    (hown : OutputManifest.isOwnName name = true) (hr : t.reach here dir = .ok (dir.locate here))
    (hd : t.find? (dir.locate here) = some .directory)
    (hup : t.find? (dir.locate here).dropLast = some .directory)
    (h : Returns (removeNamed here dir name) t o v) : IsName name.toText := by
  obtain ⟨b, -, hremove⟩ := returns_removeNamed_iff.mp h
  refine ⟨fun heq => ?_, fun heq => ?_, fun heq => ?_, no_slash_of_isOwnName hown⟩
  · rw [heq, joinText_empty] at hremove
    exact not_returns_removeFile hr hd hremove
  · rw [heq, joinText_dot] at hremove
    exact not_returns_removeFile hr hd hremove
  · rw [heq] at hremove
    rcases reach_part (joinText_dots dir) hr hd with hl | ⟨e, he, hcause⟩
    · exact not_returns_removeFile hl hup hremove
    · exact not_returns_removeFile_of_error he hcause hremove

end Output

end FieldWiring
