import FieldWiring.Proofs.Files.Overlay
import FieldWiring.Scan

/-!
# Scanning from a root

The root of a project is a directory that can be reached. What a scan of the project returns then
hangs on two things: the ignore file, which may be missing but has to be text and within the reach
of the system, and the files below the root, which have to be within reach as well once they are
listed.

Results:
* `IsRoot.resolve`: the root leads to itself.
* `ignoreLines_eq`: the lines of the ignore file.
* `scan_eq`: what a scan returns.
-/

namespace FieldWiring

open FileTree

/-! ## Roots -/

/-- The project of a run: its root is a directory, and it is reached from the root of the tree. -/
structure IsRoot (t : FileTree) (root : Location) : Prop where
  reached : t.reach [] (.ofLocation root) = .ok (placeOf root)
  directory : t.find? (placeOf root) = some .directory
  dots : ".." ∉ root

section Roots

variable {t : FileTree} {root : Location}

theorem placeOf_eq (hdots : ".." ∉ root) : placeOf root = root.map FileName.onDisk :=
  foldl_along hdots

/-- What is reached is the file of that name. -/
theorem reach_location {s : String} (hs : s ≠ "..") {l : Location}
    (hl : t.reach [] (.ofLocation (root ++ [s])) = .ok l) :
    l = placeOf root ++ [FileName.onDisk s] := by
  rw [reach_locate hl]
  show (root ++ [s]).foldl Path.along [] = _
  rw [List.foldl_append, List.foldl_cons, List.foldl_nil, Path.along, if_neg hs]
  rfl

/-- A location without steps back is spelled as it is. -/
theorem spelledFrom_ofLocation (here : Location) {l : Location} (h : ".." ∉ l) :
    (Path.ofLocation l).spelledFrom here = l := by
  have hfold : ∀ (ps k : Location), ".." ∉ ps →
      ps.foldl (fun l part => if part = ".." then l.dropLast else l ++ [part]) k = k ++ ps := by
    intro ps
    induction ps with
    | nil => exact fun k _ => (List.append_nil k).symm
    | cons p ps ih =>
      intro k hps
      rw [List.mem_cons, not_or] at hps
      rw [List.foldl_cons, if_neg (Ne.symm hps.1), ih _ hps.2, List.append_assoc]
      rfl
  exact hfold l [] h

/-- A location that leads to a root is that root. -/
theorem resolve_ofLocation (S : Surroundings) {root root' : Location} (hdots : ".." ∉ root)
    (h : S.resolve (.ofLocation root) = .ok root') : root' = root := by
  unfold Surroundings.resolve at h
  split at h
  · cases h
  · split at h
    · cases h
    · rw [← Except.ok.inj h]
      exact spelledFrom_ofLocation _ hdots

theorem IsRoot.resolve (hroot : IsRoot t root) (S : Surroundings) :
    S.resolve (.ofLocation root) = .ok root := by
  obtain ⟨hencoding, hnul, -, -⟩ := reach_ok_iff.mp hroot.reached
  unfold Surroundings.resolve
  rw [hencoding, hnul, spelledFrom_ofLocation _ hroot.dots]
  rfl

end Roots

/-! ## Scanning -/

/-- The lines of the ignore file of a project, none when there is no such file. -/
def readIgnored (t : FileTree) (root : Location) : Except RunError (List String) :=
  let file := Path.ofLocation (root ++ [ignoreName])
  if file.isTooLong then .error (.file ⟨.nameTooLong, file⟩)
  else
    match t.fileAt (placeOf root ++ [ignoreName]) with
    | none => .ok []
    | some content =>
      match Utf8.readText? content with
      | some text => .ok (Text.splitLines text)
      | none => .error (.notText file)

/-- The exclude lines that stand behind those of the ignore file: those that the caller adds, or
else those of the configuration. -/
def addedExcludes (t : FileTree) (S : Surroundings) (root : Location) :
    Option (List String) → Except RunError (List String)
  | some lines => .ok lines
  | none => configuredExcludes t S root

section Scanning

variable {t : FileTree} {root : Location} {S : Surroundings} {excludes : Option (List String)}
  {extra : List String} {p q : Path}

theorem IsRoot.reach_ignored (hroot : IsRoot t root) :
    t.reach [] (.ofLocation (root ++ [ignoreName])) =
      if (Path.ofLocation (root ++ [ignoreName])).isTooLong then
        .error ⟨.nameTooLong, .ofLocation (root ++ [ignoreName])⟩
      else .ok (placeOf root ++ [ignoreName]) := by
  obtain ⟨hencoding, hnul, -, hfollow⟩ := reach_ok_iff.mp hroot.reached
  have hencoding' : (Path.ofLocation (root ++ [ignoreName])).lacksEncoding = false := by
    unfold Path.lacksEncoding Path.ofLocation at hencoding ⊢
    rw [List.any_append, hencoding]
    decide +kernel
  have hnul' : (Path.ofLocation (root ++ [ignoreName])).holdsNul = false := by
    unfold Path.holdsNul Path.ofLocation at hnul ⊢
    rw [List.any_append, hnul]
    decide +kernel
  split
  · rename_i hlong
    unfold reach
    rw [hencoding', hnul']
    simp only [Bool.false_eq_true, if_false, if_pos hlong]
    rfl
  · rename_i hroom
    refine reach_ok_iff.mpr ⟨hencoding', hnul', Bool.eq_false_iff.mpr hroom, ?_⟩
    show t.follow [] (root ++ [ignoreName]) = _
    have hroot' : t.follow [] root = .ok (placeOf root) := hfollow
    rw [follow_concat hroot' hroot.directory, if_neg (by decide +kernel), Path.along,
      if_neg (by decide +kernel), FileName.onDisk_of_plain (by decide +kernel)]

theorem ignoreLines_eq (hroot : IsRoot t root) : ignoreLines t root = readIgnored t root := by
  have hreach := hroot.reach_ignored
  unfold ignoreLines readIgnored
  by_cases hlong : (Path.ofLocation (root ++ [ignoreName])).isTooLong = true
  · rw [if_pos hlong] at hreach ⊢
    have hleads : t.leadsToFile [] (.ofLocation (root ++ [ignoreName])) =
        .error ⟨.nameTooLong, .ofLocation (root ++ [ignoreName])⟩ := by
      unfold leadsToFile look
      rw [hreach]
      rfl
    simp only [hleads, Except.mapError, bind, Except.bind]
  · rw [if_neg hlong] at hreach ⊢
    cases hfile : t.fileAt (placeOf root ++ [ignoreName]) with
    | none =>
      have hleads : t.leadsToFile [] (.ofLocation (root ++ [ignoreName])) = .ok false := by
        unfold leadsToFile look
        rw [hreach]
        unfold fileAt at hfile
        simp only [bind, Except.bind]
        rcases hfind : t.find? (placeOf root ++ [ignoreName]) with _ | (content | _)
        · rfl
        · rw [hfind] at hfile
          cases hfile
        · rfl
      simp only [hleads, Except.mapError, bind, Except.bind]
      rfl
    | some content =>
      have hread : t.read [] (.ofLocation (root ++ [ignoreName])) = .ok content :=
        read_ok_iff.mpr ⟨_, hreach, fileAt_eq_some.mp hfile⟩
      have hleads := leadsToFile_iff.mpr ⟨content, hread⟩
      unfold FileTree.readText
      simp only [hleads, hread, Except.mapError, bind, Except.bind]
      cases Utf8.readText? content <;> rfl

/-- What a scan comes to when its patterns are known: the sources, or the first one that cannot be
read. -/
def listSources (t : FileTree) (root : Location) (patterns : List ExcludePattern) :
    Except RunError SourceManifest :=
  match unreadable? t root patterns with
  | some file => .error (.file ⟨.nameTooLong, file⟩)
  | none => .ok ⟨(Path.ofLocation root).text, sourcesBelow t root patterns⟩

/-- What a scan of a project returns. -/
theorem scan_eq (hroot : IsRoot t root) (hhome : p.expandHome S.homes = .ok q)
    (hresolve : S.resolve q = .ok root) (hextra : addedExcludes t S root excludes = .ok extra) :
    scan t S excludes p = (readIgnored t root).bind fun lines =>
      listSources t root (parsePatterns (lines ++ extra)) := by
  have hlook : t.look [] (.ofLocation root) = .ok (some .directory) :=
    look_some_iff.mpr ⟨_, hroot.reached, hroot.directory⟩
  unfold scan
  rw [hhome]
  unfold addedExcludes at hextra
  cases excludes with
  | some lines =>
    obtain rfl := Except.ok.inj hextra
    simp only [hresolve, hlook, ignoreLines_eq hroot, Except.mapError, bind, Except.bind]
    cases readIgnored t root <;> rfl
  | none =>
    simp only [hresolve, hlook, ignoreLines_eq hroot, hextra, Except.mapError, bind, Except.bind]
    cases readIgnored t root <;> rfl

end Scanning

end FieldWiring
