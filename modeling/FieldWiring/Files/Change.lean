import FieldWiring.Files.Access

/-!
# Changes of file trees

What has to be done to the files of a machine so that they become those of a tree, when they are
those of another tree.

Results:
* `find?_of_write_mem`: only files that differ are written.
* `find?_of_remove_mem`: only files that are not wanted are removed.
-/

namespace FieldWiring

/-- A change of one file or directory. -/
inductive FileChange where
  | write (l : Location) (content : ByteArray)
  | makeDirectory (l : Location)
  | remove (l : Location)

namespace FileTree

/-- What is written or made for an entry of the tree that is wanted. -/
def addition (old : FileTree) (x : Location × Entry) : Option FileChange :=
  if old.find? x.1 = some x.2 then none
  else
    match x.2 with
    | .file content => some (.write x.1 content)
    | .directory => some (.makeDirectory x.1)

/-- What is removed for an entry of the tree that is there; directories stay. -/
def removal (new : FileTree) (x : Location × Entry) : Option FileChange :=
  match x.2 with
  | .file _ => if new.isFile x.1 then none else some (.remove x.1)
  | .directory => none

/-- The changes that lead from a tree to another one. -/
def changesTo (old new : FileTree) : List FileChange :=
  old.entries.filterMap (removal new) ++ new.entries.filterMap (addition old)

theorem find?_of_write_mem {old new : FileTree} {l : Location} {content : ByteArray}
    (h : .write l content ∈ changesTo old new) : old.find? l ≠ some (.file content) := by
  rcases List.mem_append.1 h with h | h
  · obtain ⟨⟨k, e⟩, _, hx⟩ := List.mem_filterMap.1 h
    cases e <;> simp [removal] at hx
  · obtain ⟨⟨k, e⟩, _, hx⟩ := List.mem_filterMap.1 h
    simp only [addition] at hx
    split at hx
    · cases hx
    · cases e <;> simp_all

theorem find?_of_remove_mem {old new : FileTree} {l : Location}
    (h : .remove l ∈ changesTo old new) : new.isFile l = false := by
  rcases List.mem_append.1 h with h | h
  · obtain ⟨⟨k, e⟩, _, hx⟩ := List.mem_filterMap.1 h
    cases e with
    | file content =>
      simp only [removal] at hx
      split at hx
      · cases hx
      · cases hx
        simp_all
    | directory => simp [removal] at hx
  · obtain ⟨⟨k, e⟩, _, hx⟩ := List.mem_filterMap.1 h
    simp only [addition] at hx
    split at hx
    · cases hx
    · cases e <;> simp at hx

/-- The tree with what is known of a path from the root: the bytes of a file, or that it leads to a
directory. The directories above are there then; what cannot be placed is left out. -/
def including (t : FileTree) (p : Path) (content : Option ByteArray) : FileTree :=
  let act : FileAction Unit :=
    match content with
    | some bytes => do
      FileAction.ensureDirectories [] p.parent
      FileAction.change fun t => t.write [] p bytes
    | none => FileAction.ensureDirectories [] p
  (act.run.run t).2

end FileTree

end FieldWiring
