import FieldWiring.Files.Path

/-!
# File trees

The files and directories below a root as a finite table of locations. The root itself is always a
directory.

Results:
* `find?_put_self`, `find?_put_of_ne`: putting an entry changes its location alone.
* `find?_erase_self`, `find?_erase_of_ne`: so does erasing it.
-/

namespace FieldWiring

/-- What stands at a location. -/
inductive Entry where
  | file (content : ByteArray)
  | directory

instance : DecidableEq Entry
  | .file c, .file d =>
    match ByteArray.instDecidableEq c d with
    | isTrue h => isTrue (congrArg Entry.file h)
    | isFalse h => isFalse fun he => h (Entry.file.inj he)
  | .directory, .directory => isTrue rfl
  | .file _, .directory => isFalse Entry.noConfusion
  | .directory, .file _ => isFalse Entry.noConfusion

/-- The entries below a root. -/
structure FileTree where
  entries : List (Location × Entry) := []

namespace FileTree

/-! ## Table operations -/

/-- The table with `e` at `l`. -/
def placed (l : Location) (e : Entry) : List (Location × Entry) → List (Location × Entry)
  | [] => [(l, e)]
  | (k, d) :: rest => if k = l then (l, e) :: rest else (k, d) :: placed l e rest

theorem lookup_cons_ite (k j : Location) (d : Entry) (es : List (Location × Entry)) :
    ((j, d) :: es).lookup k = if k = j then some d else es.lookup k := by
  by_cases h : k = j
  · simp [h]
  · simp [List.lookup_cons, h, beq_false_of_ne h]

theorem lookup_placed (l k : Location) (e : Entry) (es : List (Location × Entry)) :
    (placed l e es).lookup k = if k = l then some e else es.lookup k := by
  induction es with
  | nil => simp [placed, lookup_cons_ite]
  | cons x es ih =>
    obtain ⟨j, d⟩ := x
    by_cases hj : j = l
    · subst hj
      by_cases h : k = j <;> simp [placed, lookup_cons_ite, h]
    · by_cases h : k = j
      · subst h
        simp [placed, hj]
      · simp [placed, hj, lookup_cons_ite, h, ih]

theorem lookup_filter_ne (l k : Location) (es : List (Location × Entry)) :
    (es.filter fun x => decide (x.1 ≠ l)).lookup k = if k = l then none else es.lookup k := by
  induction es with
  | nil => simp
  | cons x es ih =>
    obtain ⟨j, d⟩ := x
    by_cases hj : j = l
    · rw [List.filter_cons_of_neg (by simp [hj]), ih, lookup_cons_ite]
      by_cases h : k = l
      · simp [h]
      · simp [h, hj]
    · rw [List.filter_cons_of_pos (by simp [hj]), lookup_cons_ite, lookup_cons_ite, ih]
      by_cases h : k = j
      · subst h
        simp [hj]
      · simp [h]

/-! ## Entries -/

/-- What stands at a location, if anything does. -/
def find? (t : FileTree) (l : Location) : Option Entry :=
  if l = [] then some .directory else t.entries.lookup l

/-- The tree with an entry at a location. -/
def put (t : FileTree) (l : Location) (e : Entry) : FileTree := ⟨placed l e t.entries⟩

/-- The tree without what stands at a location. -/
def erase (t : FileTree) (l : Location) : FileTree :=
  ⟨t.entries.filter fun x => decide (x.1 ≠ l)⟩

theorem find?_put_self {t : FileTree} {l : Location} {e : Entry} (h : l ≠ []) :
    (t.put l e).find? l = some e := by
  simp [find?, put, h, lookup_placed]

theorem find?_put_of_ne {t : FileTree} {l k : Location} {e : Entry} (h : k ≠ l) :
    (t.put l e).find? k = t.find? k := by
  simp [find?, put, h, lookup_placed]

theorem find?_erase_self {t : FileTree} {l : Location} (h : l ≠ []) :
    (t.erase l).find? l = none := by
  have := lookup_filter_ne l l t.entries
  simp only [find?, erase, h, if_false]
  simpa using this

theorem find?_erase_of_ne {t : FileTree} {l k : Location} (h : k ≠ l) :
    (t.erase l).find? k = t.find? k := by
  have := lookup_filter_ne l k t.entries
  simp only [find?, erase]
  split
  · rfl
  · simpa [h] using this

/-- The tree without what stands at a location and below it. -/
def eraseAll (t : FileTree) (l : Location) : FileTree :=
  ⟨t.entries.filter fun x => !l.isPrefixOf x.1⟩

/-- The entries below a location, with their locations as seen from it. -/
def below (t : FileTree) (l : Location) : List (Location × Entry) :=
  t.entries.filterMap fun (k, e) =>
    if l.isPrefixOf k ∧ k.length ≠ l.length then some (k.drop l.length, e) else none

/-- The files below a location, with their locations as seen from it. -/
def filesBelow (t : FileTree) (l : Location) : List (Location × ByteArray) :=
  (t.below l).filterMap fun (k, e) =>
    match e with
    | .file content => some (k, content)
    | .directory => none

/-- A directory stands at a location. -/
def isDirectory (t : FileTree) (l : Location) : Bool := t.find? l = some .directory

/-- A file stands at a location. -/
def isFile (t : FileTree) (l : Location) : Bool :=
  match t.find? l with
  | some (.file _) => true
  | _ => false

end FileTree

end FieldWiring
