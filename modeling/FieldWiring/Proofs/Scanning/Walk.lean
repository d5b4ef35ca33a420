import FieldWiring.Proofs.Files.Grounded
import FieldWiring.Proofs.Scanning.SourceNames
import FieldWiring.Proofs.Sessions.Course
import FieldWiring.Proofs.Text.Leading
import Mathlib.Data.List.Nodup

/-!
# Walking a project

A project is walked from its root downwards, as the scanner walks it. In a directory the sources are
taken first and then the directories entered, each in the order in which the directory happens to be
listed; what is not entered is not looked into, and a directory with too long a path shows nothing.
So a file is found when every directory above it was entered, and a scan is the walk put in order,
whatever order the directories are listed in.

Results:
* `mem_filesBelow`: the files below a location.
* `mem_walk`: what a walk finds.
* `perm_walk`: from the root a walk finds the admitted files, each once.
* `isTooLong_of_append`: what stands above a location within reach is within reach.
* `sorted_walk`: put in order, a walk is the scan.
-/

namespace FieldWiring

namespace FileTree

variable {t : FileTree}

/-! ## Trees -/

/-- The most names that an entry's location has. -/
def height (t : FileTree) : Nat := (t.entries.map (·.1.length)).max?.getD 0

theorem length_le_height {l : Location} {e : Entry} (h : t.find? l = some e) :
    l.length ≤ t.height := by
  by_cases hl : l = []
  · rw [hl]
    exact Nat.zero_le _
  · exact List.le_max?_getD_of_mem (List.mem_map.mpr ⟨(l, e), mem_entries_of_find? hl h, rfl⟩)

/-- The directories of a tree, each listed in some order. -/
structure Listing (t : FileTree) where
  entriesAt : Location → List (String × Entry)
  distinct : ∀ l, ((entriesAt l).map (·.1)).Nodup
  complete : ∀ {l s e}, (s, e) ∈ entriesAt l ↔ t.find? (l ++ [s]) = some e

/-- An entry with its name, when it stands in the directory `l`. -/
def entryIn (l : Location) (x : Location × Entry) : Option (String × Entry) :=
  if x.1.dropLast = l then x.1.getLast?.map (·, x.2) else none

theorem entryIn_eq_some_iff {l k : Location} {d e : Entry} {s : String} :
    entryIn l (k, d) = some (s, e) ↔ k = l ++ [s] ∧ d = e := by
  unfold entryIn
  dsimp only
  constructor
  · intro h
    split at h
    · rename_i hk
      obtain ⟨s', hlast, heq⟩ := Option.map_eq_some_iff.mp h
      obtain ⟨rfl, rfl⟩ := Prod.mk.inj heq
      rw [← hk, List.dropLast_append_getLast? s' hlast]
      exact ⟨rfl, rfl⟩
    · cases h
  · rintro ⟨rfl, rfl⟩
    rw [if_pos List.dropLast_concat, List.getLast?_concat]
    rfl

/-- The listing in the order of the tree's table. -/
def IsProper.listing (ht : t.IsProper) : t.Listing where
  entriesAt l := t.entries.filterMap (entryIn l)
  distinct l := by
    refine List.pairwise_map.mpr (List.pairwise_filterMap.mpr ?_)
    refine (List.pairwise_map.mp ht.distinct).imp ?_
    rintro ⟨k, d⟩ ⟨k', d'⟩ hne ⟨s, e⟩ h ⟨s', e'⟩ h' rfl
    exact hne ((entryIn_eq_some_iff.mp h).1.trans (entryIn_eq_some_iff.mp h').1.symm)
  complete := by
    intro l s e
    have hne : l ++ [s] ≠ [] := List.append_ne_nil_of_right_ne_nil l (List.cons_ne_nil s [])
    rw [List.mem_filterMap]
    constructor
    · rintro ⟨⟨k, d⟩, hmem, hsome⟩
      obtain ⟨rfl, rfl⟩ := entryIn_eq_some_iff.mp hsome
      exact ht.find?_of_mem hne hmem
    · intro hfind
      exact ⟨_, mem_entries_of_find? hne hfind, entryIn_eq_some_iff.mpr ⟨rfl, rfl⟩⟩

end FileTree

/-! ## Long paths -/

theorem FileName.size_append (s r : String) :
    FileName.size (s ++ r) = FileName.size s + FileName.size r := by
  simp [FileName.size, FileName.bytes]

/-- What stands above a location that is within reach is within reach. -/
theorem isTooLong_of_append {l k : Location}
    (h : (Path.ofLocation (l ++ k)).isTooLong = false) : (Path.ofLocation l).isTooLong = false := by
  have hsize : ∀ l : Location,
      FileName.size ("/".intercalate l) ≤ FileName.size ("/".intercalate (l ++ k)) := by
    intro l
    induction l with
    | nil => exact Nat.zero_le _
    | cons s l ih =>
      cases l with
      | nil =>
        cases k with
        | nil => exact Nat.le_refl _
        | cons r k =>
          rw [List.singleton_append, String.intercalate_singleton, String.intercalate_cons_cons,
            String.append_assoc, FileName.size_append]
          exact Nat.le_add_right _ _
      | cons r l =>
        rw [List.cons_append, List.cons_append, String.intercalate_cons_cons,
          String.intercalate_cons_cons, FileName.size_append, FileName.size_append (s ++ "/")]
        exact Nat.add_le_add_left ih _
  have htext : ∀ l, (Path.ofLocation l).text = "/" ++ "/".intercalate l := by
    intro l
    unfold Path.text Path.ofLocation
    rw [if_neg (by simp)]
    rfl
  unfold Path.isTooLong at h ⊢
  rw [htext, FileName.size_append, decide_eq_false_iff_not] at h ⊢
  have := hsize l
  omega

/-! ## Walking -/

section Walking

open FileTree

variable {t : FileTree}

/-- What a walk sees of the directory at `l` below the root: nothing, when its path is too long. -/
def FileTree.Listing.seenAt (listing : t.Listing) (root l : Location) : List (String × Entry) :=
  if (Path.ofLocation (root ++ l)).isTooLong then [] else listing.entriesAt (placeOf root ++ l)

/-- The sources in the directory at `l` below the root. -/
def FileTree.Listing.sourcesAt (listing : t.Listing) (root : Location)
    (patterns : List ExcludePattern) (l : Location) : List (Location × ByteArray) :=
  (listing.seenAt root l).filterMap fun (s, e) =>
    match e with
    | .file content =>
      if isSourceName s && !isExcluded patterns (relativeText (l ++ [s])) false then
        some (l ++ [s], content)
      else none
    | .directory => none

/-- The directories in the directory at `l` that are looked into. -/
def FileTree.Listing.enteredAt (listing : t.Listing) (root : Location)
    (patterns : List ExcludePattern) (l : Location) : List String :=
  (listing.seenAt root l).filterMap fun (s, e) =>
    if e = .directory ∧ isEntered patterns (l ++ [s]) = true then some s else none

variable {listing : t.Listing} {root : Location} {patterns : List ExcludePattern} {l k : Location}

theorem mem_seenAt {s : String} {e : Entry} :
    (s, e) ∈ listing.seenAt root l ↔ t.find? (placeOf root ++ (l ++ [s])) = some e ∧
      (Path.ofLocation (root ++ l)).isTooLong = false := by
  unfold Listing.seenAt
  rw [← List.append_assoc, ← listing.complete]
  cases (Path.ofLocation (root ++ l)).isTooLong <;> simp

theorem mem_sourcesAt {content : ByteArray} :
    (k, content) ∈ listing.sourcesAt root patterns l ↔
      ∃ s, k = l ++ [s] ∧ t.find? (placeOf root ++ k) = some (.file content) ∧
        isSourceName s = true ∧ isExcluded patterns (relativeText k) false = false ∧
        (Path.ofLocation (root ++ l)).isTooLong = false := by
  unfold Listing.sourcesAt
  rw [List.mem_filterMap]
  constructor
  · rintro ⟨⟨s, e⟩, hmem, hsome⟩
    obtain ⟨hfind, hseen⟩ := mem_seenAt.mp hmem
    cases e with
    | directory => cases hsome
    | file content' =>
      simp only at hsome
      split at hsome
      · rename_i hcond
        obtain ⟨rfl, rfl⟩ := Prod.mk.inj (Option.some.inj hsome)
        rw [Bool.and_eq_true, Bool.not_eq_true'] at hcond
        exact ⟨s, rfl, hfind, hcond.1, hcond.2, hseen⟩
      · cases hsome
  · rintro ⟨s, rfl, hfind, hsource, hfree, hseen⟩
    refine ⟨(s, .file content), mem_seenAt.mpr ⟨hfind, hseen⟩, ?_⟩
    simp only [hsource, hfree, Bool.not_false, Bool.and_self, if_true]

theorem mem_enteredAt {s : String} :
    s ∈ listing.enteredAt root patterns l ↔
      t.find? (placeOf root ++ (l ++ [s])) = some .directory ∧
        isEntered patterns (l ++ [s]) = true ∧ (Path.ofLocation (root ++ l)).isTooLong = false := by
  unfold Listing.enteredAt
  rw [List.mem_filterMap]
  constructor
  · rintro ⟨⟨s', e⟩, hmem, hsome⟩
    simp only at hsome
    split at hsome
    · rename_i hcond
      obtain rfl := Option.some.inj hsome
      obtain ⟨hfind, hseen⟩ := mem_seenAt.mp hmem
      exact ⟨hcond.1 ▸ hfind, hcond.2, hseen⟩
    · cases hsome
  · rintro ⟨hfind, hentered, hseen⟩
    exact ⟨(s, .directory), mem_seenAt.mpr ⟨hfind, hseen⟩, if_pos ⟨rfl, hentered⟩⟩

/-- What a walk finds from the directory at `l` below the root on. -/
def walk (listing : t.Listing) (root : Location) (patterns : List ExcludePattern) (l : Location) :
    List (Location × ByteArray) :=
  listing.sourcesAt root patterns l ++
    (listing.enteredAt root patterns l).attach.flatMap fun ⟨s, _⟩ =>
      walk listing root patterns (l ++ [s])
termination_by t.height - (placeOf root ++ l).length
decreasing_by
  rename_i hs
  have := length_le_height (mem_enteredAt.mp hs).1
  simp only [List.length_append, List.length_singleton] at this ⊢
  omega

theorem mem_walk_step {x : Location × ByteArray} :
    x ∈ walk listing root patterns l ↔ x ∈ listing.sourcesAt root patterns l ∨
      ∃ s ∈ listing.enteredAt root patterns l, x ∈ walk listing root patterns (l ++ [s]) := by
  rw [walk, List.mem_append, List.mem_flatMap]
  simp

/-- A walk finds the sources that no pattern excludes, as far as all directories above them are
entered, and the last one can be listed. -/
theorem mem_walk (hg : t.Grounded) {content : ByteArray} :
    (k, content) ∈ walk listing root patterns l ↔
      ∃ m s, k = l ++ (m ++ [s]) ∧ t.find? (placeOf root ++ k) = some (.file content) ∧
        isSourceName s = true ∧ isExcluded patterns (relativeText k) false = false ∧
        (∀ b ∈ beginnings m, isEntered patterns (l ++ b) = true) ∧
        (Path.ofLocation (root ++ (l ++ m))).isTooLong = false := by
  induction l using walk.induct listing root patterns with
  | case1 l ih =>
    rw [mem_walk_step, mem_sourcesAt]
    constructor
    · rintro (⟨s, rfl, hfind, hsource, hfree, hseen⟩ | ⟨r, hr, hk⟩)
      · refine ⟨[], s, rfl, hfind, hsource, hfree, fun b hb => absurd hb List.not_mem_nil, ?_⟩
        rwa [List.append_nil]
      · obtain ⟨m, s, rfl, hfind, hsource, hfree, habove, hseen⟩ := (ih r hr).mp hk
        rw [List.append_assoc l, List.singleton_append] at hseen
        refine ⟨r :: m, s, ?_, hfind, hsource, hfree, ?_, hseen⟩
        · rw [List.append_assoc, List.singleton_append, List.cons_append]
        · intro b hb
          rcases List.mem_cons.mp hb with rfl | hb
          · exact (mem_enteredAt.mp hr).2.1
          · obtain ⟨b', hb', rfl⟩ := List.mem_map.mp hb
            have := habove b' hb'
            rwa [List.append_assoc, List.singleton_append] at this
    · rintro ⟨m, s, rfl, hfind, hsource, hfree, habove, hseen⟩
      cases m with
      | nil =>
        rw [List.append_nil] at hseen
        exact .inl ⟨s, rfl, hfind, hsource, hfree, hseen⟩
      | cons r m =>
        have hsplit : l ++ (r :: m ++ [s]) = l ++ [r] ++ (m ++ [s]) := by
          rw [List.append_assoc, List.singleton_append, List.cons_append]
        have hdir : t.find? (placeOf root ++ (l ++ [r])) = some .directory := by
          rw [hsplit, ← List.append_assoc (placeOf root)] at hfind
          exact hg.above (List.append_ne_nil_of_right_ne_nil m (List.cons_ne_nil s [])) hfind
        -- a directory above one within reach is within reach
        have hseen' : (Path.ofLocation (root ++ l)).isTooLong = false := by
          rw [← List.append_assoc] at hseen
          exact isTooLong_of_append hseen
        have hr : r ∈ listing.enteredAt root patterns l :=
          mem_enteredAt.mpr ⟨hdir, habove [r] List.mem_cons_self, hseen'⟩
        refine .inr ⟨r, hr, (ih r hr).mpr ⟨m, s, hsplit, hfind, hsource, hfree, fun b hb => ?_, ?_⟩⟩
        · rw [List.append_assoc, List.singleton_append]
          exact habove (r :: b) (List.mem_cons_of_mem _ (List.mem_map_of_mem hb))
        · rwa [List.append_assoc l, List.singleton_append]

theorem nodup_seenAt (listing : t.Listing) (root l : Location) : (listing.seenAt root l).Nodup := by
  unfold Listing.seenAt
  split
  · exact List.nodup_nil
  · exact .of_map _ (listing.distinct _)

theorem nodup_sourcesAt : (listing.sourcesAt root patterns l).Nodup := by
  unfold Listing.sourcesAt
  refine (nodup_seenAt listing root l).filterMap fun ⟨s, e⟩ ⟨s', e'⟩ x h h' => ?_
  cases e with
  | directory => cases h
  | file content =>
    cases e' with
    | directory => cases h'
    | file content' =>
      simp only [Option.mem_def] at h h'
      split at h
      · split at h'
        · rw [← Option.some.inj h'] at h
          obtain ⟨hl, rfl⟩ := Prod.mk.inj (Option.some.inj h)
          rw [(List.cons.inj (List.append_cancel_left hl)).1]
        · cases h'
      · cases h

theorem nodup_enteredAt : (listing.enteredAt root patterns l).Nodup := by
  unfold Listing.enteredAt
  refine (nodup_seenAt listing root l).filterMap fun ⟨s, e⟩ ⟨s', e'⟩ x h h' => ?_
  simp only [Option.mem_def] at h h'
  split at h
  · rename_i hcond
    split at h'
    · rename_i hcond'
      rw [Option.some.inj h, Option.some.inj h', hcond.1, hcond'.1]
    · cases h'
  · cases h

theorem nodup_walk (hg : t.Grounded) : (walk listing root patterns l).Nodup := by
  induction l using walk.induct listing root patterns with
  | case1 l ih =>
    rw [walk, List.nodup_append', List.nodup_flatMap]
    refine ⟨nodup_sourcesAt, ⟨fun ⟨s, hs⟩ _ => ih s hs, ?_⟩, ?_⟩
    · -- what is found in two directories differs in their names
      refine (nodup_enteredAt.attach).imp fun {x y} hne ⟨k, content⟩ hx hy => hne ?_
      obtain ⟨m, s, hk, -⟩ := (mem_walk hg).mp hx
      obtain ⟨m', s', hk', -⟩ := (mem_walk hg).mp hy
      rw [hk, List.append_assoc, List.append_assoc] at hk'
      exact Subtype.ext (List.cons.inj (List.append_cancel_left hk')).1
    · -- what is found deeper has a longer location
      intro ⟨k, content⟩ hx hy
      obtain ⟨s, rfl, -⟩ := mem_sourcesAt.mp hx
      obtain ⟨⟨r, hr⟩, -, hy⟩ := List.mem_flatMap.mp hy
      obtain ⟨m, s', hk, -⟩ := (mem_walk hg).mp hy
      have hlen := congrArg List.length hk
      simp only [List.length_append, List.length_singleton] at hlen
      omega

end Walking

/-! ## Walks and scans -/

theorem beginnings_concat {α : Type} (l : List α) (a : α) :
    beginnings (l ++ [a]) = beginnings l ++ [l ++ [a]] := by
  induction l with
  | nil => rfl
  | cons b l ih =>
    rw [List.cons_append, beginnings, ih, List.map_append]
    rfl

/-- The directories above an entry are the beginnings of the location that it stands in. -/
theorem directoriesAbove_concat (l : Location) (s : String) :
    directoriesAbove (l ++ [s]) = beginnings l := by
  rw [directoriesAbove, beginnings_concat, List.dropLast_concat]

section Scans

open FileTree

variable {t : FileTree} {root : Location}

/-- The files below a location. -/
theorem FileTree.IsProper.mem_filesBelow (ht : t.IsProper) {l : Location} {content : ByteArray} :
    (l, content) ∈ t.filesBelow root ↔ l ≠ [] ∧ t.find? (root ++ l) = some (.file content) := by
  refine ⟨ht.find?_of_listed, fun ⟨hne, hfind⟩ => ?_⟩
  have hmem := mem_entries_of_find? (List.append_ne_nil_of_right_ne_nil root hne) hfind
  have hcond : root.isPrefixOf (root ++ l) = true ∧ (root ++ l).length ≠ root.length := by
    refine ⟨List.isPrefixOf_iff_prefix.mpr (List.prefix_append root l), ?_⟩
    have := List.length_pos_iff.mpr hne
    rw [List.length_append]
    omega
  unfold filesBelow below
  refine List.mem_filterMap.mpr ⟨(l, .file content), List.mem_filterMap.mpr ⟨_, hmem, ?_⟩, rfl⟩
  simp only [if_pos hcond, List.drop_left]

theorem FileTree.IsProper.nodup_filesBelow (ht : t.IsProper) (root : Location) :
    (t.filesBelow root).Nodup := by
  unfold filesBelow below
  refine .filterMap ?_ (.filterMap ?_ (.of_map _ ht.distinct))
  · rintro ⟨k, e⟩ ⟨k', e'⟩ x h h'
    cases e with
    | directory => cases h
    | file content =>
      cases e' with
      | directory => cases h'
      | file content' =>
        obtain ⟨rfl, rfl⟩ := Prod.mk.inj ((Option.some.inj h).trans (Option.some.inj h').symm)
        rfl
  · rintro ⟨k, e⟩ ⟨k', e'⟩ x h h'
    simp only [Option.mem_def] at h h'
    split at h
    · rename_i hcond
      split at h'
      · rename_i hcond'
        rw [← Option.some.inj h'] at h
        obtain ⟨hdrop, rfl⟩ := Prod.mk.inj (Option.some.inj h)
        obtain ⟨j, rfl⟩ := List.isPrefixOf_iff_prefix.mp hcond.1
        obtain ⟨j', rfl⟩ := List.isPrefixOf_iff_prefix.mp hcond'.1
        rw [List.drop_left, List.drop_left] at hdrop
        rw [hdrop]
      · cases h'
    · cases h

variable {listing : t.Listing} {patterns patterns' : List ExcludePattern}

theorem isAdmitted_concat {m : Location} {s : String} :
    isAdmitted patterns (m ++ [s]) = true ↔
      isSourceName s = true ∧ isExcluded patterns (relativeText (m ++ [s])) false = false ∧
        ∀ b ∈ beginnings m, isEntered patterns b = true := by
  unfold isAdmitted
  rw [directoriesAbove_concat, List.getLast?_concat, Option.getD_some, Bool.and_eq_true,
    Bool.and_eq_true, Bool.not_eq_true', List.all_eq_true, and_assoc]

theorem FileTree.IsProper.nodup_admittedFiles (ht : t.IsProper) (root : Location)
    (patterns : List ExcludePattern) : (admittedFiles t root patterns).Nodup :=
  (ht.nodup_filesBelow (placeOf root)).filter _

/-- **From the root a walk finds the admitted files, each once.** -/
theorem perm_walk (ht : t.IsProper) :
    (walk listing root patterns []).Perm (admittedFiles t root patterns) := by
  refine (List.perm_ext_iff_of_nodup (nodup_walk ht.grounded)
    (ht.nodup_admittedFiles root patterns)).mpr fun ⟨k, content⟩ => ?_
  rw [mem_walk ht.grounded, mem_admittedFiles, ht.mem_filesBelow]
  simp only [List.nil_append]
  constructor
  · rintro ⟨m, s, rfl, hfind, hsource, hfree, habove, hseen⟩
    refine ⟨⟨List.append_ne_nil_of_right_ne_nil m (List.cons_ne_nil s []), hfind⟩,
      isAdmitted_concat.mpr ⟨hsource, hfree, habove⟩, ?_⟩
    rwa [List.dropLast_concat]
  · rintro ⟨⟨hne, hfind⟩, hadmitted, hseen⟩
    rcases List.eq_nil_or_concat k with rfl | ⟨m, s, rfl⟩
    · exact absurd rfl hne
    · rw [List.concat_eq_append] at hfind hadmitted hseen ⊢
      rw [List.dropLast_concat] at hseen
      obtain ⟨hsource, hfree, habove⟩ := isAdmitted_concat.mp hadmitted
      exact ⟨m, s, rfl, hfind, hsource, hfree, habove, hseen⟩

/-- What a file that was walked to is listed as, when the ending of its path tells a language. -/
def SourceFile.ofWalked? (f : Location × ByteArray) : Option SourceFile :=
  (languageOf? (relativeText f.1)).map fun language =>
    ⟨relativeText f.1, f.2.size, language, Sha256.hex f.2⟩

/-- The file at an admitted location, whose names are names and whose last one is that of a
source. -/
theorem FileTree.IsProper.of_admitted (ht : t.IsProper) {k : Location} {content : ByteArray}
    (hk : (k, content) ∈ admittedFiles t root patterns) :
    (∀ s ∈ k, IsName s) ∧ ∃ hne : k ≠ [], HasSourceName (k.getLast hne) := by
  obtain ⟨hlisted, hadmitted, -⟩ := mem_admittedFiles.mp hk
  obtain ⟨hne, hfind⟩ := ht.mem_filesBelow.mp hlisted
  refine ⟨fun s hs => (ht.names _ _ hfind s (List.mem_append_right _ hs)).toIsName, hne, ?_⟩
  unfold isAdmitted at hadmitted
  rw [List.getLast?_eq_some_getLast hne, Option.getD_some, Bool.and_eq_true, Bool.and_eq_true]
    at hadmitted
  exact (isSourceName_iff _).mp hadmitted.1.1

/-- Locations are told apart by what they are in writing. -/
theorem relativeText_inj {l k : Location} (hl : ∀ s ∈ l, IsName s) (hk : ∀ s ∈ k, IsName s)
    (h : relativeText l = relativeText k) : l = k := by
  unfold relativeText at h
  have heq := ofText_intercalate hl
  rw [h, ofText_intercalate hk] at heq
  exact (Path.mk.inj heq).2.symm

/-- A path is that of one file. -/
theorem FileTree.IsProper.listed_inj (ht : t.IsProper) {f g : Location × ByteArray}
    (hf : f ∈ t.filesBelow root) (hg : g ∈ t.filesBelow root)
    (h : relativeText f.1 = relativeText g.1) : f = g := by
  have hnames : ∀ {x : Location × ByteArray}, x ∈ t.filesBelow root → ∀ s ∈ x.1, IsName s :=
    fun hx s hs =>
      (ht.names _ _ (ht.mem_filesBelow.mp hx).2 s (List.mem_append_right root hs)).toIsName
  have hlocation := relativeText_inj (hnames hf) (hnames hg) h
  have hfind := (ht.mem_filesBelow.mp hf).2
  rw [hlocation, (ht.mem_filesBelow.mp hg).2] at hfind
  exact Prod.ext hlocation (Entry.file.inj (Option.some.inj hfind)).symm

/-- A scan lists a path once. -/
theorem FileTree.IsProper.path_inj (ht : t.IsProper) {f g : SourceFile}
    (hf : f ∈ sourcesBelow t root patterns) (hg : g ∈ sourcesBelow t root patterns')
    (h : f.path = g.path) : f = g := by
  obtain ⟨l, content, hl, rfl⟩ := mem_sourcesBelow.mp hf
  obtain ⟨k, content', hk, rfl⟩ := mem_sourcesBelow.mp hg
  obtain ⟨rfl, rfl⟩ :=
    Prod.mk.inj (ht.listed_inj (mem_admittedFiles.mp hl).1 (mem_admittedFiles.mp hk).1 h)
  rfl

/-- Two lists of the same scanned files that are both in order are one list. -/
theorem FileTree.IsProper.eq_of_perm (ht : t.IsProper) {files files' : List SourceFile}
    (hsame : files.Perm files') (hlisted : ∀ f ∈ files', f ∈ sourcesBelow t root patterns)
    (hfiles : files.Pairwise fun f g => Text.precedes f.path g.path = true)
    (hfiles' : files'.Pairwise fun f g => Text.precedes f.path g.path = true) : files = files' := by
  refine hsame.eq_of_pairwise (fun f g hf hg hle hge => ?_) hfiles hfiles'
  exact ht.path_inj (hlisted f (hsame.mem_iff.mp hf)) (hlisted g hg)
    (Text.precedes_antisymm hle hge)

/-- The directory of the file at `l` below the root can be listed: its path is not too long. -/
def IsSeen (root l : Location) : Prop := (Path.ofLocation (root ++ l.dropLast)).isTooLong = false

instance (root l : Location) : Decidable (IsSeen root l) :=
  inferInstanceAs (Decidable ((Path.ofLocation (root ++ l.dropLast)).isTooLong = false))

/-- A file is listed under its path when it is admitted and seen. -/
theorem FileTree.IsProper.listed_iff (ht : t.IsProper) {l : Location} {content : ByteArray}
    (hl : l ≠ []) (hfind : t.find? (placeOf root ++ l) = some (.file content)) :
    (∃ f ∈ sourcesBelow t root patterns, f.path = relativeText l) ↔
      isAdmitted patterns l = true ∧ IsSeen root l := by
  have hmem := ht.mem_filesBelow.mpr ⟨hl, hfind⟩
  constructor
  · rintro ⟨f, hf, hpath⟩
    obtain ⟨k, content', hk, rfl⟩ := mem_sourcesBelow.mp hf
    obtain ⟨hlisted, hadmitted⟩ := mem_admittedFiles.mp hk
    obtain ⟨rfl, -⟩ := Prod.mk.inj (ht.listed_inj hlisted hmem hpath)
    exact hadmitted
  · intro hadmitted
    exact ⟨_, mem_sourcesBelow.mpr ⟨l, content, mem_admittedFiles.mpr ⟨hmem, hadmitted⟩, rfl⟩, rfl⟩

/-- A scan lists its files in the order of their paths, each once. -/
theorem increasing_sourcesBelow (ht : t.IsProper) :
    ((sourcesBelow t root patterns).map (·.path)).Pairwise Text.Before := by
  have hnodup : ((sourcesBelow t root patterns).map (·.path)).Nodup := by
    refine List.Nodup.map_on (fun f hf g hg => ht.path_inj hf hg) ?_
    unfold sourcesBelow sortFiles
    rw [(perm_sortBy _ _).nodup_iff]
    refine List.Nodup.map_on (fun f hf g hg heq => ?_) (ht.nodup_admittedFiles root patterns)
    exact ht.listed_inj (mem_admittedFiles.mp hf).1 (mem_admittedFiles.mp hg).1
      (congrArg SourceFile.path heq)
  have hsorted : ((sourcesBelow t root patterns).map (·.path)).Pairwise
      fun p q => Text.precedes p q = true :=
    List.pairwise_map.mpr (sorted_sourcesBelow t root patterns)
  exact (hsorted.and hnodup).imp fun ⟨hle, hne⟩ => Text.before_of_precedes hle hne

/-- **Put in order, a walk is the scan**, and it never fails to tell a language. -/
theorem sorted_walk (ht : t.IsProper) :
    ∃ files, (walk listing root patterns []).mapM SourceFile.ofWalked? = some files ∧
      sortFiles files = sourcesBelow t root patterns := by
  have hperm : (walk listing root patterns []).Perm (admittedFiles t root patterns) := perm_walk ht
  have hlisted : ∀ f ∈ walk listing root patterns [],
      SourceFile.ofWalked? f = pure (SourceFile.ofEntry f.1 f.2) := by
    intro f hf
    obtain ⟨hnames, hne, hname⟩ := ht.of_admitted (hperm.mem_iff.mp hf)
    unfold SourceFile.ofWalked?
    rw [languageOf?_source hnames hne hname]
    rfl
  refine ⟨_, (mapM_congr hlisted).trans List.mapM_pure, ?_⟩
  -- both are in order and list the same files
  have hsame : (sortFiles ((walk listing root patterns []).map fun f => .ofEntry f.1 f.2)).Perm
      (sourcesBelow t root patterns) :=
    (perm_sortBy _ _).trans ((hperm.map _).trans (perm_sortBy _ _).symm)
  exact ht.eq_of_perm hsame (fun _ hf => hf) (sorted_sortFiles _)
    (sorted_sourcesBelow t root patterns)

end Scans

end FieldWiring
