import FieldWiring.Proofs.Files.Grounded

/-!
# Trees that differ in certain names

A run changes files of certain names and makes directories. `Overlaid` says that nothing else became
different: other files have their contents, and a listing that passes over those names is the same,
in the same order. So what is asked about other names is answered as before.

Results:
* `Overlaid.trans`: several changes of this sort are one.
* `overlaid_put`, `overlaid_erase`, `overlaid_addDirectory`: the single changes.
* `Overlaid.find?_eq`, `Overlaid.fileAt_eq`: what stands at other names is what stood there.
-/

namespace FieldWiring

namespace FileTree

variable {t u v : FileTree} {l root : Location} {s : String} {made : List String}
  {Out : String → Prop} {e : Entry}

/-! ## Listings -/

/-- An entry of a tree in the listing of the files below `root` that `p` lets through. -/
def listing (root : Location) (p : Location → Bool) (x : Location × Entry) :
    Option (Location × ByteArray) :=
  match x.2 with
  | .file content =>
    if root.isPrefixOf x.1 ∧ x.1.length ≠ root.length ∧ p (x.1.drop root.length) = true
    then some (x.1.drop root.length, content) else none
  | .directory => none

theorem filesBelow_filter (t : FileTree) (root : Location) (p : Location → Bool) :
    (t.filesBelow root).filter (fun f => p f.1) = t.entries.filterMap (listing root p) := by
  unfold filesBelow below
  rw [← List.filterMap_eq_filter, List.filterMap_filterMap, List.filterMap_filterMap]
  congr
  funext ⟨k, e⟩
  unfold listing
  by_cases hk : root.isPrefixOf k ∧ k.length ≠ root.length
  · cases e with
    | directory => simp
    | file content =>
      by_cases hp : p (k.drop root.length) = true
      · simp [hk, hp, Option.guard]
      · simp [hk, hp, Option.guard]
  · cases e with
    | directory => simp
    | file content =>
      have hk' : ¬ (root.isPrefixOf k = true ∧ k.length ≠ root.length ∧
          p (k.drop root.length) = true) := fun h => hk ⟨h.1, h.2.1⟩
      simp only [if_neg hk, if_neg hk', Option.bind_none]

theorem filterMap_placed {β : Type} {f : Location × Entry → Option β} :
    ∀ {es : List (Location × Entry)}, f (l, e) = none → (∀ d, (l, d) ∈ es → f (l, d) = none) →
      (placed l e es).filterMap f = es.filterMap f
  | [], hnew, _ => by
    rw [placed, List.filterMap_cons, hnew]
  | (k, d) :: es, hnew, hold => by
    rw [placed]
    by_cases hk : k = l
    · subst hk
      rw [if_pos rfl, List.filterMap_cons, List.filterMap_cons, hnew, hold d List.mem_cons_self]
    · rw [if_neg hk, List.filterMap_cons, List.filterMap_cons,
        filterMap_placed hnew fun d' hd' => hold d' (List.mem_cons_of_mem _ hd')]

theorem filterMap_erase {β : Type} {f : Location × Entry → Option β} (h : ∀ d, f (l, d) = none)
    (t : FileTree) : (t.erase l).entries.filterMap f = t.entries.filterMap f := by
  unfold erase
  rw [← List.filterMap_eq_filter, List.filterMap_filterMap]
  congr
  funext ⟨k, d⟩
  by_cases hk : k = l
  · subst hk
    simp [Option.guard, h]
  · simp [Option.guard, hk]

/-- A listing that passes over a name has no entry with it. -/
theorem listing_eq_none (root : Location) {p : Location → Bool}
    (hp : ∀ k, p (k ++ [s]) = false) (k : Location) (d : Entry) :
    listing root p (k ++ [s], d) = none := by
  unfold listing
  cases d with
  | directory => rfl
  | file content =>
    refine if_neg ?_
    rintro ⟨hbegin, hne, hadmits⟩
    have hle : root.length ≤ k.length := by
      have hlen := (List.isPrefixOf_iff_prefix.mp hbegin).length_le
      simp only [List.length_append, List.length_singleton] at hlen hne
      omega
    simp only [List.drop_append_of_le_length hle, hp] at hadmits
    cases hadmits

/-! ## Overlays -/

/-- The tree `u` has the directories of `t` and others, whose last names are among `made`, and it
differs in files at most whose names are among `Out`. -/
structure Overlaid (made : List String) (Out : String → Prop) (t u : FileTree) : Prop where
  forth : HasDirectories t u
  back : ∀ l, u.find? l = some .directory →
    t.find? l = some .directory ∨ ∃ k, ∃ s ∈ made, l = k ++ [s]
  files : ∀ l, (∀ k s, Out s → l ≠ k ++ [s]) → u.fileAt l = t.fileAt l
  listed : ∀ root (p : Location → Bool), (∀ s, Out s → ∀ k, p (k ++ [s]) = false) →
    (u.filesBelow root).filter (fun f => p f.1) = (t.filesBelow root).filter (fun f => p f.1)

theorem Overlaid.refl (t : FileTree) : Overlaid made Out t t :=
  ⟨.refl t, fun _ h => .inl h, fun _ _ => rfl, fun _ _ _ => rfl⟩

/-- Several changes of this sort are one. -/
theorem Overlaid.trans (h : Overlaid made Out t u) (h' : Overlaid made Out u v) :
    Overlaid made Out t v := by
  refine ⟨h.forth.trans h'.forth, ?_, ?_, ?_⟩
  · intro l hl
    rcases h'.back l hl with hu | hmade
    · exact h.back l hu
    · exact .inr hmade
  · intro l hl
    rw [h'.files l hl, h.files l hl]
  · intro root p hp
    rw [h'.listed root p hp, h.listed root p hp]

theorem Overlaid.hasDirectories_back (h : Overlaid [] Out t u) : HasDirectories u t := by
  intro l hl
  rcases h.back l hl with hdir | ⟨-, s, hs, -⟩
  · exact hdir
  · exact absurd hs List.not_mem_nil

/-- Without new directories the two trees differ in the same way. -/
theorem Overlaid.symm (h : Overlaid [] Out t u) : Overlaid [] Out u t :=
  ⟨h.hasDirectories_back, fun l hl => .inl (h.forth l hl), fun l hl => (h.files l hl).symm,
    fun root p hp => (h.listed root p hp).symm⟩

theorem overlaid_put {k : Location} {content : ByteArray} (hs : Out s)
    (hfree : t.find? (k ++ [s]) ≠ some .directory) :
    Overlaid made Out t (t.put (k ++ [s]) (.file content)) := by
  refine ⟨hasDirectories_put hfree,
    fun l hl => .inl (hasDirectories_of_put_file hfree l hl), ?_, ?_⟩
  · exact fun l hl => fileAt_of_find? (find?_put_of_ne (hl k s hs))
  · intro root p hp
    have hnone := listing_eq_none root (hp s hs) k
    rw [filesBelow_filter, filesBelow_filter]
    exact filterMap_placed (hnone _) fun d _ => hnone d

theorem overlaid_erase {k : Location} (hs : Out s)
    (hfree : t.find? (k ++ [s]) ≠ some .directory) :
    Overlaid made Out t (t.erase (k ++ [s])) := by
  refine ⟨hasDirectories_erase hfree, fun l hl => .inl (hasDirectories_of_erase hfree l hl), ?_, ?_⟩
  · exact fun l hl => fileAt_of_find? (find?_erase_of_ne (hl k s hs))
  · intro root p hp
    rw [filesBelow_filter, filesBelow_filter]
    exact filterMap_erase (listing_eq_none root (hp s hs) k) t

theorem not_mem_entries (hl : l ≠ []) (hnone : t.find? l = none) (d : Entry) :
    (l, d) ∉ t.entries := by
  unfold find? at hnone
  rw [if_neg hl, List.lookup_eq_none_iff] at hnone
  intro hmem
  have := hnone _ hmem
  simp at this

theorem overlaid_addDirectory {here : Location} {p : Path} (hg : t.Grounded)
    (hhere : t.find? here = some .directory) (hmade : ∀ s ∈ p.parts, FileName.onDisk s ∈ made)
    (h : t.addDirectory here p = .ok u) : Overlaid made Out t u := by
  refine ⟨hasDirectories_addDirectory h, ?_, fun l _ => fileAt_addDirectory h l, ?_⟩
  · obtain ⟨k, s, hs, -, -, rfl⟩ := addDirectory_last hg hhere h
    intro l hl
    by_cases hlk : l = k ++ [FileName.onDisk s]
    · exact .inr ⟨k, FileName.onDisk s, hmade s hs, hlk⟩
    · rw [find?_put_of_ne hlk] at hl
      exact .inl hl
  · intro root q _
    obtain ⟨l, -, hnone, rfl⟩ := addDirectory_ok_iff.mp h
    have hne : l ≠ [] := ne_nil_of_not_directory (by rw [hnone]; simp)
    rw [filesBelow_filter, filesBelow_filter]
    exact filterMap_placed rfl fun d hd => absurd hd (not_mem_entries hne hnone d)

/-- Making the directories of a path overlays the tree with directories of its names. -/
theorem overlaid_ensureDirectories {here : Location} {p : Path} (hg : t.Grounded)
    (hhere : t.find? here = some .directory)
    (h : (FileAction.ensureDirectories here p).Returns t () u) :
    Overlaid (p.parts.map FileName.onDisk) Out t u := by
  have hall := FileAction.ensureDirectories_ind
    (R := fun t u => t.Grounded → t.find? here = some .directory →
      Overlaid (p.parts.map FileName.onDisk) Out t u ∧ u.Grounded)
    (fun t hg _ => ⟨.refl t, hg⟩) ?_ ?_ h
  · exact (hall hg hhere).1
  · intro t u v htu huv hg hhere
    obtain ⟨htu, hgu⟩ := htu hg hhere
    obtain ⟨huv, hgv⟩ := huv hgu (htu.forth _ hhere)
    exact ⟨htu.trans huv, hgv⟩
  · intro q t u _ hq h hg hhere
    exact ⟨overlaid_addDirectory hg hhere (fun s hs => List.mem_map_of_mem (hq.subset hs)) h,
      grounded_addDirectory hg hhere h⟩

/-! ## What stays -/

section Asking

variable {here : Location} {p : Path}

theorem ne_of_not_out (hs : ¬ Out s) (k k' : Location) (r : String) (hr : Out r) :
    k ++ [s] ≠ k' ++ [r] := by
  intro heq
  obtain ⟨-, hsr⟩ := List.append_inj' heq rfl
  exact hs ((List.cons.inj hsr).1 ▸ hr)

/-- A file of another name is as it was. -/
theorem Overlaid.fileAt_eq (h : Overlaid made Out t u) (hs : ¬ Out s) (k : Location) :
    u.fileAt (k ++ [s]) = t.fileAt (k ++ [s]) :=
  h.files _ (fun k' r hr => ne_of_not_out hs k k' r hr)

/-- What stands at a name that is not made either is what stood there. -/
theorem Overlaid.find?_eq (h : Overlaid made Out t u) (hs : ¬ Out s) (hm : s ∉ made)
    (k : Location) : u.find? (k ++ [s]) = t.find? (k ++ [s]) := by
  have hfile := h.fileAt_eq hs k
  cases ht : t.find? (k ++ [s]) with
  | some e =>
    cases e with
    | directory => exact h.forth _ ht
    | file content => rw [← fileAt_eq_some, hfile, fileAt_eq_some, ht]
  | none =>
    cases hu : u.find? (k ++ [s]) with
    | none => rfl
    | some e =>
      cases e with
      | file content =>
        rw [fileAt_eq_some.mpr hu, eq_comm, fileAt_eq_some, ht] at hfile
        cases hfile
      | directory =>
        rcases h.back _ hu with hdir | ⟨k', r, hr, heq⟩
        · rw [hdir] at ht
          cases ht
        · obtain ⟨-, hsr⟩ := List.append_inj' heq rfl
          exact absurd ((List.cons.inj hsr).1 ▸ hr) hm

theorem read_congr (hr : u.reach here p = t.reach here p)
    (hf : ∀ l, t.reach here p = .ok l → u.find? l = t.find? l) :
    u.read here p = t.read here p := by
  unfold read
  rw [hr]
  cases ht : t.reach here p with
  | error e => rfl
  | ok l =>
    simp only [bind, Except.bind]
    rw [hf l ht]

theorem look_congr (hr : u.reach here p = t.reach here p)
    (hf : ∀ l, t.reach here p = .ok l → u.find? l = t.find? l) :
    u.look here p = t.look here p := by
  unfold look
  rw [hr]
  cases ht : t.reach here p with
  | error e =>
    obtain ⟨cause, q⟩ := e
    cases cause <;> rfl
  | ok l => exact congrArg Except.ok (hf l ht)

theorem leadsToFile_iff :
    t.leadsToFile here p = .ok true ↔ ∃ content, t.read here p = .ok content := by
  unfold leadsToFile
  constructor
  · intro h
    cases hl : t.look here p with
    | error e => rw [hl] at h; cases h
    | ok o =>
      rw [hl] at h
      rcases o with _ | (content | _)
      · cases h
      · obtain ⟨l, hreach, hfile⟩ := look_some_iff.mp hl
        exact ⟨content, read_ok_iff.mpr ⟨l, hreach, hfile⟩⟩
      · cases h
  · rintro ⟨content, h⟩
    obtain ⟨l, hreach, hfile⟩ := read_ok_iff.mp h
    rw [look_some_iff.mpr ⟨l, hreach, hfile⟩]
    rfl

end Asking

end FileTree

end FieldWiring
