import FieldWiring.Output.Publish
import FieldWiring.Proofs.Files.Acts

/-!
# Removing what is stale

The files that an earlier run recorded and this one does not make are removed when their kind took
part, and else stay recorded. A recorded name stands for the file of that name.

Results:
* `fileOf_ofString`: the file of a recorded text is the one with that name.
* `returns_removeNamed`: what is removed by a name is the file of that name.
* `Cleared.reported`: what is told of it are the files that were there, each once.
* `returns_prune`: which records stay, which files go and what is told of them.
* `prune_nothing`: when nothing is stale, nothing is removed.
-/

namespace FieldWiring

namespace Output

open FileAction FileTree

variable {here : Location} {t v : FileTree}

/-! ## Single files of earlier runs -/

/-- Removing what stands at `l`: there is nothing, or it is a file. The flag tells which. -/
inductive Removed (l : Location) (t : FileTree) : Bool → FileTree → Prop where
  | nothing (gone : t.find? l = none) : Removed l t false t
  | file {content : ByteArray} (there : t.find? l = some (.file content)) :
      Removed l t true (t.erase l)

namespace Removed

variable {l k : Location} {b : Bool}

theorem find?_of_ne (h : Removed l t b v) (hk : k ≠ l) : v.find? k = t.find? k := by
  cases h with
  | nothing => rfl
  | file => exact find?_erase_of_ne hk

theorem gone (h : Removed l t b v) : v.find? l = none := by
  cases h with
  | nothing gone => exact gone
  | file there => exact find?_erase_self (ne_nil_of_not_directory (by rw [there]; simp))

theorem hasDirectories (h : Removed l t b v) : HasDirectories t v := by
  cases h with
  | nothing => exact .refl t
  | file there => exact hasDirectories_erase (by rw [there]; simp)

theorem hasDirectories_back (h : Removed l t b v) : HasDirectories v t := by
  cases h with
  | nothing => exact .refl t
  | file there => exact hasDirectories_of_erase (by rw [there]; simp)

end Removed

/-- What the removal of a file comes to goes by whether it is there. -/
theorem run_removeFile (t : FileTree) (here : Location) (p : Path) :
    (removeFile here p).run.run t = match t.remove here p with
      | .ok u => (.ok true, u)
      | .error e => if e.cause = .notFound then (.ok false, t) else (.error e, t) := rfl

theorem removeFile_returns {p : Path} {b : Bool} (h : Returns (removeFile here p) t b v) :
    (b = true ∧ t.remove here p = .ok v) ∨
      (b = false ∧ v = t ∧ ∃ e, t.remove here p = .error e ∧ e.cause = .notFound) := by
  rw [Returns, run_removeFile] at h
  cases hrem : t.remove here p with
  | ok u =>
    rw [hrem] at h
    cases h
    exact .inl ⟨rfl, rfl⟩
  | error e =>
    rw [hrem] at h
    simp only at h
    split at h
    · rename_i hcause
      cases h
      exact .inr ⟨rfl, rfl, e, rfl, hcause⟩
    · cases h

theorem returns_removeNamed_iff {dir : Path} {name : Json.Symbols} {o : Option Path} :
    Returns (removeNamed here dir name) t o v ↔
      ∃ b, o = (if b then some (dir.joinText name.toText) else none) ∧
        Returns (removeFile here (dir.joinText name.toText)) t b v := by
  unfold removeNamed
  constructor
  · intro h
    obtain ⟨b, w, hremove, hdone⟩ := returns_bind.mp h
    cases b with
    | true =>
      obtain ⟨rfl, rfl⟩ := returns_pure.mp hdone
      exact ⟨true, rfl, hremove⟩
    | false =>
      obtain ⟨rfl, rfl⟩ := returns_pure.mp hdone
      exact ⟨false, rfl, hremove⟩
  · rintro ⟨b, rfl, hremove⟩
    refine returns_bind.mpr ⟨b, v, hremove, ?_⟩
    cases b with
    | true => exact returns_pure.mpr ⟨rfl, rfl⟩
    | false => exact returns_pure.mpr ⟨rfl, rfl⟩

/-- The name by which the directory lists the file of a record. -/
def fileOf (x : Json.Symbols × OutputRecord) : String := FileName.onDisk x.1.toText

theorem fileOf_ofString {x : Json.Symbols × OutputRecord} {s : String} (h : x.1 = .ofString s) :
    fileOf x = FileName.onDisk s := by
  rw [fileOf, h, Json.Symbols.toText_ofString]

/-- What is removed by a name is the file of that name. -/
theorem returns_removeNamed {dir : Path} {x : Json.Symbols × OutputRecord} {o : Option Path}
    (hname : IsName x.1.toText) (hr : t.reach here dir = .ok (dir.locate here))
    (hd : t.find? (dir.locate here) = some .directory)
    (h : Returns (removeNamed here dir x.1) t o v) :
    ∃ b, o = (if b then some (dir.joinText x.1.toText) else none) ∧
      Removed (dir.locate here ++ [fileOf x]) t b v := by
  obtain ⟨b, rfl, hremove⟩ := returns_removeNamed_iff.mp h
  refine ⟨b, rfl, ?_⟩
  rcases removeFile_returns hremove with ⟨rfl, hrem⟩ | ⟨rfl, rfl, e, hrem, hcause⟩
  · obtain ⟨l, content, hl, hfile, rfl⟩ := remove_ok_iff.mp hrem
    obtain ⟨rfl, -⟩ := reach_name hname hl
    exact .file hfile
  · -- the directory is there, so nothing but the file can be missing
    refine .nothing ?_
    unfold FileTree.remove at hrem
    rcases reach_in_directory hname hr hd with hl | ⟨f, hf, hne⟩
    · rw [hl] at hrem
      simp only [bind, Except.bind] at hrem
      unfold fileOf
      cases hfind : v.find? (dir.locate here ++ [FileName.onDisk x.1.toText]) with
      | none => rfl
      | some entry =>
        rw [hfind] at hrem
        cases entry with
        | file content => cases hrem
        | directory =>
          cases hrem
          cases hcause
    · rw [hf] at hrem
      cases hrem
      exact absurd hcause hne

/-! ## All files of earlier runs -/

/-- The files with these names were removed one after the other from the directory at `L`, as far as
they were there. -/
inductive Pruned (L : Location) : List String → FileTree → FileTree → Prop where
  | nil (t : FileTree) : Pruned L [] t t
  | cons {s : String} {names : List String} {t w v : FileTree} {b : Bool}
      (head : Removed (L ++ [s]) t b w) (tail : Pruned L names w v) : Pruned L (s :: names) t v

namespace Pruned

variable {L k : Location} {names : List String}

theorem forth (h : Pruned L names t v) : HasDirectories t v := by
  induction h with
  | nil => exact .refl _
  | cons head _ ih => exact head.hasDirectories.trans ih

theorem back (h : Pruned L names t v) : HasDirectories v t := by
  induction h with
  | nil => exact .refl _
  | cons head _ ih => exact ih.trans head.hasDirectories_back

theorem others (h : Pruned L names t v) (hk : ∀ s ∈ names, k ≠ L ++ [s]) :
    v.find? k = t.find? k := by
  induction h with
  | nil => rfl
  | @cons s _ _ _ _ _ head _ ih =>
    rw [ih fun r hr => hk r (List.mem_cons_of_mem s hr), head.find?_of_ne (hk s List.mem_cons_self)]

theorem gone (h : Pruned L names t v) : ∀ s ∈ names, v.find? (L ++ [s]) = none := by
  induction h with
  | nil => exact fun _ hs => absurd hs List.not_mem_nil
  | @cons s names _ _ _ _ head tail ih =>
    intro r hr
    by_cases hmem : r ∈ names
    · exact ih r hmem
    · -- a name that is pruned once is gone, for the others are removed elsewhere
      have hrs : r = s := (List.mem_cons.mp hr).resolve_right hmem
      subst hrs
      have hother := tail.others (k := L ++ [r]) fun q hq heq => hmem (by
        obtain rfl : r = q := (List.cons.inj (List.append_cancel_left heq)).1
        exact hq)
      rw [hother]
      exact head.gone

end Pruned

/-- The files of these records were cleared one after the other, and those that were there are told
of. -/
inductive Cleared (L : Location) (dir : Path) :
    OutputManifest → List Path → FileTree → FileTree → Prop where
  | nil (t : FileTree) : Cleared L dir [] [] t t
  | cons {x : Json.Symbols × OutputRecord} {xs : OutputManifest} {b : Bool} {ps : List Path}
      {t w v : FileTree} (head : Removed (L ++ [fileOf x]) t b w) (tail : Cleared L dir xs ps w v) :
      Cleared L dir (x :: xs) ((if b then [dir.joinText x.1.toText] else []) ++ ps) t v

/-- The files that are cleared are those of the records. -/
theorem Cleared.pruned {L : Location} {dir : Path} {xs : OutputManifest} {ps : List Path}
    (h : Cleared L dir xs ps t v) : Pruned L (xs.map fileOf) t v := by
  induction h with
  | nil t => exact .nil t
  | cons head _ ih => exact .cons head ih

/-- **What clearing reports**: some of the records, in their order and each with a file of its own,
namely the files that were there. -/
theorem Cleared.reported {L : Location} {dir : Path} {xs : OutputManifest} {ps : List Path}
    (h : Cleared L dir xs ps t v) :
    ∃ ys : OutputManifest, ys.Sublist xs ∧ ps = ys.map (fun x => dir.joinText x.1.toText) ∧
      (ys.map fileOf).Nodup ∧
      ∀ s, s ∈ ys.map fileOf ↔ s ∈ xs.map fileOf ∧ (t.fileAt (L ++ [s])).isSome = true := by
  induction h with
  | nil t => exact ⟨[], .slnil, rfl, List.nodup_nil, fun s => by simp⟩
  | @cons x xs b ps t w v removed _ ih =>
    obtain ⟨ys, hsub, rfl, hnodup, hmem⟩ := ih
    -- the file is gone for the records behind this one, and the others are as they were
    have hgone : ¬ (w.fileAt (L ++ [fileOf x])).isSome = true := by
      rw [fileAt_of_gone removed.gone]
      exact Bool.false_ne_true
    have hother : ∀ s, s ≠ fileOf x → w.fileAt (L ++ [s]) = t.fileAt (L ++ [s]) := fun s hs =>
      fileAt_of_find? (removed.find?_of_ne (append_name_ne hs))
    cases removed with
    | nothing gone =>
      refine ⟨ys, hsub.cons x, rfl, hnodup, fun s => ?_⟩
      rw [hmem, List.map_cons, List.mem_cons]
      by_cases hs : s = fileOf x
      · simp [hs, hgone]
      · simp [hs]
    | @file content there =>
      have hat : (t.fileAt (L ++ [fileOf x])).isSome = true := by
        rw [fileAt_eq_some.mpr there]
        rfl
      refine ⟨x :: ys, hsub.cons_cons x, rfl, ?_, fun s => ?_⟩
      · rw [List.map_cons, List.nodup_cons, hmem]
        exact ⟨fun h => hgone h.2, hnodup⟩
      · rw [List.map_cons, List.map_cons, List.mem_cons, List.mem_cons, hmem]
        by_cases hs : s = fileOf x
        · simp [hs, hat]
        · simp [hs, hother s hs]

theorem returns_pruneOnes {dir : Path} {current : OutputManifest} {kinds : Option (List String)} :
    ∀ {xs : OutputManifest} {m m' : OutputManifest} {paths paths' : List Path} {t v : FileTree},
      (∀ x ∈ xs, isStale current kinds x = true → ∀ u o w, HasDirectories t u →
        Returns (removeNamed here dir x.1) u o w → IsName x.1.toText) →
      t.reach here dir = .ok (dir.locate here) → t.find? (dir.locate here) = some .directory →
      Returns (xs.foldlM (pruneOne here dir current kinds) (m, paths)) t (m', paths') v →
      m' = (xs.filter fun x => !isStale current kinds x).foldl (fun m x => m.record x.1 x.2) m ∧
        ∃ ps, paths' = paths ++ ps ∧
          Cleared (dir.locate here) dir (xs.filter (isStale current kinds)) ps t v
  | [], m, m', paths, paths', t, v, _, _, _, h => by
    obtain ⟨heq, rfl⟩ := returns_pure.mp h
    obtain ⟨rfl, rfl⟩ := Prod.mk.inj heq
    exact ⟨rfl, [], (List.append_nil _).symm, .nil _⟩
  | x :: xs, m, m', paths, paths', t, v, hnames, hr, hd, h => by
    rw [List.foldlM_cons] at h
    obtain ⟨⟨m₁, paths₁⟩, w, hone, hrest⟩ := returns_bind.mp h
    have htail := fun y hy => hnames y (List.mem_cons_of_mem x hy)
    unfold pruneOne at hone
    by_cases hs : isStale current kinds x = true
    · rw [if_pos hs] at hone
      obtain ⟨o, w', hremove, hdone⟩ := returns_bind.mp hone
      obtain ⟨b, rfl, hremoved⟩ := returns_removeNamed
        (hnames x List.mem_cons_self hs t o w' (.refl t) hremove) hr hd hremove
      have hforth := hremoved.hasDirectories
      have hend : m₁ = m ∧ paths₁ = paths ++ (if b then [dir.joinText x.1.toText] else []) ∧
          w = w' := by
        cases b with
        | true =>
          obtain ⟨heq, rfl⟩ := returns_pure.mp hdone
          exact ⟨(Prod.mk.inj heq).1, (Prod.mk.inj heq).2, rfl⟩
        | false =>
          obtain ⟨heq, rfl⟩ := returns_pure.mp hdone
          exact ⟨(Prod.mk.inj heq).1, (Prod.mk.inj heq).2.trans (List.append_nil _).symm, rfl⟩
      obtain ⟨rfl, rfl, rfl⟩ := hend
      obtain ⟨hm, ps, rfl, hrests⟩ := returns_pruneOnes
        (fun y hy hys u o w hu => htail y hy hys u o w (hforth.trans hu))
        (reach_mono hforth hr) (hforth _ hd) hrest
      rw [List.filter_cons_of_neg (by rw [hs]; decide), List.filter_cons_of_pos hs]
      exact ⟨hm, _ ++ ps, List.append_assoc _ _ _, .cons hremoved hrests⟩
    · rw [if_neg hs] at hone
      obtain ⟨heq, rfl⟩ := returns_pure.mp hone
      obtain ⟨rfl, rfl⟩ := Prod.mk.inj heq
      obtain ⟨hm, hcleared⟩ := returns_pruneOnes htail hr hd hrest
      rw [List.filter_cons_of_pos (by simpa using hs), List.filter_cons_of_neg hs]
      exact ⟨hm, hcleared⟩

/-- The records of an earlier run that this one does not make, in the order of their names. -/
def leftOver (previous current : OutputManifest) : OutputManifest :=
  OutputManifest.inOrder (previous.filter fun x => (current.find? x.1).isNone)

/-- Which records stay, which files are cleared and what is told of them. -/
theorem returns_prune {dir : Path} {kinds : Option (List String)}
    {previous current m : OutputManifest} {removed : List Path} {t v : FileTree}
    (hnames : ∀ x ∈ previous, isStale current kinds x = true → ∀ u o w, HasDirectories t u →
      Returns (removeNamed here dir x.1) u o w → IsName x.1.toText)
    (hr : t.reach here dir = .ok (dir.locate here))
    (hd : t.find? (dir.locate here) = some .directory)
    (h : Returns (prune here dir kinds previous current) t (m, removed) v) :
    m = ((leftOver previous current).filter fun x => !isStale current kinds x).foldl
        (fun m x => m.record x.1 x.2) current ∧
      Cleared (dir.locate here) dir ((leftOver previous current).filter (isStale current kinds))
        removed t v := by
  have hmem : ∀ x ∈ leftOver previous current, x ∈ previous := fun x hx =>
    (List.mem_filter.mp ((perm_sortBy _ _).mem_iff.mp hx)).1
  obtain ⟨hm, ps, rfl, hcleared⟩ := returns_pruneOnes (fun x hx => hnames x (hmem x hx)) hr hd h
  exact ⟨hm, hcleared⟩

theorem pruneOnes_nothing {dir : Path} {current : OutputManifest} {kinds : Option (List String)}
    (t : FileTree) : ∀ (xs m : OutputManifest) (paths : List Path),
      (∀ x ∈ xs, isStale current kinds x = false) →
      Returns (xs.foldlM (pruneOne here dir current kinds) (m, paths)) t
        (xs.foldl (fun m x => m.record x.1 x.2) m, paths) t
  | [], _, _, _ => returns_pure.mpr ⟨rfl, rfl⟩
  | x :: xs, m, paths, h => by
    have hx := h x List.mem_cons_self
    rw [List.foldlM_cons]
    refine returns_bind.mpr ⟨(m.record x.1 x.2, paths), t, ?_, ?_⟩
    · unfold pruneOne
      rw [if_neg (by rw [hx]; exact Bool.false_ne_true)]
      exact returns_pure.mpr ⟨rfl, rfl⟩
    · exact pruneOnes_nothing t xs _ paths fun y hy => h y (List.mem_cons_of_mem x hy)

/-- When nothing is stale, nothing is removed. -/
theorem prune_nothing {dir : Path} {kinds : Option (List String)}
    {previous current : OutputManifest}
    (h : ∀ x ∈ leftOver previous current, isStale current kinds x = false) (t : FileTree) :
    Returns (prune here dir kinds previous current) t
      ((leftOver previous current).foldl (fun m x => m.record x.1 x.2) current, []) t :=
  pruneOnes_nothing t _ _ _ h

end Output

end FieldWiring
