import FieldWiring.Proofs.Output.Ownership

/-!
# Recorded names that stop a publication

Whatever stands in a manifest is read, and what is no record is passed over. But the names that are
read go to the system when their files are to be removed, and the system refuses some of them: the
empty name and a dot, which lead to the directory itself, two dots, and every name that has a NUL,
has no bytes or is too long. A publication that gives up a record with such a name fails. Nothing
else in a manifest stops it.

Results:
* `reach_entry_iff`: the names that an entry of a directory can have.
* `removes_iff`: the recorded names by which a file is removed or found missing.
* `publishes_iff`: publishing in a directory of files succeeds when no other name is given up.
* `publish_answers_iff`: the same for a whole publication, and the manifest that it stores.
-/

namespace FieldWiring

namespace Output

open FileAction FileTree

variable {here : Location} {dir : Path} {units : List GeneratedUnit} {kinds : Option (List String)}
  {previous current : OutputManifest} {t v : FileTree} {s : String} {name : Json.Symbols}

/-! ## Directories of files -/

/-- A directory that can be reached, with files in it and no directories. -/
structure IsFlat (here : Location) (dir : Path) (t : FileTree) : Prop where
  reached : t.reach here dir = .ok (dir.locate here)
  directory : t.find? (dir.locate here) = some .directory
  above : t.find? (dir.locate here).dropLast = some .directory
  flat : ∀ s, t.find? (dir.locate here ++ [s]) ≠ some .directory

theorem IsFlat.of_same (h : IsFlat here dir t) (forth : HasDirectories t v)
    (back : HasDirectories v t) : IsFlat here dir v where
  reached := reach_mono forth h.reached
  directory := forth _ h.directory
  above := forth _ h.above
  flat s hs := h.flat s (back _ hs)

/-- A recorded name that was cleared in such a directory, or in what became of it, is the name of an
entry. -/
theorem IsFlat.isName (h : IsFlat here dir t) (hown : OutputManifest.isOwnName name = true)
    {u w : FileTree} {o : Option Path} (hu : HasDirectories t u)
    (hremoved : Returns (removeNamed here dir name) u o w) : IsName name.toText :=
  isName_of_returns hown (reach_mono hu h.reached) (hu _ h.directory) (hu _ h.above) hremoved

/-- A text that can be the name of an entry of the directory. -/
structure IsEntryName (dir : Path) (s : String) : Prop where
  name : IsName s
  encoding : FileName.isUnencodable s = false
  nul : Char.ofNat 0 ∉ s.toList
  short : FileName.isTooLong s = false
  path : (dir.joinText s).isTooLong = false

/-- **The names that an entry of a directory can have** are those that lead to its location. -/
theorem reach_entry_iff (hflat : IsFlat here dir t) (hs : IsName s) :
    t.reach here (dir.joinText s) = .ok (dir.locate here ++ [FileName.onDisk s]) ↔
      IsEntryName dir s := by
  obtain ⟨hencoding, hnul, -, hfollow⟩ := reach_ok_iff.mp hflat.reached
  have hparts : (dir.joinText s).parts = dir.parts ++ [s] := by rw [joinText_name dir hs]
  have hstart : start here (dir.joinText s) = start here dir := by rw [joinText_name dir hs]; rfl
  have hlacks : (dir.joinText s).lacksEncoding = FileName.isUnencodable s := by
    unfold Path.lacksEncoding at hencoding ⊢
    rw [hparts, List.any_append, hencoding, List.any_cons, List.any_nil, Bool.false_or,
      Bool.or_false]
  have hholds : (dir.joinText s).holdsNul = s.toList.contains (Char.ofNat 0) := by
    unfold Path.holdsNul at hnul ⊢
    rw [hparts, List.any_append, hnul, List.any_cons, List.any_nil, Bool.false_or, Bool.or_false]
  have hfollow' : t.follow (start here (dir.joinText s)) (dir.joinText s).parts =
      if FileName.isTooLong s then .error .nameTooLong
      else .ok (dir.locate here ++ [FileName.onDisk s]) := by
    rw [hparts, hstart, follow_concat hfollow hflat.directory, Path.along, if_neg hs.ne_dots]
  rw [reach_ok_iff, hlacks, hholds, hfollow']
  constructor
  · rintro ⟨hencoding, hnul, hpath, hlength⟩
    refine ⟨hs, hencoding, ?_, ?_, hpath⟩
    · rwa [← List.contains_iff_mem, Bool.not_eq_true]
    · refine Bool.eq_false_iff.mpr fun hlong => ?_
      rw [if_pos hlong] at hlength
      cases hlength
  · intro h
    refine ⟨h.encoding, ?_, h.path, if_neg (Bool.eq_false_iff.mp h.short)⟩
    rw [← Bool.not_eq_true, List.contains_iff_mem]
    exact h.nul

theorem reach_manifest_of_entry (hflat : IsFlat here dir t)
    (hmanifest : IsEntryName dir OutputManifest.fileName) :
    t.reach here (dir.joinText OutputManifest.fileName) = .ok (manifestAt (dir.locate here)) := by
  rw [(reach_entry_iff hflat hmanifest.name).mpr hmanifest,
    isListedName_manifest.listed, manifestAt]

/-- A name that no entry can have is refused as it stands. -/
theorem refused_of_not_entry (hflat : IsFlat here dir t) (hs : IsName s) (h : ¬ IsEntryName dir s) :
    ∃ e, t.reach here (dir.joinText s) = .error e ∧ e.cause ≠ .notFound :=
  (reach_in_directory hs hflat.reached hflat.directory).resolve_left
    (mt (reach_entry_iff hflat hs).mp h)

/-! ## Single names -/

/-- What is left of a directory when a recorded name was cleared. -/
theorem isFlat_of_removed (hflat : IsFlat here dir t) (hown : OutputManifest.isOwnName name = true)
    {o : Option Path} (h : Returns (removeNamed here dir name) t o v) : IsFlat here dir v := by
  obtain ⟨b, -, removed⟩ := returns_removeNamed (x := (name, ⟨[], []⟩))
    (hflat.isName hown (HasDirectories.refl t) h) hflat.reached hflat.directory h
  exact hflat.of_same removed.hasDirectories removed.hasDirectories_back

/-- The file of an entry is removed, or found missing. -/
theorem removeFile_entry (hflat : IsFlat here dir t) (hs : IsEntryName dir s) :
    ∃ b v, Returns (removeFile here (dir.joinText s)) t b v := by
  have hreach := (reach_entry_iff hflat hs.name).mpr hs
  cases hfind : t.find? (dir.locate here ++ [FileName.onDisk s]) with
  | none =>
    refine ⟨false, t, ?_⟩
    have hremove : t.remove here (dir.joinText s) = .error ⟨.notFound, dir.joinText s⟩ := by
      unfold FileTree.remove
      rw [hreach]
      simp only [bind, Except.bind, hfind]
    rw [Returns, run_removeFile, hremove]
    rfl
  | some e =>
    cases e with
    | file content =>
      refine ⟨true, t.erase (dir.locate here ++ [FileName.onDisk s]), ?_⟩
      rw [Returns, run_removeFile, remove_ok_iff.mpr ⟨_, content, hreach, hfind, rfl⟩]
    | directory => exact absurd hfind (hflat.flat _)

/-- **The recorded names that can be dealt with** are those that an entry can have: the file is
removed, or there is none. -/
theorem removes_iff (hflat : IsFlat here dir t) (hown : OutputManifest.isOwnName name = true) :
    (∃ o v, Returns (removeNamed here dir name) t o v) ↔ IsEntryName dir name.toText := by
  constructor
  · rintro ⟨o, v, h⟩
    have hs : IsName name.toText := hflat.isName hown (HasDirectories.refl t) h
    obtain ⟨b, -, hremove⟩ := returns_removeNamed_iff.mp h
    refine Classical.byContradiction fun hentry => ?_
    obtain ⟨e, he, hcause⟩ := refused_of_not_entry hflat hs hentry
    exact not_returns_removeFile_of_error he hcause hremove
  · intro hentry
    obtain ⟨b, v, hremove⟩ := removeFile_entry hflat hentry
    exact ⟨_, v, returns_removeNamed_iff.mpr ⟨b, rfl, hremove⟩⟩

/-! ## All names -/

/-- Dealing with a recorded file succeeds unless the file is given up under a name that is
refused. -/
theorem pruneOne_iff (hflat : IsFlat here dir t) {x : Json.Symbols × OutputRecord}
    (hown : OutputManifest.isOwnName x.1 = true) (state : OutputManifest × List Path) :
    (∃ state' v, Returns (pruneOne here dir current kinds state x) t state' v) ↔
      (isStale current kinds x = true → IsEntryName dir x.1.toText) := by
  unfold pruneOne
  by_cases hs : isStale current kinds x = true
  · rw [if_pos hs, ← removes_iff hflat hown]
    constructor
    · rintro ⟨state', v, h⟩ -
      obtain ⟨o, w, hremove, -⟩ := returns_bind.mp h
      exact ⟨o, w, hremove⟩
    · intro h
      obtain ⟨o, w, hremove⟩ := h hs
      cases o with
      | some path =>
        exact ⟨_, w, returns_bind.mpr ⟨some path, w, hremove, returns_pure.mpr ⟨rfl, rfl⟩⟩⟩
      | none =>
        exact ⟨_, w, returns_bind.mpr ⟨none, w, hremove, returns_pure.mpr ⟨rfl, rfl⟩⟩⟩
  · rw [if_neg hs]
    exact ⟨fun _ h => absurd h hs, fun _ => ⟨_, t, returns_pure.mpr ⟨rfl, rfl⟩⟩⟩

theorem isFlat_of_pruneOne (hflat : IsFlat here dir t) {x : Json.Symbols × OutputRecord}
    (hown : OutputManifest.isOwnName x.1 = true) {state state' : OutputManifest × List Path}
    (h : Returns (pruneOne here dir current kinds state x) t state' v) : IsFlat here dir v := by
  unfold pruneOne at h
  split at h
  · obtain ⟨o, w, hremove, hdone⟩ := returns_bind.mp h
    have hw := isFlat_of_removed hflat hown hremove
    cases o with
    | some path => exact (returns_pure.mp hdone).2 ▸ hw
    | none => exact (returns_pure.mp hdone).2 ▸ hw
  · exact (returns_pure.mp h).2 ▸ hflat

/-- One recorded file after the other is dealt with, as long as no name is refused. -/
theorem pruneOnes_iff : ∀ {xs : OutputManifest} (state : OutputManifest × List Path) {t : FileTree},
    IsFlat here dir t → (∀ x ∈ xs, OutputManifest.isOwnName x.1 = true) →
    ((∃ state' v, Returns (xs.foldlM (pruneOne here dir current kinds) state) t state' v) ↔
      ∀ x ∈ xs, isStale current kinds x = true → IsEntryName dir x.1.toText)
  | [], state, t, _, _ =>
    ⟨fun _ _ hx => absurd hx List.not_mem_nil,
      fun _ => ⟨state, t, returns_pure.mpr ⟨rfl, rfl⟩⟩⟩
  | x :: xs, state, t, hflat, hown => by
    have hx := hown x List.mem_cons_self
    have hxs := fun y hy => hown y (List.mem_cons_of_mem x hy)
    rw [List.foldlM_cons, List.forall_mem_cons, ← pruneOne_iff hflat hx state]
    constructor
    · rintro ⟨state', v, h⟩
      obtain ⟨state₁, w, hone, hrest⟩ := returns_bind.mp h
      refine ⟨⟨state₁, w, hone⟩, ?_⟩
      exact (pruneOnes_iff state₁ (isFlat_of_pruneOne hflat hx hone) hxs).mp ⟨state', v, hrest⟩
    · rintro ⟨⟨state₁, w, hone⟩, hentries⟩
      obtain ⟨state', v, hrest⟩ :=
        (pruneOnes_iff state₁ (isFlat_of_pruneOne hflat hx hone) hxs).mpr hentries
      exact ⟨state', v, returns_bind.mpr ⟨state₁, w, hone, hrest⟩⟩

theorem prune_iff (hflat : IsFlat here dir t)
    (hown : ∀ x ∈ previous, OutputManifest.isOwnName x.1 = true) :
    (∃ pruned v, Returns (prune here dir kinds previous (recordUnits units)) t pruned v) ↔
      ∀ x ∈ previous, GivenUp units kinds x → IsEntryName dir x.1.toText := by
  have hleft : ∀ x ∈ leftOver previous (recordUnits units), x ∈ previous := fun x hx =>
    (mem_leftOver.mp hx).1
  refine (pruneOnes_iff _ hflat fun x hx => hown x (hleft x hx)).trans
    ⟨fun h x hx hgiven => ?_, fun h x hx hs => ?_⟩
  · have hstale := List.mem_filter.mp (mem_staleRecords_iff.mpr ⟨hx, hgiven⟩)
    exact h x hstale.1 hstale.2
  · exact h x (hleft x hx) (isStale_iff_givenUp.mp hs)

/-! ## Units -/

/-- A unit that can be written to the directory. -/
structure IsWritable (dir : Path) (u : GeneratedUnit) : Prop where
  name : IsEntryName dir u.fileName
  text : Text.holdsHalf u.text = false

/-- A unit is written where no directory stands. -/
theorem writeUnit_returns {l : Location} {p : Path} {u : GeneratedUnit}
    (hhalf : Text.holdsHalf u.text = false) (hl : t.reach here p = .ok l)
    (hfree : t.find? l ≠ some .directory) : ∃ b v, Returns (writeUnit here p u) t b v := by
  have hwrite : t.write here p u.text.toUTF8 = .ok (t.put l (.file u.text.toUTF8)) :=
    write_ok_iff.mpr ⟨l, hl, hfree, rfl⟩
  by_cases hkept : ∃ content, t.fileAt l = some content ∧
      Sha256.hex content = Sha256.hex u.text.toUTF8
  · obtain ⟨content, hat, hsame⟩ := hkept
    exact ⟨false, t, writeUnit_kept hhalf hl hat hsame⟩
  · refine ⟨true, t.put l (.file u.text.toUTF8), ?_⟩
    have hdone :
        Returns (change (fun t => t.write here p u.text.toUTF8) >>= fun _ => pure true) t true
        (t.put l (.file u.text.toUTF8)) :=
      returns_bind.mpr ⟨(), _, returns_change.mpr hwrite, returns_pure.mpr ⟨rfl, rfl⟩⟩
    unfold writeUnit
    rw [Text.encode?_eq_some_iff.mpr ⟨hhalf, rfl⟩]
    cases hfind : t.find? l with
    | none =>
      have hlook : t.look here p = .ok none := by
        unfold look
        rw [hl]
        exact congrArg Except.ok hfind
      refine returns_bind.mpr ⟨none, t, returns_ask.mpr ⟨hlook, rfl⟩, ?_⟩
      exact returns_bind.mpr ⟨false, t, returns_pure.mpr ⟨rfl, rfl⟩, hdone⟩
    | some e =>
      cases e with
      | directory => exact absurd hfind hfree
      | file content =>
        have hlook : t.look here p = .ok (some (.file content)) := look_some_iff.mpr ⟨l, hl, hfind⟩
        have hread : t.read here p = .ok content := read_ok_iff.mpr ⟨l, hl, hfind⟩
        have hdiffers : Sha256.hex content ≠ Sha256.hex u.text.toUTF8 := fun hsame =>
          hkept ⟨content, fileAt_eq_some.mpr hfind, hsame⟩
        refine returns_bind.mpr ⟨_, t, returns_ask.mpr ⟨hlook, rfl⟩, ?_⟩
        refine returns_bind.mpr ⟨_, t, returns_ask.mpr ⟨hread, rfl⟩, ?_⟩
        refine returns_bind.mpr ⟨false, t, returns_pure.mpr ⟨?_, rfl⟩, hdone⟩
        exact (decide_eq_false hdiffers).symm

/-- Units are written to a directory of files, which it remains. -/
theorem writeUnits_returns : ∀ {units : List GeneratedUnit} {t : FileTree}, IsFlat here dir t →
    (∀ u ∈ units, IsWritable dir u) →
    ∃ targets v, Returns (writeUnits here dir units) t targets v ∧ IsFlat here dir v
  | [], t, hflat, _ => ⟨[], t, returns_pure.mpr ⟨rfl, rfl⟩, hflat⟩
  | u :: us, t, hflat, h => by
    obtain ⟨hname, htext⟩ := h u List.mem_cons_self
    have hreach := (reach_entry_iff hflat hname.name).mpr hname
    obtain ⟨b, w, hwrite⟩ := writeUnit_returns htext hreach (hflat.flat _)
    obtain ⟨-, l, -, hwrote⟩ := returns_writeUnit hwrite
    obtain ⟨targets, v, hrest, hv⟩ := writeUnits_returns
      (hflat.of_same hwrote.hasDirectories hwrote.hasDirectories_back) fun x hx =>
        h x (List.mem_cons_of_mem u hx)
    exact ⟨_, v, returns_writeUnits_cons.mpr ⟨b, w, targets, hwrite, hrest, rfl⟩, hv⟩

/-! ## Publishing -/

/-- **Publishing in a directory of files succeeds** unless a record is given up whose name is
refused. -/
theorem publishes_iff {time : String} (hflat : IsFlat here dir t)
    (hunits : ∀ u ∈ units, IsWritable dir u) (hmanifest : IsEntryName dir OutputManifest.fileName)
    (hown : ∀ x ∈ previous, OutputManifest.isOwnName x.1 = true) :
    (∃ r v, Returns (publishOver here dir units kinds time previous) t r v) ↔
      ∀ x ∈ previous, GivenUp units kinds x → IsEntryName dir x.1.toText := by
  unfold publishOver
  constructor
  · rintro ⟨r, v, h⟩
    obtain ⟨targets, w₁, hwrite, hrest⟩ := returns_bind.mp h
    obtain ⟨pruned, w₂, hprune, -⟩ := returns_bind.mp hrest
    obtain ⟨-, bs, -, hall⟩ := returns_writeUnits (fun u hu => (hunits u hu).name.name) hwrite
    have hflat₁ := hflat.of_same hall.hasDirectories hall.hasDirectories_back
    exact (prune_iff hflat₁ hown).mp ⟨pruned, w₂, hprune⟩
  · intro h
    obtain ⟨targets, w₁, hwrite, hflat₁⟩ := writeUnits_returns hflat hunits
    obtain ⟨⟨m, removed⟩, w₂, hprune⟩ := (prune_iff hflat₁ hown).mpr h
    obtain ⟨-, hcleared⟩ := returns_prune (fun x hx _ u o w hu hremoved =>
      hflat₁.isName (hown x hx) hu hremoved) hflat₁.reached hflat₁.directory hprune
    have hflat₂ := hflat₁.of_same hcleared.pruned.forth hcleared.pruned.back
    have hstore : w₂.write here (dir.joinText OutputManifest.fileName) (m.text time).toUTF8 =
        .ok (w₂.put (manifestAt (dir.locate here)) (.file (m.text time).toUTF8)) :=
      write_ok_iff.mpr ⟨_, reach_manifest_of_entry hflat₂ hmanifest, hflat₂.flat _, rfl⟩
    exact ⟨_, _, returns_bind.mpr ⟨targets, w₁, hwrite,
      returns_bind.mpr ⟨(m, removed), w₂, hprune,
        returns_bind.mpr ⟨(), _, returns_change.mpr hstore, returns_pure.mpr ⟨rfl, rfl⟩⟩⟩⟩⟩

end Output

/-! ## Sessions -/

namespace Setting

open FileAction FileTree Output

variable {E : Setting} {s s' : Session}

/-- A manifest is no obstacle unless it is nested too deep. -/
theorem previousManifest_answers {dir : Path}
    (hdepth : ∀ fault, readManifest s.files E.surroundings.here dir = .error fault →
      fault = .malformed) :
    ∃ s₂, (E.previousManifest dir).Answers s (recordsIn s.files E.surroundings.here dir) s₂ := by
  unfold previousManifest recordsIn
  cases hread : readManifest s.files E.surroundings.here dir with
  | ok m =>
    exact ⟨s, Course.answers_bind.mpr ⟨_, s, Course.answers_ask.mpr ⟨congrArg _ hread, rfl⟩,
      Course.answers_pure.mpr ⟨rfl, rfl⟩⟩⟩
  | error fault =>
    obtain rfl := hdepth fault hread
    exact ⟨_, Course.answers_bind.mpr ⟨_, s, Course.answers_ask.mpr ⟨congrArg _ hread, rfl⟩,
      Course.answers_bind.mpr ⟨(), _, Course.answers_note.mpr rfl,
        Course.answers_pure.mpr ⟨rfl, rfl⟩⟩⟩⟩

/-- What a publication did in a directory that was there. -/
theorem answers_publish_there {dir : Path} {units : List GeneratedUnit}
    {kinds : Option (List String)} {r : WriteReport}
    (hreach : s.files.reach E.surroundings.here dir = .ok (dir.locate E.surroundings.here))
    (hdirectory : s.files.find? (dir.locate E.surroundings.here) = some .directory)
    (h : (E.publish dir units kinds).Answers s r s') :
    ∃ s₂ v, OnlyLogged s s₂ ∧
      (publishOver E.surroundings.here dir units kinds E.clock.updated
        (recordsIn s.files E.surroundings.here dir)).Returns s₂.files r v ∧
      OnlyLogged { s₂ with files := v } s' := by
  obtain ⟨w, s₂, v, previous, hmade, hlogged, hread, hover, hlast⟩ := answers_publish h
  obtain ⟨-, rfl⟩ := returns_unique (ensureDirectories_there hreach hdirectory) hmade
  rw [recordsIn_of_read hread]
  exact ⟨s₂, v, hlogged, hover, hlast⟩

/-- **What stops a publication** into a directory that holds files only: a record that it gives up
under a name that the system refuses. Nothing else in a manifest does, unless it is nested too deep,
and names that lead out of the directory are not even read. A publication that answers has stored a
manifest of its units and of the records that it keeps. -/
theorem publish_answers_iff (E : Setting) {dir : Path} {units : List GeneratedUnit}
    (kinds : Option (List String)) (hg : s.files.Grounded)
    (hreach : s.files.reach E.surroundings.here dir = .ok (dir.locate E.surroundings.here))
    (hdirectory : s.files.find? (dir.locate E.surroundings.here) = some .directory)
    (hfiles : ∀ name, s.files.find? (dir.locate E.surroundings.here ++ [name]) ≠ some .directory)
    (hmanifest : IsEntryName dir OutputManifest.fileName)
    (hunits : ∀ u ∈ units, IsWritable dir u)
    (hdepth : ∀ fault, readManifest s.files E.surroundings.here dir = .error fault →
      fault = .malformed) :
    let previous := recordsIn s.files E.surroundings.here dir
    ((∃ r s', (E.publish dir units kinds).Answers s r s') ↔
        ∀ x ∈ previous, GivenUp units kinds x → IsEntryName dir x.1.toText) ∧
      (∀ x ∈ previous, OutputManifest.isOwnName x.1 = true) ∧
      ∀ r s', (E.publish dir units kinds).Answers s r s' →
        s.logFile ≠ some (manifestAt (dir.locate E.surroundings.here)) →
        s'.files.fileAt (manifestAt (dir.locate E.surroundings.here)) =
          some ((merged units kinds previous).text E.clock.updated).toUTF8 := by
  intro previous
  have hflat : IsFlat E.surroundings.here dir s.files :=
    ⟨hreach, hdirectory, hg.up hdirectory, hfiles⟩
  have hown : ∀ x ∈ previous, OutputManifest.isOwnName x.1 = true := fun x hx =>
    isOwnName_of_recordsIn hx
  have hthere := ensureDirectories_there hreach hdirectory
  refine ⟨⟨?_, ?_⟩, hown, ?_⟩
  · rintro ⟨r, s', h⟩
    obtain ⟨s₂, v, hlogged, hover, -⟩ := answers_publish_there hreach hdirectory h
    exact (publishes_iff (hflat.of_same hlogged.forth hlogged.back) hunits hmanifest hown).mp
      ⟨r, v, hover⟩
  · intro h
    obtain ⟨s₂, hprevious⟩ := previousManifest_answers hdepth
    obtain ⟨hlogged, -⟩ := answers_previousManifest hprevious
    obtain ⟨r, v, hover⟩ :=
      (publishes_iff (hflat.of_same hlogged.forth hlogged.back) hunits hmanifest hown).mpr h
    unfold publish
    exact ⟨r, _, Course.answers_bind.mpr ⟨(), s, Course.answers_act.mpr ⟨_, hthere, rfl⟩,
      Course.answers_bind.mpr ⟨_, s₂, hprevious,
        Course.answers_bind.mpr ⟨r, _, Course.answers_act.mpr ⟨v, hover, rfl⟩,
          Course.answers_bind.mpr ⟨(), _, Course.answers_note.mpr rfl,
            Course.answers_pure.mpr ⟨rfl, rfl⟩⟩⟩⟩⟩⟩
  · intro r s' h hlog
    obtain ⟨s₂, v, hlogged, hover, hlast⟩ := answers_publish_there hreach hdirectory h
    have hflat₂ := hflat.of_same hlogged.forth hlogged.back
    obtain ⟨-, -, bs, w₁, w₂, -, -, hfree, hput, -⟩ := returns_publishOver_cleared
      (fun u hu => (hunits u hu).name.name) (fun x hx _ u o w hu hremoved =>
        hflat₂.isName (hown x hx) hu hremoved) hflat₂.reached hflat₂.directory hover
    rw [fileAt_of_find? (hlast.others _ (hlogged.log_ne hlog)), hput]
    exact fileAt_eq_some.mpr (find?_put_self (ne_nil_of_not_directory hfree))

end Setting

open FileTree Output

/-- The directory of a session that was recorded holds files only. -/
theorem recorded_flat (name : Json.Symbols) (files : List (String × String)) (r : String) :
    (recordedSession name files).files.find? (["out"] ++ [r]) ≠ some .directory := by
  intro h
  have hmem := mem_entries_of_find? (List.cons_ne_nil _ _) h
  rcases List.mem_cons.mp hmem with heq | hmem
  · exact absurd (List.cons.inj (Prod.mk.inj heq).1).2 (List.cons_ne_nil _ _)
  · rcases List.mem_cons.mp hmem with heq | hmem
    · cases (Prod.mk.inj heq).2
    · obtain ⟨x, -, heq⟩ := List.mem_map.mp hmem
      cases (Prod.mk.inj heq).2

/-- A directory whose manifest lists a dot. -/
def dotSession : Session := recordedSession (.ofString ".") []

theorem readManifest_dot : readManifest dotSession.files [] playerDir =
    .ok [(.ofString ".", ⟨[], .ofString "resolver"⟩)] := by
  have hstored : OutputManifest.IsStored [(.ofString ".", ⟨[], .ofString "resolver"⟩)] :=
    ⟨by decide +kernel, by decide +kernel, by decide +kernel, by decide +kernel⟩
  rw [readManifest_text hstored (read_ok_iff.mpr ⟨["out", OutputManifest.fileName],
    (by decide +kernel : dotSession.files.reach [] (playerDir.joinText _) = _), rfl⟩)]
  decide +kernel

/-- The dot is the directory itself, which cannot be removed as a file, and nothing is published. -/
theorem dot_stops : readManifest dotSession.files [] playerDir =
      .ok [(.ofString ".", ⟨[], .ofString "resolver"⟩)] ∧
    ¬ ∃ r s', (({} : Setting).publish playerDir [playerUnit] none).Answers dotSession r s' := by
  have hgrounded : dotSession.files.Grounded :=
    (IsProper.of_entries (by decide +kernel) (by decide +kernel)).grounded
  have hmanifest : IsEntryName playerDir OutputManifest.fileName :=
    ⟨isListedName_manifest.toIsName, by decide +kernel, by decide +kernel, by decide +kernel,
      by decide +kernel⟩
  have hunits : ∀ u ∈ [playerUnit], IsWritable playerDir u := by
    intro u hu
    rw [List.mem_singleton.mp hu]
    exact ⟨⟨isName_fileName (by decide +kernel), by decide +kernel, by decide +kernel,
      by decide +kernel, by decide +kernel⟩, by decide +kernel⟩
  have hreach : dotSession.files.reach [] playerDir = .ok ["out"] := by decide +kernel
  have hdepth : ∀ fault, readManifest dotSession.files [] playerDir = .error fault →
      fault = .malformed := fun fault hfault => nomatch readManifest_dot.symm.trans hfault
  obtain ⟨hiff, -⟩ := Setting.publish_answers_iff (s := dotSession) {} none hgrounded hreach rfl
    (recorded_flat (.ofString ".") []) hmanifest hunits hdepth
  refine ⟨readManifest_dot, fun hanswers => ?_⟩
  have hrecords : recordsIn dotSession.files [] playerDir =
      [(.ofString ".", ⟨[], .ofString "resolver"⟩)] := recordsIn_of_read (.inl readManifest_dot)
  have hgiven : GivenUp [playerUnit] none (.ofString ".", ⟨[], .ofString "resolver"⟩) :=
    isStale_iff_givenUp.mp (by decide +kernel)
  have hentry := hiff.mp hanswers (.ofString ".", ⟨[], .ofString "resolver"⟩) (by
    rw [hrecords]
    exact List.mem_cons_self) hgiven
  exact hentry.name.ne_dot (Json.Symbols.toText_ofString ".")

end FieldWiring
