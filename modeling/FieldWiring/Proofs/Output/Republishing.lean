import FieldWiring.Proofs.Files.Overlay
import FieldWiring.Proofs.Output.Publishing
import FieldWiring.Proofs.Scanning.OutputNames

/-!
# Publishing the same units again

A publication touches files of units and the manifest, which no scan takes for a source. When the
same units are published once more, every file has its digest already, nothing is stale, and the
manifest comes out as it was but for its time.

Results:
* `overlaid_published`: a publication changes nothing but files with the names of outputs.
* `LeftBehind.owned`: what is taken over from the manifest of runs lists units of the directory.
* `leftBehind_publishOver`: a publication leaves a manifest of runs again.
* `leftOver_again`: what is left over from the manifest of the same units is what it carried over.
* `answers_publish_again`: publishing again writes no unit and removes none.
-/

namespace FieldWiring

namespace Output

open FileAction FileTree

variable {here : Location} {t v : FileTree} {L : Location} {units : List GeneratedUnit}
  {kinds : Option (List String)} {time : String} {previous : OutputManifest} {bs : List Bool}
  {made : List String}

/-! ## What a publication touches -/

theorem overlaid_wroteAll (h : WroteAll L units t bs v)
    (hn : ∀ u ∈ units, IsOutputName (entryName u)) : Overlaid made IsOutputName t v := by
  induction h with
  | nil => exact .refl _
  | @cons u us _ _ _ _ _ head _ ih =>
    refine Overlaid.trans ?_ (ih fun x hx => hn x (List.mem_cons_of_mem u hx))
    cases head with
    | kept => exact .refl _
    | written free => exact overlaid_put (hn u List.mem_cons_self) free

theorem overlaid_pruned {names : List String} (h : Pruned L names t v)
    (hn : ∀ s ∈ names, IsOutputName s) : Overlaid made IsOutputName t v := by
  induction h with
  | nil => exact .refl _
  | @cons s _ _ _ _ _ head _ ih =>
    refine Overlaid.trans ?_ (ih fun r hr => hn r (List.mem_cons_of_mem s hr))
    cases head with
    | nothing => exact .refl _
    | file there => exact overlaid_erase (hn s List.mem_cons_self) (by rw [there]; simp)

/-- A name that runs give: it ends as those of units do, and no file has another name that is the
same on the disk. -/
def IsUnitName (s : String) : Prop := (∃ start, s = start ++ ".g.cs") ∧ Text.holdsHalf s = false

theorem IsUnitName.isOutputName (h : IsUnitName s) : IsOutputName (FileName.onDisk s) := by
  rw [FileName.onDisk_of_plain h.2]
  exact .inl h.1

/-- The names that a manifest lists are those of units, in the directory itself. -/
structure Owned (m : OutputManifest) : Prop where
  written : m.IsWritten
  names : ∀ x ∈ m, ∃ s, x.1 = .ofString s ∧ IsUnitName s
  own : ∀ x ∈ m, OutputManifest.isOwnName x.1 = true

/-- The name of a recorded file. -/
theorem Owned.name (h : Owned previous) {x : Json.Symbols × OutputRecord} (hx : x ∈ previous) :
    x.1 = .ofString (fileOf x) ∧ IsOutputName (fileOf x) ∧ IsName x.1.toText := by
  obtain ⟨s, hs, hunit⟩ := h.names x hx
  have hown := h.own x hx
  rw [fileOf_ofString hs, hs, Json.Symbols.toText_ofString, FileName.onDisk_of_plain hunit.2]
  rw [hs] at hown
  have hslash := (OutputManifest.isOwnName_ofString.mp hown).1
  exact ⟨rfl, .inl hunit.1, isName_of_output (.inl hunit.1) hslash⟩

theorem staleNames_of_owned (h : Owned previous) :
    ∀ s ∈ staleNames units kinds previous, IsOutputName s ∧
      Json.Symbols.ofString s ∉ (recordUnits units).map (·.1) := by
  intro s hs
  obtain ⟨x, hx, rfl⟩ := List.mem_map.mp hs
  obtain ⟨hmem, hfresh⟩ := mem_leftOver.mp (List.mem_filter.mp hx).1
  obtain ⟨hname, hout, -⟩ := h.name hmem
  exact ⟨hout, hname ▸ hfresh⟩

/-- A publication changes nothing but files with the names of outputs. -/
theorem overlaid_published (h : Published L units kinds time previous bs t v)
    (hn : ∀ u ∈ units, IsUnitName u.fileName) (hprevious : Owned previous) :
    Overlaid made IsOutputName t v := by
  obtain ⟨w₁, w₂, hall, hpruned, hfree, rfl⟩ := h
  have hwrote : Overlaid made IsOutputName t w₁ :=
    overlaid_wroteAll hall fun u hu => (hn u hu).isOutputName
  have hstale : Overlaid made IsOutputName w₁ w₂ :=
    overlaid_pruned hpruned fun s hs => (staleNames_of_owned hprevious s hs).1
  exact (hwrote.trans hstale).trans (overlaid_put (.inr rfl) hfree)

/-- Units with names that runs give have files of their own when their names differ. -/
theorem nodup_entryNames (hn : (units.map (·.fileName)).Nodup)
    (hunits : ∀ u ∈ units, IsUnitName u.fileName) : (units.map entryName).Nodup := by
  have hsame : units.map entryName = units.map (·.fileName) :=
    List.map_congr_left fun u hu => FileName.onDisk_of_plain (hunits u hu).2
  rwa [hsame]

/-- The units of a publication have their digests afterwards. -/
theorem Published.unit (h : Published L units kinds time previous bs t v)
    (hn : (units.map (·.fileName)).Nodup) (hunits : ∀ u ∈ units, IsUnitName u.fileName)
    (hprevious : Owned previous) {u : GeneratedUnit} (hu : u ∈ units) :
    ∃ content, v.fileAt (L ++ [entryName u]) = some content ∧
      Sha256.hex content = Sha256.hex u.text.toUTF8 := by
  obtain ⟨w₁, w₂, hall, hpruned, hfree, rfl⟩ := h
  obtain ⟨content, hat, hsame, -⟩ := hall.fileAt (nodup_entryNames hn hunits) u hu
  have hstays : ∀ s ∈ staleNames units kinds previous, entryName u ≠ s := by
    rintro s hs rfl
    have hfresh := (staleNames_of_owned hprevious _ hs).2
    rw [recordUnits_eq hn, entryName, FileName.onDisk_of_plain (hunits u hu).2] at hfresh
    exact hfresh (List.mem_map.mpr ⟨entryOf u, List.mem_map.mpr ⟨u, hu, rfl⟩, rfl⟩)
  exact ⟨content, (hpruned.fileAt_unit hstays).trans hat, hsame⟩

/-! ## Manifests that runs left -/

/-- The manifest of the directory at a location, if there is one, was written by runs: it lists
files with names that runs give. -/
def LeftBehind (t : FileTree) (L : Location) : Prop :=
  ∀ content, t.fileAt (manifestAt L) = some content →
    ∃ (m : OutputManifest) (time : String), content = (m.text time).toUTF8 ∧ m.IsWritten ∧
      ∀ x ∈ m, ∃ s, x.1 = .ofString s ∧ IsUnitName s

/-- A directory without a manifest is as runs leave it. -/
theorem LeftBehind.of_absent {L : Location} (h : t.fileAt (manifestAt L) = none) :
    LeftBehind t L := by
  intro content hat
  cases h.symm.trans hat

/-- What is taken over from a manifest that runs left lists units of the directory itself. -/
theorem LeftBehind.owned {dir : Path} (h : LeftBehind t (dir.locate here))
    (hread : readManifest t here dir = .ok previous ∨
      readManifest t here dir = .error .malformed ∧ previous = []) : Owned previous := by
  have hnil : Owned [] :=
    ⟨isWritten_recordUnits fun _ hu => absurd hu List.not_mem_nil,
      fun _ hx => absurd hx List.not_mem_nil, fun _ hx => absurd hx List.not_mem_nil⟩
  rcases hread with hok | ⟨-, rfl⟩
  · cases hfile : t.read here (dir.joinText OutputManifest.fileName) with
    | error e =>
      unfold readManifest at hok
      rw [hfile] at hok
      simp only at hok
      split at hok
      · rw [← Except.ok.inj hok]
        exact hnil
      · cases hok
    | ok content =>
      obtain ⟨l, hl, hat⟩ := read_ok_iff.mp hfile
      obtain rfl := reach_manifest hl
      obtain ⟨m, time, rfl, hm, hnames⟩ := h content (fileAt_eq_some.mpr hat)
      rw [readManifest_text hm.toIsStored hfile] at hok
      obtain rfl := Except.ok.inj hok
      have hmem : ∀ x ∈ m.reread, x ∈ m ∧ OutputManifest.isOwnName x.1 = true := by
        intro x hx
        obtain ⟨hin, hown⟩ := List.mem_filter.mp hx
        exact ⟨OutputManifest.mem_inOrder.mp hin, hown⟩
      exact ⟨hm.inOrder.filter _, fun x hx => hnames x (hmem x hx).1, fun x hx => (hmem x hx).2⟩
  · exact hnil

theorem mem_carried_iff {x : Json.Symbols × OutputRecord} :
    x ∈ carried units kinds previous ↔
      x ∈ previous ∧ x.1 ∉ (recordUnits units).map (·.1) ∧
        isStale (recordUnits units) kinds x = false := by
  unfold carried
  rw [List.mem_filter, mem_leftOver, Bool.not_eq_true', and_assoc]

/-- A publication leaves a manifest of runs again, whatever else it does. -/
theorem leftBehind_publishOver {dir : Path} {r : WriteReport} (hprevious : Owned previous)
    (hn : (units.map (·.fileName)).Nodup) (hunits : ∀ u ∈ units, IsUnitName u.fileName)
    (hrecord : ∀ u ∈ units, IsRecordable u) (hr : t.reach here dir = .ok (dir.locate here))
    (hd : t.find? (dir.locate here) = some .directory)
    (h : Returns (publishOver here dir units kinds time previous) t r v) :
    LeftBehind v (dir.locate here) := by
  unfold publishOver at h
  obtain ⟨targets, w₁, hwrite, hrest⟩ := returns_bind.mp h
  have hforth := writeUnits_forth hwrite
  obtain ⟨⟨m, removed⟩, w₂, hprune, hlast⟩ := returns_bind.mp hrest
  obtain ⟨hm, -⟩ := returns_prune (fun x hx _ _ _ _ _ _ => (hprevious.name hx).2.2)
    (reach_mono hforth hr) (hforth _ hd) hprune
  obtain rfl : m = merged units kinds previous := hm
  obtain ⟨_, w₃, hchange, hdone⟩ := returns_bind.mp hlast
  obtain ⟨-, rfl⟩ := returns_pure.mp hdone
  obtain ⟨l, hl, hfree, rfl⟩ := write_ok_iff.mp (returns_change.mp hchange)
  obtain rfl := reach_manifest hl
  intro content hat
  have htext := fileAt_eq_some.mpr (find?_put_self (t := w₂)
    (e := .file ((merged units kinds previous).text time).toUTF8) (ne_nil_of_not_directory hfree))
  have hat := htext.symm.trans hat
  refine ⟨merged units kinds previous, time, (Option.some.inj hat).symm,
    isWritten_merged hrecord hprevious.written, ?_⟩
  intro x hx
  rw [merged_eq hn hprevious.written] at hx
  rcases List.mem_append.mp hx with hx | hx
  · obtain ⟨u, hu, rfl⟩ := List.mem_map.mp hx
    exact ⟨u.fileName, rfl, hunits u hu⟩
  · exact hprevious.names x (mem_carried_iff.mp hx).1

/-! ## The manifest, read back -/

theorem sorted_carried (units : List GeneratedUnit) (kinds : Option (List String))
    (previous : OutputManifest) : (carried units kinds previous).Pairwise fun a b =>
      Json.Symbols.precedes a.1 b.1 = true :=
  (OutputManifest.sorted_inOrder _).filter _

/-- **What is left over from the manifest of the same units is what it carried over.** -/
theorem leftOver_again (hn : (units.map (·.fileName)).Nodup) (hprevious : Owned previous) :
    leftOver (merged units kinds previous).reread (recordUnits units) =
      carried units kinds previous := by
  have hwritten := isWritten_carried hprevious.written units kinds
  refine hwritten.toIsStored.inOrder_eq ?_ (sorted_carried units kinds previous)
  have hperm : (merged units kinds previous).inOrder.Perm
      (units.map entryOf ++ carried units kinds previous) := by
    rw [← merged_eq hn hprevious.written]
    exact perm_sortBy _ _
  have hfilter := (hperm.filter fun x => OutputManifest.isOwnName x.1).filter
    fun x => ((recordUnits units).find? x.1).isNone
  refine List.Perm.trans (List.Perm.of_eq ?_) hfilter.symm
  -- the units are recorded anew, and of the rest nothing is
  have hunits : ∀ x ∈ units.map entryOf, ¬ ((recordUnits units).find? x.1).isNone = true := by
    intro x hx
    rw [OutputManifest.find?_isNone_iff, not_not, recordUnits_eq hn]
    exact List.mem_map.mpr ⟨x, hx, rfl⟩
  have hown : (carried units kinds previous).filter (fun x => OutputManifest.isOwnName x.1) =
      carried units kinds previous :=
    List.filter_eq_self.mpr fun x hx => hprevious.own x (mem_carried_iff.mp hx).1
  have hfresh : (carried units kinds previous).filter
      (fun x => ((recordUnits units).find? x.1).isNone) = carried units kinds previous :=
    List.filter_eq_self.mpr fun x hx =>
      OutputManifest.find?_isNone_iff.mpr (mem_carried_iff.mp hx).2.1
  rw [List.filter_append, List.filter_append, hown, hfresh, eq_comm]
  refine (congrArg (· ++ _) (List.filter_eq_nil_iff.mpr fun x hx => ?_)).trans (List.nil_append _)
  exact hunits x (List.mem_filter.mp hx).1

/-! ## Publishing again -/

/-- The units and the manifest of a publication are there, and nothing else of it is left to do. -/
structure Standing (here : Location) (dir : Path) (units : List GeneratedUnit)
    (kinds : Option (List String)) (time : String) (previous : OutputManifest) (t : FileTree) :
    Prop where
  distinct : (units.map (·.fileName)).Nodup
  recordable : ∀ u ∈ units, IsRecordable u
  owned : Owned previous
  reached : t.reach here dir = .ok (dir.locate here)
  directory : t.find? (dir.locate here) = some .directory
  kept : ∀ u ∈ units, Text.holdsHalf u.text = false ∧ ∃ l content,
    t.reach here (target dir u) = .ok l ∧ t.fileAt l = some content ∧
    Sha256.hex content = Sha256.hex u.text.toUTF8
  manifestReached : t.reach here (dir.joinText OutputManifest.fileName) =
    .ok (manifestAt (dir.locate here))
  manifest : t.fileAt (manifestAt (dir.locate here)) =
    some ((merged units kinds previous).text time).toUTF8

namespace Standing

variable {dir : Path}

theorem readManifest (h : Standing here dir units kinds time previous t) :
    Output.readManifest t here dir = .ok (merged units kinds previous).reread :=
  readManifest_text (isWritten_merged h.recordable h.owned.written).toIsStored
    (read_ok_iff.mpr ⟨_, h.manifestReached, fileAt_eq_some.mp h.manifest⟩)

/-- **Publishing again writes no unit and removes none.** The manifest is that of before, with
another time. -/
theorem returns_publishOver_again (h : Standing here dir units kinds time previous t)
    (time' : String) :
    Returns (publishOver here dir units kinds time' (merged units kinds previous).reread) t
      ⟨[], units.map (target dir), []⟩
      (t.put (manifestAt (dir.locate here))
        (.file ((merged units kinds previous).text time').toUTF8)) := by
  have hleft : leftOver (merged units kinds previous).reread (recordUnits units) =
    carried units kinds previous := leftOver_again h.distinct h.owned
  have hprune : Returns (prune here dir kinds (merged units kinds previous).reread
      (recordUnits units)) t (merged units kinds previous, []) t := by
    have hfresh : ∀ x ∈ leftOver (merged units kinds previous).reread (recordUnits units),
        isStale (recordUnits units) kinds x = false := by
      rw [hleft]
      exact fun x hx => (mem_carried_iff.mp hx).2.2
    refine Eq.trans (prune_nothing hfresh t) ?_
    rw [hleft]
    rfl
  have hwrite : t.write here (dir.joinText OutputManifest.fileName)
      ((merged units kinds previous).text time').toUTF8 = .ok (t.put (manifestAt (dir.locate here))
        (.file ((merged units kinds previous).text time').toUTF8)) := by
    refine write_ok_iff.mpr ⟨_, h.manifestReached, ?_, rfl⟩
    rw [fileAt_eq_some.mp h.manifest]
    exact fun heq => nomatch heq
  unfold publishOver
  refine returns_bind.mpr ⟨_, t, writeUnits_kept h.kept, ?_⟩
  refine returns_bind.mpr ⟨_, t, hprune, ?_⟩
  refine returns_bind.mpr ⟨(), _, returns_change.mpr hwrite, ?_⟩
  refine returns_pure.mpr ⟨?_, rfl⟩
  have hwritten : (units.map fun u => (target dir u, false)).filter (·.2) = [] :=
    List.filter_eq_nil_iff.mpr fun x hx => by
      obtain ⟨u, -, rfl⟩ := List.mem_map.mp hx
      exact Bool.false_ne_true
  have hunchanged : (units.map fun u => (target dir u, false)).filter (fun x => !x.2) =
      units.map fun u => (target dir u, false) :=
    List.filter_eq_self.mpr fun x hx => by
      obtain ⟨u, -, rfl⟩ := List.mem_map.mp hx
      rfl
  simp only [hwritten, hunchanged, List.map_map]
  rfl

end Standing

end Output

namespace Setting

open FileTree Output

/-- The course of a publication, which finds all as it was left. -/
theorem answers_publish_again {E : Setting} {s : Session} {t : FileTree} {dir : Path}
    {units : List GeneratedUnit} {kinds : Option (List String)} {time : String}
    {previous : OutputManifest} (hs : Quiet t s)
    (h : Standing E.surroundings.here dir units kinds time previous t) :
    ∃ s', (E.publish dir units kinds).Answers s ⟨[], units.map (target dir), []⟩ s' ∧
      Quiet (t.put (manifestAt (dir.locate E.surroundings.here))
        (.file ((merged units kinds previous).text E.clock.updated).toUTF8)) s' := by
  obtain ⟨rfl, hlog⟩ := hs
  exact answers_publish_of (FileAction.ensureDirectories_there h.reached h.directory) h.readManifest
    (h.returns_publishOver_again E.clock.updated) hlog

end Setting

end FieldWiring
