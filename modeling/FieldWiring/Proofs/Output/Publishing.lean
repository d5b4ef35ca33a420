import FieldWiring.Project
import FieldWiring.Proofs.Output.Manifest
import FieldWiring.Proofs.Output.Pruning
import FieldWiring.Proofs.Output.Writing
import FieldWiring.Proofs.Sessions.Notes

/-!
# What a publication does

A publication makes its directory, reads the manifest there, writes the units, removes what is stale
and writes the manifest anew. `merged` is that manifest, and `Published` tells all changes to files.

Results:
* `merged_eq_append`, `merged_eq`: the new manifest lists the units first, then what earlier runs
  left.
* `returns_publishOver`, `answers_publish`: what a publication did, as far as it succeeded.
* `answers_publish_of`: a publication succeeds when its parts do.
* `kept_of_publishOver`: one that wrote nothing found the file of every unit.
-/

namespace FieldWiring

namespace Output

open FileAction FileTree

variable {here : Location} {t v : FileTree}

/-! ## The new manifest -/

/-- The manifest of a run: its own units, and the files of earlier runs that it leaves. -/
def merged (units : List GeneratedUnit) (kinds : Option (List String)) (previous : OutputManifest) :
    OutputManifest :=
  ((leftOver previous (recordUnits units)).filter fun x =>
    !isStale (recordUnits units) kinds x).foldl (fun m x => m.record x.1 x.2) (recordUnits units)

/-- The records of earlier runs that a run keeps. -/
def carried (units : List GeneratedUnit) (kinds : Option (List String))
    (previous : OutputManifest) :
    OutputManifest :=
  (leftOver previous (recordUnits units)).filter fun x => !isStale (recordUnits units) kinds x

/-- The names of the files that a run removes. -/
def staleNames (units : List GeneratedUnit) (kinds : Option (List String))
    (previous : OutputManifest) : List String :=
  ((leftOver previous (recordUnits units)).filter (isStale (recordUnits units) kinds)).map fileOf

theorem mem_leftOver {previous current : OutputManifest} {x : Json.Symbols × OutputRecord} :
    x ∈ leftOver previous current ↔ x ∈ previous ∧ x.1 ∉ current.map (·.1) := by
  unfold leftOver
  rw [OutputManifest.mem_inOrder, List.mem_filter, OutputManifest.find?_isNone_iff]

theorem isWritten_carried {previous : OutputManifest} (h : previous.IsWritten)
    (units : List GeneratedUnit) (kinds : Option (List String)) :
    OutputManifest.IsWritten (carried units kinds previous) :=
  ((h.filter _).inOrder).filter _

theorem nodup_merged (units : List GeneratedUnit) (kinds : Option (List String))
    {previous : OutputManifest} (h : previous.IsWritten) :
    ((recordUnits units ++ carried units kinds previous).map (·.1)).Nodup := by
  rw [List.map_append, List.nodup_append]
  refine ⟨nodup_recordUnits units, (isWritten_carried h units kinds).distinct, ?_⟩
  intro a ha b hb hab
  obtain ⟨x, hx, rfl⟩ := List.mem_map.mp hb
  exact (mem_leftOver.mp (List.mem_filter.mp hx).1).2 (hab ▸ ha)

/-- **The new manifest lists the units first**, then what earlier runs left. -/
theorem merged_eq_append (units : List GeneratedUnit) (kinds : Option (List String))
    {previous : OutputManifest} (h : previous.IsWritten) :
    merged units kinds previous = recordUnits units ++ carried units kinds previous :=
  OutputManifest.foldl_record _ _ (nodup_merged units kinds h)

theorem merged_eq {units : List GeneratedUnit} {kinds : Option (List String)}
    {previous : OutputManifest} (hn : (units.map (·.fileName)).Nodup) (h : previous.IsWritten) :
    merged units kinds previous = units.map entryOf ++ carried units kinds previous := by
  rw [merged_eq_append units kinds h, recordUnits_eq hn]

theorem isWritten_merged {units : List GeneratedUnit} {kinds : Option (List String)}
    {previous : OutputManifest} (hrecord : ∀ u ∈ units, IsRecordable u) (h : previous.IsWritten) :
    (merged units kinds previous).IsWritten := by
  have hunits := isWritten_recordUnits hrecord
  have hleft := isWritten_carried h units kinds
  rw [merged_eq_append units kinds h]
  have hmem : ∀ x ∈ recordUnits units ++ carried units kinds previous,
      x ∈ recordUnits units ∨ x ∈ carried units kinds previous := fun x => List.mem_append.mp
  exact ⟨⟨nodup_merged units kinds h, fun x hx => (hmem x hx).elim (hunits.names x) (hleft.names x),
    fun x hx => (hmem x hx).elim (hunits.digests x) (hleft.digests x),
    fun x hx => (hmem x hx).elim (hunits.kinds x) (hleft.kinds x)⟩,
    fun x hx => (hmem x hx).elim (hunits.texts x) (hleft.texts x)⟩

/-- What the new manifest says about a name that no unit has. -/
theorem find?_merged_of_unused {units : List GeneratedUnit} {kinds : Option (List String)}
    {previous : OutputManifest} {name : String} (h : previous.IsWritten)
    (hunused : lastNamed units name = none) :
    (merged units kinds previous).find? (.ofString name) =
      (previous.find? (.ofString name)).filter fun r =>
        !isStale (recordUnits units) kinds (.ofString name, r) := by
  have hnone : (recordUnits units).find? (.ofString name) = none := by
    rw [find?_recordUnits, hunused]
    rfl
  have hfree : Json.Symbols.ofString name ∉ (recordUnits units).map (·.1) := by
    rw [← OutputManifest.find?_isNone_iff, hnone]
    rfl
  rw [merged_eq_append units kinds h, OutputManifest.find?_append, hnone, Option.none_or]
  refine Option.ext fun r => ?_
  rw [OutputManifest.find?_eq_some_iff (isWritten_carried h units kinds).distinct,
    Option.filter_eq_some_iff, OutputManifest.find?_eq_some_iff h.distinct]
  unfold carried
  rw [List.mem_filter, mem_leftOver]
  constructor
  · exact fun hmem => ⟨hmem.1.1, hmem.2⟩
  · exact fun hmem => ⟨⟨hmem.1, hfree⟩, hmem.2⟩

/-- What the new manifest says about the name of a unit. -/
theorem find?_merged_of_used {units : List GeneratedUnit} {kinds : Option (List String)}
    {previous : OutputManifest} {name : String} {u : GeneratedUnit} (h : previous.IsWritten)
    (hused : lastNamed units name = some u) :
    (merged units kinds previous).find? (.ofString name) = some (recordOf u) := by
  rw [merged_eq_append units kinds h, OutputManifest.find?_append, find?_recordUnits, hused]
  rfl

/-! ## All changes -/

theorem isListedName_manifest : IsListedName OutputManifest.fileName := by decide +kernel

/-- The location of the manifest of a directory. -/
def manifestAt (L : Location) : Location := L ++ [OutputManifest.fileName]

theorem unit_ne_manifest (L : Location) (u : GeneratedUnit) : L ++ [entryName u] ≠ manifestAt L :=
  append_name_ne (entryName_ne_manifest u)

/-- The file of a unit stays while others are removed and the manifest is written. -/
theorem Pruned.fileAt_unit {L : Location} {names : List String} {w : FileTree} {e : Entry}
    {u : GeneratedUnit} (h : Pruned L names w v) (hu : ∀ s ∈ names, entryName u ≠ s) :
    (v.put (manifestAt L) e).fileAt (L ++ [entryName u]) = w.fileAt (L ++ [entryName u]) := by
  rw [fileAt_of_find? (find?_put_of_ne (unit_ne_manifest L u)),
    fileAt_of_find? (h.others fun s hs => append_name_ne (hu s hs))]

theorem locate_manifest (here : Location) (dir : Path) :
    (dir.joinText OutputManifest.fileName).locate here = manifestAt (dir.locate here) := by
  rw [locate_name here dir isListedName_manifest.toIsName, isListedName_manifest.listed, manifestAt]

theorem reach_manifest {dir : Path} {l : Location}
    (h : t.reach here (dir.joinText OutputManifest.fileName) = .ok l) :
    l = manifestAt (dir.locate here) :=
  (reach_locate h).trans (locate_manifest here dir)

theorem fileOf_entryOf (u : GeneratedUnit) : fileOf (entryOf u) = entryName u :=
  fileOf_ofString rfl

/-- A unit whose file can be reached has a name that is read back. -/
theorem isSettled_of_reach {dir : Path} {u : GeneratedUnit} {l : Location} (hu : IsName u.fileName)
    (h : t.reach here (target dir u) = .ok l) : (Json.Symbols.ofString u.fileName).IsSettled := by
  have hencoded := (reach_ok_iff.mp h).1
  rw [target, joinText_name dir hu] at hencoded
  exact isSettled_of_encodable (Bool.eq_false_iff.mpr fun hname => by
    have hnone :=
      List.any_eq_false.mp hencoded u.fileName (List.mem_append_right _ List.mem_cons_self)
    exact hnone hname)

/-- What publishing does to the directory at `L`: the units are written, then the files of earlier
runs that are stale are removed, and then the manifest is written. -/
def Published (L : Location) (units : List GeneratedUnit) (kinds : Option (List String))
    (time : String) (previous : OutputManifest) (bs : List Bool) (t v : FileTree) : Prop :=
  ∃ w₁ w₂, WroteAll L units t bs w₁ ∧ Pruned L (staleNames units kinds previous) w₁ w₂ ∧
    w₂.find? (manifestAt L) ≠ some .directory ∧
    v = w₂.put (manifestAt L) (.file ((merged units kinds previous).text time).toUTF8)

theorem Published.hasDirectories {L : Location} {units : List GeneratedUnit}
    {kinds : Option (List String)} {time : String} {previous : OutputManifest} {bs : List Bool}
    {t v : FileTree} (h : Published L units kinds time previous bs t v) : HasDirectories t v := by
  obtain ⟨w₁, w₂, hall, hpruned, hfree, rfl⟩ := h
  exact (hall.hasDirectories.trans hpruned.forth).trans (hasDirectories_put hfree)

theorem Published.manifest {L : Location} {units : List GeneratedUnit}
    {kinds : Option (List String)} {time : String} {previous : OutputManifest} {bs : List Bool}
    {t v : FileTree} (h : Published L units kinds time previous bs t v) :
    v.fileAt (manifestAt L) = some ((merged units kinds previous).text time).toUTF8 := by
  obtain ⟨w₁, w₂, -, -, hfree, rfl⟩ := h
  exact fileAt_eq_some.mpr (find?_put_self (ne_nil_of_not_directory hfree))

/-- The records of earlier runs whose files a run clears, in the order of their names. -/
def staleRecords (units : List GeneratedUnit) (kinds : Option (List String))
    (previous : OutputManifest) : OutputManifest :=
  (leftOver previous (recordUnits units)).filter (isStale (recordUnits units) kinds)

theorem mem_staleRecords {units : List GeneratedUnit} {kinds : Option (List String)}
    {previous : OutputManifest} {x : Json.Symbols × OutputRecord} :
    x ∈ staleRecords units kinds previous ↔
      x ∈ previous ∧ isStale (recordUnits units) kinds x = true := by
  unfold staleRecords leftOver
  rw [List.mem_filter, OutputManifest.mem_inOrder, List.mem_filter]
  constructor
  · exact fun h => ⟨h.1.1, h.2⟩
  · exact fun h => ⟨⟨h.1, (Bool.and_eq_true _ _ ▸ h.2 : _ ∧ _).1⟩, h.2⟩

/-- What publishing did, as far as it succeeded, and what it told of what it removed. The directory
had been made before. -/
theorem returns_publishOver_cleared {dir : Path} {units : List GeneratedUnit}
    {kinds : Option (List String)} {time : String} {previous : OutputManifest} {r : WriteReport}
    (hunits : ∀ u ∈ units, IsName u.fileName)
    (hnames : ∀ x ∈ previous, isStale (recordUnits units) kinds x = true →
      ∀ u o w, HasDirectories t u → Returns (removeNamed here dir x.1) u o w → IsName x.1.toText)
    (hr : t.reach here dir = .ok (dir.locate here))
    (hd : t.find? (dir.locate here) = some .directory)
    (h : Returns (publishOver here dir units kinds time previous) t r v) :
    t.reach here (dir.joinText OutputManifest.fileName) = .ok (manifestAt (dir.locate here)) ∧
    (∀ u ∈ units, Text.holdsHalf u.text = false ∧
      t.reach here (target dir u) = .ok (dir.locate here ++ [entryName u])) ∧
    ∃ bs w₁ w₂, WroteAll (dir.locate here) units t bs w₁ ∧
      Cleared (dir.locate here) dir (staleRecords units kinds previous) r.removed w₁ w₂ ∧
      w₂.find? (manifestAt (dir.locate here)) ≠ some .directory ∧
      v = w₂.put (manifestAt (dir.locate here))
        (.file ((merged units kinds previous).text time).toUTF8) ∧
      r.written = (((units.map (target dir)).zip bs).filter (·.2)).map (·.1) ∧
      r.unchanged = (((units.map (target dir)).zip bs).filter fun x => !x.2).map (·.1) := by
  unfold publishOver at h
  obtain ⟨targets, w₁, hwrite, hrest⟩ := returns_bind.mp h
  obtain ⟨hreach, bs, rfl, hall⟩ := returns_writeUnits hunits hwrite
  have hforth := hall.hasDirectories
  obtain ⟨⟨m, removed⟩, w₂, hprune, hlast⟩ := returns_bind.mp hrest
  obtain ⟨rfl, hcleared⟩ := returns_prune
    (fun x hx hs u o w hu => hnames x hx hs u o w (hforth.trans hu))
    (reach_mono hforth hr) (hforth _ hd) hprune
  obtain ⟨_, w₃, hchange, hdone⟩ := returns_bind.mp hlast
  obtain ⟨rfl, rfl⟩ := returns_pure.mp hdone
  obtain ⟨l, hl, hfree, rfl⟩ := write_ok_iff.mp (returns_change.mp hchange)
  obtain rfl := reach_manifest hl
  have hback := hcleared.pruned.back.trans hall.hasDirectories_back
  exact ⟨reach_mono hback hl, hreach, bs, w₁, w₂, hall, hcleared, hfree, rfl, rfl, rfl⟩

/-- What publishing did, as far as it succeeded, when the names that it gives up are names of
entries. -/
theorem returns_publishOver {dir : Path} {units : List GeneratedUnit} {kinds : Option (List String)}
    {time : String} {previous : OutputManifest} {r : WriteReport}
    (hunits : ∀ u ∈ units, IsName u.fileName)
    (hnames : ∀ x ∈ previous, isStale (recordUnits units) kinds x = true → IsName x.1.toText)
    (hr : t.reach here dir = .ok (dir.locate here))
    (hd : t.find? (dir.locate here) = some .directory)
    (h : Returns (publishOver here dir units kinds time previous) t r v) :
    t.reach here (dir.joinText OutputManifest.fileName) = .ok (manifestAt (dir.locate here)) ∧
    (∀ u ∈ units, Text.holdsHalf u.text = false ∧
      t.reach here (target dir u) = .ok (dir.locate here ++ [entryName u])) ∧
    ∃ bs, Published (dir.locate here) units kinds time previous bs t v ∧
      r.written = (((units.map (target dir)).zip bs).filter (·.2)).map (·.1) ∧
      r.unchanged = (((units.map (target dir)).zip bs).filter fun x => !x.2).map (·.1) := by
  obtain ⟨hmanifest, hreach, bs, w₁, w₂, hall, hcleared, hfree, hput, hwritten, hunchanged⟩ :=
    returns_publishOver_cleared hunits (fun x hx hs _ _ _ _ _ => hnames x hx hs) hr hd h
  exact ⟨hmanifest, hreach, bs, ⟨w₁, w₂, hall, hcleared.pruned, hfree, hput⟩, hwritten, hunchanged⟩

/-- **A publication that wrote nothing found the file of every unit** with its digest. -/
theorem kept_of_publishOver {dir : Path} {units : List GeneratedUnit}
    {kinds : Option (List String)} {time : String} {previous : OutputManifest} {r : WriteReport}
    (h : Returns (publishOver here dir units kinds time previous) t r v) (hr : r.written = []) :
    ∀ u ∈ units, ∃ l content, t.reach here (target dir u) = .ok l ∧ t.fileAt l = some content ∧
      Sha256.hex content = Sha256.hex u.text.toUTF8 := by
  unfold publishOver at h
  obtain ⟨targets, w₁, hwrite, hrest⟩ := returns_bind.mp h
  obtain ⟨⟨m, removed⟩, w₂, -, hlast⟩ := returns_bind.mp hrest
  obtain ⟨_, w₃, -, hdone⟩ := returns_bind.mp hlast
  obtain ⟨rfl, -⟩ := returns_pure.mp hdone
  refine kept_of_unwritten hwrite fun x hx => ?_
  have hfilter := List.filter_eq_nil_iff.mp (List.map_eq_nil_iff.mp hr) x hx
  exact Bool.eq_false_iff.mpr hfilter

end Output

/-! ## Sessions -/

namespace Setting

open FileTree

variable {E : Setting} {s s' : Session}

/-- The manifest of an earlier run, as far as it could be read. -/
theorem answers_previousManifest {dir : Path} {m : OutputManifest}
    (h : (E.previousManifest dir).Answers s m s') :
    OnlyLogged s s' ∧
      (Output.readManifest s.files E.surroundings.here dir = .ok m ∨
        Output.readManifest s.files E.surroundings.here dir = .error .malformed ∧ m = []) := by
  unfold previousManifest at h
  obtain ⟨result, t, hask, hrest⟩ := Course.answers_bind.mp h
  obtain ⟨hresult, rfl⟩ := Course.answers_ask.mp hask
  rw [Except.ok.inj hresult]
  rcases result with (_ | _ | _) | m'
  · obtain ⟨_, t', hnote, hdone⟩ := Course.answers_bind.mp hrest
    obtain rfl := Course.answers_note.mp hnote
    obtain ⟨rfl, rfl⟩ := Course.answers_pure.mp hdone
    exact ⟨onlyLogged_note _ _ _, .inr ⟨rfl, rfl⟩⟩
  · cases hrest
  · cases hrest
  · obtain ⟨rfl, rfl⟩ := Course.answers_pure.mp hrest
    exact ⟨.refl _, .inl rfl⟩

/-- **What a publication did to the files.** First the directory was made, then the manifest was
read, and then the units were published over what it lists. Notes were made in between. -/
theorem answers_publish {dir : Path} {units : List GeneratedUnit} {kinds : Option (List String)}
    {r : WriteReport} (h : (E.publish dir units kinds).Answers s r s') :
    ∃ w s₂ v previous,
      (FileAction.ensureDirectories E.surroundings.here dir).Returns s.files () w ∧
      OnlyLogged { s with files := w } s₂ ∧
      (Output.readManifest w E.surroundings.here dir = .ok previous ∨
        Output.readManifest w E.surroundings.here dir = .error .malformed ∧ previous = []) ∧
      (Output.publishOver E.surroundings.here dir units kinds E.clock.updated previous).Returns
        s₂.files r v ∧
      OnlyLogged { s₂ with files := v } s' := by
  unfold publish at h
  obtain ⟨_, s₁, hmake, hrest⟩ := Course.answers_bind.mp h
  obtain ⟨w, hmade, rfl⟩ := Course.answers_act.mp hmake
  obtain ⟨previous, s₂, hprevious, hwork⟩ := Course.answers_bind.mp hrest
  obtain ⟨hlogged, hread⟩ := answers_previousManifest hprevious
  obtain ⟨r', s₃, hact, hlast⟩ := Course.answers_bind.mp hwork
  obtain ⟨v, hpublish, rfl⟩ := Course.answers_act.mp hact
  obtain ⟨_, s₄, hnote, hdone⟩ := Course.answers_bind.mp hlast
  obtain rfl := Course.answers_note.mp hnote
  obtain ⟨rfl, rfl⟩ := Course.answers_pure.mp hdone
  exact ⟨w, s₂, v, previous, hmade, hlogged, hread, hpublish, onlyLogged_note _ _ _⟩

/-- A publication succeeds when its parts do. Without a log file nothing else changes. -/
theorem answers_publish_of {dir : Path} {units : List GeneratedUnit} {kinds : Option (List String)}
    {r : WriteReport} {w v : FileTree} {previous : OutputManifest}
    (hmade : (FileAction.ensureDirectories E.surroundings.here dir).Returns s.files () w)
    (hread : Output.readManifest w E.surroundings.here dir = .ok previous)
    (hover : (Output.publishOver E.surroundings.here dir units kinds E.clock.updated
      previous).Returns w r v) (hs : s.logFile = none) :
    ∃ s', (E.publish dir units kinds).Answers s r s' ∧ Quiet v s' := by
  have hprevious : (E.previousManifest dir).Answers { s with files := w } previous
      { s with files := w } := by
    unfold previousManifest
    refine Course.answers_bind.mpr ⟨_, _, Course.answers_ask.mpr ⟨congrArg _ hread, rfl⟩, ?_⟩
    exact Course.answers_pure.mpr ⟨rfl, rfl⟩
  unfold publish
  refine ⟨_, Course.answers_bind.mpr ⟨(), _, Course.answers_act.mpr ⟨w, hmade, rfl⟩,
    Course.answers_bind.mpr ⟨_, _, hprevious,
      Course.answers_bind.mpr ⟨_, _, Course.answers_act.mpr ⟨v, hover, rfl⟩,
        Course.answers_bind.mpr ⟨(), _, Course.answers_note.mpr rfl,
          Course.answers_pure.mpr ⟨rfl, rfl⟩⟩⟩⟩⟩, ?_⟩
  exact quiet_note _ _ ⟨rfl, hs⟩

end Setting

end FieldWiring
