import FieldWiring.Proofs.Output.Ownership

/-!
# Files that get lost

A publication writes its manifest last. One that fails before that leaves the files it has written,
but no record of them, and the files it has removed stay recorded. `recorded` tells from the calls
alone what the manifest lists then, and `Lost` tells which files of the directory it does not: those
that a failing call made, as long as no call that succeeds makes them again.

Results:
* `step_succeeded`, `step_failed`: what one call does to the manifest, and to files it lists or not.
* `tracks_attempts`: what the manifest lists after any calls.
* `unrecorded_iff_lost`: which files it does not list.
* `losses_of_attempts`: both, and what becomes of these files.
-/

namespace FieldWiring

open FileTree Output

/-! ## Attempts -/

/-- A call of a publication, whether it succeeded, and the files before and after it. -/
structure Attempt where
  call : Publication
  succeeded : Bool
  before : FileTree
  after : FileTree

/-- Publications into one directory, each of which succeeded or failed. In between anything may
happen, as long as the files of the directory stay as they are. The attempts come latest first. -/
inductive Attempts (E : Setting) (dir : Path) (start : FileTree) :
    List Attempt → FileTree → Prop where
  | start : Attempts E dir start [] start
  | succeeded {past : List Attempt} {t : FileTree} {s s' : Session} {c : Publication}
      {r : WriteReport} (earlier : Attempts E dir start past t)
      (undisturbed : Undisturbed (dir.locate E.surroundings.here) t s.files)
      (log : LogsOutside (dir.locate E.surroundings.here) s)
      (done : ({ E with clock := c.clock }.publish dir c.units c.kinds).Answers s r s') :
      Attempts E dir start (⟨c, true, s.files, s'.files⟩ :: past) s'.files
  | failed {past : List Attempt} {t : FileTree} {s s' : Session} {c : Publication}
      (earlier : Attempts E dir start past t)
      (undisturbed : Undisturbed (dir.locate E.surroundings.here) t s.files)
      (log : LogsOutside (dir.locate E.surroundings.here) s)
      (undone : ∀ r s', ¬ ({ E with clock := c.clock }.publish dir c.units c.kinds).Answers s r s')
      (left : ({ E with clock := c.clock }.publish dir c.units c.kinds).leaves s = s') :
      Attempts E dir start (⟨c, false, s.files, s'.files⟩ :: past) s'.files

/-- The unit that is recorded under a name: that of the last successful call with such a unit,
unless one after it gave it up. -/
def recorded : List Attempt → String → Option GeneratedUnit
  | [], _ => none
  | a :: past, name =>
    if a.succeeded then
      (lastNamed a.call.units name).or ((recorded past name).filter fun u => !a.call.covers u.kind)
    else recorded past name

/-- What is recorded is a unit of that name of some call. -/
theorem recorded_eq_some : ∀ {past : List Attempt} {name : String} {u : GeneratedUnit},
    recorded past name = some u → u.fileName = name ∧ ∃ a ∈ past, u ∈ a.call.units
  | [], _, _, h => nomatch h
  | a :: past, name, u, h => by
    have htail : recorded past name = some u → u.fileName = name ∧
        ∃ b ∈ a :: past, u ∈ b.call.units := by
      intro h
      obtain ⟨hname, b, hb, hu⟩ := recorded_eq_some h
      exact ⟨hname, b, List.mem_cons_of_mem a hb, hu⟩
    rw [recorded] at h
    split at h
    · cases hused : lastNamed a.call.units name with
      | some v =>
        rw [hused] at h
        cases h
        obtain ⟨hname, hu⟩ := lastNamed_eq_some hused
        exact ⟨hname, a, List.mem_cons_self, hu⟩
      | none =>
        rw [hused, Option.none_or] at h
        exact htail (Option.filter_eq_some_iff.mp h).1
    · exact htail h

/-- The file was lost: a call that failed made it and nothing is recorded of it, and since then no
call that succeeded made it. -/
inductive Lost (L : Location) (name : String) : List Attempt → Prop where
  | made {a : Attempt} {past : List Attempt} (failed : a.succeeded = false)
      (unrecorded : recorded past name = none) (absent : a.before.fileAt (L ++ [name]) = none)
      (present : a.after.fileAt (L ++ [name]) ≠ none) : Lost L name (a :: past)
  | since {a : Attempt} {past : List Attempt} (before : Lost L name past)
      (unmade : a.succeeded = true → lastNamed a.call.units name = none) : Lost L name (a :: past)

/-- Nothing is recorded of a file that was lost. -/
theorem Lost.unrecorded {L : Location} {name : String} {past : List Attempt}
    (h : Lost L name past) : recorded past name = none := by
  induction h with
  | made failed unrecorded => rw [recorded, if_neg (by simp [failed]), unrecorded]
  | since _ unmade ih =>
    rw [recorded, ih]
    split
    · rename_i hsucceeded
      rw [unmade hsucceeded]
      rfl
    · rfl

/-! ## What the manifest lists -/

namespace Output

/-- What the manifest of the directory at a location lists; nothing, when there is none. -/
def recordsAt (t : FileTree) (L : Location) : OutputManifest :=
  match (t.fileAt (manifestAt L)).bind Utf8.readText? with
  | some text => ((OutputManifest.ofText text).toOption).getD []
  | none => []

theorem recordsAt_congr {t u : FileTree} {L : Location}
    (h : u.fileAt (manifestAt L) = t.fileAt (manifestAt L)) : recordsAt u L = recordsAt t L := by
  unfold recordsAt
  rw [h]

theorem recordsAt_of_absent {t : FileTree} {L : Location} (h : t.fileAt (manifestAt L) = none) :
    recordsAt t L = [] := by
  unfold recordsAt
  rw [h]
  rfl

/-- What the file that holds a written manifest lists. -/
theorem recordsAt_text {t : FileTree} {L : Location} {m : OutputManifest} {time : String}
    (hm : m.IsStored) (h : t.fileAt (manifestAt L) = some (m.text time).toUTF8) :
    recordsAt t L = m.reread := by
  unfold recordsAt
  rw [h]
  simp only [Option.bind_some, Utf8.readText?, Utf8.decode?_toUTF8, Option.map_some,
    OutputManifest.unixLines_text hm time, OutputManifest.ofText_text hm time]
  rfl

/-- A publication takes over what the manifest lists, unless that is out of reach. -/
theorem recordsIn_eq (t : FileTree) (here : Location) (dir : Path) :
    recordsIn t here dir = recordsAt t (dir.locate here) ∨ (recordsIn t here dir = [] ∧
      ∀ l, t.reach here (dir.joinText OutputManifest.fileName) ≠ .ok l) := by
  unfold recordsIn readManifest recordsAt FileTree.read FileTree.fileAt
  cases hr : t.reach here (dir.joinText OutputManifest.fileName) with
  | error e =>
    refine .inr ⟨?_, fun l hl => nomatch hl⟩
    simp only [bind, Except.bind]
    split
    · rename_i hread
      split at hread
      · exact (Except.ok.inj hread).symm
      · cases hread
    · rfl
  | ok l =>
    left
    have hl : l = manifestAt (dir.locate here) := reach_manifest hr
    subst hl
    simp only [bind, Except.bind]
    cases t.find? (manifestAt (dir.locate here)) with
    | none => rfl
    | some e =>
      cases e with
      | directory => rfl
      | file content =>
        simp only [Option.bind_some]
        cases Utf8.readText? content with
        | none => rfl
        | some text =>
          simp only
          cases OutputManifest.ofText text with
          | error fault => rfl
          | ok m => rfl

end Output

/-- The manifest of the directory at `L` lists what is recorded of the calls. -/
structure Tracks (L : Location) (past : List Attempt) (t : FileTree) : Prop where
  written : (recordsAt t L).IsWritten
  found : ∀ name, (recordsAt t L).find? (.ofString name) = (recorded past name).map recordOf

/-- The name of a unit leads nowhere else and is that by which the directory lists the file, and its
kind can be written into a document. -/
structure IsOwnUnit (u : GeneratedUnit) : Prop where
  slash : '/' ∉ u.fileName.toList
  backslash : '\\' ∉ u.fileName.toList
  listed : entryName u = u.fileName
  settled : (Json.Symbols.ofString u.kind).IsSettled

instance (u : GeneratedUnit) : Decidable (IsOwnUnit u) :=
  decidable_of_iff ('/' ∉ u.fileName.toList ∧ '\\' ∉ u.fileName.toList ∧
      entryName u = u.fileName ∧ (Json.Symbols.ofString u.kind).IsSettled)
    ⟨fun ⟨a, b, c, d⟩ => ⟨a, b, c, d⟩, fun ⟨a, b, c, d⟩ => ⟨a, b, c, d⟩⟩

theorem IsOwnUnit.ne_manifest {u : GeneratedUnit} (h : IsOwnUnit u) :
    u.fileName ≠ OutputManifest.fileName :=
  h.listed ▸ entryName_ne_manifest u

/-- The units of all calls are such units. -/
def OwnNames (past : List Attempt) : Prop := ∀ a ∈ past, ∀ u ∈ a.call.units, IsOwnUnit u

section Steps

variable {E : Setting} {dir : Path} {L : Location} {past : List Attempt} {t u : FileTree}
  {c : Publication} {previous : OutputManifest}

theorem Tracks.congr (h : Tracks L past t)
    (hu : u.fileAt (manifestAt L) = t.fileAt (manifestAt L)) :
    Tracks L past u := by
  have heq := recordsAt_congr hu
  exact ⟨heq ▸ h.written, heq ▸ h.found⟩

/-- What a publication takes over are the records of units that earlier calls published. -/
structure TakenFrom (past : List Attempt) (previous : OutputManifest) : Prop where
  written : previous.IsWritten
  units : ∀ x ∈ previous, ∃ u, recorded past u.fileName = some u ∧ x = entryOf u

theorem takenFrom_nil (past : List Attempt) : TakenFrom past [] :=
  ⟨lists_nil.1, fun _ hx => absurd hx List.not_mem_nil⟩

theorem Tracks.takenFrom (h : Tracks L past t) : TakenFrom past (recordsAt t L) := by
  refine ⟨h.written, ?_⟩
  rintro ⟨name, record⟩ hx
  obtain ⟨s, rfl⟩ := h.written.texts _ hx
  have hfound := (OutputManifest.find?_eq_some_iff h.written.distinct).mpr hx
  rw [h.found, Option.map_eq_some_iff] at hfound
  obtain ⟨u, hu, rfl⟩ := hfound
  obtain ⟨rfl, -⟩ := recorded_eq_some hu
  exact ⟨u, hu, rfl⟩

/-- Their names are those of files in the directory. -/
theorem TakenFrom.isName (h : TakenFrom past previous) (hown : OwnNames past)
    {x : Json.Symbols × OutputRecord} (hx : x ∈ previous) :
    IsName x.1.toText ∧ fileOf x ≠ OutputManifest.fileName := by
  obtain ⟨u, hu, rfl⟩ := h.units x hx
  obtain ⟨-, a, ha, hmem⟩ := recorded_eq_some hu
  rw [fileOf_entryOf, entryOf, Json.Symbols.toText_ofString]
  exact ⟨isName_fileName (hown a ha u hmem).slash, entryName_ne_manifest u⟩

/-- What a publication takes over, as long as the manifest is what the calls before made it. -/
theorem Tracks.takenIn {w : FileTree} (h : Tracks (dir.locate E.surroundings.here) past t)
    (hw : ∀ k, w.fileAt k = t.fileAt k) :
    TakenFrom past (recordsIn w E.surroundings.here dir) := by
  rcases recordsIn_eq w E.surroundings.here dir with heq | ⟨heq, -⟩
  · rw [heq]
    exact (h.congr (hw _)).takenFrom
  · rw [heq]
    exact takenFrom_nil past

theorem isNone_find?_recordUnits (units : List GeneratedUnit) (name : String) :
    ((recordUnits units).find? (.ofString name)).isNone = (lastNamed units name).isNone := by
  rw [find?_recordUnits, Option.isNone_map]

/-- The new manifest lists what is recorded after the call. -/
theorem find?_merged (h : TakenFrom past previous)
    (hfound : ∀ name, previous.find? (.ofString name) = (recorded past name).map recordOf)
    (before after : FileTree) (name : String) :
    (merged c.units c.kinds previous).find? (.ofString name) =
      (recorded (⟨c, true, before, after⟩ :: past) name).map recordOf := by
  rw [recorded, if_pos rfl]
  cases hused : lastNamed c.units name with
  | some v => exact find?_merged_of_used h.written hused
  | none =>
    rw [find?_merged_of_unused h.written hused, hfound, Option.none_or]
    cases hrecorded : recorded past name with
    | none => rfl
    | some u =>
      obtain ⟨rfl, -⟩ := recorded_eq_some hrecorded
      have hstale : isStale (recordUnits c.units) c.kinds (.ofString u.fileName, recordOf u) =
          c.covers u.kind := by
        refine (isStale_entryOf _ c u).trans ?_
        rw [isNone_find?_recordUnits, hused]
        rfl
      rw [Option.map_some, Option.filter_some, Option.filter_some, hstale]
      split <;> rfl

/-- The manifest that a call that succeeded has written lists what is recorded then. -/
theorem tracks_of_merged {before after v : FileTree} {time : String}
    (h : TakenFrom past previous)
    (hfound : ∀ name, previous.find? (.ofString name) = (recorded past name).map recordOf)
    (hown : OwnNames (⟨c, true, before, after⟩ :: past))
    (hrecord : ∀ u ∈ c.units, IsRecordable u)
    (hv : v.fileAt (manifestAt L) = some ((merged c.units c.kinds previous).text time).toUTF8) :
    Tracks L (⟨c, true, before, after⟩ :: past) v := by
  have hmerged : (merged c.units c.kinds previous).IsWritten := isWritten_merged hrecord h.written
  have hfind := find?_merged (c := c) h hfound before after
  have hreread : (merged c.units c.kinds previous).reread =
      (merged c.units c.kinds previous).inOrder := by
    unfold OutputManifest.reread
    rw [List.filter_eq_self]
    rintro ⟨name, record⟩ hx
    have hx := OutputManifest.mem_inOrder.mp hx
    obtain ⟨s, rfl⟩ := hmerged.texts _ hx
    have hsome := (OutputManifest.find?_eq_some_iff hmerged.distinct).mpr hx
    rw [hfind, Option.map_eq_some_iff] at hsome
    obtain ⟨u, hu, -⟩ := hsome
    obtain ⟨rfl, a, ha, hmem⟩ := recorded_eq_some hu
    have hu := hown a ha u hmem
    exact OutputManifest.isOwnName_ofString.mpr ⟨hu.slash, hu.backslash⟩
  have hrecords := (recordsAt_text hmerged.toIsStored hv).trans hreread
  refine ⟨hrecords ▸ hmerged.inOrder, fun name => ?_⟩
  rw [hrecords, hmerged.find?_inOrder, hfind]

/-! ## What single calls do -/

/-- What is removed was recorded, and the call has no such unit. -/
theorem TakenFrom.of_stale (h : TakenFrom past previous) (hown : OwnNames past) {name : String}
    (hname : name ∈ staleNames c.units c.kinds previous) :
    ∃ u, recorded past name = some u ∧ name ≠ OutputManifest.fileName := by
  obtain ⟨x, hx, rfl⟩ := List.mem_map.mp hname
  obtain ⟨u, hu, rfl⟩ := h.units x (mem_staleRecords.mp hx).1
  obtain ⟨-, a, ha, hmem⟩ := recorded_eq_some hu
  have hunit := hown a ha u hmem
  rw [fileOf_entryOf, hunit.listed]
  exact ⟨u, hu, hunit.ne_manifest⟩

/-- What is recorded of a kind that takes part is removed, if the call has no such unit. -/
theorem mem_staleNames_of_recorded (hwritten : previous.IsWritten) (hown : OwnNames past)
    (hfound : ∀ name, previous.find? (.ofString name) = (recorded past name).map recordOf)
    {name : String} {u : GeneratedUnit} (hu : recorded past name = some u)
    (hcovers : c.covers u.kind = true) (hunused : lastNamed c.units name = none) :
    name ∈ staleNames c.units c.kinds previous := by
  obtain ⟨rfl, a, ha, hmem⟩ := recorded_eq_some hu
  refine List.mem_map.mpr ⟨entryOf u, mem_staleRecords.mpr ⟨?_, ?_⟩,
    (fileOf_entryOf u).trans (hown a ha u hmem).listed⟩
  · refine (OutputManifest.find?_eq_some_iff hwritten.distinct).mp ?_
    rw [hfound, hu]
    rfl
  · rw [isStale_entryOf, isNone_find?_recordUnits, hunused, hcovers]
    rfl

/-- What a call that succeeds publishes, and over which records: those that the manifest listed. -/
theorem publishes_recorded {s s' : Session} {r : WriteReport}
    (h : Tracks (dir.locate E.surroundings.here) past s.files) (hpast : OwnNames past)
    (hunits : ∀ u ∈ c.units, IsOwnUnit u)
    (hlog : LogsOutside (dir.locate E.surroundings.here) s)
    (hdone : ({ E with clock := c.clock }.publish dir c.units c.kinds).Answers s r s') :
    ∃ previous bs w v, TakenFrom past previous ∧ (∀ u ∈ c.units, IsRecordable u) ∧
      (∀ name, previous.find? (.ofString name) = (recorded past name).map recordOf) ∧
      Published (dir.locate E.surroundings.here) c.units c.kinds c.clock.updated previous bs w v ∧
      (∀ name, w.fileAt (dir.locate E.surroundings.here ++ [name]) =
        s.files.fileAt (dir.locate E.surroundings.here ++ [name])) ∧
      ∀ name, s'.files.find? (dir.locate E.surroundings.here ++ [name]) =
        v.find? (dir.locate E.surroundings.here ++ [name]) := by
  obtain ⟨w, s₂, v, previous, hmade, hlogged, hread, hpublish, hlast⟩ :=
    Setting.answers_publish hdone
  have hprevious := recordsIn_of_read hread
  have hw := FileAction.ensureDirectories_fileAt hmade
  obtain ⟨hr, hd⟩ := FileAction.ensureDirectories_reaches hmade
  have htaken : TakenFrom past previous := hprevious ▸ h.takenIn hw
  have hnames : ∀ u ∈ c.units, IsName u.fileName := fun u hu => isName_fileName (hunits u hu).slash
  obtain ⟨hmanifest, hreach, bs, hp, -, -⟩ := returns_publishOver hnames
    (fun x hx _ => (htaken.isName hpast hx).1) (reach_mono hlogged.forth hr) (hlogged.forth _ hd)
    hpublish
  -- the manifest was within reach when it was read, since it has been written
  have hlists : previous = recordsAt s.files (dir.locate E.surroundings.here) := by
    rw [← hprevious]
    rcases recordsIn_eq w E.surroundings.here dir with heq | ⟨-, hfar⟩
    · exact heq.trans (recordsAt_congr (hw _))
    · exact absurd (reach_mono hlogged.back hmanifest) (hfar _)
  have hlogs₁ : LogsOutside (dir.locate E.surroundings.here) { s with files := w } := hlog
  obtain ⟨hquiet, hlogs₂⟩ := hlogged.undisturbed hlogs₁
  refine ⟨previous, bs, s₂.files, v, htaken, fun u hu => ?_, fun name => hlists ▸ h.found name, hp,
    fun name => ?_, fun name => ?_⟩
  · exact ⟨isSettled_of_reach (hnames u hu) (hreach u hu).2, (hunits u hu).settled⟩
  · exact (hquiet _ (List.cons_ne_nil _ _)).trans (hw _)
  · exact hlast.others _ (hlogs₂ _ (List.cons_ne_nil _ _))

/-- **What a call does that succeeds.** The manifest lists what is recorded then. A file of which
nothing was recorded stays as it is, unless the call has such a unit. A file that was recorded is
gone, if its kind takes part and the call has no such unit. -/
theorem step_succeeded {s s' : Session} {r : WriteReport}
    (h : Tracks (dir.locate E.surroundings.here) past s.files)
    (hown : OwnNames (⟨c, true, s.files, s'.files⟩ :: past))
    (hlog : LogsOutside (dir.locate E.surroundings.here) s)
    (hdone : ({ E with clock := c.clock }.publish dir c.units c.kinds).Answers s r s') :
    Tracks (dir.locate E.surroundings.here) (⟨c, true, s.files, s'.files⟩ :: past) s'.files ∧
      (∀ name, name ≠ OutputManifest.fileName → lastNamed c.units name = none →
        recorded past name = none →
        s'.files.fileAt (dir.locate E.surroundings.here ++ [name]) =
          s.files.fileAt (dir.locate E.surroundings.here ++ [name])) ∧
      ∀ name u, recorded past name = some u → c.covers u.kind = true →
        lastNamed c.units name = none →
        s'.files.find? (dir.locate E.surroundings.here ++ [name]) = none := by
  have hpast : OwnNames past := fun a ha => hown a (List.mem_cons_of_mem _ ha)
  have hunits : ∀ u ∈ c.units, IsOwnUnit u := fun u hu => hown _ List.mem_cons_self u hu
  obtain ⟨previous, bs, w, v, htaken, hrecord, hfound, hp, hw, hs'⟩ :=
    publishes_recorded h hpast hunits hlog hdone
  refine ⟨?_, ?_, ?_⟩
  · exact tracks_of_merged htaken hfound hown hrecord ((fileAt_of_find? (hs' _)).trans hp.manifest)
  · intro name hname hunused hrecorded
    rw [fileAt_of_find? (hs' _), ← hw]
    refine published_fileAt hp (fun heq => hname (List.cons.inj heq).1) ?_ ?_
    · intro u hu heq
      refine lastNamed_eq_none.mp hunused u hu ?_
      rw [← (hunits u hu).listed]
      exact (List.cons.inj heq).1.symm
    · intro x hx heq
      obtain ⟨u, hu, -⟩ := htaken.of_stale hpast hx
      rw [← (List.cons.inj heq).1, hrecorded] at hu
      cases hu
  · intro name u hu hcovers hunused
    have hstale := mem_staleNames_of_recorded htaken.written hpast hfound hu hcovers hunused
    obtain ⟨-, -, hne⟩ := htaken.of_stale hpast hstale
    have hat : dir.locate E.surroundings.here ++ [name] ≠
        manifestAt (dir.locate E.surroundings.here) := append_name_ne hne
    obtain ⟨w₁, w₂, -, hpruned, -, rfl⟩ := hp
    rw [hs', find?_put_of_ne hat]
    exact hpruned.gone name hstale

/-- **What a call does that fails**: the manifest lists what it listed before. -/
theorem step_failed {s : Session} (h : Tracks (dir.locate E.surroundings.here) past s.files)
    (hpast : OwnNames past) (hunits : ∀ u ∈ c.units, IsOwnUnit u)
    (hlog : LogsOutside (dir.locate E.surroundings.here) s)
    (hundone : ∀ r s', ¬ ({ E with clock := c.clock }.publish dir c.units c.kinds).Answers s r s') :
    Tracks (dir.locate E.surroundings.here) past
      (({ E with clock := c.clock }.publish dir c.units c.kinds).leaves s).files := by
  refine h.congr ?_
  have hwide := widened_ensureDirectories E.surroundings.here dir s.files
  obtain ⟨s₂, hlogged, hleaves⟩ :=
    Setting.leaves_publish { E with clock := c.clock } dir c.units c.kinds s
  have hlogs₁ : LogsOutside (dir.locate E.surroundings.here)
      { s with files := (FileAction.ensureDirectories E.surroundings.here dir).leaves s.files } :=
    hlog
  obtain ⟨hquiet, hlogs₂⟩ := hlogged.undisturbed hlogs₁
  have hs₂ : s₂.files.fileAt (manifestAt (dir.locate E.surroundings.here)) =
      s.files.fileAt (manifestAt (dir.locate E.surroundings.here)) :=
    (hquiet _ (List.cons_ne_nil _ _)).trans (hwide.files _)
  rcases hleaves with hleaves | ⟨w, hmade, hover, hlast⟩
  · rw [hleaves, hs₂]
  · have htaken := h.takenIn (w := w) (FileAction.ensureDirectories_fileAt hmade)
    have hnames : ∀ x ∈ Setting.takenOver { E with clock := c.clock } dir s,
        IsName x.1.toText ∧ fileOf x ≠ OutputManifest.fileName := by
      unfold Setting.takenOver
      rw [FileAction.leaves_of_returns hmade]
      exact fun x hx => htaken.isName hpast hx
    have hspared := spared_of_not_returns
      (P := fun k => k ≠ manifestAt (dir.locate E.surroundings.here))
      (fun u hu => isName_fileName (hunits u hu).slash) (fun u _ => unit_ne_manifest _ u)
      (fun x hx _ => by
        obtain ⟨hname, hne⟩ := hnames x hx
        rw [locate_name _ _ hname]
        exact .inl (append_name_ne hne))
      (fun r v hreturns => by
        obtain ⟨s', hanswers⟩ := hover r v hreturns
        exact hundone r s' hanswers)
    have hend := hlast.others (manifestAt (dir.locate E.surroundings.here))
      (hlogs₂ _ (List.cons_ne_nil _ _))
    rw [fileAt_of_find? hend, fileAt_of_find? (hspared.others _ (not_not_intro rfl)), hs₂]

end Steps

/-! ## What all calls do -/

section Attempts

variable {E : Setting} {dir : Path} {start t : FileTree} {past : List Attempt}

theorem OwnNames.tail {a : Attempt} (h : OwnNames (a :: past)) : OwnNames past :=
  fun b hb => h b (List.mem_cons_of_mem a hb)

/-- The manifest lists what is recorded of the calls. -/
theorem tracks_attempts (h : Attempts E dir start past t) (hown : OwnNames past)
    (hstart : start.fileAt (manifestAt (dir.locate E.surroundings.here)) = none) :
    Tracks (dir.locate E.surroundings.here) past t := by
  induction h with
  | start =>
    have hnone := recordsAt_of_absent hstart
    refine ⟨?_, fun name => ?_⟩
    · rw [hnone]
      exact (takenFrom_nil []).written
    · rw [hnone]
      rfl
  | succeeded _ undisturbed log done ih =>
    have hbefore := (ih hown.tail).congr (undisturbed _ (List.cons_ne_nil _ _))
    exact (step_succeeded hbefore hown log done).1
  | failed _ undisturbed log undone left ih =>
    have hbefore := (ih hown.tail).congr (undisturbed _ (List.cons_ne_nil _ _))
    have hafter := left ▸ step_failed hbefore hown.tail
      (fun u hu => hown _ List.mem_cons_self u hu) log undone
    exact ⟨hafter.written, hafter.found⟩

/-- A file that the calls made and of which nothing is recorded was lost. -/
theorem lost_of_unrecorded (h : Attempts E dir start past t) (hown : OwnNames past)
    (hstart : start.fileAt (manifestAt (dir.locate E.surroundings.here)) = none) {name : String}
    (hname : name ≠ OutputManifest.fileName)
    (habsent : start.fileAt (dir.locate E.surroundings.here ++ [name]) = none)
    (hpresent : t.fileAt (dir.locate E.surroundings.here ++ [name]) ≠ none)
    (hunrecorded : recorded past name = none) :
    Lost (dir.locate E.surroundings.here) name past := by
  induction h with
  | start => exact absurd habsent hpresent
  | @succeeded past t s s' c r earlier undisturbed log done ih =>
    have hbefore := (tracks_attempts earlier hown.tail hstart).congr
      (undisturbed _ (List.cons_ne_nil _ _))
    obtain ⟨-, hstays, hgone⟩ := step_succeeded hbefore hown log done
    rw [recorded, if_pos rfl, Option.or_eq_none_iff] at hunrecorded
    obtain ⟨hunused, hdropped⟩ := hunrecorded
    cases hrecorded : recorded past name with
    | none =>
      rw [hstays name hname hunused hrecorded, undisturbed _ (List.cons_ne_nil _ _)] at hpresent
      exact .since (ih hown.tail hpresent hrecorded) fun _ => hunused
    | some u =>
      -- a recorded file is given up only when it is removed
      have hcovers : c.covers u.kind = true := by
        rw [hrecorded] at hdropped
        refine Classical.byContradiction fun hcovers => ?_
        simp [Option.filter, hcovers] at hdropped
      exact absurd (fileAt_of_gone (hgone name u hrecorded hcovers hunused)) hpresent
  | @failed past t s s' c earlier undisturbed log undone left ih =>
    have hrecorded : recorded past name = none := hunrecorded
    by_cases hbefore : s.files.fileAt (dir.locate E.surroundings.here ++ [name]) = none
    · exact .made rfl hrecorded hbefore hpresent
    · rw [undisturbed _ (List.cons_ne_nil _ _)] at hbefore
      exact .since (ih hown.tail hbefore hrecorded) fun h => nomatch h

/-- Which files that the calls made the manifest does not list. -/
theorem unrecorded_iff_lost (h : Attempts E dir start past t) (hown : OwnNames past)
    (hstart : start.fileAt (manifestAt (dir.locate E.surroundings.here)) = none) {name : String}
    (hname : name ≠ OutputManifest.fileName)
    (habsent : start.fileAt (dir.locate E.surroundings.here ++ [name]) = none)
    (hpresent : t.fileAt (dir.locate E.surroundings.here ++ [name]) ≠ none) :
    (recordsAt t (dir.locate E.surroundings.here)).find? (.ofString name) = none ↔
      Lost (dir.locate E.surroundings.here) name past := by
  rw [(tracks_attempts h hown hstart).found, Option.map_eq_none_iff]
  exact ⟨lost_of_unrecorded h hown hstart hname habsent hpresent, Lost.unrecorded⟩

/-- **Which files get lost, and what becomes of them.** After any calls, whether they succeeded or
failed, the manifest lists what the successful ones recorded. It lists every file of the directory
that the calls made, except for those that a failing call made and no successful one made since. The
next call that succeeds and does not make a file removes it, if it is recorded and its kind takes
part, and leaves it, if it was lost. -/
theorem losses_of_attempts (h : Attempts E dir start past t) (hown : OwnNames past)
    (hstart : start.fileAt (manifestAt (dir.locate E.surroundings.here)) = none) :
    let L := dir.locate E.surroundings.here
    (∀ name, (recordsAt t L).find? (.ofString name) = (recorded past name).map recordOf) ∧
    (∀ name, name ≠ OutputManifest.fileName → start.fileAt (L ++ [name]) = none →
      t.fileAt (L ++ [name]) ≠ none →
        ((recordsAt t L).find? (.ofString name) = none ↔ Lost L name past)) ∧
    ∀ (c : Publication) s s' r, Undisturbed L t s.files → LogsOutside L s →
      ({ E with clock := c.clock }.publish dir c.units c.kinds).Answers s r s' →
      (∀ u ∈ c.units, IsOwnUnit u) →
      ∀ name, (∀ u ∈ c.units, u.fileName ≠ name) →
        (∀ u, recorded past name = some u → c.covers u.kind = true →
          s'.files.find? (L ++ [name]) = none) ∧
        (Lost L name past → name ≠ OutputManifest.fileName →
          s'.files.fileAt (L ++ [name]) = t.fileAt (L ++ [name])) := by
  refine ⟨(tracks_attempts h hown hstart).found,
    fun name => unrecorded_iff_lost h hown hstart, ?_⟩
  intro c s s' r hundisturbed hlog hdone hunits name hunused
  have hall : OwnNames (⟨c, true, s.files, s'.files⟩ :: past) := by
    intro a ha
    rcases List.mem_cons.mp ha with rfl | ha
    · exact hunits
    · exact hown a ha
  obtain ⟨-, hstays, hgone⟩ := step_succeeded
    ((tracks_attempts h hown hstart).congr (hundisturbed _ (List.cons_ne_nil _ _))) hall hlog hdone
  have hunnamed := lastNamed_eq_none.mpr hunused
  refine ⟨fun u hu hcovers => hgone name u hu hcovers hunnamed, fun hlost hname => ?_⟩
  rw [hstays name hname hunnamed hlost.unrecorded, hundisturbed _ (List.cons_ne_nil _ _)]

end Attempts

/-! A directory in which a directory stands in the way of the second unit. -/

def blockedUnits : List GeneratedUnit :=
  [⟨"A", "class A;", "resolver", "A", "A.cs"⟩, ⟨"B", "class B;", "resolver", "B", "B.cs"⟩]

def blockedSession : Session :=
  { files := ⟨[(["out"], .directory), (["out", "B.cs"], .directory)]⟩ }

def blockedSession₁ : Session :=
  (({} : Setting).publish playerDir blockedUnits none).leaves blockedSession

theorem not_answers_of_toOption {α : Type} {m : Course α} {s : Session}
    (h : (m.run.run s).1.toOption = none) (a : α) (s' : Session) : ¬ m.Answers s a s' := by
  intro hanswers
  unfold Course.Answers at hanswers
  rw [hanswers] at h
  cases h

theorem attempts_blocked : Attempts {} playerDir blockedSession.files
    [⟨⟨{}, blockedUnits, none⟩, false, blockedSession.files, blockedSession₁.files⟩]
    blockedSession₁.files :=
  .failed .start (fun _ _ => rfl) (fun _ _ => nofun)
    (not_answers_of_toOption (by decide +kernel)) rfl

/-- The first unit is written and not listed, and the next call leaves it, which makes no unit and
in which every kind takes part. -/
theorem blocked_lost :
    blockedSession₁.files.fileAt ["out", "A.cs"] = some "class A;".toUTF8 ∧
      (recordsAt blockedSession₁.files ["out"]).find? (.ofString "A.cs") = none ∧
      ∃ s', (({} : Setting).publish playerDir [] none).Answers blockedSession₁ ⟨[], [], []⟩ s' ∧
        s'.files.fileAt ["out", "A.cs"] = some "class A;".toUTF8 := by
  have hpresent : blockedSession₁.files.fileAt ["out", "A.cs"] = some "class A;".toUTF8 := by
    decide +kernel
  have hown : OwnNames
      [⟨⟨{}, blockedUnits, none⟩, false, blockedSession.files, blockedSession₁.files⟩] := by
    intro a ha
    rw [List.mem_singleton.mp ha]
    decide +kernel
  obtain ⟨-, hlisted, hnext⟩ := losses_of_attempts attempts_blocked hown (by decide +kernel)
  have hlost : Lost ["out"] "A.cs"
      [⟨⟨{}, blockedUnits, none⟩, false, blockedSession.files, blockedSession₁.files⟩] :=
    .made rfl rfl (by decide +kernel) (by
      rw [List.singleton_append, hpresent]
      exact fun h => nomatch h)
  have hanswers := answers_of_toOption (s := blockedSession₁)
    (m := ({} : Setting).publish playerDir [] none) (a := ⟨[], [], []⟩) (by decide +kernel)
  refine ⟨hpresent, (hlisted "A.cs" (by decide +kernel) (by decide +kernel) ?_).mpr hlost, _,
    hanswers, ?_⟩
  · exact fun h => nomatch h.symm.trans hpresent
  · refine (((hnext ⟨{}, [], none⟩ _ _ _ (fun _ _ => rfl) (fun _ _ h => ?_) hanswers ?_ "A.cs" ?_).2
      hlost (by decide +kernel)).trans hpresent)
    · have hlog : blockedSession₁.logFile = none := by decide +kernel
      exact nomatch hlog.symm.trans h
    · exact fun _ hu => absurd hu List.not_mem_nil
    · exact fun _ hu => absurd hu List.not_mem_nil

end FieldWiring
