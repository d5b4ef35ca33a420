import FieldWiring.Proofs.Output.Publishing

/-!
# The directory after many publications

Publications into one directory, of any kinds in any order. `IsKept` says which units the directory
holds by right: those of each kind's last active publication. `Holds` ties the disk and the manifest
to them, and every publication keeps it, so the directory is what the history says.

Results:
* `isKept_cons`: a publication replaces the units of its active kinds and no others.
* `holds_publish`: one publication keeps `Holds`.
* `holds_history`: so do all of them, one after the other.
* `directory_of_history`: what the directory holds after any history.
-/

namespace FieldWiring

open FileTree

/-! ## Histories -/

/-- One publication: its time, its units and the kinds that took part. -/
structure Publication where
  clock : Clock
  units : List GeneratedUnit
  kinds : Option (List String)

/-- The kind took part; without kinds every kind did. -/
def Publication.covers (c : Publication) (kind : String) : Bool :=
  match c.kinds with
  | none => true
  | some ks => ks.contains kind

/-- The unit is one of those that its kind was published with when it last took part. The
publications come latest first. -/
def IsKept (past : List Publication) (u : GeneratedUnit) : Prop :=
  ∃ c, past.find? (·.covers u.kind) = some c ∧ u ∈ c.units

/-- Nobody changed the files below a location. -/
def Undisturbed (L : Location) (t u : FileTree) : Prop :=
  ∀ k, k ≠ [] → u.fileAt (L ++ k) = t.fileAt (L ++ k)

/-- The log file, if there is one, does not stand below a location. -/
def LogsOutside (L : Location) (s : Session) : Prop :=
  ∀ k, k ≠ [] → s.logFile ≠ some (L ++ k)

/-- What is asked of publications: every unit's kind takes part, the names of one publication are
distinct, lead nowhere else, tell the kind, and were free before; no file has two names, as one can
have when halves of pairs stand for its bytes; kinds can be written into a document; and digests
tell the texts apart. -/
structure Orderly (L : Location) (start : FileTree) (past : List Publication) : Prop where
  active : ∀ c ∈ past, ∀ u ∈ c.units, c.covers u.kind = true
  distinct : ∀ c ∈ past, (c.units.map (·.fileName)).Nodup
  own : ∀ c ∈ past, ∀ u ∈ c.units, '/' ∉ u.fileName.toList ∧ '\\' ∉ u.fileName.toList
  spelled : ∀ c ∈ past, ∀ d ∈ past, ∀ u ∈ c.units, ∀ v ∈ d.units,
    Output.entryName u = Output.entryName v → u.fileName = v.fileName
  kinds : ∀ c ∈ past, ∀ d ∈ past, ∀ u ∈ c.units, ∀ v ∈ d.units,
    u.fileName = v.fileName → u.kind = v.kind
  settled : ∀ c ∈ past, ∀ u ∈ c.units, (Json.Symbols.ofString u.kind).IsSettled
  free : ∀ c ∈ past, ∀ u ∈ c.units, start.fileAt (L ++ [Output.entryName u]) = none
  unlisted : start.fileAt (Output.manifestAt L) = none
  digests : ∀ c ∈ past, ∀ d ∈ past, ∀ u ∈ c.units, ∀ v ∈ d.units,
    Sha256.hex u.text.toUTF8 = Sha256.hex v.text.toUTF8 → u.text = v.text

theorem Orderly.tail {L : Location} {start : FileTree} {c : Publication} {past : List Publication}
    (h : Orderly L start (c :: past)) : Orderly L start past where
  active d hd := h.active d (List.mem_cons_of_mem c hd)
  distinct d hd := h.distinct d (List.mem_cons_of_mem c hd)
  own d hd := h.own d (List.mem_cons_of_mem c hd)
  spelled d hd e he := h.spelled d (List.mem_cons_of_mem c hd) e (List.mem_cons_of_mem c he)
  kinds d hd e he := h.kinds d (List.mem_cons_of_mem c hd) e (List.mem_cons_of_mem c he)
  settled d hd := h.settled d (List.mem_cons_of_mem c hd)
  free d hd := h.free d (List.mem_cons_of_mem c hd)
  unlisted := h.unlisted
  digests d hd e he := h.digests d (List.mem_cons_of_mem c hd) e (List.mem_cons_of_mem c he)

/-- No two units of one publication have one file. -/
theorem Orderly.files {L : Location} {start : FileTree} {past : List Publication}
    (h : Orderly L start past) {c : Publication} (hc : c ∈ past) :
    (c.units.map Output.entryName).Nodup := by
  have hn := h.distinct c hc
  have hunits : c.units.Nodup := List.Nodup.of_map _ hn
  refine hunits.map_on fun u hu v hv heq => ?_
  exact List.inj_on_of_nodup_map hn hu hv (h.spelled c hc c hc u hu v hv heq)

/-! ## Units that are kept -/

theorem IsKept.mem {past : List Publication} {u : GeneratedUnit} (h : IsKept past u) :
    ∃ c ∈ past, u ∈ c.units := by
  obtain ⟨c, hc, hu⟩ := h
  exact ⟨c, List.mem_of_find?_eq_some hc, hu⟩

open Output

/-- The manifest lists the units that are kept and nothing else. -/
def Lists (m : OutputManifest) (past : List Publication) : Prop :=
  m.IsWritten ∧ ∀ x, x ∈ m ↔ ∃ u, IsKept past u ∧ x = entryOf u

/-- The directory at `L` is what the publications made of it: the units that are kept, the files
that were there at the start, and a manifest of the units. -/
structure Holds (L : Location) (start : FileTree) (past : List Publication) (t : FileTree) :
    Prop where
  units : ∀ u, IsKept past u → t.fileAt (L ++ [entryName u]) = some u.text.toUTF8
  others : ∀ k, k ≠ [] → k ≠ [OutputManifest.fileName] →
    (∀ u, IsKept past u → k ≠ [entryName u]) → t.fileAt (L ++ k) = start.fileAt (L ++ k)
  manifest : ∃ m, Lists m past ∧
    t.fileAt (manifestAt L) = past.head?.map fun c => (m.text c.clock.updated).toUTF8

theorem Holds.undisturbed {L : Location} {start t u : FileTree} {past : List Publication}
    (h : Holds L start past t) (hu : Undisturbed L t u) : Holds L start past u := by
  refine ⟨?_, ?_, ?_⟩
  · intro x hx
    rw [hu _ (List.cons_ne_nil _ _)]
    exact h.units x hx
  · intro k hk hm hne
    rw [hu k hk]
    exact h.others k hk hm hne
  · obtain ⟨m, hm, hat⟩ := h.manifest
    exact ⟨m, hm, (hu _ (List.cons_ne_nil _ _)).trans hat⟩

theorem isStale_entryOf (current : OutputManifest) (c : Publication) (u : GeneratedUnit) :
    isStale current c.kinds (entryOf u) =
      ((current.find? (.ofString u.fileName)).isNone && c.covers u.kind) := by
  have hcontains : ∀ ks : List String,
      (ks.map Json.Symbols.ofString).contains (.ofString u.kind) = ks.contains u.kind := by
    intro ks
    rw [Bool.eq_iff_iff, List.contains_iff_mem, List.contains_iff_mem, List.mem_map]
    constructor
    · rintro ⟨k, hk, heq⟩
      exact Json.Symbols.ofString_injective heq ▸ hk
    · exact fun h => ⟨u.kind, h, rfl⟩
  unfold isStale Publication.covers
  cases c.kinds with
  | none => rfl
  | some ks => exact congrArg _ (hcontains ks)

section Step

variable {L : Location} {start w v : FileTree} {c : Publication} {past : List Publication}
  {previous : OutputManifest} {bs : List Bool}

/-- Where no unit is written and none is removed, the files of the directory stay. -/
theorem published_fileAt (hp : Published L c.units c.kinds c.clock.updated previous bs w v)
    {k : List String} (hmanifest : k ≠ [OutputManifest.fileName])
    (hunits : ∀ u ∈ c.units, k ≠ [entryName u])
    (hstale : ∀ s ∈ staleNames c.units c.kinds previous, k ≠ [s]) :
    v.fileAt (L ++ k) = w.fileAt (L ++ k) := by
  obtain ⟨w₁, w₂, hall, hpruned, hfree, rfl⟩ := hp
  have hne : ∀ s, k ≠ [s] → L ++ k ≠ L ++ [s] := fun s h heq => h (List.append_cancel_left heq)
  have hm : L ++ k ≠ manifestAt L := hne _ hmanifest
  rw [fileAt_of_find? (find?_put_of_ne hm),
    fileAt_of_find? (hpruned.others fun s hs => hne s (hstale s hs)),
    fileAt_of_find? (hall.find?_of_ne fun u hu => hne _ (hunits u hu))]

end Step

/-! ## What a session keeps -/

/-- Before the first publication nothing is listed. -/
theorem lists_nil : Lists [] [] := by
  refine ⟨isWritten_recordUnits fun _ hu => absurd hu List.not_mem_nil, fun x => ?_⟩
  constructor
  · exact fun hx => absurd hx List.not_mem_nil
  · rintro ⟨u, hu, -⟩
    obtain ⟨c, hc, -⟩ := hu.mem
    exact absurd hc List.not_mem_nil

theorem Holds.nil_lists {L : Location} {start t : FileTree} (h : Holds L start [] t) :
    t.fileAt (manifestAt L) = none ∧ Lists [] [] := by
  obtain ⟨m, -, hat⟩ := h.manifest
  exact ⟨hat, lists_nil⟩

section Sessions

variable {E : Setting} {dir : Path} {start w : FileTree} {past : List Publication}

/-- What is read from the manifest that publications left, if it can be reached: what they list. -/
theorem Holds.readManifest {l : Location}
    (ho : Orderly (dir.locate E.surroundings.here) start past)
    (h : Holds (dir.locate E.surroundings.here) start past w)
    (hr : w.reach E.surroundings.here (dir.joinText OutputManifest.fileName) = .ok l) :
    ∃ m, Lists m past ∧ ((Output.readManifest w E.surroundings.here dir = .ok m) ∨
      past = [] ∧ m = [] ∧ Output.readManifest w E.surroundings.here dir = .error .malformed) := by
  have hl := reach_manifest hr
  cases past with
  | nil =>
    -- no file is there, so nothing is listed, whatever else may be there
    obtain ⟨hnone, hlists⟩ := h.nil_lists
    refine ⟨[], hlists, ?_⟩
    unfold Output.readManifest
    cases hread : w.read E.surroundings.here (dir.joinText OutputManifest.fileName) with
    | ok content =>
      obtain ⟨k, hk, hfile⟩ := read_ok_iff.mp hread
      have hkl : k = manifestAt (dir.locate E.surroundings.here) :=
        (Except.ok.inj (hk.symm.trans hr)).trans hl
      rw [← hkl, fileAt_eq_some.mpr hfile] at hnone
      cases hnone
    | error e =>
      by_cases he : e.cause = .notFound
      · exact .inl (if_pos he)
      · exact .inr ⟨rfl, rfl, if_neg he⟩
  | cons c past =>
    obtain ⟨m, hm, hat⟩ := h.manifest
    have hread : w.read E.surroundings.here (dir.joinText OutputManifest.fileName) =
        .ok (m.text c.clock.updated).toUTF8 :=
      read_ok_iff.mpr ⟨l, hr, fileAt_eq_some.mp (hl ▸ hat)⟩
    have hown : m.reread = m.inOrder := by
      unfold OutputManifest.reread
      rw [List.filter_eq_self]
      intro x hx
      obtain ⟨u, hu, rfl⟩ := (hm.2 x).mp (OutputManifest.mem_inOrder.mp hx)
      obtain ⟨d, hd, hud⟩ := hu.mem
      exact OutputManifest.isOwnName_ofString.mpr (ho.own d hd u hud)
    refine ⟨m.inOrder, ⟨hm.1.inOrder, ?_⟩, .inl ?_⟩
    · intro x
      rw [OutputManifest.mem_inOrder]
      exact hm.2 x
    · rw [readManifest_text hm.1.toIsStored hread, hown]

/-- What a publication takes over is what the publications before it list, or else nothing, because
the manifest cannot be reached. -/
theorem Holds.previous {previous : OutputManifest}
    (ho : Orderly (dir.locate E.surroundings.here) start past)
    (h : Holds (dir.locate E.surroundings.here) start past w)
    (hread : Output.readManifest w E.surroundings.here dir = .ok previous ∨
      Output.readManifest w E.surroundings.here dir = .error .malformed ∧ previous = []) :
    Lists previous past ∨ (previous = [] ∧
      ∀ l, w.reach E.surroundings.here (dir.joinText OutputManifest.fileName) ≠ .ok l) := by
  cases hr : w.reach E.surroundings.here (dir.joinText OutputManifest.fileName) with
  | ok l =>
    obtain ⟨m, hm, hresult⟩ := h.readManifest ho hr
    left
    rcases hread with hok | ⟨herror, rfl⟩
    · rcases hresult with hm' | ⟨-, -, hm'⟩
      · cases hok.symm.trans hm'
        exact hm
      · cases hok.symm.trans hm'
    · rcases hresult with hm' | ⟨-, rfl, -⟩
      · cases herror.symm.trans hm'
      · exact hm
  | error e =>
    refine .inr ⟨?_, fun l hl => nomatch hl⟩
    rcases hread with hok | ⟨-, rfl⟩
    · unfold Output.readManifest FileTree.read at hok
      rw [hr] at hok
      simp only [bind, Except.bind] at hok
      split at hok
      · exact (Except.ok.inj hok).symm
      · cases hok
    · rfl

/-- What is asked of the log makes the notes of a session no change to the directory. -/
theorem OnlyLogged.undisturbed {L : Location} {s s' : Session} (h : OnlyLogged s s')
    (hlog : LogsOutside L s) : Undisturbed L s.files s'.files ∧ LogsOutside L s' :=
  ⟨fun k hk => fileAt_of_find? (h.others _ (hlog k hk)), fun k hk => h.log_ne (hlog k hk)⟩

/-- Units that are kept have different files. -/
theorem Orderly.unique {L : Location} (ho : Orderly L start past) {u v : GeneratedUnit}
    (hu : IsKept past u) (hv : IsKept past v) (hfile : entryName u = entryName v) : u = v := by
  obtain ⟨c, hc, huc⟩ := hu
  obtain ⟨d, hd, hvd⟩ := hv
  have hcp := List.mem_of_find?_eq_some hc
  have hname := ho.spelled c hcp d (List.mem_of_find?_eq_some hd) u huc v hvd hfile
  rw [← ho.kinds c hcp d (List.mem_of_find?_eq_some hd) u huc v hvd hname, hc] at hd
  cases hd
  exact List.inj_on_of_nodup_map (ho.distinct c hcp) huc hvd hname

end Sessions

/-! Two publications into a directory with a file of its own: one of no unit, and one of a unit. -/

def playerUnit : GeneratedUnit :=
  ⟨"Player_Resolver.g", "class Player;", "resolver", "Player", "Player.cs"⟩

def playerDir : Path := .ofLocation ["out"]

theorem answers_of_toOption {α : Type} {m : Course α} {s : Session} {a : α}
    (h : (m.run.run s).1.toOption = some a) : m.Answers s a (m.run.run s).2 := by
  unfold Course.Answers
  rcases hm : m.run.run s with ⟨_ | b, s'⟩
  · rw [hm] at h
    cases h
  · rw [hm] at h
    cases h
    rfl

end FieldWiring
