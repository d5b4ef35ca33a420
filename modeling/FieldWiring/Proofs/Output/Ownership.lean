import FieldWiring.Proofs.Files.Grounded
import FieldWiring.Proofs.Files.Sparing
import FieldWiring.Proofs.Output.History
import FieldWiring.Proofs.Output.Names

/-!
# What a publication may touch

The manifest says which files a publication may remove, and anybody may have written it. So what a
publication may touch is told from its arguments and the manifest alone: the files of its units, the
manifest, and the files that the manifest lists under names and kinds that the publication gives up.
Everything else is left alone, also by a publication that fails on its way.

Results:
* `isStale_iff_givenUp`: which records a publication gives up.
* `sparing_publishOver`: whatever is published touches nothing else.
* `spared_of_not_returns`: as long as it fails, it does not touch the manifest either.
* `leaves_publish`: what a publication leaves, whether it answers or fails.
* `publish_owned`: it changes no other file and makes no other directory, and what it reports when
  it answers is what it did.
-/

namespace FieldWiring

namespace Output

open FileAction FileTree

variable {here : Location} {dir : Path} {units : List GeneratedUnit} {kinds : Option (List String)}
  {previous : OutputManifest} {t v base : FileTree} {P : Location → Prop}

/-! ## Records that are given up -/

/-- What the manifest in a directory lists; nothing, when it cannot be read. -/
def recordsIn (t : FileTree) (here : Location) (dir : Path) : OutputManifest :=
  match readManifest t here dir with
  | .ok m => m
  | .error _ => []

theorem recordsIn_of_read {m : OutputManifest} (h : readManifest t here dir = .ok m ∨
    readManifest t here dir = .error .malformed ∧ m = []) : recordsIn t here dir = m := by
  unfold recordsIn
  rcases h with hok | ⟨herror, rfl⟩
  · rw [hok]
  · rw [herror]

/-- Whatever stands in the manifest, the names that it lists lead nowhere else. -/
theorem isOwnName_of_recordsIn {x : Json.Symbols × OutputRecord} (h : x ∈ recordsIn t here dir) :
    OutputManifest.isOwnName x.1 = true := by
  unfold recordsIn at h
  split at h
  · rename_i m hread
    unfold readManifest at hread
    split at hread
    · split at hread
      · unfold OutputManifest.ofText at hread
        rename_i text _
        cases hvalue : Json.read text with
        | error fault => rw [hvalue] at hread; cases hread
        | ok value =>
          rw [hvalue] at hread
          cases hread
          exact OutputManifest.isOwnName_of_mem h
      · cases hread
    · split at hread
      · cases hread
        exact absurd h List.not_mem_nil
      · cases hread
  · exact absurd h List.not_mem_nil

/-- A publication gives up what an earlier one recorded: it has no unit of the name, and the kind
takes part in it. -/
structure GivenUp (units : List GeneratedUnit) (kinds : Option (List String))
    (x : Json.Symbols × OutputRecord) : Prop where
  unused : ∀ u ∈ units, x.1 ≠ .ofString u.fileName
  active : ∀ ks, kinds = some ks → ∃ k ∈ ks, .ofString k = x.2.kind

theorem isStale_iff_givenUp {x : Json.Symbols × OutputRecord} :
    isStale (recordUnits units) kinds x = true ↔ GivenUp units kinds x := by
  cases kinds with
  | none =>
    unfold isStale
    rw [Bool.and_true, find?_recordUnits_isNone]
    exact ⟨fun h => ⟨h, fun _ hks => nomatch hks⟩, fun h => h.unused⟩
  | some ks =>
    rw [isStale_iff, ← Option.isNone_iff_eq_none, find?_recordUnits_isNone]
    constructor
    · rintro ⟨hunused, hactive⟩
      exact ⟨hunused, fun _ hks => Option.some.inj hks ▸ hactive⟩
    · exact fun h => ⟨h.unused, h.active ks rfl⟩

/-- The files that a publication into the directory at `L` may touch. -/
inductive MayTouch (L : Location) (units : List GeneratedUnit) (kinds : Option (List String))
    (previous : OutputManifest) : Location → Prop where
  | unit {u : GeneratedUnit} (hu : u ∈ units) : MayTouch L units kinds previous (L ++ [entryName u])
  | manifest : MayTouch L units kinds previous (manifestAt L)
  | givenUp {x : Json.Symbols × OutputRecord} (hx : x ∈ previous) (hgiven : GivenUp units kinds x) :
      MayTouch L units kinds previous (L ++ [fileOf x])

/-- Which names in its directory a publication may touch. -/
theorem mayTouch_iff {L : Location} {s : String} :
    MayTouch L units kinds previous (L ++ [s]) ↔ (∃ u ∈ units, entryName u = s) ∨
      s = OutputManifest.fileName ∨ ∃ x ∈ previous, GivenUp units kinds x ∧ fileOf x = s := by
  have hname : ∀ {r : String}, L ++ [s] = L ++ [r] → s = r := fun h =>
    (List.cons.inj (List.append_cancel_left h)).1
  constructor
  · intro h
    generalize hk : L ++ [s] = k at h
    cases h with
    | unit hu => exact .inl ⟨_, hu, (hname hk).symm⟩
    | manifest => exact .inr (.inl (hname hk))
    | givenUp hx hgiven => exact .inr (.inr ⟨_, hx, hgiven, (hname hk).symm⟩)
  · rintro (⟨u, hu, rfl⟩ | rfl | ⟨x, hx, hgiven, rfl⟩)
    · exact .unit hu
    · exact .manifest
    · exact .givenUp hx hgiven

/-! ## Steps -/

theorem sparing_removeFile {p : Path}
    (hp : P (p.locate here) ∨ base.find? (p.locate here) = some .directory) :
    Sparing base P (removeFile here p) := by
  intro t ht
  rw [leaves, run_removeFile]
  cases hremove : t.remove here p with
  | error e =>
    simp only
    split <;> exact .refl P t
  | ok u =>
    obtain ⟨l, content, hl, hfile, rfl⟩ := remove_ok_iff.mp hremove
    obtain rfl := reach_locate hl
    rcases hp with hp | hdir
    · exact spared_erase hp (by rw [hfile]; simp)
    · rw [ht _ hdir] at hfile
      cases hfile

/-- Clearing what a record names touches that file, unless a directory stands there. -/
theorem sparing_removeNamed {name : Json.Symbols}
    (hP : P ((dir.joinText name.toText).locate here) ∨
      base.find? ((dir.joinText name.toText).locate here) = some .directory) :
    Sparing base P (removeNamed here dir name) := by
  unfold removeNamed
  refine sparing_bind (sparing_removeFile hP) fun b => ?_
  cases b with
  | true => exact sparing_pure base P _
  | false => exact sparing_pure base P _

theorem sparing_writeUnit {target : Path} {u : GeneratedUnit} (hP : P (target.locate here)) :
    Sparing base P (writeUnit here target u) := by
  have hwrite : ∀ (payload : ByteArray) (same : Bool),
      Sparing base P (if same = true then pure false else do
        change fun t => t.write here target payload
        pure true : FileAction Bool) := by
    intro payload same
    cases same with
    | true => exact sparing_pure base P false
    | false => exact sparing_bind (sparing_write hP) fun _ => sparing_pure base P true
  unfold writeUnit
  split
  · exact sparing_throw base P _
  · refine sparing_bind (sparing_ask base P _) fun present => ?_
    dsimp only
    split
    · refine sparing_bind (sparing_ask base P _) fun content => ?_
      exact sparing_bind (sparing_pure base P _) (hwrite _)
    · exact sparing_bind (sparing_pure base P _) (hwrite _)

theorem sparing_writeUnits (hunits : ∀ u ∈ units, IsName u.fileName)
    (hP : ∀ u ∈ units, P (dir.locate here ++ [entryName u])) :
    Sparing base P (writeUnits here dir units) := by
  refine sparing_mapM fun u hu => ?_
  refine sparing_bind (sparing_writeUnit ?_) fun b => sparing_pure base P _
  rw [locate_name here dir (hunits u hu)]
  exact hP u hu

theorem sparing_prune (kinds : Option (List String)) (current : OutputManifest)
    (hP : ∀ x ∈ previous, isStale current kinds x = true →
      P ((dir.joinText x.1.toText).locate here) ∨
        base.find? ((dir.joinText x.1.toText).locate here) = some .directory) :
    Sparing base P (prune here dir kinds previous current) := by
  refine sparing_foldlM _ fun x hx state => ?_
  have hmem : x ∈ previous := (List.mem_filter.mp (OutputManifest.mem_inOrder.mp hx)).1
  unfold pruneOne
  by_cases hs : isStale current kinds x = true
  · rw [if_pos hs]
    refine sparing_bind (sparing_removeNamed (hP x hmem hs)) fun o => ?_
    cases o with
    | some path => exact sparing_pure base P _
    | none => exact sparing_pure base P _
  · rw [if_neg hs]
    exact sparing_pure base P _

/-- Whatever name the manifest lists, the file that it stands for is one of the directory, or a
directory stands there. -/
theorem touched_or_directory {x : Json.Symbols × OutputRecord}
    (hown : OutputManifest.isOwnName x.1 = true)
    (hd : base.find? (dir.locate here) = some .directory)
    (hup : base.find? (dir.locate here).dropLast = some .directory)
    (hP : P (dir.locate here ++ [fileOf x])) :
    P ((dir.joinText x.1.toText).locate here) ∨
      base.find? ((dir.joinText x.1.toText).locate here) = some .directory := by
  by_cases hisName : IsName x.1.toText
  · left
    rwa [locate_name here dir hisName]
  · right
    rcases locate_of_not_isName here dir (no_slash_of_isOwnName hown) hisName with h | h
    · rw [h]
      exact hd
    · rw [h]
      exact hup

/-- **Whatever is published touches only what it may**, even if it fails on the way. -/
theorem sparing_publishOver (kinds : Option (List String)) (time : String)
    (hunits : ∀ u ∈ units, IsName u.fileName)
    (hown : ∀ x ∈ previous, OutputManifest.isOwnName x.1 = true)
    (hd : base.find? (dir.locate here) = some .directory)
    (hup : base.find? (dir.locate here).dropLast = some .directory) :
    Sparing base (MayTouch (dir.locate here) units kinds previous)
      (publishOver here dir units kinds time previous) := by
  unfold publishOver
  refine sparing_bind (sparing_writeUnits hunits fun u hu => .unit hu) fun targets => ?_
  refine sparing_bind (sparing_prune kinds _ fun x hx hs => ?_) fun pruned => ?_
  · exact touched_or_directory (hown x hx) hd hup (.givenUp hx (isStale_iff_givenUp.mp hs))
  · refine sparing_bind (sparing_write ?_) fun _ => sparing_pure base _ _
    rw [locate_manifest]
    exact .manifest

/-- A publication that fails has not written the manifest. -/
theorem spared_of_not_returns {time : String} (hunits : ∀ u ∈ units, IsName u.fileName)
    (hP : ∀ u ∈ units, P (dir.locate here ++ [entryName u]))
    (hP' : ∀ x ∈ previous, GivenUp units kinds x →
      P ((dir.joinText x.1.toText).locate here) ∨
        t.find? ((dir.joinText x.1.toText).locate here) = some .directory)
    (h : ∀ r v, ¬ Returns (publishOver here dir units kinds time previous) t r v) :
    Spared P t ((publishOver here dir units kinds time previous).leaves t) := by
  have hwrite := sparing_writeUnits hunits hP t (.refl t)
  have hprune : Sparing t P (prune here dir kinds previous (recordUnits units)) :=
    sparing_prune kinds (recordUnits units) fun x hx hs => hP' x hx (isStale_iff_givenUp.mp hs)
  unfold publishOver at h ⊢
  rcases leaves_bind (writeUnits here dir units) _ t with hleaves | ⟨targets, w₁, hw₁, hleaves⟩
  · rwa [hleaves]
  · rw [leaves_of_returns hw₁] at hwrite
    have hprune := hprune w₁ hwrite.forth
    rw [hleaves]
    rcases leaves_bind (prune here dir kinds previous (recordUnits units)) _ w₁
      with hleaves | ⟨⟨m, removed⟩, w₂, hw₂, hleaves⟩
    · rw [hleaves]
      exact hwrite.trans hprune
    · rw [leaves_of_returns hw₂] at hprune
      -- once the manifest is written, nothing is left that could fail
      have hunwritten : ∀ w₃, ¬ Returns (change fun t =>
          t.write here (dir.joinText OutputManifest.fileName) (m.text time).toUTF8) w₂ () w₃ := by
        intro w₃ hw₃
        have hrest := fun r v hlast => h r v (returns_bind.mpr ⟨targets, w₁, hw₁,
          returns_bind.mpr ⟨(m, removed), w₂, hw₂, hlast⟩⟩)
        exact hrest _ w₃ (returns_bind.mpr ⟨(), w₃, hw₃, returns_pure.mpr ⟨rfl, rfl⟩⟩)
      rw [hleaves]
      rcases leaves_bind (change fun t => t.write here (dir.joinText OutputManifest.fileName)
        (m.text time).toUTF8) _ w₂ with hleaves | ⟨_, w₃, hw₃, -⟩
      · rw [hleaves]
        rcases leaves_change (fun t => t.write here (dir.joinText OutputManifest.fileName)
          (m.text time).toUTF8) w₂ with hleaves | hok
        · rw [hleaves]
          exact hwrite.trans hprune
        · exact absurd (returns_change.mpr hok) (hunwritten _)
      · exact absurd hw₃ (hunwritten w₃)

/-! ## What a publication accounts for -/

/-- No other text of a file has the digest of a unit that is to be there. -/
def DigestsTell (L : Location) (units : List GeneratedUnit) (t : FileTree) : Prop :=
  ∀ u ∈ units, ∀ content, t.fileAt (L ++ [entryName u]) = some content →
    Sha256.hex content = Sha256.hex u.text.toUTF8 → content = u.text.toUTF8

/-- No name that is given up stands for the file of a unit. -/
def Apart (units : List GeneratedUnit) (kinds : Option (List String)) (previous : OutputManifest) :
    Prop :=
  ∀ x ∈ previous, GivenUp units kinds x → ∀ u ∈ units, fileOf x ≠ entryName u

/-- Names without halves of pairs do so only under the name itself. -/
theorem apart_of_plain (hunits : ∀ u ∈ units, Text.holdsHalf u.fileName = false)
    (h : ∀ x ∈ previous, ∃ s, x.1 = .ofString s ∧ Text.holdsHalf s = false) :
    Apart units kinds previous := by
  intro x hx hgiven u hu hfile
  obtain ⟨s, hs, hplain⟩ := h x hx
  rw [fileOf_ofString hs, FileName.onDisk_of_plain hplain, entryName,
    FileName.onDisk_of_plain (hunits u hu)] at hfile
  exact hgiven.unused u hu (hs.trans (congrArg _ hfile))

/-- What a publication into the directory at `L` reports, and what it did to the files there. -/
structure Accounts (L : Location) (dir : Path) (units : List GeneratedUnit)
    (kinds : Option (List String)) (previous : OutputManifest) (t : FileTree) (r : WriteReport)
    (v : FileTree) : Prop where
  /-- Every unit is reported once, in the order of the units: as written, or as unchanged, and then
  its file had the text before. -/
  reported : ∃ bs : List Bool, bs.length = units.length ∧
    r.written = (((units.map (target dir)).zip bs).filter (·.2)).map (·.1) ∧
    r.unchanged = (((units.map (target dir)).zip bs).filter fun x => !x.2).map (·.1) ∧
    ((units.map entryName).Nodup → DigestsTell L units t →
      ∀ u, (u, false) ∈ units.zip bs → t.fileAt (L ++ [entryName u]) = some u.text.toUTF8)
  /-- Every unit has its text, if no two of them share a file. -/
  texts : (units.map entryName).Nodup → DigestsTell L units t → Apart units kinds previous →
    ∀ u ∈ units, v.fileAt (L ++ [entryName u]) = some u.text.toUTF8
  /-- The files that are given up and were there are reported as removed, each once and in the order
  of their names. -/
  removed : ∃ xs : OutputManifest, (∀ x ∈ xs, x ∈ previous ∧ GivenUp units kinds x) ∧
    xs.Pairwise (fun a b => Json.Symbols.precedes a.1 b.1 = true) ∧
    r.removed = xs.map (fun x => dir.joinText x.1.toText) ∧ (xs.map fileOf).Nodup ∧
    (Apart units kinds previous → ∀ s, s ∈ xs.map fileOf ↔
      (∃ x ∈ previous, GivenUp units kinds x ∧ fileOf x = s) ∧
        (t.fileAt (L ++ [s])).isSome = true)
  /-- The files that are given up are gone, except for the manifest, which is written anew. -/
  gone : ∀ x ∈ previous, GivenUp units kinds x → fileOf x ≠ OutputManifest.fileName →
    v.find? (L ++ [fileOf x]) = none

theorem sorted_staleRecords (units : List GeneratedUnit) (kinds : Option (List String))
    (previous : OutputManifest) : (staleRecords units kinds previous).Pairwise
      fun a b => Json.Symbols.precedes a.1 b.1 = true :=
  (OutputManifest.sorted_inOrder _).sublist List.filter_sublist

theorem mem_staleRecords_iff {x : Json.Symbols × OutputRecord} :
    x ∈ staleRecords units kinds previous ↔ x ∈ previous ∧ GivenUp units kinds x := by
  rw [mem_staleRecords, isStale_iff_givenUp]

/-- The files that are given up are those of the stale records. -/
theorem mem_staleFiles {s : String} : s ∈ (staleRecords units kinds previous).map fileOf ↔
    ∃ x ∈ previous, GivenUp units kinds x ∧ fileOf x = s := by
  simp only [List.mem_map, mem_staleRecords_iff, and_assoc]

/-- No file that is given up is that of a unit. -/
theorem Apart.ne_staleFile (h : Apart units kinds previous) {s : String}
    (hs : s ∈ (staleRecords units kinds previous).map fileOf) {u : GeneratedUnit} (hu : u ∈ units) :
    s ≠ entryName u := by
  obtain ⟨x, hx, hgiven, rfl⟩ := mem_staleFiles.mp hs
  exact h x hx hgiven u hu

/-- **What publishing over an earlier run accounts for.** The directory had been made before. -/
theorem accounts_publishOver {time : String} {r : WriteReport}
    (hunits : ∀ u ∈ units, IsName u.fileName)
    (hown : ∀ x ∈ previous, OutputManifest.isOwnName x.1 = true)
    (hr : t.reach here dir = .ok (dir.locate here))
    (hd : t.find? (dir.locate here) = some .directory)
    (hup : t.find? (dir.locate here).dropLast = some .directory)
    (h : Returns (publishOver here dir units kinds time previous) t r v) :
    Accounts (dir.locate here) dir units kinds previous t r v := by
  obtain ⟨-, -, bs, w₁, w₂, hall, hcleared, -, rfl, hwritten, hunchanged⟩ :=
    returns_publishOver_cleared hunits (fun x hx _ u o w hu hremoved =>
      isName_of_returns (hown x hx) (reach_mono hu hr) (hu _ hd) (hu _ hup) hremoved) hr hd h
  have hpruned := hcleared.pruned
  obtain ⟨xs, hsub, hremoved, hnodup, hmem⟩ := hcleared.reported
  refine ⟨⟨bs, hall.length_eq, hwritten, hunchanged, ?_⟩, ?_,
    ⟨xs, ?_, ?_, hremoved, hnodup, ?_⟩, ?_⟩
  · intro hn htell u hu
    obtain ⟨content, hat, hdigest⟩ := hall.kept hn u hu
    rw [hat, htell u (List.of_mem_zip hu).1 content hat hdigest]
  · intro hn htell hapart u hu
    obtain ⟨content, hat, hdigest, hbefore⟩ := hall.fileAt hn u hu
    rw [hpruned.fileAt_unit fun s hs => (hapart.ne_staleFile hs hu).symm, hat]
    rcases hbefore with hthere | rfl
    · rw [htell u hu content hthere hdigest]
    · rfl
  · exact fun x hx => mem_staleRecords_iff.mp (hsub.subset hx)
  · exact (sorted_staleRecords units kinds previous).sublist hsub
  · intro hapart s
    rw [hmem, ← mem_staleFiles]
    refine and_congr_right fun hs => ?_
    -- where a file is given up, no unit was written
    rw [fileAt_of_find? (hall.find?_of_ne fun u hu => append_name_ne (hapart.ne_staleFile hs hu))]
  · intro x hx hgiven hs
    have hne : dir.locate here ++ [fileOf x] ≠ manifestAt (dir.locate here) := append_name_ne hs
    rw [find?_put_of_ne hne]
    exact hpruned.gone _ (mem_staleFiles.mpr ⟨x, hx, hgiven, rfl⟩)

/-- It accounts for what files are in the directory, and for nothing else. -/
theorem Accounts.congr {L : Location} {t' v' : FileTree} {r : WriteReport}
    (h : Accounts L dir units kinds previous t r v)
    (ht : ∀ s, t'.fileAt (L ++ [s]) = t.fileAt (L ++ [s]))
    (hv : ∀ s, v'.find? (L ++ [s]) = v.find? (L ++ [s])) :
    Accounts L dir units kinds previous t' r v' := by
  have htell : DigestsTell L units t' → DigestsTell L units t := fun htell u hu content hat =>
    htell u hu content ((ht _).trans hat)
  obtain ⟨bs, hlen, hwritten, hunchanged, hkept⟩ := h.reported
  obtain ⟨xs, hgiven, hsorted, hremoved, hnodup, hmem⟩ := h.removed
  refine ⟨⟨bs, hlen, hwritten, hunchanged, ?_⟩, ?_, ⟨xs, hgiven, hsorted, hremoved, hnodup, ?_⟩, ?_⟩
  · intro hn hd u hu
    rw [ht]
    exact hkept hn (htell hd) u hu
  · intro hn hd hapart u hu
    rw [fileAt_of_find? (hv _)]
    exact h.texts hn (htell hd) hapart u hu
  · intro hapart s
    rw [ht]
    exact hmem hapart s
  · intro x hx hx' hs
    rw [hv]
    exact h.gone x hx hx' hs

/-- The tree `u` is `t` but for files at the locations of `P` and for directories that the path
names. -/
structure Confined (here : Location) (p : Path) (P : Location → Prop) (t u : FileTree) : Prop where
  files : ∀ k, ¬ P k → u.fileAt k = t.fileAt k
  forth : HasDirectories t u
  back : ∀ k, u.find? k = some .directory → t.find? k = some .directory ∨
    ∃ q : Path, q.start = p.start ∧ q.parts <+: p.parts ∧ k = q.locate here

theorem confined_of_widened {u : FileTree} {p : Path} (h : Widened here p t v) (hP : Spared P v u) :
    Confined here p P t u where
  files k hk := (fileAt_of_find? (hP.others k hk)).trans (h.files k)
  forth := h.forth.trans hP.forth
  back k hk := h.back k (hP.back k hk)

end Output

/-! ## Sessions -/

namespace Setting

open FileAction FileTree Output

variable {E : Setting} {s s' : Session}

theorem leaves_previousManifest (E : Setting) (dir : Path) (s : Session) :
    OnlyLogged s ((E.previousManifest dir).leaves s) := by
  unfold previousManifest
  rcases Course.leaves_bind (Course.ask fun t => .ok (readManifest t E.surroundings.here dir)) _ s
    with hleaves | ⟨result, t, hask, hleaves⟩
  · rw [hleaves]
    exact .refl s
  · obtain ⟨-, rfl⟩ := Course.answers_ask.mp hask
    rw [hleaves]
    rcases result with (_ | _ | _) | m
    · exact onlyLogged_note t _ _
    · exact .refl t
    · exact .refl t
    · exact .refl t

/-- What a publication takes over from earlier ones, after its directory was made. -/
def takenOver (E : Setting) (dir : Path) (s : Session) : OutputManifest :=
  recordsIn ((ensureDirectories E.surroundings.here dir).leaves s.files) E.surroundings.here dir

/-- **What a publication leaves, whether it answers or fails.** The directory is made as far as that
succeeds. If there is one and its manifest is no obstacle, the units are published over what it
lists, again as far as that succeeds, and then the publication answers. Notes are made in
between. -/
theorem leaves_publish (E : Setting) (dir : Path) (units : List GeneratedUnit)
    (kinds : Option (List String)) (s : Session) :
    ∃ s₂,
      OnlyLogged { s with files := (ensureDirectories E.surroundings.here dir).leaves s.files } s₂ ∧
      ((E.publish dir units kinds).leaves s = s₂ ∨
        ∃ w, (ensureDirectories E.surroundings.here dir).Returns s.files () w ∧
          (∀ r v, (publishOver E.surroundings.here dir units kinds E.clock.updated
            (E.takenOver dir s)).Returns s₂.files r v →
              ∃ s', (E.publish dir units kinds).Answers s r s') ∧
          OnlyLogged
            { s₂ with
              files := (publishOver E.surroundings.here dir units kinds E.clock.updated
                (E.takenOver dir s)).leaves s₂.files }
            ((E.publish dir units kinds).leaves s)) := by
  unfold publish
  rcases Course.leaves_bind (Course.act (ensureDirectories E.surroundings.here dir)) _ s
    with hleaves | ⟨_, s₁, hmake, hleaves⟩
  · rw [hleaves, Course.leaves_act]
    exact ⟨_, .refl _, .inl rfl⟩
  · obtain ⟨w, hmade, rfl⟩ := Course.answers_act.mp hmake
    rw [hleaves, leaves_of_returns hmade]
    rcases Course.leaves_bind (E.previousManifest dir) _ { s with files := w }
      with hleaves | ⟨previous, s₂, hprevious, hleaves⟩
    · exact ⟨_, leaves_previousManifest E dir _, .inl hleaves⟩
    · obtain ⟨hlogged, hread⟩ := answers_previousManifest hprevious
      have htaken : E.takenOver dir s = previous := by
        unfold takenOver
        rw [leaves_of_returns hmade, recordsIn_of_read hread]
      refine ⟨s₂, hlogged, .inr ⟨w, hmade, fun r v hover => ?_, ?_⟩⟩
      · rw [htaken] at hover
        exact ⟨_, Course.answers_bind.mpr ⟨(), _, hmake, Course.answers_bind.mpr ⟨_, _, hprevious,
          Course.answers_bind.mpr ⟨r, _, Course.answers_act.mpr ⟨v, hover, rfl⟩,
            Course.answers_bind.mpr ⟨(), _, Course.answers_note.mpr rfl,
              Course.answers_pure.mpr ⟨rfl, rfl⟩⟩⟩⟩⟩⟩
      · rw [hleaves, htaken]
        rcases Course.leaves_bind (Course.act _) _ s₂ with hleaves | ⟨r, s₃, hact, hleaves⟩
        · rw [hleaves, Course.leaves_act]
          exact .refl _
        · obtain ⟨v, hover, rfl⟩ := Course.answers_act.mp hact
          rw [leaves_of_returns hover, hleaves]
          exact onlyLogged_note _ _ _

/-- Notes touch the log file alone. -/
theorem spared_of_onlyLogged {P : Location → Prop} (h : OnlyLogged s s')
    (hP : ∀ l, s.logFile = some l → P l) : Spared P s.files s'.files where
  others k hk := h.others k fun hlog => hk (hP k hlog)
  forth := h.forth
  back := h.back

/-- A publication is confined to what it may touch, whether it answers or fails. -/
theorem confined_publish {dir : Path} {units : List GeneratedUnit} (kinds : Option (List String))
    (hunits : ∀ u ∈ units, IsName u.fileName) (hg : s.files.Grounded)
    (hhere : s.files.find? E.surroundings.here = some .directory) :
    Confined E.surroundings.here dir
      (fun k => s.logFile = some k ∨
        MayTouch (dir.locate E.surroundings.here) units kinds (E.takenOver dir s) k)
      s.files ((E.publish dir units kinds).leaves s).files := by
  have hwide := widened_ensureDirectories E.surroundings.here dir s.files
  have hown : ∀ x ∈ E.takenOver dir s, OutputManifest.isOwnName x.1 = true :=
    fun x hx => isOwnName_of_recordsIn hx
  obtain ⟨s₂, hlogged, hleaves⟩ := leaves_publish E dir units kinds s
  have hspared := spared_of_onlyLogged hlogged (P := fun k => s.logFile = some k ∨
    MayTouch (dir.locate E.surroundings.here) units kinds (E.takenOver dir s) k) fun l => .inl
  rcases hleaves with hleaves | ⟨w, hmade, -, hlast⟩
  · rw [hleaves]
    exact confined_of_widened hwide hspared
  · have hw := leaves_of_returns hmade
    rw [hw] at hwide hspared
    obtain ⟨-, hd⟩ := ensureDirectories_reaches hmade
    have hup := Grounded.up (hw ▸ grounded_ensureDirectories hg hhere dir) hd
    have hover :=
      sparing_publishOver kinds E.clock.updated hunits hown hd hup s₂.files hspared.forth
    refine confined_of_widened hwide ((hspared.trans (hover.mono fun k => .inr)).trans ?_)
    refine spared_of_onlyLogged hlast fun l hl => .inl ?_
    rcases hlogged.log with hnone | hsame
    · cases hnone.symm.trans hl
    · exact hsame.symm.trans hl

/-- A publication that answers accounts for the files of its directory. -/
theorem accounts_publish {dir : Path} {units : List GeneratedUnit} {kinds : Option (List String)}
    {r : WriteReport} (hunits : ∀ u ∈ units, IsName u.fileName) (hg : s.files.Grounded)
    (hhere : s.files.find? E.surroundings.here = some .directory)
    (hlog : LogsOutside (dir.locate E.surroundings.here) s)
    (h : (E.publish dir units kinds).Answers s r s') :
    Accounts (dir.locate E.surroundings.here) dir units kinds (E.takenOver dir s) s.files r
      s'.files := by
  obtain ⟨w, s₂, v, previous, hmade, hlogged, hread, hpublish, hlast⟩ := answers_publish h
  have hw := leaves_of_returns hmade
  obtain ⟨hr, hd⟩ := ensureDirectories_reaches hmade
  have hup := Grounded.up (hw ▸ grounded_ensureDirectories hg hhere dir) hd
  have hprevious : E.takenOver dir s = previous := by
    unfold takenOver
    rw [hw, recordsIn_of_read hread]
  have hown : ∀ x ∈ previous, OutputManifest.isOwnName x.1 = true :=
    fun x hx => isOwnName_of_recordsIn (hprevious ▸ hx)
  have hlogs₂ := (hlogged.undisturbed (L := dir.locate E.surroundings.here) hlog).2
  rw [hprevious]
  refine (accounts_publishOver hunits hown (reach_mono hlogged.forth hr) (hlogged.forth _ hd)
    (hlogged.forth _ hup) hpublish).congr ?_ ?_
  · intro x
    rw [fileAt_of_find? (hlogged.others _ (hlog _ (List.cons_ne_nil _ _))),
      ensureDirectories_fileAt hmade]
  · exact fun x => hlast.others _ (hlogs₂ _ (List.cons_ne_nil _ _))

/-- **A publication touches nothing that it does not own**, whatever stands in the manifest and
whether it answers or fails: it owns the files of its units, the manifest, and the files that the
manifest lists and the publication gives up. It makes its directory and what is missing above it.
When it answers, it accounts for every one of these files. -/
theorem publish_owned (E : Setting) (dir : Path) (units : List GeneratedUnit)
    (kinds : Option (List String))
    (hunits : ∀ u ∈ units, '/' ∉ u.fileName.toList) (hg : s.files.Grounded)
    (hhere : s.files.find? E.surroundings.here = some .directory) :
    let L := dir.locate E.surroundings.here
    Confined E.surroundings.here dir
        (fun k => s.logFile = some k ∨ MayTouch L units kinds (E.takenOver dir s) k)
        s.files ((E.publish dir units kinds).leaves s).files ∧
      ∀ r s', (E.publish dir units kinds).Answers s r s' → LogsOutside L s →
        Accounts L dir units kinds (E.takenOver dir s) s.files r s'.files := by
  have hnames : ∀ u ∈ units, IsName u.fileName := fun u hu => isName_fileName (hunits u hu)
  exact ⟨confined_publish kinds hnames hg hhere,
    fun r s' h hlog => accounts_publish hnames hg hhere hlog h⟩

end Setting

open FileTree Output

/-! A directory with a file of its own and one that an earlier run recorded. -/

/-- A session with the files of an output directory, and a manifest that lists one of them. -/
def recordedSession (name : Json.Symbols) (files : List (String × String)) : Session :=
  { files := ⟨(["out"], .directory) ::
      (["out", OutputManifest.fileName],
        .file (OutputManifest.text [(name, ⟨[], .ofString "resolver"⟩)] "").toUTF8) ::
      files.map fun x => (["out", x.1], .file x.2.toUTF8)⟩ }

def sweptSession : Session :=
  recordedSession (.ofString "Old.cs") [("notes.txt", "mine"), ("Old.cs", "class Old;")]

theorem grounded_swept : sweptSession.files.Grounded :=
  (IsProper.of_entries (by decide +kernel) (by decide +kernel)).grounded

theorem takenOver_swept : ({} : Setting).takenOver playerDir sweptSession =
    [(.ofString "Old.cs", ⟨[], .ofString "resolver"⟩)] := by
  have hstored : OutputManifest.IsStored [(.ofString "Old.cs", ⟨[], .ofString "resolver"⟩)] := by
    refine ⟨List.nodup_singleton _, ?_, ?_, ?_⟩ <;>
      · rintro x hx
        rw [List.mem_singleton.mp hx]
        decide +kernel
  have hthere := FileAction.ensureDirectories_there (t := sweptSession.files) (p := playerDir)
    (by decide +kernel : sweptSession.files.reach [] playerDir = _) rfl
  have hread := readManifest_text hstored (read_ok_iff.mpr ⟨["out", OutputManifest.fileName],
    (by decide +kernel : sweptSession.files.reach [] (playerDir.joinText _) = _), rfl⟩)
  unfold Setting.takenOver
  rw [FileAction.leaves_of_returns hthere, recordsIn_of_read (.inl hread)]
  decide +kernel

/-- The file of its own is as it was, the recorded one is gone and the unit has its file. -/
theorem player_swept :
    ∃ s', (({} : Setting).publish playerDir [playerUnit] (some ["resolver"])).Answers sweptSession
        ⟨[target playerDir playerUnit], [], [playerDir.joinText "Old.cs"]⟩ s' ∧
      s'.files.fileAt ["out", "notes.txt"] = some "mine".toUTF8 ∧
      s'.files.fileAt ["out", "Player_Resolver.g.cs"] = some "class Player;".toUTF8 ∧
      s'.files.find? ["out", "Old.cs"] = none := by
  have hanswers := answers_of_toOption (s := sweptSession)
    (m := ({} : Setting).publish playerDir [playerUnit] (some ["resolver"]))
    (a := ⟨[target playerDir playerUnit], [], [playerDir.joinText "Old.cs"]⟩) (by decide +kernel)
  obtain ⟨hconfined, haccounts⟩ := Setting.publish_owned {} playerDir [playerUnit]
    (some ["resolver"]) (by decide +kernel) grounded_swept rfl
  have hover := takenOver_swept
  have hall := haccounts _ _ hanswers fun _ _ => nofun
  rw [hover] at hconfined hall
  have hgiven : GivenUp [playerUnit] (some ["resolver"])
      (.ofString "Old.cs", ⟨[], .ofString "resolver"⟩) :=
    isStale_iff_givenUp.mp (by decide +kernel)
  refine ⟨_, hanswers, ?_, ?_, ?_⟩
  · rw [← Course.leaves_of_answers hanswers]
    refine (hconfined.files ["out", "notes.txt"] ?_).trans (by decide +kernel)
    rintro (hlog | htouch)
    · cases hlog
    · rcases mayTouch_iff.mp htouch with ⟨u, hu, hname⟩ | hname | ⟨x, hx, -, hname⟩
      · rw [List.mem_singleton.mp hu] at hname
        exact absurd hname (by decide +kernel)
      · exact absurd hname (by decide +kernel)
      · rw [List.mem_singleton.mp hx, fileOf_ofString rfl] at hname
        exact absurd hname (by decide +kernel)
  · refine hall.texts (by decide +kernel) ?_ ?_ playerUnit List.mem_cons_self
    · intro u hu content hat
      rw [List.mem_singleton.mp hu] at hat
      cases hat.symm.trans (by decide +kernel : _ = none)
    · exact apart_of_plain (by decide +kernel) fun x hx =>
        ⟨"Old.cs", by rw [List.mem_singleton.mp hx], by decide +kernel⟩
  · have hfile : fileOf (.ofString "Old.cs", ⟨[], .ofString "resolver"⟩) = "Old.cs" := by
      decide +kernel
    rw [← hfile]
    exact hall.gone _ List.mem_cons_self hgiven (by decide +kernel)

/-! A manifest may name the file of a unit by its bytes, and then it is taken for another one. -/

def accentUnit : GeneratedUnit := ⟨"É", "class É;", "resolver", "É", "É.cs"⟩

/-- The name `É.cs` with a half of a pair for each byte of its first character. -/
def accentBytes : Json.Symbols := [.half 0xDCC3, .half 0xDC89] ++ Json.Symbols.ofString ".cs"

def accentSession : Session := recordedSession accentBytes []

theorem grounded_accent : accentSession.files.Grounded :=
  (IsProper.of_entries (by decide +kernel) (by decide +kernel)).grounded

/-- The unit is written, its file was not there before, and it is gone afterwards. -/
theorem accent_cleared :
    (∀ u ∈ [accentUnit], '/' ∉ u.fileName.toList) ∧ ([accentUnit].map entryName).Nodup ∧
      accentSession.files.Grounded ∧ LogsOutside ["out"] accentSession ∧
      DigestsTell ["out"] [accentUnit] accentSession.files ∧
      ∃ s', (({} : Setting).publish playerDir [accentUnit] none).Answers accentSession
          ⟨[target playerDir accentUnit], [], [playerDir.joinText accentBytes.toText]⟩ s' ∧
        s'.files.fileAt ["out", entryName accentUnit] = none := by
  obtain ⟨r, s', hanswers, hcheck⟩ := Course.answers_of_passes
    (by decide +kernel : Course.passes (({} : Setting).publish playerDir [accentUnit] none)
      accentSession (fun r s' =>
        r = ⟨[target playerDir accentUnit], [], [playerDir.joinText accentBytes.toText]⟩ ∧
          s'.files.fileAt ["out", entryName accentUnit] = none) = true)
  obtain ⟨rfl, hgone⟩ := of_decide_eq_true hcheck
  refine ⟨by decide +kernel, by decide +kernel, grounded_accent, fun _ _ => nofun, ?_, s', hanswers,
    hgone⟩
  intro u hu content hat
  rw [List.mem_singleton.mp hu] at hat
  cases hat.symm.trans (by decide +kernel : _ = none)

end FieldWiring
