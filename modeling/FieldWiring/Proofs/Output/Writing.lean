import FieldWiring.Output.Publish
import FieldWiring.Proofs.Files.Acts

/-!
# Writing units

What it takes to write units into a directory, and what is left of it afterwards. A unit is written
at its own location alone, and it is written only when no file with its digest is there.

Results:
* `returns_writeUnit`: writing one unit, as far as it succeeds, is `Wrote`.
* `returns_writeUnits_cons`: units are written one by one.
* `writeUnit_kept`, `writeUnits_kept`: units whose files have their digests are left alone.
* `WroteAll.fileAt`: after all units are written, the file of each has its digest.
* `kept_of_unwritten`: when no unit was written, the file of each had its digest already.
-/

namespace FieldWiring

namespace Output

open FileAction FileTree

variable {here : Location} {t v : FileTree}

/-! ## Names of units -/

/-- A unit's file name without a slash is the name of an entry. -/
theorem isName_fileName {u : GeneratedUnit} (h : '/' ∉ u.fileName.toList) : IsName u.fileName := by
  have hlen : 3 ≤ u.fileName.length := by
    have hcs : ".cs".length = 3 := by decide
    unfold GeneratedUnit.fileName
    rw [String.length_append, hcs]
    omega
  refine ⟨?_, ?_, ?_, h⟩
  · intro heq
    rw [heq] at hlen
    exact absurd hlen (by decide)
  · intro heq
    rw [heq] at hlen
    exact absurd hlen (by decide)
  · intro heq
    rw [heq] at hlen
    exact absurd hlen (by decide)

/-- The name by which the directory lists the file of a unit. -/
def entryName (u : GeneratedUnit) : String := FileName.onDisk u.fileName

/-- The file of no unit is the manifest. -/
theorem entryName_ne_manifest (u : GeneratedUnit) : entryName u ≠ OutputManifest.fileName := by
  intro heq
  have hcs : ".cs".toList = ['.', 'c', 's'] := by decide +kernel
  have hjson : OutputManifest.fileName.toList.getLast? = some 'n' := by decide +kernel
  obtain ⟨start, hstart⟩ : ∃ start, entryName u = start ++ ".cs" :=
    FileName.onDisk_append_ascii u.hintName ".cs" (by simp)
  have hlast : (start ++ ".cs").toList.getLast? = some 's' := by
    rw [String.toList_append, hcs, List.getLast?_append]
    rfl
  rw [← hstart, heq, hjson] at hlast
  exact absurd hlast (by decide)

/-! ## Single units -/

/-- Writing `u` at `l` turned `t` into `v`: either there was a file with the digest of the unit, and
it was left alone, or there was none, and the unit was written. `b` tells which. -/
inductive Wrote (u : GeneratedUnit) (l : Location) (t : FileTree) : Bool → FileTree → Prop where
  | kept {content : ByteArray} (there : t.fileAt l = some content)
      (same : Sha256.hex content = Sha256.hex u.text.toUTF8) : Wrote u l t false t
  | written (free : t.find? l ≠ some .directory)
      (differs : ∀ content, t.fileAt l = some content →
        Sha256.hex content ≠ Sha256.hex u.text.toUTF8) :
      Wrote u l t true (t.put l (.file u.text.toUTF8))

namespace Wrote

variable {u : GeneratedUnit} {l k : Location} {b : Bool}

theorem find?_of_ne (h : Wrote u l t b v) (hk : k ≠ l) : v.find? k = t.find? k := by
  cases h with
  | kept => rfl
  | written => exact find?_put_of_ne hk

theorem hasDirectories (h : Wrote u l t b v) : HasDirectories t v := by
  cases h with
  | kept => exact .refl t
  | written free => exact hasDirectories_put free

theorem hasDirectories_back (h : Wrote u l t b v) : HasDirectories v t := by
  cases h with
  | kept => exact .refl t
  | written free => exact hasDirectories_of_put_file free

/-- Afterwards the file has the digest of the unit: it was there, or it is the unit. -/
theorem fileAt (h : Wrote u l t b v) :
    ∃ content, v.fileAt l = some content ∧ Sha256.hex content = Sha256.hex u.text.toUTF8 ∧
      (t.fileAt l = some content ∨ content = u.text.toUTF8) := by
  cases h with
  | kept there same => exact ⟨_, there, same, .inl there⟩
  | written free differs =>
    refine ⟨_, ?_, rfl, .inr rfl⟩
    exact fileAt_eq_some.mpr (find?_put_self (ne_nil_of_not_directory free))

end Wrote

/-- What is asked before a unit is written: whether its file has the unit's digest already. -/
theorem look_fileAt {l : Location} {p : Path} (hl : t.reach here p = .ok l) {e : Option Entry}
    (h : t.look here p = .ok e) : t.find? l = e := by
  unfold look at h
  rw [hl] at h
  exact Except.ok.inj h

theorem returns_writeUnit {target : Path} {u : GeneratedUnit} {b : Bool}
    (h : Returns (writeUnit here target u) t b v) :
    Text.holdsHalf u.text = false ∧ ∃ l, t.reach here target = .ok l ∧ Wrote u l t b v := by
  unfold writeUnit at h
  cases hencode : Text.encode? u.text with
  | none =>
    rw [hencode] at h
    exact absurd h returns_throw
  | some payload =>
    obtain ⟨hhalf, rfl⟩ := Text.encode?_eq_some_iff.mp hencode
    rw [hencode] at h
    refine ⟨hhalf, ?_⟩
    obtain ⟨present, w, hlook, hrest⟩ := returns_bind.mp h
    obtain ⟨hlook, rfl⟩ := returns_ask.mp hlook
    cases present with
    | none =>
      obtain ⟨same, w', hsame, hwrite⟩ := returns_bind.mp hrest
      obtain ⟨rfl, rfl⟩ := returns_pure.mp hsame
      obtain ⟨_, w'', hchange, hdone⟩ := returns_bind.mp hwrite
      obtain ⟨rfl, rfl⟩ := returns_pure.mp hdone
      obtain ⟨l, hl, hfree, rfl⟩ := write_ok_iff.mp (returns_change.mp hchange)
      refine ⟨l, hl, .written hfree ?_⟩
      intro content hcontent
      rw [fileAt_eq_some, look_fileAt hl hlook] at hcontent
      cases hcontent
    | some e =>
      obtain ⟨content, w', hask, hcompare⟩ := returns_bind.mp hrest
      obtain ⟨hread, rfl⟩ := returns_ask.mp hask
      obtain ⟨same, w'', hsame, hwrite⟩ := returns_bind.mp hcompare
      obtain ⟨rfl, rfl⟩ := returns_pure.mp hsame
      obtain ⟨l, hl, hfile⟩ := read_ok_iff.mp hread
      have hat := fileAt_eq_some.mpr hfile
      refine ⟨l, hl, ?_⟩
      simp only [decide_eq_true_eq] at hwrite
      by_cases heq : Sha256.hex content = Sha256.hex u.text.toUTF8
      · rw [if_pos heq] at hwrite
        obtain ⟨rfl, rfl⟩ := returns_pure.mp hwrite
        exact .kept hat heq
      · rw [if_neg heq] at hwrite
        obtain ⟨_, w, hchange, hdone⟩ := returns_bind.mp hwrite
        obtain ⟨rfl, rfl⟩ := returns_pure.mp hdone
        obtain ⟨l', hl', hfree, rfl⟩ := write_ok_iff.mp (returns_change.mp hchange)
        cases hl.symm.trans hl'
        refine .written hfree fun content' hcontent' => ?_
        cases hat.symm.trans hcontent'
        exact heq

/-- A unit whose file has its digest already is left alone. -/
theorem writeUnit_kept {l : Location} {target : Path} {u : GeneratedUnit} {content : ByteArray}
    (hh : Text.holdsHalf u.text = false) (hl : t.reach here target = .ok l)
    (there : t.fileAt l = some content)
    (same : Sha256.hex content = Sha256.hex u.text.toUTF8) :
    Returns (writeUnit here target u) t false t := by
  have hfile := fileAt_eq_some.mp there
  have hlook : t.look here target = .ok (some (.file content)) := look_some_iff.mpr ⟨l, hl, hfile⟩
  have hread : t.read here target = .ok content := read_ok_iff.mpr ⟨l, hl, hfile⟩
  unfold writeUnit
  rw [Text.encode?_eq_some_iff.mpr ⟨hh, rfl⟩]
  refine returns_bind.mpr ⟨_, t, returns_ask.mpr ⟨hlook, rfl⟩, ?_⟩
  refine returns_bind.mpr ⟨_, t, returns_ask.mpr ⟨hread, rfl⟩, ?_⟩
  refine returns_bind.mpr ⟨true, t, returns_pure.mpr ⟨(decide_eq_true same).symm, rfl⟩, ?_⟩
  exact returns_pure.mpr ⟨rfl, rfl⟩

/-! ## All units -/

/-- The units were written one after the other into the directory at a location. -/
inductive WroteAll (L : Location) :
    List GeneratedUnit → FileTree → List Bool → FileTree → Prop where
  | nil (t : FileTree) : WroteAll L [] t [] t
  | cons {u : GeneratedUnit} {us : List GeneratedUnit} {t w v : FileTree} {b : Bool}
      {bs : List Bool} (head : Wrote u (L ++ [entryName u]) t b w) (tail : WroteAll L us w bs v) :
      WroteAll L (u :: us) t (b :: bs) v

namespace WroteAll

variable {L k : Location} {units : List GeneratedUnit} {bs : List Bool}

theorem find?_of_ne (h : WroteAll L units t bs v) (hk : ∀ u ∈ units, k ≠ L ++ [entryName u]) :
    v.find? k = t.find? k := by
  induction h with
  | nil => rfl
  | cons head _ ih =>
    rw [ih fun x hx => hk x (List.mem_cons_of_mem _ hx),
      head.find?_of_ne (hk _ List.mem_cons_self)]

theorem hasDirectories (h : WroteAll L units t bs v) : HasDirectories t v := by
  induction h with
  | nil t => exact .refl t
  | cons head _ ih => exact head.hasDirectories.trans ih

theorem hasDirectories_back (h : WroteAll L units t bs v) : HasDirectories v t := by
  induction h with
  | nil t => exact .refl t
  | cons head _ ih => exact ih.trans head.hasDirectories_back

theorem length_eq (h : WroteAll L units t bs v) : bs.length = units.length := by
  induction h with
  | nil => rfl
  | cons _ _ ih => rw [List.length_cons, List.length_cons, ih]

/-- A unit that was left alone had a file with its digest before, if no two units share a file. -/
theorem kept (h : WroteAll L units t bs v) (hn : (units.map entryName).Nodup) :
    ∀ u, (u, false) ∈ units.zip bs → ∃ content, t.fileAt (L ++ [entryName u]) = some content ∧
      Sha256.hex content = Sha256.hex u.text.toUTF8 := by
  induction h with
  | nil => exact fun _ hu => absurd hu List.not_mem_nil
  | @cons u us t w v b bs head tail ih =>
    obtain ⟨hu, hus⟩ := List.nodup_cons.mp hn
    intro x hx
    rcases List.mem_cons.mp hx with heq | hx
    · obtain ⟨rfl, rfl⟩ := Prod.mk.inj heq
      cases head with
      | kept there same => exact ⟨_, there, same⟩
    · obtain ⟨content, hat, hsame⟩ := ih hus x hx
      refine ⟨content, ?_, hsame⟩
      rw [← fileAt_of_find? (head.find?_of_ne (append_name_ne ?_)), hat]
      intro heq
      exact hu (List.mem_map.mpr ⟨x, (List.of_mem_zip hx).1, heq⟩)

/-- Afterwards the file of each unit has its digest, if no two units share a file. -/
theorem fileAt (h : WroteAll L units t bs v) (hn : (units.map entryName).Nodup) :
    ∀ u ∈ units, ∃ content, v.fileAt (L ++ [entryName u]) = some content ∧
      Sha256.hex content = Sha256.hex u.text.toUTF8 ∧
      (t.fileAt (L ++ [entryName u]) = some content ∨ content = u.text.toUTF8) := by
  induction h with
  | nil => exact fun _ hu => absurd hu List.not_mem_nil
  | @cons u us t w v b bs head tail ih =>
    obtain ⟨hu, hus⟩ := List.nodup_cons.mp hn
    intro x hx
    rcases List.mem_cons.mp hx with rfl | hx
    · -- the units after it are written elsewhere
      obtain ⟨content, hat, hsame, hbefore⟩ := head.fileAt
      refine ⟨content, ?_, hsame, hbefore⟩
      rw [fileAt_of_find? (tail.find?_of_ne fun y hy => append_name_ne ?_), hat]
      intro heq
      exact hu (List.mem_map.mpr ⟨y, hy, heq.symm⟩)
    · obtain ⟨content, hat, hsame, hbefore⟩ := ih hus x hx
      refine ⟨content, hat, hsame, ?_⟩
      rw [← fileAt_of_find? (head.find?_of_ne (append_name_ne ?_))]
      · exact hbefore
      · intro heq
        exact hu (List.mem_map.mpr ⟨x, hx, heq⟩)

end WroteAll

/-- The file of a unit. -/
def target (dir : Path) (u : GeneratedUnit) : Path := dir.joinText u.fileName

/-- Units are written one by one, each to the files that the one before it left. -/
theorem returns_writeUnits_cons {dir : Path} {u : GeneratedUnit} {us : List GeneratedUnit}
    {v : FileTree} {targets : List (Path × Bool)} :
    Returns (writeUnits here dir (u :: us)) t targets v ↔
      ∃ b w rest, Returns (writeUnit here (target dir u) u) t b w ∧
        Returns (writeUnits here dir us) w rest v ∧ targets = (target dir u, b) :: rest := by
  unfold writeUnits
  rw [List.mapM_cons]
  constructor
  · intro h
    obtain ⟨first, w, hfirst, hrest⟩ := returns_bind.mp h
    obtain ⟨b, w', hwrite, hpair⟩ := returns_bind.mp hfirst
    obtain ⟨rfl, rfl⟩ := returns_pure.mp hpair
    obtain ⟨rest, w'', htail, hdone⟩ := returns_bind.mp hrest
    obtain ⟨rfl, rfl⟩ := returns_pure.mp hdone
    exact ⟨b, w, rest, hwrite, htail, rfl⟩
  · rintro ⟨b, w, rest, hwrite, htail, rfl⟩
    refine returns_bind.mpr ⟨(target dir u, b), w, ?_, ?_⟩
    · exact returns_bind.mpr ⟨b, w, hwrite, returns_pure.mpr ⟨rfl, rfl⟩⟩
    · exact returns_bind.mpr ⟨rest, v, htail, returns_pure.mpr ⟨rfl, rfl⟩⟩

theorem returns_writeUnits {dir : Path} :
    ∀ {units : List GeneratedUnit} {t v : FileTree} {targets : List (Path × Bool)},
      (∀ u ∈ units, IsName u.fileName) → Returns (writeUnits here dir units) t targets v →
      (∀ u ∈ units, Text.holdsHalf u.text = false ∧
        t.reach here (target dir u) = .ok (dir.locate here ++ [entryName u])) ∧
        ∃ bs, targets = (units.map (target dir)).zip bs ∧
          WroteAll (dir.locate here) units t bs v
  | [], t, v, targets, _, h => by
    obtain ⟨rfl, rfl⟩ := returns_pure.mp h
    exact ⟨fun _ hu => absurd hu List.not_mem_nil, [], rfl, .nil v⟩
  | u :: us, t, v, targets, hnames, h => by
    obtain ⟨b, w, rest, hwrite, htail, rfl⟩ := returns_writeUnits_cons.mp h
    obtain ⟨hhalf, l, hl, hw⟩ := returns_writeUnit hwrite
    obtain ⟨rfl, -⟩ := reach_name (hnames u List.mem_cons_self) hl
    obtain ⟨hothers, bs, rfl, hall⟩ :=
      returns_writeUnits (fun x hx => hnames x (List.mem_cons_of_mem u hx)) htail
    refine ⟨?_, b :: bs, rfl, .cons hw hall⟩
    intro x hx
    rcases List.mem_cons.mp hx with rfl | hx
    · exact ⟨hhalf, hl⟩
    · obtain ⟨hhalf', hreach⟩ := hothers x hx
      exact ⟨hhalf', reach_mono hw.hasDirectories_back hreach⟩

/-- When no unit was written, the file of each had its digest already. -/
theorem kept_of_unwritten {dir : Path} :
    ∀ {units : List GeneratedUnit} {t v : FileTree} {targets : List (Path × Bool)},
      Returns (writeUnits here dir units) t targets v → (∀ x ∈ targets, x.2 = false) →
      ∀ u ∈ units, ∃ l content, t.reach here (target dir u) = .ok l ∧ t.fileAt l = some content ∧
        Sha256.hex content = Sha256.hex u.text.toUTF8
  | [], _, _, _, _, _ => fun _ hu => absurd hu List.not_mem_nil
  | u :: us, t, v, targets, h, hnone => by
    obtain ⟨b, w, rest, hwrite, htail, rfl⟩ := returns_writeUnits_cons.mp h
    obtain ⟨-, l, hl, hw⟩ := returns_writeUnit hwrite
    obtain rfl : b = false := hnone _ List.mem_cons_self
    -- the unit was left alone, so the others found the same files
    cases hw with
    | kept there same =>
      intro x hx
      rcases List.mem_cons.mp hx with rfl | hx
      · exact ⟨l, _, hl, there, same⟩
      · exact kept_of_unwritten htail (fun y hy => hnone y (List.mem_cons_of_mem _ hy)) x hx

/-- Whatever the names of units are, no directory is lost when they are written. -/
theorem writeUnits_forth {dir : Path} :
    ∀ {units : List GeneratedUnit} {t v : FileTree} {targets : List (Path × Bool)},
      Returns (writeUnits here dir units) t targets v → HasDirectories t v
  | [], _, _, _, h => by
    obtain ⟨-, rfl⟩ := returns_pure.mp h
    exact .refl _
  | u :: us, t, v, targets, h => by
    obtain ⟨b, w, rest, hwrite, htail, rfl⟩ := returns_writeUnits_cons.mp h
    obtain ⟨-, l, -, hw⟩ := returns_writeUnit hwrite
    exact hw.hasDirectories.trans (writeUnits_forth htail)

/-- When the file of every unit has its digest already, none is written. -/
theorem writeUnits_kept {dir : Path} : ∀ {units : List GeneratedUnit},
    (∀ u ∈ units, Text.holdsHalf u.text = false ∧ ∃ l content,
      t.reach here (target dir u) = .ok l ∧ t.fileAt l = some content ∧
      Sha256.hex content = Sha256.hex u.text.toUTF8) →
    Returns (writeUnits here dir units) t (units.map fun u => (target dir u, false)) t
  | [], _ => returns_pure.mpr ⟨rfl, rfl⟩
  | u :: us, h => by
    obtain ⟨hhalf, l, content, hl, hat, hsame⟩ := h u List.mem_cons_self
    have htail := writeUnits_kept fun x hx => h x (List.mem_cons_of_mem u hx)
    exact returns_writeUnits_cons.mpr
      ⟨false, t, _, writeUnit_kept hhalf hl hat hsame, htail, rfl⟩

end Output

end FieldWiring
