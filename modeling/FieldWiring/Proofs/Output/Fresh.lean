import FieldWiring.Proofs.Output.Publishing

/-!
# Publishing where nothing was published

Into a directory that has none of the files to be published, publishing succeeds as long as the
paths lead there and the texts have an encoding. Each unit is written, and the manifest lists the
units.

Results:
* `Text.holdsHalf_of_bytes`: a text that has an encoding, told by its bytes.
* `writeUnits_fresh`: all units are written.
* `returns_publishOver_fresh`, `answers_publish_fresh`: a first publication succeeds.
-/

namespace FieldWiring

/-- A text without the longest codes has an encoding, for a half is held by such a code. -/
theorem Text.holdsHalf_of_bytes {s : String} (h : ∀ b ∈ s.toUTF8.data.toList, b < 0xF0) :
    Text.holdsHalf s = false := by
  rw [Bool.eq_false_iff]
  intro hh
  obtain ⟨c, hc, hsome⟩ := List.any_eq_true.mp hh
  have hbase : Text.halfBase ≤ c.toNat := by
    by_contra hlt
    unfold Text.half? at hsome
    rw [if_neg fun hboth => hlt hboth.1] at hsome
    cases hsome
  have hsize : c.utf8Size = 4 := by
    refine Char.utf8Size_eq_four_iff.mpr (UInt32.lt_iff_toNat_lt.mpr ?_)
    exact Nat.lt_of_lt_of_le (by decide) hbase
  have hbytes : s.toUTF8.data.toList = s.toList.flatMap String.utf8EncodeChar := by
    show s.toByteArray.data.toList = _
    rw [← String.utf8Encode_toList, List.utf8Encode, List.toList_data_toByteArray]
  have hfirst : (c.val >>> 18).toUInt8 &&& 0x07 ||| 0xf0 ∈ s.toUTF8.data.toList := by
    rw [hbytes]
    refine List.mem_flatMap.mpr ⟨c, hc, ?_⟩
    rw [String.utf8EncodeChar_eq_cons_cons_cons_cons hsize]
    exact List.mem_cons_self
  have hlt := UInt8.lt_iff_toNat_lt.mp (h _ hfirst)
  rw [UInt8.toNat_or] at hlt
  exact absurd hlt (Nat.not_lt.mpr Nat.right_le_or)

namespace Output

open FileAction FileTree

variable {here : Location} {dir : Path} {t : FileTree} {units : List GeneratedUnit}

/-- The units can be written into a directory, where nothing has their names. -/
structure Vacant (here : Location) (dir : Path) (units : List GeneratedUnit) (t : FileTree) :
    Prop where
  distinct : (units.map entryName).Nodup
  encoded : ∀ u ∈ units, Text.holdsHalf u.text = false
  reached : ∀ u ∈ units, t.reach here (target dir u) = .ok (dir.locate here ++ [entryName u])
  free : ∀ u ∈ units, t.find? (dir.locate here ++ [entryName u]) = none

/-- A unit is written where nothing is. -/
theorem writeUnit_fresh {l : Location} {p : Path} {u : GeneratedUnit}
    (hh : Text.holdsHalf u.text = false) (hl : t.reach here p = .ok l) (hnone : t.find? l = none) :
    Returns (writeUnit here p u) t true (t.put l (.file u.text.toUTF8)) := by
  have hlook : t.look here p = .ok none := by
    unfold look
    rw [hl]
    exact congrArg Except.ok hnone
  have hwrite : t.write here p u.text.toUTF8 = .ok (t.put l (.file u.text.toUTF8)) := by
    refine write_ok_iff.mpr ⟨l, hl, ?_, rfl⟩
    rw [hnone]
    exact fun heq => nomatch heq
  unfold writeUnit
  rw [Text.encode?_eq_some_iff.mpr ⟨hh, rfl⟩]
  refine returns_bind.mpr ⟨_, t, returns_ask.mpr ⟨hlook, rfl⟩, ?_⟩
  refine returns_bind.mpr ⟨false, t, returns_pure.mpr ⟨rfl, rfl⟩, ?_⟩
  exact returns_bind.mpr ⟨(), _, returns_change.mpr hwrite, returns_pure.mpr ⟨rfl, rfl⟩⟩

/-- When a unit is written into its directory, the others can still be. -/
theorem Vacant.tail {u : GeneratedUnit} (h : Vacant here dir (u :: units) t) :
    Vacant here dir units
      (t.put (dir.locate here ++ [entryName u]) (.file u.text.toUTF8)) := by
  obtain ⟨hu, hunits⟩ := List.nodup_cons.mp h.distinct
  have hforth : HasDirectories t
      (t.put (dir.locate here ++ [entryName u]) (.file u.text.toUTF8)) := by
    refine hasDirectories_put ?_
    rw [h.free u List.mem_cons_self]
    exact fun heq => nomatch heq
  refine ⟨hunits, fun x hx => h.encoded x (List.mem_cons_of_mem u hx),
    fun x hx => reach_mono hforth (h.reached x (List.mem_cons_of_mem u hx)), ?_⟩
  intro x hx
  rw [find?_put_of_ne (append_name_ne ?_)]
  · exact h.free x (List.mem_cons_of_mem u hx)
  · intro heq
    exact hu (List.mem_map.mpr ⟨x, hx, heq⟩)

/-- **All units are written**, one after the other. -/
theorem writeUnits_fresh : ∀ {units : List GeneratedUnit} {t : FileTree},
    Vacant here dir units t → ∃ bs v,
      Returns (writeUnits here dir units) t (units.map fun u => (target dir u, true)) v ∧
        WroteAll (dir.locate here) units t bs v
  | [], t, _ => ⟨[], t, returns_pure.mpr ⟨rfl, rfl⟩, .nil t⟩
  | u :: us, t, h => by
    have hfree := h.free u List.mem_cons_self
    have hwrite := writeUnit_fresh (h.encoded u List.mem_cons_self)
      (h.reached u List.mem_cons_self) hfree
    have hwrote : Wrote u (dir.locate here ++ [entryName u]) t true
        (t.put (dir.locate here ++ [entryName u]) (.file u.text.toUTF8)) := by
      refine .written (by rw [hfree]; exact fun heq => nomatch heq) fun content hat => ?_
      rw [fileAt_eq_some, hfree] at hat
      cases hat
    obtain ⟨bs, v, hrest, hall⟩ := writeUnits_fresh h.tail
    exact ⟨true :: bs, v, returns_writeUnits_cons.mpr ⟨true, _, _, hwrite, hrest, rfl⟩,
      .cons hwrote hall⟩

/-- **A first publication succeeds.** -/
theorem returns_publishOver_fresh (kinds : Option (List String)) (time : String)
    (h : Vacant here dir units t)
    (hreached : t.reach here (dir.joinText OutputManifest.fileName) =
      .ok (manifestAt (dir.locate here)))
    (hfree : t.find? (manifestAt (dir.locate here)) = none) :
    ∃ v, Returns (publishOver here dir units kinds time []) t
      ⟨units.map (target dir), [], []⟩ v := by
  obtain ⟨bs, w, hunits, hall⟩ := writeUnits_fresh h
  obtain ⟨v, hwrite⟩ : ∃ v, w.write here (dir.joinText OutputManifest.fileName)
      ((recordUnits units).text time).toUTF8 = .ok v := by
    refine ⟨_, write_ok_iff.mpr ⟨_, reach_mono hall.hasDirectories hreached, ?_, rfl⟩⟩
    have hsame : w.find? (manifestAt (dir.locate here)) = t.find? (manifestAt (dir.locate here)) :=
      hall.find?_of_ne fun u _ => (unit_ne_manifest _ u).symm
    rw [hsame, hfree]
    exact fun heq => nomatch heq
  have hprune : Returns (prune here dir kinds [] (recordUnits units)) w (recordUnits units, []) w :=
    prune_nothing (fun _ hx => absurd hx List.not_mem_nil) w
  refine ⟨v, ?_⟩
  unfold publishOver
  refine returns_bind.mpr ⟨_, w, hunits, ?_⟩
  refine returns_bind.mpr ⟨_, w, hprune, ?_⟩
  refine returns_bind.mpr ⟨(), v, returns_change.mpr hwrite, ?_⟩
  refine returns_pure.mpr ⟨?_, rfl⟩
  have hwritten : (units.map fun u => (target dir u, true)).filter (·.2) =
      units.map fun u => (target dir u, true) :=
    List.filter_eq_self.mpr fun x hx => by
      obtain ⟨u, -, rfl⟩ := List.mem_map.mp hx
      rfl
  have hunchanged : (units.map fun u => (target dir u, true)).filter (fun x => !x.2) = [] :=
    List.filter_eq_nil_iff.mpr fun x hx => by
      obtain ⟨u, -, rfl⟩ := List.mem_map.mp hx
      exact Bool.false_ne_true
  simp only [hwritten, hunchanged, List.map_map]
  rfl

/-- A directory without a manifest has the empty one. -/
theorem readManifest_none (hreached : t.reach here (dir.joinText OutputManifest.fileName) =
      .ok (manifestAt (dir.locate here)))
    (hfree : t.find? (manifestAt (dir.locate here)) = none) : readManifest t here dir = .ok [] := by
  unfold readManifest FileTree.read
  rw [hreached]
  simp only [bind, Except.bind, hfree]
  rfl

end Output

namespace Setting

open FileTree Output

variable {E : Setting} {s : Session} {w : FileTree} {dir : Path} {units : List GeneratedUnit}

/-- **A first publication succeeds**, and tells that each unit was written. -/
theorem answers_publish_fresh (kinds : Option (List String)) (hs : s.logFile = none)
    (hmade : (FileAction.ensureDirectories E.surroundings.here dir).Returns s.files () w)
    (h : Vacant E.surroundings.here dir units w)
    (hreached : w.reach E.surroundings.here (dir.joinText OutputManifest.fileName) =
      .ok (manifestAt (dir.locate E.surroundings.here)))
    (hfree : w.find? (manifestAt (dir.locate E.surroundings.here)) = none) :
    ∃ s', (E.publish dir units kinds).Answers s ⟨units.map (target dir), [], []⟩ s' := by
  obtain ⟨v, hover⟩ := returns_publishOver_fresh kinds E.clock.updated h hreached hfree
  obtain ⟨s', hpublish, -⟩ :=
    answers_publish_of hmade (readManifest_none hreached hfree) hover hs
  exact ⟨s', hpublish⟩

end Setting

end FieldWiring
