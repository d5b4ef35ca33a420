import FieldWiring.Proofs.Json.Settled
import FieldWiring.Proofs.Output.Manifest

/-!
# Manifests survive their format

What a manifest lists is read back from the file it is written to: every name and every text in it,
with quotes, control characters, characters beyond the first plane and halves that stand alone. Lost
are only the records whose names have a slash or a backslash. The order in which files were recorded
does not show in the document.

Results:
* `isStored_ofText`: every manifest that a document states can be stored.
* `text_eq_of_perm`: manifests with the same records are written alike.
* `find?_reread`: what a manifest that was read back has under a name.
* `stored_manifest_reloaded`: a manifest that was stored is loaded as it was, but for such names.
-/

namespace FieldWiring

namespace OutputManifest

variable {m m' : OutputManifest}

/-! ## What documents state -/

theorem isSettled_find? {ms : List (Json.Symbols × Json.Value)} (h : ∀ x ∈ ms, x.2.IsSettled)
    {name : Json.Symbols} {v : Json.Value} (hv : Json.find? name ms = some v) : v.IsSettled := by
  induction ms with
  | nil => cases hv
  | cons x ms ih =>
    rw [Json.find?] at hv
    split at hv
    · obtain rfl := Option.some.inj hv
      exact h x List.mem_cons_self
    · exact ih (fun y hy => h y (List.mem_cons_of_mem x hy)) hv

theorem isSettled_member {v w : Json.Value} (h : v.IsSettled) {name : String}
    (hw : v.member name = some w) : w.IsSettled := by
  cases h with
  | dict _ _ values => exact isSettled_find? values hw
  | _ => cases hw

theorem isSettled_text {t : Json.Symbols} (h : (Json.Value.text t).IsSettled) : t.IsSettled := by
  cases h with
  | text hsettled => exact hsettled

theorem isSettled_recordOf {v : Json.Value} (h : v.IsSettled) {r : OutputRecord}
    (hr : recordOf? v = some r) : r.digest.IsSettled ∧ r.kind.IsSettled := by
  unfold recordOf? at hr
  split at hr
  · rename_i hdigest hkind
    obtain rfl := Option.some.inj hr
    exact ⟨isSettled_text (isSettled_member h hdigest), isSettled_text (isSettled_member h hkind)⟩
  · cases hr

theorem entryOf_eq_some {x : Json.Symbols × Json.Value} {y : Json.Symbols × OutputRecord}
    (h : entryOf? x = some y) : y.1 = x.1 ∧ recordOf? x.2 = some y.2 := by
  unfold entryOf? at h
  split at h
  · obtain ⟨r, hr, rfl⟩ := Option.map_eq_some_iff.mp h
    exact ⟨rfl, hr⟩
  · cases h

theorem isStored_nil : IsStored [] :=
  ⟨List.nodup_nil, fun _ hx => absurd hx List.not_mem_nil, fun _ hx => absurd hx List.not_mem_nil,
    fun _ hx => absurd hx List.not_mem_nil⟩

theorem isStored_ofValue {v : Json.Value} (h : v.IsSettled) : (ofValue v).IsStored := by
  unfold ofValue
  split
  · split
    · rename_i members hmembers
      cases isSettled_member h hmembers with
      | dict names distinct values =>
        have hmem : ∀ y ∈ members.filterMap entryOf?, ∃ x ∈ members, entryOf? x = some y :=
          fun y hy => List.mem_filterMap.mp hy
        refine ⟨?_, fun y hy => ?_, fun y hy => ?_, fun y hy => ?_⟩
        · refine List.pairwise_map.mpr (List.pairwise_filterMap.mpr ?_)
          refine (List.pairwise_map.mp distinct).imp fun {x x'} hne y hy y' hy' => ?_
          rwa [(entryOf_eq_some hy).1, (entryOf_eq_some hy').1]
        · obtain ⟨x, hx, hxy⟩ := hmem y hy
          rw [(entryOf_eq_some hxy).1]
          exact names x hx
        · obtain ⟨x, hx, hxy⟩ := hmem y hy
          exact (isSettled_recordOf (values x hx) (entryOf_eq_some hxy).2).1
        · obtain ⟨x, hx, hxy⟩ := hmem y hy
          exact (isSettled_recordOf (values x hx) (entryOf_eq_some hxy).2).2
    · exact isStored_nil
  · exact isStored_nil

/-- Every manifest that a document states can be stored. -/
theorem isStored_ofText {source : String} (h : ofText source = .ok m) : m.IsStored := by
  unfold ofText at h
  cases hread : Json.read source with
  | error e => rw [hread] at h; cases h
  | ok v =>
    rw [hread] at h
    obtain rfl := Except.ok.inj h
    exact isStored_ofValue (Json.isSettled_read hread)

/-! ## What is read back -/

/-- Manifests with the same records are written alike. -/
theorem text_eq_of_perm (h : m.IsStored) (hperm : m.Perm m') (time : String) :
    m'.text time = m.text time := by
  have hsame : m'.inOrder = m.inOrder :=
    h.inOrder.inOrder_eq ((perm_sortBy _ m).trans hperm) (sorted_inOrder m)
  unfold text value
  rw [hsame]

theorem IsStored.reread (h : m.IsStored) : m.reread.IsStored where
  distinct := h.inOrder.distinct.sublist (List.filter_sublist.map _)
  names x hx := h.inOrder.names x (List.mem_filter.mp hx).1
  digests x hx := h.inOrder.digests x (List.mem_filter.mp hx).1
  kinds x hx := h.inOrder.kinds x (List.mem_filter.mp hx).1

theorem mem_reread {x : Json.Symbols × OutputRecord} :
    x ∈ m.reread ↔ x ∈ m ∧ isOwnName x.1 = true := by
  unfold reread
  rw [List.mem_filter, mem_inOrder]

/-- What was read back has the record that there was under a name, unless the name has a
separator. -/
theorem find?_reread (h : m.IsStored) (name : Json.Symbols) :
    m.reread.find? name = if isOwnName name then m.find? name else none := by
  refine Option.ext fun r => ?_
  rw [find?_eq_some_iff h.reread.distinct, mem_reread]
  split
  · rename_i hown
    rw [find?_eq_some_iff h.distinct, and_iff_left hown]
  · rename_i hown
    exact ⟨fun hr => absurd hr.2 hown, fun hr => nomatch hr⟩

end OutputManifest

namespace Output

open FileTree

/-- What was written to a file is read from it. -/
theorem read_of_write {t u : FileTree} {here : Location} {p : Path} {content : ByteArray}
    (h : t.write here p content = .ok u) : u.read here p = .ok content := by
  obtain ⟨l, hl, hfree, rfl⟩ := write_ok_iff.mp h
  exact read_ok_iff.mpr ⟨l, reach_mono (hasDirectories_put hfree) hl,
    find?_put_self (ne_nil_of_not_directory hfree)⟩

/-- **A manifest that was stored is loaded as it was**: every record is there again under its name,
unless the name has a slash or a backslash, and the file is the same in whatever order the records
were made. What is loaded can be stored again. -/
theorem stored_manifest_reloaded {m : OutputManifest} (h : m.IsStored) (time : String) :
    (∀ m' : OutputManifest, m.Perm m' → m'.text time = m.text time) ∧
      ∃ loaded : OutputManifest,
        OutputManifest.ofText (m.text time) = .ok loaded ∧
        (∀ (t u : FileTree) (here : Location) (dir : Path),
          t.write here (dir.joinText OutputManifest.fileName) (m.text time).toUTF8 = .ok u →
            readManifest u here dir = .ok loaded) ∧
        loaded.IsStored ∧
        (∀ name, loaded.find? name =
          if OutputManifest.isOwnName name then m.find? name else none) ∧
        ((∀ x ∈ m, OutputManifest.isOwnName x.1 = true) → loaded.Perm m) := by
  refine ⟨fun m' hperm => OutputManifest.text_eq_of_perm h hperm time, m.reread,
    OutputManifest.ofText_text h time, fun t u here dir hwrite => ?_, h.reread,
    OutputManifest.find?_reread h, fun hown => ?_⟩
  · exact readManifest_text h (read_of_write hwrite)
  · unfold OutputManifest.reread
    rw [List.filter_eq_self.mpr fun x hx => hown x (OutputManifest.mem_inOrder.mp hx)]
    exact perm_sortBy _ m

/-- A name of a quote, a control character, a character beyond the first plane and a half that
stands alone. -/
def oddName : Json.Symbols :=
  [.char '"', .char (Char.ofNat 1), .char (Char.ofNat 0x1F600), .half 0xD800,
    .char 'u', .half 0xDC80]

/-- A manifest with that name and one that leads elsewhere. -/
def oddManifest : OutputManifest :=
  [(.ofString "up/B.cs", ⟨.ofString "0a", .ofString "resolver"⟩),
    (oddName, ⟨.ofString "not\na digest", .ofString ""⟩)]

/-- The one record is loaded as it was, the other is lost. -/
theorem odd_reloaded : oddManifest.IsStored ∧ ∃ loaded : OutputManifest,
    OutputManifest.ofText (oddManifest.text "now") = .ok loaded ∧
      loaded.find? oddName = some ⟨.ofString "not\na digest", .ofString ""⟩ ∧
      loaded.find? (.ofString "up/B.cs") = none := by
  have hstored : oddManifest.IsStored :=
    ⟨by decide +kernel, by decide +kernel, by decide +kernel, by decide +kernel⟩
  obtain ⟨-, loaded, hloaded, -, -, hfind, -⟩ := stored_manifest_reloaded hstored "now"
  refine ⟨hstored, loaded, hloaded, ?_, ?_⟩
  · rw [hfind, if_pos (by decide +kernel)]
    decide +kernel
  · rw [hfind, if_neg (by decide +kernel)]

end Output

end FieldWiring
