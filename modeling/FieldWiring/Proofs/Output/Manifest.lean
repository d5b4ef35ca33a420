import FieldWiring.Output.Publish
import FieldWiring.Proofs.Files.Acts
import FieldWiring.Proofs.Json.RoundTrip

/-!
# Manifests that are read back

A manifest is read back from the file it was written to, in the order of its names. Only the names
with a slash or a backslash are missing then, since those are passed over.

Results:
* `IsStored.inOrder_eq`: records in order are those of every manifest that has the same.
* `ofText_text`: what a written manifest states.
* `readManifest_text`: what is read from the file that holds it.
* `record_of_fresh`, `recordUnits_eq`: a manifest without repeated names is the list of its records.
* `find?_foldl_record`, `find?_recordUnits`: among records of one name the last one counts.
* `isWritten_recordUnits`: the manifest of any units lists each name once.
-/

namespace FieldWiring

namespace OutputManifest

/-! ## Order -/

/-- A manifest as a document holds one: each name once, and settled texts throughout. -/
structure IsStored (m : OutputManifest) : Prop where
  distinct : (m.map (·.1)).Nodup
  names : ∀ x ∈ m, x.1.IsSettled
  digests : ∀ x ∈ m, x.2.digest.IsSettled
  kinds : ∀ x ∈ m, x.2.kind.IsSettled

/-- A manifest as runs make it: its names are those of texts. -/
structure IsWritten (m : OutputManifest) : Prop extends IsStored m where
  texts : ∀ x ∈ m, ∃ s, x.1 = Json.Symbols.ofString s

theorem mem_inOrder {m : OutputManifest} {x : Json.Symbols × OutputRecord} :
    x ∈ m.inOrder ↔ x ∈ m := (perm_sortBy _ _).mem_iff

theorem nodup_inOrder {m : OutputManifest} (h : (m.map (·.1)).Nodup) :
    (m.inOrder.map (·.1)).Nodup := ((perm_sortBy _ m).map _).nodup_iff.mpr h

theorem IsStored.inOrder {m : OutputManifest} (h : m.IsStored) : m.inOrder.IsStored where
  distinct := nodup_inOrder h.distinct
  names x hx := h.names x (mem_inOrder.mp hx)
  digests x hx := h.digests x (mem_inOrder.mp hx)
  kinds x hx := h.kinds x (mem_inOrder.mp hx)

theorem IsStored.filter {m : OutputManifest} (h : m.IsStored)
    (p : Json.Symbols × OutputRecord → Bool) : IsStored (m.filter p) where
  distinct := h.distinct.sublist ((List.filter_sublist).map _)
  names x hx := h.names x (List.mem_filter.mp hx).1
  digests x hx := h.digests x (List.mem_filter.mp hx).1
  kinds x hx := h.kinds x (List.mem_filter.mp hx).1

theorem IsWritten.inOrder {m : OutputManifest} (h : m.IsWritten) : m.inOrder.IsWritten :=
  ⟨h.toIsStored.inOrder, fun x hx => h.texts x (mem_inOrder.mp hx)⟩

theorem IsWritten.filter {m : OutputManifest} (h : m.IsWritten)
    (p : Json.Symbols × OutputRecord → Bool) : IsWritten (m.filter p) :=
  ⟨h.toIsStored.filter p, fun x hx => h.texts x (List.mem_filter.mp hx).1⟩

theorem precedes_total : ∀ a b : Json.Symbols, a.precedes b = true ∨ b.precedes a = true
  | [], _ => .inl (by unfold Json.Symbols.precedes; rfl)
  | _ :: _, [] => .inr (by unfold Json.Symbols.precedes; rfl)
  | x :: xs, y :: ys => by
    simp only [Json.Symbols.precedes, Bool.or_eq_true, Bool.and_eq_true, decide_eq_true_eq]
    rcases Nat.lt_trichotomy x.code y.code with hlt | heq | hgt
    · exact .inl (.inl hlt)
    · rcases precedes_total xs ys with h | h
      · exact .inl (.inr ⟨heq, h⟩)
      · exact .inr (.inr ⟨heq.symm, h⟩)
    · exact .inr (.inl hgt)

theorem precedes_trans : ∀ a b c : Json.Symbols,
    a.precedes b = true → b.precedes c = true → a.precedes c = true
  | [], _, _, _, _ => by unfold Json.Symbols.precedes; rfl
  | _ :: _, [], _, h, _ => by cases h
  | _ :: _, _ :: _, [], _, h => by cases h
  | x :: xs, y :: ys, z :: zs, h, h' => by
    simp only [Json.Symbols.precedes, Bool.or_eq_true, Bool.and_eq_true,
      decide_eq_true_eq] at h h' ⊢
    rcases h with hxy | ⟨hxy, hs⟩
    · left
      rcases h' with hyz | ⟨hyz, -⟩ <;> omega
    · rcases h' with hyz | ⟨hyz, hs'⟩
      · left
        omega
      · exact .inr ⟨hxy.trans hyz, precedes_trans xs ys zs hs hs'⟩

/-- The symbols of documents are told apart by their numbers. -/
theorem code_inj {x y : Json.Symbol} (hx : x.isValid = true) (hy : y.isValid = true)
    (h : x.code = y.code) : x = y := by
  -- no character has the number of a half
  have hne : ∀ (c : Char) (n : Nat), (Json.Symbol.half n).isValid = true → c.toNat ≠ n := by
    rintro c n hn rfl
    rw [Json.Symbol.isValid, Json.isHigh_char, Json.isLow_char] at hn
    cases hn
  cases x with
  | char c =>
    cases y with
    | char d => rw [Char.toNat_inj.mp h]
    | half n => exact absurd h (hne c n hy)
  | half m =>
    cases y with
    | char d => exact absurd h.symm (hne d m hx)
    | half n => exact congrArg Json.Symbol.half h

/-- Texts that precede each other are one text. -/
theorem precedes_antisymm : ∀ {s r : Json.Symbols}, (∀ x ∈ s, x.isValid = true) →
    (∀ x ∈ r, x.isValid = true) → s.precedes r = true → r.precedes s = true → s = r
  | [], [], _, _, _, _ => rfl
  | [], _ :: _, _, _, _, h => by cases h
  | _ :: _, [], _, _, h, _ => by cases h
  | x :: xs, y :: ys, hx, hy, h, h' => by
    simp only [Json.Symbols.precedes, Bool.or_eq_true, Bool.and_eq_true, decide_eq_true_eq] at h h'
    rcases h with hlt | ⟨hcode, hs⟩
    · rcases h' with hgt | ⟨heq, -⟩ <;> omega
    · rcases h' with hgt | ⟨-, hs'⟩
      · omega
      · rw [code_inj (hx x List.mem_cons_self) (hy y List.mem_cons_self) hcode,
          precedes_antisymm (fun z hz => hx z (List.mem_cons_of_mem x hz))
            (fun z hz => hy z (List.mem_cons_of_mem y hz)) hs hs']

theorem sorted_inOrder (m : OutputManifest) :
    m.inOrder.Pairwise fun a b => Json.Symbols.precedes a.1 b.1 = true :=
  pairwise_sortBy (fun a b => precedes_total a.1 b.1) (fun a b c => precedes_trans a.1 b.1 c.1) m

/-- Records in order are those of every manifest that has the same. -/
theorem IsStored.inOrder_eq {m m' : OutputManifest} (h : m.IsStored) (hperm : m.Perm m')
    (hsorted : m.Pairwise fun a b => Json.Symbols.precedes a.1 b.1 = true) : m'.inOrder = m := by
  refine List.Perm.eq_of_pairwise ?_ (sorted_inOrder m') hsorted
    ((perm_sortBy _ m').trans hperm.symm)
  intro a b ha hb hab hba
  have ham := hperm.mem_iff.mpr (mem_inOrder.mp ha)
  have hname := precedes_antisymm (h.names a ham).valid (h.names b hb).valid hab hba
  exact List.inj_on_of_nodup_map h.distinct ham hb hname

/-! ## Documents -/

theorem isSettled_memberName : ∀ name ∈ ["digest", "kind", "files", "updated_at", "version"],
    (Json.Symbols.ofString name).IsSettled := by
  decide +kernel

theorem plain_recordValue {r : OutputRecord} (hdigest : r.digest.IsSettled)
    (hkind : r.kind.IsSettled) : Json.Plain 1 (recordValue r) := by
  refine .dict ?_ ?_ ?_
  · intro m hm
    rcases List.mem_cons.mp hm with rfl | hm
    · exact isSettled_memberName "digest" (by decide)
    · rw [List.mem_singleton.mp hm]
      exact isSettled_memberName "kind" (by decide)
  · show [Json.Symbols.ofString "digest", Json.Symbols.ofString "kind"].Nodup
    decide +kernel
  · intro m hm
    rcases List.mem_cons.mp hm with rfl | hm
    · exact .text 0 hdigest
    · rw [List.mem_singleton.mp hm]
      exact .text 0 hkind

theorem plain_value {m : OutputManifest} (h : m.IsStored) (time : String) :
    Json.Plain 3 (m.value time) := by
  have hfiles : Json.Plain 2 (.dict (m.inOrder.map fun x => (x.1, recordValue x.2))) := by
    refine .dict ?_ ?_ ?_
    · intro y hy
      obtain ⟨x, hx, rfl⟩ := List.mem_map.mp hy
      exact h.inOrder.names x hx
    · rw [List.map_map]
      exact h.inOrder.distinct
    · intro y hy
      obtain ⟨x, hx, rfl⟩ := List.mem_map.mp hy
      exact plain_recordValue (h.inOrder.digests x hx) (h.inOrder.kinds x hx)
  refine .dict ?_ ?_ ?_
  · intro y hy
    simp only [List.mem_cons, List.not_mem_nil, or_false] at hy
    rcases hy with rfl | rfl | rfl <;> exact isSettled_memberName _ (by decide)
  · show [Json.Symbols.ofString "files", Json.Symbols.ofString "updated_at",
      Json.Symbols.ofString "version"].Nodup
    decide +kernel
  · intro y hy
    simp only [List.mem_cons, List.not_mem_nil, or_false] at hy
    rcases hy with rfl | rfl | rfl
    · exact hfiles
    · exact .text 2 (Json.isSettled_ofPlain time)
    · exact .digit 2 (by decide : 2 < 10)

theorem recordOf_recordValue (r : OutputRecord) : recordOf? (recordValue r) = some r := by
  have hne : Json.Symbols.ofString "digest" ≠ Json.Symbols.ofString "kind" := by decide +kernel
  have hdigest : (recordValue r).member "digest" = some (.text r.digest) := by
    simp only [recordValue, Json.Value.member, Json.find?, if_true]
  have hkind : (recordValue r).member "kind" = some (.text r.kind) := by
    simp only [recordValue, Json.Value.member, Json.find?, if_neg hne, if_true]
  unfold recordOf?
  rw [hdigest, hkind]

theorem ofValue_value (m : OutputManifest) (time : String) :
    ofValue (m.value time) = m.inOrder.filter fun x => isOwnName x.1 := by
  have hfv : Json.Symbols.ofString "files" ≠ Json.Symbols.ofString "version" := by decide +kernel
  have huv : Json.Symbols.ofString "updated_at" ≠ Json.Symbols.ofString "version" := by
    decide +kernel
  have hversion : (m.value time).member "version" = some (.int version) := by
    simp only [value, Json.Value.member, Json.find?, if_neg hfv, if_neg huv, if_true]
  have hfiles : (m.value time).member "files" =
      some (.dict (m.inOrder.map fun x => (x.1, recordValue x.2))) := by
    simp only [value, Json.Value.member, Json.find?, if_true]
  have hentry : ∀ x : Json.Symbols × OutputRecord,
      entryOf? (x.1, recordValue x.2) = if isOwnName x.1 then some x else none := by
    intro x
    unfold entryOf?
    rw [recordOf_recordValue]
    rfl
  have hown : isVersion (.int version) = true := by decide
  unfold ofValue
  rw [hversion, hfiles, Option.any_some, if_pos hown]
  simp only
  generalize m.inOrder = xs
  induction xs with
  | nil => rfl
  | cons x xs ih =>
    rw [List.map_cons, List.filterMap_cons, List.filter_cons, hentry]
    by_cases hx : isOwnName x.1 = true
    · simp only [if_pos hx, ih]
    · simp only [if_neg hx, ih]

/-- What is read back from a manifest: its records in the order of their names, as far as these do
not lead elsewhere. -/
def reread (m : OutputManifest) : OutputManifest := m.inOrder.filter fun x => isOwnName x.1

/-- **What a written manifest states** is what is read back from it. -/
theorem ofText_text {m : OutputManifest} (h : m.IsStored) (time : String) :
    ofText (m.text time) = .ok m.reread := by
  unfold ofText text
  rw [Json.read_write (plain_value h time) (by decide)]
  exact congrArg Except.ok (ofValue_value m time)

theorem unixLines_text {m : OutputManifest} (h : m.IsStored) (time : String) :
    Text.unixLines (m.text time) = m.text time := by
  unfold Text.unixLines text
  rw [String.toList_ofList,
    Text.unixLinesChars_eq_self (Json.return_not_mem_write (plain_value h time) 0)]

end OutputManifest

namespace Output

open FileTree

/-- What is read from the file that holds a written manifest. -/
theorem readManifest_text {t : FileTree} {here : Location} {dir : Path} {m : OutputManifest}
    {time : String} (hm : m.IsStored)
    (h : t.read here (dir.joinText OutputManifest.fileName) = .ok (m.text time).toUTF8) :
    readManifest t here dir = .ok m.reread := by
  unfold readManifest
  rw [h]
  simp only [Utf8.readText?, Utf8.decode?_toUTF8, Option.map_some,
    OutputManifest.unixLines_text hm time]
  exact OutputManifest.ofText_text hm time

end Output

/-! ## Records -/

namespace OutputManifest

/-- A text leads to a file of the directory itself iff it has no slash and no backslash. -/
theorem isOwnName_ofString {s : String} :
    isOwnName (.ofString s) = true ↔ '/' ∉ s.toList ∧ '\\' ∉ s.toList := by
  have hmem : ∀ c : Char, Json.Symbol.ofChar c = .char c →
      ((Json.Symbols.ofString s).contains (.char c) = false ↔ c ∉ s.toList) := by
    intro c hplain
    rw [← Bool.not_eq_true, List.contains_iff_mem, not_iff_not]
    constructor
    · intro hc
      obtain ⟨d, hd, heq⟩ := List.mem_map.mp hc
      have hchar : d = c := (Json.Symbol.toChar_ofChar d).symm.trans (congrArg _ heq)
      exact hchar ▸ hd
    · exact fun hc => List.mem_map.mpr ⟨c, hc, hplain⟩
  unfold isOwnName
  rw [Bool.and_eq_true, Bool.not_eq_true', Bool.not_eq_true', hmem '/' (by decide),
    hmem '\\' (by decide)]

theorem record_of_fresh {name : Json.Symbols} (r : OutputRecord) :
    ∀ {m : OutputManifest}, name ∉ m.map (·.1) → record name r m = m ++ [(name, r)]
  | [], _ => rfl
  | (n, s) :: m, h => by
    rw [List.map_cons, List.mem_cons, not_or] at h
    rw [record, if_neg (Ne.symm h.1), record_of_fresh r h.2]
    rfl

theorem mem_of_mem_record {name : Json.Symbols} {r : OutputRecord}
    {x : Json.Symbols × OutputRecord} :
    ∀ {m : OutputManifest}, x ∈ record name r m → x = (name, r) ∨ x ∈ m
  | [], h => .inl (List.mem_singleton.mp h)
  | (n, s) :: m, h => by
    rw [record] at h
    by_cases hn : n = name
    · rw [if_pos hn] at h
      exact (List.mem_cons.mp h).imp_right (List.mem_cons_of_mem _)
    · rw [if_neg hn] at h
      rcases List.mem_cons.mp h with rfl | h
      · exact .inr List.mem_cons_self
      · exact (mem_of_mem_record h).imp_right (List.mem_cons_of_mem _)

theorem record_of_mem {name : Json.Symbols} (r : OutputRecord) :
    ∀ {m : OutputManifest}, name ∈ m.map (·.1) → (record name r m).map (·.1) = m.map (·.1)
  | [], h => absurd h List.not_mem_nil
  | (n, s) :: m, h => by
    rw [record]
    by_cases hn : n = name
    · rw [if_pos hn, hn]
      rfl
    · rw [if_neg hn, List.map_cons, List.map_cons,
        record_of_mem r ((List.mem_cons.mp h).resolve_left (Ne.symm hn))]

theorem nodup_record {m : OutputManifest} (h : (m.map (·.1)).Nodup) (name : Json.Symbols)
    (r : OutputRecord) : ((m.record name r).map (·.1)).Nodup := by
  by_cases hmem : name ∈ m.map (·.1)
  · rw [record_of_mem r hmem]
    exact h
  · rw [record_of_fresh r hmem, List.map_append, List.nodup_append]
    refine ⟨h, List.nodup_singleton name, fun a ha b hb hab => hmem ?_⟩
    have hb : b = name := List.mem_singleton.mp hb
    rwa [← hb, ← hab]

theorem IsWritten.record {m : OutputManifest} (h : m.IsWritten) {name : String}
    {r : OutputRecord} (hname : (Json.Symbols.ofString name).IsSettled)
    (hdigest : r.digest.IsSettled) (hkind : r.kind.IsSettled) :
    (m.record (.ofString name) r).IsWritten where
  distinct := nodup_record h.distinct _ r
  names x hx := (mem_of_mem_record hx).elim (fun heq => heq ▸ hname) (h.names x)
  digests x hx := (mem_of_mem_record hx).elim (fun heq => heq ▸ hdigest) (h.digests x)
  kinds x hx := (mem_of_mem_record hx).elim (fun heq => heq ▸ hkind) (h.kinds x)
  texts x hx := (mem_of_mem_record hx).elim (fun heq => ⟨name, heq ▸ rfl⟩) (h.texts x)

/-- Recording files with new names puts their records at the end. -/
theorem foldl_record : ∀ (xs m : OutputManifest), ((m ++ xs).map (·.1)).Nodup →
    xs.foldl (fun m x => m.record x.1 x.2) m = m ++ xs
  | [], m, _ => (List.append_nil m).symm
  | x :: xs, m, h => by
    have hfresh : x.1 ∉ m.map (·.1) := by
      rw [List.map_append, List.map_cons] at h
      intro hm
      exact (List.nodup_append.mp h).2.2 _ hm _ List.mem_cons_self rfl
    rw [List.foldl_cons, record_of_fresh x.2 hfresh, foldl_record xs]
    · rw [List.append_assoc]
      rfl
    · rw [List.append_assoc]
      exact h

/-- After recording, a name has the last record that was made for it, or else the one it had. -/
theorem find?_foldl_record (name : Json.Symbols) : ∀ xs m : OutputManifest,
    (xs.foldl (fun m x => m.record x.1 x.2) m).find? name =
      ((xs.reverse.find? (·.1 = name)).map (·.2)).or (m.find? name)
  | [], m => rfl
  | x :: xs, m => by
    rw [List.foldl_cons, find?_foldl_record name xs, List.reverse_cons, List.find?_append]
    cases xs.reverse.find? (·.1 = name) with
    | some y => rfl
    | none =>
      rw [Option.none_or]
      by_cases hx : x.1 = name
      · rw [List.find?_cons_of_pos (by simpa using hx), ← hx, find?_record_self]
        rfl
      · rw [List.find?_cons_of_neg (by simpa using hx), find?_record_of_ne x.2 (Ne.symm hx)]
        rfl

theorem find?_isNone_iff {m : OutputManifest} {name : Json.Symbols} :
    (m.find? name).isNone = true ↔ name ∉ m.map (·.1) := by
  induction m with
  | nil => simp [find?]
  | cons x m ih =>
    obtain ⟨n, s⟩ := x
    rw [find?_cons, List.map_cons, List.mem_cons, not_or]
    by_cases h : name = n
    · simp [h]
    · rw [if_neg h, ih]
      simp [h]

theorem find?_eq_some_iff {m : OutputManifest} (h : (m.map (·.1)).Nodup) {name : Json.Symbols}
    {r : OutputRecord} : m.find? name = some r ↔ (name, r) ∈ m := by
  induction m with
  | nil => simp [find?]
  | cons x m ih =>
    obtain ⟨n, s⟩ := x
    obtain ⟨hn, hm⟩ := List.nodup_cons.mp h
    rw [find?_cons, List.mem_cons, Prod.mk.injEq]
    by_cases hname : name = n
    · subst hname
      simp only [if_true, Option.some_inj, true_and]
      constructor
      · exact fun heq => .inl heq.symm
      · rintro (heq | hmem)
        · exact heq.symm
        · exact absurd (List.mem_map.mpr ⟨_, hmem, rfl⟩) hn
    · rw [if_neg hname, ih hm]
      simp [hname]

theorem find?_append (m m' : OutputManifest) (name : Json.Symbols) :
    find? (m ++ m') name = (m.find? name).or (m'.find? name) := List.lookup_append

/-- Records in order are found under the same names. -/
theorem IsWritten.find?_inOrder {m : OutputManifest} (h : m.IsWritten) (name : Json.Symbols) :
    m.inOrder.find? name = m.find? name := by
  refine Option.ext fun r => ?_
  rw [find?_eq_some_iff h.inOrder.distinct, find?_eq_some_iff h.distinct, mem_inOrder]

end OutputManifest

namespace Output

/-- A name that files can have is read back as it was written. -/
theorem isSettled_of_encodable {s : String} (h : FileName.isUnencodable s = false) :
    (Json.Symbols.ofString s).IsSettled := by
  refine Json.isSettled_ofString fun c hc n hn => ?_
  have hrange := List.any_eq_false.mp h c hc
  simp only [hn, Option.any_some, Bool.or_eq_true, decide_eq_true_eq, not_or] at hrange
  simp only [Json.isHigh, Bool.and_eq_false_iff, decide_eq_false_iff_not]
  omega

/-- The record of a unit under its name. -/
def entryOf (u : GeneratedUnit) : Json.Symbols × OutputRecord :=
  (.ofString u.fileName, recordOf u)

theorem map_entryOf_fst (units : List GeneratedUnit) :
    (units.map entryOf).map (·.1) = (units.map (·.fileName)).map Json.Symbols.ofString := by
  rw [List.map_map, List.map_map]
  rfl

theorem nodup_entries {units : List GeneratedUnit} (h : (units.map (·.fileName)).Nodup) :
    ((units.map entryOf).map (·.1)).Nodup := by
  rw [map_entryOf_fst]
  exact h.map fun _ _ heq => Json.Symbols.ofString_injective heq

/-- The manifest of units with distinct names is the list of their records. -/
theorem recordUnits_eq {units : List GeneratedUnit} (h : (units.map (·.fileName)).Nodup) :
    recordUnits units = units.map entryOf := by
  have hfold := OutputManifest.foldl_record (units.map entryOf) [] (nodup_entries h)
  rw [List.nil_append, List.foldl_map] at hfold
  exact hfold

/-- The last unit with a name. -/
def lastNamed (units : List GeneratedUnit) (name : String) : Option GeneratedUnit :=
  units.reverse.find? (·.fileName = name)

theorem lastNamed_eq_none {units : List GeneratedUnit} {name : String} :
    lastNamed units name = none ↔ ∀ u ∈ units, u.fileName ≠ name := by
  unfold lastNamed
  simp

theorem lastNamed_eq_some {units : List GeneratedUnit} {name : String} {u : GeneratedUnit}
    (h : lastNamed units name = some u) : u.fileName = name ∧ u ∈ units := by
  unfold lastNamed at h
  have hname := List.find?_some h
  rw [decide_eq_true_eq] at hname
  exact ⟨hname, List.mem_reverse.mp (List.mem_of_find?_eq_some h)⟩

/-- The record of a name is that of the last unit with the name. -/
theorem find?_recordUnits (units : List GeneratedUnit) (name : String) :
    (recordUnits units).find? (.ofString name) = (lastNamed units name).map recordOf := by
  have hfold := OutputManifest.find?_foldl_record (.ofString name) (units.map entryOf) []
  rw [List.foldl_map] at hfold
  have hsame : ∀ u : GeneratedUnit, decide ((entryOf u).1 = .ofString name) =
      decide (u.fileName = name) := by
    intro u
    exact decide_eq_decide.mpr
      ⟨fun h => Json.Symbols.ofString_injective h, congrArg Json.Symbols.ofString⟩
  refine hfold.trans ?_
  rw [← List.map_reverse, List.find?_map, Option.map_map]
  unfold lastNamed
  simp only [Function.comp_def, hsame]
  exact Option.or_none

/-- A name has no record iff no unit has it. -/
theorem find?_recordUnits_isNone {units : List GeneratedUnit} {name : Json.Symbols} :
    ((recordUnits units).find? name).isNone = true ↔
      ∀ u ∈ units, name ≠ Json.Symbols.ofString u.fileName := by
  constructor
  · rintro h u hu rfl
    rw [Option.isNone_iff_eq_none] at h
    have hsome := recordUnits_find? hu
    rw [h] at hsome
    cases hsome
  · intro h
    have hfold := OutputManifest.find?_foldl_record name (units.map entryOf) []
    rw [List.foldl_map] at hfold
    have hnone : (units.map entryOf).reverse.find? (·.1 = name) = none := by
      rw [List.find?_eq_none]
      intro x hx
      obtain ⟨u, hu, rfl⟩ := List.mem_map.mp (List.mem_reverse.mp hx)
      rw [decide_eq_true_eq]
      exact (h u hu).symm
    rw [hnone] at hfold
    exact Option.isNone_iff_eq_none.mpr hfold

theorem nodup_recordUnits (units : List GeneratedUnit) :
    ((recordUnits units).map (·.1)).Nodup := by
  have hfold : ∀ (us : List GeneratedUnit) (m : OutputManifest), (m.map (·.1)).Nodup →
      ((us.foldl (fun m u => m.record (.ofString u.fileName) (recordOf u)) m).map (·.1)).Nodup := by
    intro us
    induction us with
    | nil => exact fun _ hm => hm
    | cons u us ih => exact fun m hm => ih _ (OutputManifest.nodup_record hm _ _)
  exact hfold units [] List.nodup_nil

/-- The name and the kind of a unit are read back as they were written. -/
structure IsRecordable (u : GeneratedUnit) : Prop where
  name : (Json.Symbols.ofString u.fileName).IsSettled
  kind : (Json.Symbols.ofString u.kind).IsSettled

theorem isWritten_recordUnits {units : List GeneratedUnit} (h : ∀ u ∈ units, IsRecordable u) :
    (recordUnits units).IsWritten := by
  have hfold : ∀ (us : List GeneratedUnit) (m : OutputManifest), (∀ u ∈ us, IsRecordable u) →
      m.IsWritten →
      (us.foldl (fun m u => m.record (.ofString u.fileName) (recordOf u)) m).IsWritten := by
    intro us
    induction us with
    | nil => exact fun _ _ hm => hm
    | cons u us ih =>
      intro m hus hm
      obtain ⟨hu, hus⟩ := List.forall_mem_cons.mp hus
      exact ih _ hus (hm.record hu.name (Json.isSettled_ofPlain _) hu.kind)
  refine hfold units [] h ⟨⟨List.nodup_nil, ?_, ?_, ?_⟩, ?_⟩ <;>
    exact fun _ hx => absurd hx List.not_mem_nil

end Output

end FieldWiring
