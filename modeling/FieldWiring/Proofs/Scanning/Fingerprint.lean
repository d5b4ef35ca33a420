import FieldWiring.Sources
import Mathlib.Data.List.Basic
import Mathlib.Data.List.Perm.Basic
import Mathlib.Data.List.Nodup

/-!
# What a fingerprint tells

`SourceManifest.fingerprint` is the digest of the paths and digests of the files, in the order of
the paths and with a NUL behind each. It takes the bytes of that message, so there is none when a
path or a digest has no encoding. Where none of them holds a NUL itself, such a message can be read
back in one way only. It says which sources there are and nothing else: not in which order they are
listed, and not how large they are. Two manifests of different sources have the same fingerprint
only where SHA-256 gives two messages the same digest.

Results:
* `Sha256.hex_eq_iff`: the digits of a digest tell its words.
* `spell_inj`: pairs of texts can be read back from the message.
* `ordered_eq_iff`: in the order of paths, a manifest is told by the sources it lists.
* `message_eq_none_iff`: which manifests have no message.
* `fingerprint_identifies`: what the message tells, and what the fingerprint does.
-/

namespace FieldWiring

/-! ## Digests in writing -/

namespace Sha256

/-- Two messages collide: they differ, and their digests do not. -/
def Collide (a b : ByteArray) : Prop := a ≠ b ∧ digestWords a.toList = digestWords b.toList

/-- A number in hexadecimal digits, with zeros before it up to so many. -/
def digitsText (count n : Nat) : List Char :=
  List.replicate (count - (Nat.toDigits 16 n).length) '0' ++ Nat.toDigits 16 n

theorem wordText_eq (w : UInt32) : wordText w = digitsText 8 w.toNat := rfl

theorem length_toDigits_word (w : UInt32) : (Nat.toDigits 16 w.toNat).length ≤ 8 :=
  (Nat.length_toDigits_le_iff (by decide) (by decide)).mpr w.toNat_lt

theorem length_digitsText {count n : Nat} (hn : (Nat.toDigits 16 n).length ≤ count) :
    (digitsText count n).length = count := by
  rw [digitsText, List.length_append, List.length_replicate]
  omega

theorem length_toDigits_div {count n : Nat} (hn : (Nat.toDigits 16 n).length ≤ count + 2) :
    (Nat.toDigits 16 (n / 16)).length ≤ count + 1 := by
  by_cases hsmall : n < 16
  · rw [Nat.div_eq_of_lt hsmall, Nat.toDigits_zero]
    exact Nat.succ_le_succ (Nat.zero_le count)
  · rw [Nat.toDigits_of_base_le (by decide) (by omega), List.length_append] at hn
    exact Nat.le_of_succ_le_succ hn

/-- The last digit is that of the remainder. -/
theorem digitsText_succ {count : Nat} (hcount : 0 < count) (n : Nat) :
    digitsText (count + 1) n = digitsText count (n / 16) ++ [Nat.digitChar (n % 16)] := by
  unfold digitsText
  by_cases hn : n < 16
  · obtain ⟨k, rfl⟩ := Nat.exists_eq_add_of_lt hcount
    rw [Nat.toDigits_of_lt_base hn, Nat.div_eq_of_lt hn, Nat.mod_eq_of_lt hn, Nat.toDigits_zero]
    simp [← List.replicate_succ']
  · rw [Nat.toDigits_of_base_le (by decide) (by omega)]
    simp [List.append_assoc]

theorem digitChar_inj : ∀ a < 16, ∀ b < 16, Nat.digitChar a = Nat.digitChar b → a = b := by decide

/-- As many digits as a number has tell the number. -/
theorem digitsText_inj {count : Nat} : ∀ {n m : Nat},
    (Nat.toDigits 16 n).length ≤ count + 1 → (Nat.toDigits 16 m).length ≤ count + 1 →
      digitsText (count + 1) n = digitsText (count + 1) m → n = m := by
  induction count with
  | zero =>
    intro n m hn hm h
    have hone {k : Nat} (hk : (Nat.toDigits 16 k).length ≤ 1) : k < 16 := by
      simpa using (Nat.length_toDigits_le_iff (by decide) (by decide)).mp hk
    rw [digitsText, digitsText, Nat.toDigits_of_lt_base (hone hn),
      Nat.toDigits_of_lt_base (hone hm)] at h
    exact digitChar_inj n (hone hn) m (hone hm) (by simpa using h)
  | succ count ih =>
    intro n m hn hm h
    rw [digitsText_succ (Nat.succ_pos _), digitsText_succ (Nat.succ_pos _)] at h
    obtain ⟨hfront, hlast⟩ := List.append_inj' h rfl
    have hquotient : n / 16 = m / 16 := ih (length_toDigits_div hn) (length_toDigits_div hm) hfront
    have hremainder : n % 16 = m % 16 :=
      digitChar_inj _ (Nat.mod_lt _ (by decide)) _ (Nat.mod_lt _ (by decide))
      (List.cons.inj hlast).1
    rw [← Nat.div_add_mod n 16, ← Nat.div_add_mod m 16, hquotient, hremainder]

theorem flatMap_wordText_inj :
    ∀ {us vs : List UInt32}, us.length = vs.length →
      us.flatMap wordText = vs.flatMap wordText → us = vs
  | [], [], _, _ => rfl
  | u :: us, v :: vs, hlength, h => by
    rw [List.flatMap_cons, List.flatMap_cons, wordText_eq, wordText_eq] at h
    obtain ⟨hword, hrest⟩ := List.append_inj h <| by
      rw [length_digitsText (length_toDigits_word u), length_digitsText (length_toDigits_word v)]
    have hsame : u.toNat = v.toNat :=
      digitsText_inj (length_toDigits_word u) (length_toDigits_word v) hword
    rw [UInt32.toNat_inj.mp hsame, flatMap_wordText_inj (Nat.succ.inj hlength) hrest]

/-- The digits of a digest tell its words. -/
theorem hex_eq_iff {a b : ByteArray} :
    hex a = hex b ↔ digestWords a.toList = digestWords b.toList :=
  ⟨fun h => flatMap_wordText_inj rfl (String.ofList_injective h), fun h => by rw [hex, hex, h]⟩

end Sha256

/-! ## Reading the message back -/

/-- What stands before the first of some character can be told, and so can what stands behind it. -/
theorem ended_inj {c : Char} : ∀ {s t behind behind' : List Char}, c ∉ s → c ∉ t →
    s ++ c :: behind = t ++ c :: behind' → s = t ∧ behind = behind'
  | [], [], _, _, _, _, h => ⟨rfl, (List.cons.inj h).2⟩
  | [], d :: t, _, _, _, ht, h => absurd ((List.cons.inj h).1 ▸ List.mem_cons_self) ht
  | d :: s, [], _, _, hs, _, h => absurd ((List.cons.inj h).1 ▸ List.mem_cons_self) hs
  | d :: s, e :: t, _, _, hs, ht, h => by
    obtain ⟨rfl, hrest⟩ := List.cons.inj h
    obtain ⟨hsame, hbehind⟩ :=
      ended_inj (List.not_mem_of_not_mem_cons hs) (List.not_mem_of_not_mem_cons ht) hrest
    exact ⟨congrArg _ hsame, hbehind⟩

/-- The characters of a message: the texts of pairs, each ended by a NUL. -/
def spell : List (String × String) → List Char
  | [] => []
  | (path, hash) :: es => path.toList ++ '\x00' :: (hash.toList ++ '\x00' :: spell es)

theorem spell_ne_nil (e : String × String) (es : List (String × String)) : spell (e :: es) ≠ [] :=
  List.append_ne_nil_of_right_ne_nil _ (List.cons_ne_nil _ _)

/-- No text of the pair holds a NUL. -/
def LacksNul (e : String × String) : Prop := '\x00' ∉ e.1.toList ∧ '\x00' ∉ e.2.toList

/-- Pairs of texts can be read back. -/
theorem spell_inj : ∀ {es fs : List (String × String)},
    (∀ e ∈ es, LacksNul e) → (∀ f ∈ fs, LacksNul f) → spell es = spell fs → es = fs
  | [], [], _, _, _ => rfl
  | [], f :: fs, _, _, h => absurd h.symm (spell_ne_nil f fs)
  | e :: es, [], _, _, h => absurd h (spell_ne_nil e es)
  | (path, hash) :: es, (path', hash') :: fs, hes, hfs, h => by
    obtain ⟨⟨hpath, hhash⟩, hes⟩ := List.forall_mem_cons.mp hes
    obtain ⟨⟨hpath', hhash'⟩, hfs⟩ := List.forall_mem_cons.mp hfs
    obtain ⟨hp, hbehind⟩ := ended_inj hpath hpath' h
    obtain ⟨hh, hrest⟩ := ended_inj hhash hhash' hbehind
    have hpathSame : path = path' := String.toList_inj.mp hp
    have hhashSame : hash = hash' := String.toList_inj.mp hh
    rw [hpathSame, hhashSame, spell_inj hes hfs hrest]

/-! ## Manifests -/

/-- What the fingerprint takes from files: their paths and digests, in the order of the paths. -/
def ordered (files : List SourceFile) : List (String × String) :=
  (sortFiles files).map fun f => (f.path, f.hash)

theorem toList_fingerprintText (files : List SourceFile) :
    (fingerprintText files).toList = spell (ordered files) := by
  unfold fingerprintText ordered
  induction sortFiles files with
  | nil => simp [spell]
  | cons f fs ih =>
    rw [List.map_cons, List.map_cons, spell, ← ih]
    simp [fingerprintEntry]

namespace SourceManifest

variable {m n : SourceManifest}

/-- The manifest lists a source by its path and its digest. -/
def Lists (m : SourceManifest) (path hash : String) : Prop :=
  ∃ f ∈ m.files, f.path = path ∧ f.hash = hash

/-- Every path is listed once, and neither paths nor digests hold a NUL. -/
structure IsPlain (m : SourceManifest) : Prop where
  paths : (m.files.map (·.path)).Nodup
  noNul : ∀ f ∈ m.files, '\x00' ∉ f.path.toList ∧ '\x00' ∉ f.hash.toList

/-- Two manifests list the same sources. -/
def SameSources (m n : SourceManifest) : Prop := ∀ path hash, m.Lists path hash ↔ n.Lists path hash

/-- All paths and digests have an encoding. -/
def IsEncodable (m : SourceManifest) : Prop :=
  ∀ path hash, m.Lists path hash → Text.holdsHalf path = false ∧ Text.holdsHalf hash = false

theorem mem_ordered {path hash : String} : (path, hash) ∈ ordered m.files ↔ m.Lists path hash := by
  unfold ordered Lists
  rw [List.mem_map]
  refine exists_congr fun f => and_congr ((perm_sortBy _ _).mem_iff) ?_
  rw [Prod.mk.injEq]

theorem IsPlain.lacksNul (h : m.IsPlain) : ∀ e ∈ ordered m.files, LacksNul e := by
  rintro ⟨path, hash⟩ he
  obtain ⟨f, hf, rfl, rfl⟩ := mem_ordered.mp he
  exact h.noNul f hf

theorem IsPlain.nodup_ordered (h : m.IsPlain) : ((ordered m.files).map Prod.fst).Nodup := by
  unfold ordered
  rw [List.map_map]
  exact ((perm_sortBy _ m.files).map (·.path)).nodup_iff.mpr h.paths

theorem pairwise_ordered :
    (ordered m.files).Pairwise fun e f => Text.precedes e.1 f.1 = true :=
  List.pairwise_map.mpr (sorted_sortFiles m.files)

/-- In the order of paths, a manifest is told by the sources that it lists. -/
theorem ordered_eq_iff (hm : m.IsPlain) (hn : n.IsPlain) :
    ordered m.files = ordered n.files ↔ SameSources m n := by
  constructor
  · intro h path hash
    rw [← mem_ordered, ← mem_ordered, h]
  · intro h
    have hmem : ∀ e, e ∈ ordered m.files ↔ e ∈ ordered n.files := fun (path, hash) => by
      rw [mem_ordered, mem_ordered, h path hash]
    have hperm : (ordered m.files).Perm (ordered n.files) :=
      (List.perm_ext_iff_of_nodup hm.nodup_ordered.of_map hn.nodup_ordered.of_map).mpr hmem
    refine hperm.eq_of_pairwise (fun e f he hf hef hfe => ?_) pairwise_ordered pairwise_ordered
    exact List.inj_on_of_nodup_map hn.nodup_ordered ((hmem e).mp he) hf
      (Text.precedes_antisymm hef hfe)

/-- The texts are those of sources, with a NUL behind each. -/
theorem holdsHalf_fingerprintText (m : SourceManifest) :
    Text.holdsHalf (fingerprintText m.files) = false ↔ m.IsEncodable := by
  have hspell : ∀ es : List (String × String),
      ((spell es).any fun c => (Text.half? c).isSome) = false ↔
        ∀ e ∈ es, Text.holdsHalf e.1 = false ∧ Text.holdsHalf e.2 = false := by
    have hnul : (Text.half? '\x00').isSome = false := by decide
    intro es
    induction es with
    | nil => simp [spell]
    | cons e es ih =>
      obtain ⟨path, hash⟩ := e
      simp only [spell, List.any_append, List.any_cons, hnul, Bool.false_or, Bool.or_eq_false_iff,
        ih, List.forall_mem_cons, Text.holdsHalf, and_assoc]
  unfold Text.holdsHalf
  rw [toList_fingerprintText, hspell]
  unfold IsEncodable
  constructor
  · intro h path hash hlists
    exact h (path, hash) (mem_ordered.mpr hlists)
  · intro h e he
    exact h e.1 e.2 (mem_ordered.mp he)

theorem message_eq_some_iff {bytes : ByteArray} :
    m.message = some bytes ↔ m.IsEncodable ∧ (fingerprintText m.files).toUTF8 = bytes := by
  rw [message, Text.encode?_eq_some_iff, holdsHalf_fingerprintText]

/-- A manifest has no message when some path or digest has no encoding. -/
theorem message_eq_none_iff : m.message = none ↔ ¬ m.IsEncodable := by
  rw [Option.eq_none_iff_forall_ne_some]
  constructor
  · exact fun h hm => h _ (message_eq_some_iff.mpr ⟨hm, rfl⟩)
  · exact fun h bytes hbytes => h (message_eq_some_iff.mp hbytes).1

theorem fingerprintText_eq_iff (hm : m.IsPlain) (hn : n.IsPlain) :
    fingerprintText m.files = fingerprintText n.files ↔ SameSources m n := by
  rw [← ordered_eq_iff hm hn]
  constructor
  · intro h
    refine spell_inj hm.lacksNul hn.lacksNul ?_
    rw [← toList_fingerprintText, ← toList_fingerprintText, h]
  · intro h
    refine String.toList_inj.mp ?_
    rw [toList_fingerprintText, toList_fingerprintText, h]

end SourceManifest

/-- **A fingerprint identifies the sources.** A manifest has one iff all its paths and digests have
an encoding. In whatever order two manifests list their sources, the same sources have the same
message and the same fingerprint, if they have one. Where both have one, the messages are the same
only for the same sources, and so are the fingerprints, unless the messages collide. -/
theorem fingerprint_identifies (m n : SourceManifest) (hm : m.IsPlain) (hn : n.IsPlain) :
    ((∃ a, m.message = some a ∧ m.fingerprint = some (Sha256.hex a)) ↔ m.IsEncodable) ∧
    (m.SameSources n → m.message = n.message ∧ m.fingerprint = n.fingerprint) ∧
    ∀ a b, m.message = some a → n.message = some b →
      (a = b ↔ m.SameSources n) ∧
      (m.fingerprint = n.fingerprint ↔ m.SameSources n ∨ Sha256.Collide a b) := by
  refine ⟨?_, ?_, ?_⟩
  · constructor
    · rintro ⟨a, ha, -⟩
      exact (SourceManifest.message_eq_some_iff.mp ha).1
    · intro h
      have ha := SourceManifest.message_eq_some_iff.mpr ⟨h, rfl⟩
      exact ⟨_, ha, by rw [SourceManifest.fingerprint, ha, Option.map_some]⟩
  · intro h
    have hmessage : m.message = n.message :=
      congrArg Text.encode? ((SourceManifest.fingerprintText_eq_iff hm hn).mpr h)
    exact ⟨hmessage, congrArg (Option.map Sha256.hex) hmessage⟩
  · intro a b ha hb
    have hbytes : a = b ↔ m.SameSources n := by
      rw [← (SourceManifest.message_eq_some_iff.mp ha).2,
        ← (SourceManifest.message_eq_some_iff.mp hb).2,
        ← SourceManifest.fingerprintText_eq_iff hm hn]
      exact String.toByteArray_inj
    refine ⟨hbytes, ?_⟩
    rw [SourceManifest.fingerprint, SourceManifest.fingerprint, ha, hb, Option.map_some,
      Option.map_some, Option.some_inj, Sha256.hex_eq_iff, ← hbytes]
    constructor
    · intro h
      by_cases heq : a = b
      · exact .inl heq
      · exact .inr ⟨heq, h⟩
    · rintro (rfl | h)
      · rfl
      · exact h.2

/-- Two sources, not in the order of their paths. -/
def twoSources : SourceManifest :=
  ⟨"/p", [⟨"src/b.cs", 3, "C#", "01"⟩, ⟨"src/a.cs", 5, "C#", "00"⟩]⟩

/-- The same but for a character that has moved from a path to its digest. -/
def shiftedSources : SourceManifest :=
  ⟨"/p", [⟨"src/b.c", 3, "C#", "s01"⟩, ⟨"src/a.cs", 5, "C#", "00"⟩]⟩

/-- The same but for a path that is no UTF-8, with a half in it. -/
def strayedSources : SourceManifest :=
  ⟨"/p", [⟨String.ofList ['c', Text.ofHalf 0xDCE9], 3, "C#", "01"⟩]⟩

theorem twoSources_identified :
    twoSources.IsPlain ∧ shiftedSources.IsPlain ∧
      twoSources.fingerprint = SourceManifest.fingerprint ⟨"/q", twoSources.files.reverse⟩ ∧
      twoSources.fingerprint ≠ none ∧ twoSources.message ≠ shiftedSources.message ∧
      strayedSources.message = none := by
  have hplain : twoSources.IsPlain := ⟨by decide, by decide⟩
  have hreverse : SourceManifest.IsPlain ⟨"/q", twoSources.files.reverse⟩ := ⟨by decide, by decide⟩
  have hshifted : shiftedSources.IsPlain := ⟨by decide, by decide⟩
  have hsame : twoSources.SameSources ⟨"/q", twoSources.files.reverse⟩ := fun path hash =>
    exists_congr fun f => and_congr_left' List.mem_reverse.symm
  obtain ⟨hencoded, hequal, htell⟩ := fingerprint_identifies _ _ hplain hreverse
  have htexts : ∀ f ∈ twoSources.files ++ shiftedSources.files,
      Text.holdsHalf f.path = false ∧ Text.holdsHalf f.hash = false := by
    decide
  obtain ⟨a, ha, hfingerprint⟩ := hencoded.mpr fun path hash ⟨f, hf, hpath, hhash⟩ =>
    hpath ▸ hhash ▸ htexts f (List.mem_append_left _ hf)
  refine ⟨hplain, hshifted, (hequal hsame).2, ?_, ?_, ?_⟩
  · rw [hfingerprint]
    exact Option.some_ne_none _
  · obtain ⟨b, hb, -⟩ := (fingerprint_identifies _ _ hshifted hplain).1.mpr
      fun path hash ⟨f, hf, hpath, hhash⟩ => hpath ▸ hhash ▸ htexts f (List.mem_append_right _ hf)
    intro h
    rw [ha, hb] at h
    obtain ⟨hbytes, -⟩ := (fingerprint_identifies _ _ hplain hshifted).2.2 a b ha hb
    obtain ⟨f, hf, hpath, -⟩ :=
      (hbytes.mp (Option.some.inj h) "src/b.cs" "01").mp ⟨_, .head _, rfl, rfl⟩
    have hnone : ∀ f ∈ shiftedSources.files, f.path ≠ "src/b.cs" := by decide
    exact hnone f hf hpath
  · rw [SourceManifest.message_eq_none_iff]
    intro hall
    have hpath := (hall _ _ ⟨_, .head _, rfl, rfl⟩).1
    exact absurd hpath (by decide)

end FieldWiring
