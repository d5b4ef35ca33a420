import FieldWiring.Frontend
import FieldWiring.Proofs.Files.Following
import FieldWiring.Proofs.Scanning.OutputNames

/-!
# The names of sources

The ending of a name is looked at three times: in the whole name in small letters, where a scan
decides whether it is a source; in the ending of the name as it stands, which tells the language;
and in the whole path in small letters, where the frontend decides whether to read it. Small letters
are those of Unicode, in which a text may change its length and a letter depend on its neighbours.
But no letter outside the Latin alphabet becomes one of those that the endings are made of, so all
three agree with the Latin capitals alone.

Results:
* `Text.suffix_lowerAfter_iff`: an ending in Latin letters, whatever their size.
* `isSourceName_iff`: which names are those of sources.
* `languageOf?_source`: the language of a source is found.
* `isSourcePath_source`: the frontend reads every source.
-/

namespace FieldWiring

/-! ## Small letters -/

namespace Text

/-- The dot and the small Latin letters. No k is among them, as the sign for Kelvin is a k in small
letters. -/
def plainLetters : List Char :=
  ['.', 'a', 'b', 'c', 'd', 'e', 'f', 'g', 'h', 'i', 'j', 'l', 'm', 'n', 'o', 'p', 'q', 'r', 's',
    't', 'u', 'v', 'w', 'x', 'y', 'z']

/-- Plain letters are small ones. In the table the Latin capitals come first; what follows lies
behind all plain letters, and so do its small letters, a single k apart. -/
theorem plainLetters_table :
    (∀ d ∈ plainLetters, d.toLower = d ∧ lowerChar d = d ∧ d.toNat ≤ 122 ∧ d.toNat ≠ 107) ∧
      ∀ r ∈ lowerRanges, (r.first = 65 ∧ r.last = 90) ∨ (122 : Int) < r.first + r.offset ∨
        (r.first = r.last ∧ (r.first + r.offset).toNat = 107) := by
  have hletters : plainLetters.all (fun d =>
      decide (d.toLower = d ∧ lowerChar d = d ∧ d.toNat ≤ 122 ∧ d.toNat ≠ 107)) = true := by
    decide +kernel
  have htable : lowerRanges.all (fun r => decide ((r.first = 65 ∧ r.last = 90) ∨
      (122 : Int) < r.first + r.offset ∨
        (r.first = r.last ∧ (r.first + r.offset).toNat = 107))) = true := by
    decide +kernel
  exact ⟨fun d hd => of_decide_eq_true (List.all_eq_true.mp hletters d hd),
    fun r hr => of_decide_eq_true (List.all_eq_true.mp htable r hr)⟩

theorem of_ofNat_plain {n : Nat} (h : Char.ofNat n ∈ plainLetters) : n ≤ 122 ∧ n ≠ 107 := by
  by_cases hv : n.isValidChar
  · have hn : (Char.ofNat n).toNat = n := by
      rw [Char.ofNat, dif_pos hv]
      rfl
    exact hn ▸ (plainLetters_table.1 _ h).2.2
  · rw [Char.ofNat, dif_neg hv] at h
    exact absurd h (by decide)

/-- Besides the Latin capitals, no character has a plain letter other than itself for its small
one. -/
theorem toLower_of_lowerChar {c : Char} (h : lowerChar c ∈ plainLetters) :
    c.toLower = lowerChar c := by
  by_cases hupper : c.isUpper = true
  · exact (lowerChar_of_isUpper hupper).symm
  · unfold lowerChar at h ⊢
    split at h
    · rename_i r hr
      exfalso
      have hin := List.find?_some hr
      simp only [Bool.and_eq_true, decide_eq_true_eq] at hin
      obtain ⟨⟨hfirst, hlast⟩, -⟩ := hin
      have hsmall := of_ofNat_plain h
      rcases plainLetters_table.2 r (List.mem_of_find?_eq_some hr) with
        ⟨ha, hz⟩ | hbehind | ⟨hone, hk⟩
      · exact hupper (isUpper_iff.mpr ⟨by omega, by omega⟩)
      · omega
      · have hcode : c.toNat = r.first := by omega
        rw [hcode] at hsmall
        exact hsmall.2 hk
    · exact (plainLetters_table.1 c h).1

/-- The small letters at a place are one character, which is plain when that of the Latin capitals
is; only a dotted capital I becomes two. -/
theorem lowerAt_cases (before : List Char) (c : Char) (after : List Char) :
    (c = 'İ' ∧ lowerAt before c after = ['i', Char.ofNat 0x307]) ∨
      ∃ x, lowerAt before c after = [x] ∧ ∀ d ∈ plainLetters, d = x ↔ d = c.toLower := by
  unfold lowerAt
  by_cases hi : c = 'İ'
  · exact .inl ⟨hi, if_pos hi⟩
  · rw [if_neg hi]
    right
    by_cases hs : c = 'Σ'
    · subst hs
      -- neither form of a small sigma is plain, and to Latin letters the capital is its own
      -- small one
      have hnone : ∀ {x : Char}, x ∉ plainLetters → ∀ d ∈ plainLetters,
          d = x ↔ d = 'Σ'.toLower := by
        intro x hx d hd
        constructor
        · rintro rfl
          exact absurd hd hx
        · rintro rfl
          exact absurd hd (by decide)
      rw [if_pos rfl]
      split
      · exact ⟨_, rfl, hnone (by decide)⟩
      · exact ⟨_, rfl, hnone (by decide)⟩
    · rw [if_neg hs]
      refine ⟨_, rfl, fun d hd => ⟨?_, ?_⟩⟩
      · rintro rfl
        exact (toLower_of_lowerChar hd).symm
      · intro hc
        by_cases hupper : c.isUpper = true
        · rw [lowerChar_of_isUpper hupper, hc]
        · have hsame : c.toLower = c := by
            rw [isUpper_iff] at hupper
            unfold Char.toLower
            rw [dif_neg]
            simpa [UInt32.le_iff_toNat_le] using hupper
          rw [hsame] at hc
          rw [← hc, (plainLetters_table.1 d hd).2.1]

theorem toList_lower (s : String) : (lower s).toList = lowerAfter [] s.toList :=
  String.toList_ofList

section Endings

variable {e : List Char}

/-- A plain text is a text in small letters when it is so with the Latin capitals alone. -/
theorem eq_lowerAfter_iff (he : ∀ d ∈ e, d ∈ plainLetters) (before s : List Char) :
    e = lowerAfter before s ↔ e = s.map Char.toLower := by
  induction s generalizing e before with
  | nil => rfl
  | cons c s ih =>
    rw [lowerAfter, List.map_cons]
    rcases lowerAt_cases before c s with ⟨rfl, hat⟩ | ⟨x, hat, hx⟩
    · rw [hat]
      constructor
      · rintro rfl
        exact absurd (he (Char.ofNat 0x307) (by simp)) (by decide)
      · rintro rfl
        exact absurd (he _ List.mem_cons_self) (by decide)
    · rw [hat, List.singleton_append]
      cases e with
      | nil => simp
      | cons d e =>
        rw [List.cons.injEq, List.cons.injEq, hx d (he d List.mem_cons_self),
          ih fun d' hd' => he d' (List.mem_cons_of_mem d hd')]

/-- A text in small letters has a plain ending when it has it with the Latin capitals alone. -/
theorem suffix_lowerAfter_iff (he : ∀ d ∈ e, d ∈ plainLetters) (before s : List Char) :
    e <:+ lowerAfter before s ↔ e <:+ s.map Char.toLower := by
  induction s generalizing before with
  | nil => rfl
  | cons c s ih =>
    have hwhole := eq_lowerAfter_iff he before (c :: s)
    rw [lowerAfter] at hwhole ⊢
    rw [List.map_cons] at hwhole ⊢
    rcases lowerAt_cases before c s with ⟨rfl, hat⟩ | ⟨x, hat, -⟩
    · -- the accent is not plain, so the ending begins behind it
      rw [hat] at hwhole ⊢
      have haccent : e ≠ Char.ofNat 0x307 :: lowerAfter ('İ' :: before) s := by
        rintro rfl
        exact absurd (he _ List.mem_cons_self) (by decide)
      rw [List.cons_append, List.singleton_append, List.suffix_cons_iff, List.suffix_cons_iff,
        List.suffix_cons_iff, ih, or_iff_right haccent]
      exact or_congr_left hwhole
    · rw [hat, List.singleton_append] at hwhole ⊢
      rw [List.suffix_cons_iff, List.suffix_cons_iff, ih, hwhole]

end Endings

end Text

/-! ## Endings of names -/

/-- What a name ends with, from its last dot on. -/
theorem suffixOf_eq_iff {e : List Char} (hdot : '.' ∉ e) (hne : e ≠ []) (name : String) :
    Path.suffixOf name = String.ofList ('.' :: e) ↔
      '.' :: e <:+ name.toList ∧ '.' :: e ≠ name.toList := by
  have hwritten (w : List Char) : "." ++ String.ofList w = String.ofList ('.' :: w) := by
    rw [← String.toList_inj, String.toList_append, String.toList_ofList, String.toList_ofList,
      String.toList_ofList, List.singleton_append]
  unfold Path.suffixOf
  simp only [hwritten]
  constructor
  · intro h
    split at h
    · exact absurd (String.toList_inj.mpr h) (by simp)
    · rename_i hcond
      simp only [Bool.or_eq_true, List.isEmpty_iff, decide_eq_true_eq, not_or, Nat.not_le] at hcond
      have hparts := List.takeWhile_append_dropWhile (p := (· != '.')) (l := name.toList.reverse)
      have he : (name.toList.reverse.takeWhile (· != '.')).reverse = e :=
        (List.cons.inj (String.ofList_injective h)).2
      cases hrest : name.toList.reverse.dropWhile (· != '.') with
      | nil =>
        -- a name without a dot is no longer than its ending
        have hlen := congrArg List.length hparts
        rw [hrest, List.append_nil, List.length_reverse, String.length_toList] at hlen
        omega
      | cons c rest =>
        have hc : c = '.' := by
          have := List.head?_dropWhile_not (p := (· != '.')) (l := name.toList.reverse)
          rw [hrest] at this
          simpa using this
        rw [hrest, hc] at hparts
        have hname : name.toList = rest.reverse ++ '.' :: e := by
          rw [← List.reverse_reverse name.toList, ← hparts, List.reverse_append, he,
            List.reverse_cons, List.append_assoc, List.singleton_append]
        have hlen := congrArg List.length he
        rw [List.length_reverse] at hlen
        refine ⟨hname ▸ List.suffix_append _ _, fun heq => ?_⟩
        rw [hlen, ← String.length_toList, ← heq, List.length_cons] at hcond
        omega
  · rintro ⟨⟨x, hx⟩, hwhole⟩
    have hx0 : x ≠ [] := by
      rintro rfl
      exact hwhole hx
    have htake : name.toList.reverse.takeWhile (· != '.') = e.reverse := by
      rw [← hx, List.reverse_append, List.reverse_cons, List.append_assoc,
        List.takeWhile_append_of_pos]
      · simp
      · intro c hc
        rw [bne_iff_ne]
        rintro rfl
        exact hdot (List.mem_reverse.mp hc)
    have hlen : name.length = x.length + (e.length + 1) := by
      rw [← String.length_toList, ← hx, List.length_append, List.length_cons]
    have := List.length_pos_iff.mpr hx0
    rw [htake, if_neg, List.reverse_reverse]
    simp [hne]
    omega

/-- The endings by which languages are told. -/
def languages : List (String × String) := [(".cs", sourceLanguage)]

/-- The language of the file at a path, told by the ending of its name. -/
def languageOf? (path : String) : Option String :=
  languages.lookup (Text.lower (Path.suffixOf (Path.ofText path).name))

/-- The name of a source: a text before the ending for C#, which is in letters of any size, and no
ending of generated sources. -/
structure HasSourceName (name : String) : Prop where
  ending : ∃ stem ending, stem ≠ "" ∧ name = stem ++ ending ∧ ending.toLower = ".cs"
  notGenerated : ∀ stem ending, name = stem ++ ending → ending.toLower ∉ generatedEndings

theorem toList_toLower (s : String) : s.toLower.toList = s.toList.map Char.toLower :=
  String.toList_map

theorem exists_ending_iff {e : String} {name : String} :
    (∃ stem ending, name = stem ++ ending ∧ ending.toLower = e) ↔
      e.toList <:+ name.toList.map Char.toLower := by
  rw [List.suffix_map_iff]
  constructor
  · rintro ⟨stem, ending, rfl, rfl⟩
    refine ⟨ending.toList, ?_, toList_toLower ending⟩
    rw [String.toList_append]
    exact List.suffix_append _ _
  · rintro ⟨ending, ⟨stem, hname⟩, he⟩
    refine ⟨String.ofList stem, String.ofList ending, ?_, ?_⟩
    · rw [← String.toList_inj, String.toList_append, String.toList_ofList,
        String.toList_ofList, hname]
    · rw [← String.toList_inj, he, toList_toLower, String.toList_ofList]

theorem plain_endings :
    ∀ e ∈ ".cs" :: generatedEndings, ∀ d ∈ e.toList, d ∈ Text.plainLetters := by
  simp [generatedEndings, Text.plainLetters]

theorem toList_cs : ".cs".toList = ['.', 'c', 's'] := String.toList_ofList

theorem isSourceName_iff (name : String) : isSourceName name = true ↔ HasSourceName name := by
  have hcs : ".cs" = String.ofList ('.' :: ['c', 's']) := rfl
  unfold isSourceName
  rw [Bool.and_eq_true, decide_eq_true_eq, Bool.not_eq_true', List.any_eq_false, hcs,
    suffixOf_eq_iff (by decide) (by decide), Text.toList_lower, ← toList_cs,
    Text.suffix_lowerAfter_iff (plain_endings _ List.mem_cons_self), ne_eq,
    Text.eq_lowerAfter_iff (plain_endings _ List.mem_cons_self)]
  constructor
  · rintro ⟨⟨hends, hwhole⟩, hgen⟩
    refine ⟨?_, ?_⟩
    · obtain ⟨stem, ending, rfl, he⟩ := exists_ending_iff.mpr hends
      refine ⟨stem, ending, ?_, rfl, he⟩
      rintro rfl
      refine hwhole ?_
      rw [String.empty_append, ← toList_toLower, he]
    · intro stem ending hname hmem
      refine hgen _ hmem ?_
      rw [List.isSuffixOf_iff_suffix,
        Text.suffix_lowerAfter_iff (plain_endings _ (List.mem_cons_of_mem _ hmem))]
      exact exists_ending_iff.mp ⟨stem, ending, hname, rfl⟩
  · rintro ⟨⟨stem, ending, hstem, rfl, he⟩, hgen⟩
    have hends := exists_ending_iff.mp ⟨stem, ending, rfl, he⟩
    refine ⟨⟨hends, fun heq => hstem ?_⟩, fun e hmem hend => ?_⟩
    · -- the ending alone is as long as the whole name
      rw [String.toList_append, List.map_append, ← toList_toLower ending, he] at heq
      have hlen := congrArg List.length heq
      rw [List.length_append, List.length_map] at hlen
      refine String.toList_eq_nil_iff.mp (List.length_eq_zero_iff.mp ?_)
      omega
    · rw [List.isSuffixOf_iff_suffix,
        Text.suffix_lowerAfter_iff (plain_endings e (List.mem_cons_of_mem _ hmem))] at hend
      obtain ⟨stem', ending', hname, he'⟩ := exists_ending_iff.mpr hend
      exact hgen stem' ending' hname (he' ▸ hmem)

instance (name : String) : Decidable (HasSourceName name) :=
  decidable_of_iff _ (isSourceName_iff name)

/-! ## Paths of sources -/

/-- A location in writing ends with its last name. -/
theorem suffix_relativeText {l : Location} (hl : l ≠ []) :
    (l.getLast hl).toList <:+ (relativeText l).toList := by
  unfold relativeText
  induction l with
  | nil => exact absurd rfl hl
  | cons s l ih =>
    cases l with
    | nil =>
      rw [String.intercalate_singleton]
      exact List.suffix_rfl
    | cons r l =>
      rw [List.getLast_cons (List.cons_ne_nil r l), String.intercalate_cons_cons,
        String.toList_append]
      exact List.suffix_append_of_suffix (ih (List.cons_ne_nil r l))

section Paths

variable {l : Location}

/-- The frontend reads every source. -/
theorem isSourcePath_source (hl : l ≠ []) (h : HasSourceName (l.getLast hl)) :
    CSharp.isSourcePath (relativeText l) = true := by
  obtain ⟨stem, ending, -, hname, he⟩ := h.ending
  unfold CSharp.isSourcePath
  rw [List.isSuffixOf_iff_suffix, Text.toList_lower,
    Text.suffix_lowerAfter_iff (plain_endings _ List.mem_cons_self)]
  exact (exists_ending_iff.mp ⟨stem, ending, hname, he⟩).trans ((suffix_relativeText hl).map _)

theorem eq_dot_of_toLower {c : Char} (h : c.toLower = '.') : c = '.' := by
  unfold Char.toLower at h
  split at h
  · rename_i hupper
    have hcode := congrArg (fun d : Char => d.val.toNat) h
    simp [UInt32.le_iff_toNat_le] at hupper hcode
    omega
  · exact h

/-- The ending of a source's name tells its language. -/
theorem languageOf?_source (hnames : ∀ s ∈ l, IsName s) (hl : l ≠ [])
    (h : HasSourceName (l.getLast hl)) : languageOf? (relativeText l) = some sourceLanguage := by
  obtain ⟨stem, ending, hstem, hname, he⟩ := h.ending
  have hmap : ending.toList.map Char.toLower = ['.', 'c', 's'] := by
    rw [← toList_cs, ← he, toList_toLower]
  -- the dot is the last one of the name
  have hsuffix : Path.suffixOf (l.getLast hl) = ending := by
    cases hending : ending.toList with
    | nil =>
      rw [hending] at hmap
      cases hmap
    | cons c e =>
      rw [hending, List.map_cons, List.cons.injEq] at hmap
      obtain ⟨hc, hletters⟩ := hmap
      obtain rfl := eq_dot_of_toLower hc
      have hdot : '.' ∉ e := by
        intro hmem
        have := List.mem_map_of_mem (f := Char.toLower) hmem
        rw [hletters] at this
        exact absurd this (by decide)
      have hne : e ≠ [] := by
        rintro rfl
        cases hletters
      rw [← String.ofList_toList (s := ending), hending, suffixOf_eq_iff hdot hne, hname,
        String.toList_append, hending]
      refine ⟨List.suffix_append _ _, fun heq => hstem (String.toList_eq_nil_iff.mp ?_)⟩
      exact List.append_left_eq_self.mp heq.symm
  have hlower : Text.lower ending = ".cs" := by
    rw [← String.toList_inj, Text.toList_lower, eq_comm,
      Text.eq_lowerAfter_iff (plain_endings _ List.mem_cons_self), hmap, toList_cs]
  have hlast : (Path.ofText (relativeText l)).name = l.getLast hl := by
    unfold relativeText
    rw [ofText_intercalate hnames, Path.name, List.getLast?_eq_some_getLast hl, Option.getD_some]
  unfold languageOf?
  rw [hlast, hsuffix, hlower]
  rfl

end Paths

end FieldWiring
