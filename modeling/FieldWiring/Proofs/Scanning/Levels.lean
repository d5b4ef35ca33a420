import FieldWiring.Proofs.Scanning.Admission

/-!
# Patterns entry by entry

Where every entry on the way to a file is judged by itself, a pattern without a slash speaks about
the entry's own name. The scan also lets it speak about the names above the entry. That makes no
difference while no pattern is negated: what such a pattern excludes below a directory is not looked
into anyway. With negated patterns the two come apart both ways. A directory that is excluded by its
name and included again stays excluded for the files in it, and a negated pattern for a directory
includes files in it that another pattern excludes by their names.

Results:
* `appliesTo_eq`: where a pattern applies.
* `excludes_differ_iff`: how an entry is judged differently.
* `scan_by_levels`: which files the scan lists against the judgement entry by entry.
-/

namespace FieldWiring

open FileTree

namespace ExcludePattern

/-- The pattern applies to the entry at `l` by itself: a pattern without a slash to its name, any
other one to its path from the root. -/
def appliesAlone (p : ExcludePattern) (l : Location) (isDir : Bool) : Bool :=
  (isDir || !p.dirOnly) &&
    Glob.accepts p.glob (if p.isPath then relativeText l else l.getLast?.getD "")

/-- The pattern has no slash and stands for the name of a directory above the entry at `l`. -/
def appliesAbove (p : ExcludePattern) (l : Location) (isDir : Bool) : Bool :=
  (isDir || !p.dirOnly) && !p.isPath && l.dropLast.any (Glob.accepts p.glob)

theorem appliesTo_eq {l : Location} (hl : l ≠ []) (hnames : ∀ s ∈ l, IsName s) (p : ExcludePattern)
    (isDir : Bool) : p.appliesTo l isDir = (p.appliesAlone l isDir || p.appliesAbove l isDir) := by
  unfold appliesTo applies appliesAlone appliesAbove
  cases hpath : p.isPath with
  | true => simp
  | false =>
    have hnames' : (Text.splitAt '/' (relativeText l)).any (Glob.accepts p.glob) =
        (Glob.accepts p.glob (l.getLast?.getD "") || l.dropLast.any (Glob.accepts p.glob)) := by
      unfold relativeText
      rw [splitAt_intercalate hl hnames]
      rcases List.eq_nil_or_concat l with rfl | ⟨m, s, rfl⟩
      · exact absurd rfl hl
      · rw [List.concat_eq_append, List.any_append, List.dropLast_concat, List.getLast?_concat,
          Option.getD_some, List.any_cons, List.any_nil, Bool.or_false, Bool.or_comm]
    simp only [Bool.false_eq_true, if_false, hnames', Bool.not_false, Bool.and_true]
    rw [Bool.and_or_distrib_left]

/-- A pattern that applies from above applies to the directory whose name it stands for. -/
theorem alone_of_above {p : ExcludePattern} {l : Location} {isDir : Bool}
    (h : p.appliesAbove l isDir = true) :
    ∃ k, k ≠ [] ∧ k <+: l.dropLast ∧ p.appliesAlone k true = true := by
  unfold appliesAbove at h
  rw [Bool.and_eq_true, Bool.and_eq_true, List.any_eq_true] at h
  obtain ⟨⟨-, hpath⟩, s, hs, haccepts⟩ := h
  obtain ⟨before, after, hsplit⟩ := List.append_of_mem hs
  refine ⟨before ++ [s], List.append_ne_nil_of_right_ne_nil before (List.cons_ne_nil s []), ?_, ?_⟩
  · rw [hsplit, List.append_cons before s after]
    exact List.prefix_append _ after
  · unfold appliesAlone
    rw [(Bool.not_eq_true' _).mp hpath, List.getLast?_concat]
    simpa using haccepts

/-- The pattern applies to the entry by itself or from above. -/
def appliesEither (p : ExcludePattern) (l : Location) (isDir : Bool) : Bool :=
  p.appliesAlone l isDir || p.appliesAbove l isDir

end ExcludePattern

/-! ## Judging an entry -/

section Judging

variable {f g : ExcludePattern → Bool} {patterns : List ExcludePattern} {p q : ExcludePattern}

theorem exists_isLast (hp : p ∈ patterns) (h : g p = true) : ∃ q, IsLast g patterns q := by
  simp only [isLast_iff]
  exact Option.isSome_iff_exists.mp (List.find?_isSome.mpr ⟨p, List.mem_reverse.mpr hp, h⟩)

theorem IsLast.mem (h : IsLast g patterns p) : p ∈ patterns := by
  obtain ⟨before, after, rfl, -⟩ := h
  exact List.mem_append_right before List.mem_cons_self

theorem IsLast.applies (h : IsLast g patterns p) : g p = true := by
  obtain ⟨before, after, -, hp, -⟩ := h
  exact hp

/-- The last pattern that applies decides. -/
theorem IsLast.excludes_iff (h : IsLast g patterns p) :
    Excludes g patterns ↔ p.isNegated = false := by
  refine ⟨?_, fun hp => ⟨p, h, hp⟩⟩
  rintro ⟨q, hq, hn⟩
  rw [isLast_iff] at h hq
  rw [h] at hq
  exact Option.some.inj hq ▸ hn

/-- The last of more patterns that apply is also that of fewer, if it is among them. -/
theorem IsLast.narrow (hfg : ∀ q, f q = true → g q = true) (h : IsLast g patterns p)
    (hp : f p = true) : IsLast f patterns p := by
  obtain ⟨before, after, rfl, -, hafter⟩ := h
  refine ⟨before, after, rfl, hp, fun q hq => ?_⟩
  by_contra hf
  have := hfg q (by simpa using hf)
  rw [hafter q hq] at this
  cases this

/-- Where more patterns apply, the entry is judged differently when the last one is among the
further ones and says so. -/
theorem excludes_differ_iff (hfg : ∀ q, f q = true → g q = true) :
    (¬ (Excludes g patterns ↔ Excludes f patterns)) ↔
      ∃ p, IsLast g patterns p ∧ f p = false ∧ (p.isNegated = true ↔ Excludes f patterns) := by
  constructor
  · intro hdiffer
    have hlast : ∃ p, IsLast g patterns p := by
      by_cases hg : Excludes g patterns
      · exact hg.imp fun p hp => hp.1
      · have hf : Excludes f patterns := by
          by_contra hf
          exact hdiffer ⟨fun h => absurd h hg, fun h => absurd h hf⟩
        obtain ⟨p, hp, -⟩ := hf
        exact exists_isLast hp.mem (hfg p hp.applies)
    obtain ⟨p, hp⟩ := hlast
    refine ⟨p, hp, ?_, ?_⟩
    · by_contra hfp
      have hp' := hp.narrow hfg (by simpa using hfp)
      exact hdiffer (hp.excludes_iff.trans hp'.excludes_iff.symm)
    · rw [hp.excludes_iff] at hdiffer
      cases hn : p.isNegated with
      | true =>
        rw [hn] at hdiffer
        simpa using hdiffer
      | false =>
        rw [hn] at hdiffer
        simpa using hdiffer
  · rintro ⟨p, hp, -, hn⟩ hsame
    rw [hp.excludes_iff, ← hn] at hsame
    cases p.isNegated <;> simp at hsame

/-- Patterns without negated ones exclude what any of them applies to. -/
theorem excludes_plain (hplain : ∀ p ∈ patterns, p.isNegated = false) :
    Excludes g patterns ↔ ∃ p ∈ patterns, g p = true := by
  constructor
  · rintro ⟨p, hp, -⟩
    exact ⟨p, hp.mem, hp.applies⟩
  · rintro ⟨p, hp, h⟩
    obtain ⟨q, hq⟩ := exists_isLast hp h
    exact hq.excludes_iff.mpr (hplain q hq.mem)

end Judging

/-! ## Judging a file -/

section Files

variable {patterns : List ExcludePattern} {l : Location}

/-- The last pattern that applies to the entry at `l`, by itself or from above, does so from above
only. -/
def SettledAbove (patterns : List ExcludePattern) (p : ExcludePattern) (l : Location)
    (isDir : Bool) : Prop :=
  IsLast (·.appliesEither l isDir) patterns p ∧ p.appliesAlone l isDir = false

/-- Whether a file is listed, against the judgement of every entry on the way to it by itself. -/
structure JudgedByLevels (patterns : List ExcludePattern) (l : Location) (listed : Prop) :
    Prop where
  listed_iff : listed ↔ Admissible ExcludePattern.appliesEither patterns l
  dropped_iff : Admissible ExcludePattern.appliesAlone patterns l →
    (¬ listed ↔ ∃ k isDir, IsLevel l k isDir ∧ ∃ p, SettledAbove patterns p k isDir ∧
      p.isNegated = false)
  kept_iff : listed →
    (¬ Admissible ExcludePattern.appliesAlone patterns l ↔ ∃ k isDir, IsLevel l k isDir ∧
      Excludes (·.appliesAlone k isDir) patterns ∧ ∃ p, SettledAbove patterns p k isDir ∧
        p.isNegated = true)
  plain : (∀ p ∈ patterns, p.isNegated = false) →
    (listed ↔ Admissible ExcludePattern.appliesAlone patterns l)

/-- What stands above an entry on the way to a file is on the way too. -/
theorem IsLevel.above {k d : Location} {isDir : Bool} (h : IsLevel l k isDir) (hne : d ≠ [])
    (hd : d <+: k.dropLast) : IsLevel l d true := by
  have hk : k <+: l := by
    cases h with
    | directory _ hk _ => exact hk
    | file => exact List.prefix_rfl
  refine .directory hne ((hd.trans (List.dropLast_prefix k)).trans hk) ?_
  rintro rfl
  have hdlen := hd.length_le
  have hklen := hk.length_le
  have := List.length_pos_iff.mpr hne
  rw [List.length_dropLast] at hdlen
  omega

theorem alone_either {p : ExcludePattern} {k : Location} {isDir : Bool}
    (h : p.appliesAlone k isDir = true) : p.appliesEither k isDir = true := by
  unfold ExcludePattern.appliesEither
  rw [h]
  rfl

variable {f g : ExcludePattern → Location → Bool → Bool}

/-- Two judgements of a file differ where they differ on some entry on the way to it. -/
theorem not_admissible_iff (h : Admissible f patterns l) :
    ¬ Admissible g patterns l ↔ ∃ k isDir, IsLevel l k isDir ∧ Excludes (g · k isDir) patterns := by
  constructor
  · intro hg
    by_contra hnone
    refine hg ⟨h.name, h.entered, fun k isDir hk hexcludes => hnone ⟨k, isDir, hk, hexcludes⟩⟩
  · rintro ⟨k, isDir, hk, hexcludes⟩ hg
    exact hg.included k isDir hk hexcludes

theorem judgedByLevels (patterns : List ExcludePattern) (l : Location) :
    JudgedByLevels patterns l (Admissible ExcludePattern.appliesEither patterns l) where
  listed_iff := Iff.rfl
  dropped_iff h := by
    rw [not_admissible_iff h]
    refine exists_congr fun k => exists_congr fun isDir => and_congr_right fun hk => ?_
    have hfree := h.included k isDir hk
    constructor
    · intro hexcludes
      obtain ⟨p, hp, halone, hn⟩ :=
        (excludes_differ_iff fun _ => alone_either).mp fun hsame => hfree (hsame.mp hexcludes)
      exact ⟨p, ⟨hp, halone⟩, by simpa [hfree] using hn⟩
    · rintro ⟨p, ⟨hp, -⟩, hn⟩
      exact hp.excludes_iff.mpr hn
  kept_iff h := by
    rw [not_admissible_iff h]
    refine exists_congr fun k => exists_congr fun isDir => and_congr_right fun hk => ?_
    refine ⟨fun hexcludes => ⟨hexcludes, ?_⟩, And.left⟩
    obtain ⟨p, hp, halone, hn⟩ := (excludes_differ_iff fun _ => alone_either).mp
      fun hsame => h.included k isDir hk (hsame.mpr hexcludes)
    exact ⟨p, ⟨hp, halone⟩, hn.mpr hexcludes⟩
  plain hplain := by
    constructor
    · intro h
      refine ⟨h.name, h.entered, fun k isDir hk hexcludes => h.included k isDir hk ?_⟩
      rw [excludes_plain hplain] at hexcludes ⊢
      exact hexcludes.imp fun p hp => ⟨hp.1, alone_either hp.2⟩
    · intro h
      refine ⟨h.name, h.entered, fun k isDir hk hexcludes => ?_⟩
      obtain ⟨p, hp, happlies⟩ := (excludes_plain hplain).mp hexcludes
      unfold ExcludePattern.appliesEither at happlies
      rcases (Bool.or_eq_true _ _).mp happlies with halone | habove
      · exact h.included k isDir hk ((excludes_plain hplain).mpr ⟨p, hp, halone⟩)
      · -- the pattern excludes the directory above whose name it stands for
        obtain ⟨d, hne, hd, halone⟩ := ExcludePattern.alone_of_above habove
        have hlevel : IsLevel l d true := hk.above hne hd
        exact h.included d true hlevel ((excludes_plain hplain).mpr ⟨p, hp, halone⟩)

theorem IsLevel.names {k : Location} {isDir : Bool} (h : IsLevel l k isDir) (hl : l ≠ [])
    (hnames : ∀ s ∈ l, IsName s) : k ≠ [] ∧ ∀ s ∈ k, IsName s := by
  cases h with
  | directory hne hk _ => exact ⟨hne, fun s hs => hnames s (hk.subset hs)⟩
  | file => exact ⟨hl, hnames⟩

/-- Patterns apply by themselves or from above. -/
theorem admissible_either_iff (hl : l ≠ []) (hnames : ∀ s ∈ l, IsName s) :
    Admissible ExcludePattern.appliesTo patterns l ↔
      Admissible ExcludePattern.appliesEither patterns l := by
  have hsame : ∀ k isDir, IsLevel l k isDir →
      (ExcludePattern.appliesTo · k isDir) = (ExcludePattern.appliesEither · k isDir) := by
    intro k isDir hk
    obtain ⟨hne, hk⟩ := hk.names hl hnames
    exact funext fun p => p.appliesTo_eq hne hk isDir
  constructor
  · rintro ⟨hname, hentered, hincluded⟩
    exact ⟨hname, hentered, fun k isDir hk => hsame k isDir hk ▸ hincluded k isDir hk⟩
  · rintro ⟨hname, hentered, hincluded⟩
    exact ⟨hname, hentered, fun k isDir hk => (hsame k isDir hk).symm ▸ hincluded k isDir hk⟩

/-- **The scan against the judgement of every entry by itself.** A file is listed when no entry on
the way to it is excluded by the last pattern that applies to it by itself or from above. A file
that passes the judgement by itself is dropped exactly when an entry is settled from above by a
pattern that is not negated, and a file that is listed fails that judgement exactly when an entry
that it excludes is settled from above by a negated one. Without negated patterns the two agree.
This is said of the files in directories that can be listed; the others are passed over. A scan
fails when it comes to a file whose path is too long. -/
theorem scan_by_levels {t : FileTree} {root : Location} {S : Surroundings}
    {excludes : Option (List String)} {lines extra : List String} {p q : Path} (ht : t.IsProper)
    (hroot : IsRoot t root) (hhome : p.expandHome S.homes = .ok q)
    (hresolve : S.resolve q = .ok root)
    (hextra : addedExcludes t S root excludes = .ok extra)
    (hlines : readIgnored t root = .ok lines) :
    (∃ l, IsUnreadable t root (parsePatterns (lines ++ extra)) l ∧
      scan t S excludes p = .error (.file ⟨.nameTooLong, .ofLocation (root ++ l)⟩)) ∨
    ∃ files, scan t S excludes p = .ok ⟨(Path.ofLocation root).text, files⟩ ∧
      ∀ l content, l ≠ [] → t.find? (placeOf root ++ l) = some (.file content) →
        (IsSeen root l → JudgedByLevels (parsePatterns (lines ++ extra)) l
          (∃ f ∈ files, f.path = relativeText l)) ∧
        (¬ IsSeen root l → ¬ ∃ f ∈ files, f.path = relativeText l) := by
  have hscan : scan t S excludes p = listSources t root (parsePatterns (lines ++ extra)) := by
    rw [scan_eq hroot hhome hresolve hextra, hlines]
    rfl
  rw [hscan]
  rcases listSources_cases ht root (parsePatterns (lines ++ extra)) with hlong | ⟨-, hlists⟩
  · exact .inl hlong
  · refine .inr ⟨_, hlists, fun l content hl hfind => ?_⟩
    have hlisted :
        (∃ f ∈ sourcesBelow t root (parsePatterns (lines ++ extra)), f.path = relativeText l) ↔
          isAdmitted (parsePatterns (lines ++ extra)) l = true ∧ IsSeen root l :=
      ht.listed_iff hl hfind
    refine ⟨fun hseen => ?_, fun hunseen h => hunseen (hlisted.mp h).2⟩
    have hnames : ∀ s ∈ l, IsName s := fun s hs =>
      (ht.names _ _ hfind s (List.mem_append_right _ hs)).toIsName
    rw [and_iff_left hseen, isAdmitted_iff hl, admissible_either_iff hl hnames] at hlisted
    exact propext hlisted ▸ judgedByLevels _ l

end Files

/-- A project whose ignore file excludes a directory by its name and includes it again, and which
includes a directory after excluding some files by their names. -/
def kilnFiles : FileTree :=
  ⟨[(["kiln"], .directory),
    (["kiln", ".gitignore"], .file "build\n!build/\n*.gen.cs\n!src\n".toUTF8),
    (["kiln", "build"], .directory), (["kiln", "build", "A.cs"], .file "class A {}\n".toUTF8),
    (["kiln", "src"], .directory), (["kiln", "src", "B.gen.cs"], .file "class B {}\n".toUTF8)]⟩

/-- The file in the directory that was included again is dropped, and the one that was excluded by
its name is kept. -/
theorem kiln_scanned : ∃ files,
    scan kilnFiles {} (some []) (.ofLocation ["kiln"]) = .ok ⟨"/kiln", files⟩ ∧
      (Admissible ExcludePattern.appliesAlone
          (parsePatterns ["build", "!build/", "*.gen.cs", "!src"]) ["build", "A.cs"] ∧
        ¬ ∃ f ∈ files, f.path = "build/A.cs") ∧
      (¬ Admissible ExcludePattern.appliesAlone
          (parsePatterns ["build", "!build/", "*.gen.cs", "!src"]) ["src", "B.gen.cs"] ∧
        ∃ f ∈ files, f.path = "src/B.gen.cs") := by
  have hproper : kilnFiles.IsProper := .of_entries (by decide +kernel) (by decide +kernel)
  have hroot : IsRoot kilnFiles ["kiln"] :=
    ⟨by decide +kernel, by decide +kernel, by decide +kernel⟩
  have hextra : addedExcludes kilnFiles {} ["kiln"] (some []) = .ok [] := rfl
  have hlines : readIgnored kilnFiles ["kiln"] = .ok ["build", "!build/", "*.gen.cs", "!src"] := by
    decide +kernel
  have hshort : unreadable? kilnFiles ["kiln"]
      (parsePatterns (["build", "!build/", "*.gen.cs", "!src"] ++ [])) = none := by decide +kernel
  have heq := scan_eq (p := .ofLocation ["kiln"]) hroot rfl rfl hextra
  rw [hlines, Except.bind, listSources, hshort] at heq
  obtain ⟨l, -, hfails⟩ | ⟨files, hscan, hlevels⟩ :=
    scan_by_levels (p := .ofLocation ["kiln"]) hproper hroot rfl rfl hextra hlines
  · cases heq.symm.trans hfails
  have hdropped := (hlevels ["build", "A.cs"] _ (List.cons_ne_nil _ _) rfl).1 (by decide +kernel)
  have hkept := (hlevels ["src", "B.gen.cs"] _ (List.cons_ne_nil _ _) rfl).1 (by decide +kernel)
  have halone : Admissible ExcludePattern.appliesAlone
      (parsePatterns ["build", "!build/", "*.gen.cs", "!src"]) ["build", "A.cs"] :=
    (admissible_concat_iff (m := ["build"])).mpr (by decide +kernel)
  refine ⟨files, hscan, ⟨halone, ?_⟩, ?_, ?_⟩
  · -- the first pattern applies to the file from above, and the second to directories only
    refine (hdropped.dropped_iff halone).mpr ⟨_, _, .file, ⟨"build", false, false, false⟩, ?_, rfl⟩
    exact ⟨isLast_iff.mpr (by decide +kernel), by decide +kernel⟩
  · intro h
    exact h.included _ _ .file (by decide +kernel)
  · exact hkept.listed_iff.mpr ((admissible_concat_iff (m := ["src"])).mpr (by decide +kernel))

end FieldWiring
