import FieldWiring.Proofs.Scanning.Admission

/-!
# A further pattern

A pattern behind all others decides for each entry that it applies to, and says nothing about the
rest. So one that is not negated takes from a scan the files that it applies to, and all those below
a directory that it applies to. A negated one takes none: it gives back the files that were kept out
by nothing but entries that it applies to. Whatever both scans list, they list alike.

Results:
* `admissible_further_iff`: the files that a further pattern leaves.
* `admissible_again_iff`: the files that a further negated pattern leaves and gives back.
* `sourcesBelow_isPartOf`: patterns that admit fewer files list a part of them, in order.
* `scan_further_pattern`: a further pattern takes files from a scan or adds files to it, never both.
-/

namespace FieldWiring

/-! ## Admissible files -/

section Admissible

variable {applies : ExcludePattern → Location → Bool → Bool}
  {patterns patterns' : List ExcludePattern}
  {p : ExcludePattern} {l k : Location} {isDir : Bool}

/-- The pattern at the end decides when it applies. -/
theorem excludes_concat_iff {applies : ExcludePattern → Bool} :
    Excludes applies (patterns ++ [p]) ↔
      applies p = true ∧ p.isNegated = false ∨ applies p = false ∧ Excludes applies patterns := by
  rw [excludes_iff, excludes_iff, List.reverse_append, List.reverse_singleton,
    List.singleton_append]
  cases h : applies p <;> simp [h]

/-- A file that is admissible stays so when none of its levels is excluded anew. -/
theorem Admissible.of_excludes (h : Admissible applies patterns l)
    (hfewer : ∀ k isDir, IsLevel l k isDir →
      Excludes (applies · k isDir) patterns' → Excludes (applies · k isDir) patterns) :
    Admissible applies patterns' l where
  name := h.name
  entered := h.entered
  included k isDir hk hexcluded := h.included k isDir hk (hfewer k isDir hk hexcluded)

/-- A further pattern that is not negated leaves the files none of whose levels it applies to. -/
theorem admissible_further_iff (hp : p.isNegated = false) :
    Admissible applies (patterns ++ [p]) l ↔
      Admissible applies patterns l ∧ ∀ k isDir, IsLevel l k isDir → applies p k isDir = false := by
  constructor
  · intro h
    have hfree : ∀ k isDir, IsLevel l k isDir → applies p k isDir = false := by
      intro k isDir hk
      refine Bool.eq_false_iff.mpr fun happlies => h.included k isDir hk ?_
      exact excludes_concat_iff.mpr (.inl ⟨happlies, hp⟩)
    refine ⟨h.of_excludes fun k isDir hk hexcluded => ?_, hfree⟩
    exact excludes_concat_iff.mpr (.inr ⟨hfree k isDir hk, hexcluded⟩)
  · rintro ⟨h, hfree⟩
    refine h.of_excludes fun k isDir hk hexcluded => ?_
    rcases excludes_concat_iff.mp hexcluded with ⟨happlies, -⟩ | ⟨-, hexcluded⟩
    · rw [hfree k isDir hk] at happlies
      cases happlies
    · exact hexcluded

/-- A further negated pattern leaves and gives back the files that the others exclude only at levels
that it applies to. -/
theorem admissible_again_iff (hp : p.isNegated = true) :
    Admissible applies (patterns ++ [p]) l ↔
      HasSourceName (l.getLast?.getD "") ∧
        (∀ k, IsLevel l k true → k.getLast?.getD "" ∉ skippedDirectories) ∧
        ∀ k isDir, IsLevel l k isDir → Excludes (applies · k isDir) patterns →
          applies p k isDir = true := by
  have hexcludes : ∀ k isDir, Excludes (applies · k isDir) (patterns ++ [p]) ↔
      ¬ (Excludes (applies · k isDir) patterns → applies p k isDir = true) := by
    intro k isDir
    rw [excludes_concat_iff, hp, Classical.not_imp, Bool.not_eq_true]
    simp only [Bool.true_eq_false, and_false, false_or]
    exact and_comm
  constructor
  · rintro ⟨hname, hentered, hincluded⟩
    exact ⟨hname, hentered, fun k isDir hk =>
      Classical.not_not.mp (mt (hexcludes k isDir).mpr (hincluded k isDir hk))⟩
  · rintro ⟨hname, hentered, hagain⟩
    exact ⟨hname, hentered, fun k isDir hk hexcluded =>
      (hexcludes k isDir).mp hexcluded (hagain k isDir hk)⟩

theorem Admissible.of_further (hp : p.isNegated = false)
    (h : Admissible applies (patterns ++ [p]) l) : Admissible applies patterns l :=
  ((admissible_further_iff hp).mp h).1

theorem Admissible.again (hp : p.isNegated = true) (h : Admissible applies patterns l) :
    Admissible applies (patterns ++ [p]) l :=
  (admissible_again_iff hp).mpr ⟨h.name, h.entered, fun k isDir hk hexcluded =>
    absurd hexcluded (h.included k isDir hk)⟩

end Admissible

/-! ## Listed files -/

/-- The files of one list are among those of another, in their order, and what both have under one
path is the same file with the same size and digest. -/
structure IsPartOf (files files' : List SourceFile) : Prop where
  sublist : files.Sublist files'
  common : ∀ f ∈ files, ∀ g ∈ files', f.path = g.path → f = g

section Listed

variable {t : FileTree} {root : Location} {patterns patterns' : List ExcludePattern}

theorem sourcesBelow_isPartOf (ht : t.IsProper)
    (h : ∀ l, Admissible ExcludePattern.appliesTo patterns l →
      Admissible ExcludePattern.appliesTo patterns' l) :
    IsPartOf (sourcesBelow t root patterns) (sourcesBelow t root patterns') := by
  have hmem : ∀ f ∈ sourcesBelow t root patterns, f ∈ sourcesBelow t root patterns' := by
    intro f hf
    obtain ⟨l, content, hl, rfl⟩ := mem_sourcesBelow.mp hf
    obtain ⟨hne, hfind, hadmissible, hseen⟩ := (mem_admittedFiles_iff ht).mp hl
    exact mem_sourcesBelow.mpr
      ⟨l, content, (mem_admittedFiles_iff ht).mpr ⟨hne, hfind, h l hadmissible, hseen⟩, rfl⟩
  have hne : ∀ {p q : String}, Text.Before p q → p ≠ q := by
    rintro p _ h rfl
    exact Std.Irrefl.irrefl p h
  have hnodup : ∀ patterns, (sourcesBelow t root patterns).Nodup := fun _ =>
    .of_map _ ((increasing_sourcesBelow ht).imp hne)
  refine ⟨?_, fun f hf g hg => ht.path_inj (hmem f hf) hg⟩
  -- the smaller list is what the larger one has of it, since both are in order
  have hsame : (sourcesBelow t root patterns).Perm
      ((sourcesBelow t root patterns').filter (· ∈ sourcesBelow t root patterns)) := by
    refine (List.perm_ext_iff_of_nodup (hnodup _) ((hnodup _).filter _)).mpr fun f => ?_
    rw [List.mem_filter, decide_eq_true_eq]
    exact ⟨fun hf => ⟨hmem f hf, hf⟩, And.right⟩
  have heq := ht.eq_of_perm hsame (fun f hf => (List.mem_filter.mp hf).1)
    (sorted_sourcesBelow t root patterns)
    ((sorted_sourcesBelow t root patterns').sublist List.filter_sublist)
  rw [heq]
  exact List.filter_sublist

/-- With patterns that admit fewer files a scan comes to fewer that it cannot read. -/
theorem IsUnreadable.of_admits {l : Location} (h : IsUnreadable t root patterns l)
    (hmore : ∀ l, Admissible ExcludePattern.appliesTo patterns l →
      Admissible ExcludePattern.appliesTo patterns' l) : IsUnreadable t root patterns' l :=
  ⟨h.ne_nil, h.file, hmore l h.admissible, h.seen, h.long⟩

/-- What is listed, is listed with patterns that admit fewer files, too. -/
theorem exists_listSources (ht : t.IsProper) {m : SourceManifest}
    (hfewer : ∀ l, Admissible ExcludePattern.appliesTo patterns' l →
      Admissible ExcludePattern.appliesTo patterns l)
    (h : listSources t root patterns = .ok m) : ∃ m', listSources t root patterns' = .ok m' := by
  rcases listSources_cases ht root patterns with ⟨l, -, hfails⟩ | ⟨hshort, -⟩
  · cases hfails.symm.trans h
  · rcases listSources_cases ht root patterns' with ⟨l, hl, -⟩ | ⟨-, hlists⟩
    · exact absurd (hl.of_admits hfewer) (hshort l)
    · exact ⟨_, hlists⟩

end Listed

/-! ## Scanning -/

section Scanning

variable {t : FileTree} {S : Surroundings} {x : Path} {given : List String} {line : String}
  {p : ExcludePattern}

/-- Which project a scan finds, and whether it fails before it looks for sources, does not hang on
the lines that the caller gives. -/
theorem scan_given (t : FileTree) (S : Surroundings) (x : Path) :
    (∃ e, ∀ given, scan t S (some given) x = .error e) ∨
      ∃ root lines, ∀ given,
        scan t S (some given) x = listSources t root (parsePatterns (lines ++ given)) := by
  unfold scan
  cases (x.expandHome S.homes).mapError RunError.home with
  | error e => exact .inl ⟨e, fun _ => rfl⟩
  | ok q =>
    simp only [bind, Except.bind]
    cases S.resolve q with
    | error e => exact .inl ⟨e, fun _ => rfl⟩
    | ok root =>
      simp only
      cases (t.look [] (.ofLocation root)).mapError RunError.file with
      | error e => exact .inl ⟨e, fun _ => rfl⟩
      | ok entry =>
        rcases entry with _ | (content | _)
        · exact .inl ⟨.noProject x, fun _ => rfl⟩
        · exact .inl ⟨.noProjectDirectory x, fun _ => rfl⟩
        · cases ignoreLines t root with
          | error e => exact .inl ⟨e, fun _ => rfl⟩
          | ok lines => exact .inr ⟨root, lines, fun _ => rfl⟩

/-- A failure of a scan that comes to a source that it cannot read. -/
def IsLengthError (t : FileTree) (e : RunError) : Prop :=
  ∃ root patterns l, IsUnreadable t root patterns l ∧
    e = .file ⟨.nameTooLong, .ofLocation (root ++ l)⟩

/-- **A further pattern only takes files from a scan, or only adds some**: when it is not negated,
what is listed with it is a part of what is listed without it, and the other way round when it is
negated. A scan fails with it for the reasons for which it fails without it, except that a pattern
can take away, or add, a source that cannot be read. -/
theorem scan_further_pattern (ht : t.IsProper) (hline : ExcludePattern.parse? line = some p) :
    (∀ e, ¬ IsLengthError t e →
      (scan t S (some given) x = .error e ↔ scan t S (some (given ++ [line])) x = .error e)) ∧
    (p.isNegated = false → ∀ before, scan t S (some given) x = .ok before →
      ∃ after, scan t S (some (given ++ [line])) x = .ok after) ∧
    (p.isNegated = true → ∀ after, scan t S (some (given ++ [line])) x = .ok after →
      ∃ before, scan t S (some given) x = .ok before) ∧
    ∀ before after, scan t S (some given) x = .ok before →
      scan t S (some (given ++ [line])) x = .ok after →
      ∃ root patterns, after.root = before.root ∧ ListsSources t root patterns before.files ∧
        ListsSources t root (patterns ++ [p]) after.files ∧
        (p.isNegated = false → IsPartOf after.files before.files) ∧
        (p.isNegated = true → IsPartOf before.files after.files) := by
  rcases scan_given t S x with ⟨e, hfails⟩ | ⟨root, lines, hlists⟩
  · rw [hfails, hfails]
    exact ⟨fun _ _ => Iff.rfl, fun _ _ => nofun, fun _ _ => nofun, fun _ _ => nofun⟩
  · have hpatterns : parsePatterns (lines ++ (given ++ [line])) =
        parsePatterns (lines ++ given) ++ [p] := by
      unfold parsePatterns
      rw [← List.append_assoc, List.filterMap_append, List.filterMap_cons_some hline,
        List.filterMap_nil]
    rw [hlists, hlists, hpatterns]
    have herror : ∀ patterns e, listSources t root patterns = .error e → IsLengthError t e := by
      intro patterns e h
      rcases listSources_cases ht root patterns with ⟨l, hl, hfails⟩ | ⟨-, hlists⟩
      · exact ⟨root, patterns, l, hl, Except.error.inj (h.symm.trans hfails)⟩
      · cases h.symm.trans hlists
    have hok : ∀ patterns m, listSources t root patterns = .ok m →
        m = ⟨(Path.ofLocation root).text, sourcesBelow t root patterns⟩ := by
      intro patterns m h
      rcases listSources_cases ht root patterns with ⟨l, -, hfails⟩ | ⟨-, hlists⟩
      · cases hfails.symm.trans h
      · exact Except.ok.inj (h.symm.trans hlists)
    refine ⟨fun e he => ⟨fun h => absurd (herror _ e h) he, fun h => absurd (herror _ e h) he⟩,
      fun hp _ => exists_listSources ht fun l => .of_further hp,
      fun hp _ => exists_listSources ht fun l => .again hp, fun before after hbefore hafter => ?_⟩
    obtain rfl := hok _ _ hbefore
    obtain rfl := hok _ _ hafter
    exact ⟨root, parsePatterns (lines ++ given), rfl, listsSources_sourcesBelow ht _ _,
      listsSources_sourcesBelow ht _ _, fun hp => sourcesBelow_isPartOf ht fun l => .of_further hp,
      fun hp => sourcesBelow_isPartOf ht fun l => .again hp⟩

end Scanning

/-- A negated pattern for a directory opens one that the ignore file excludes; the file in it is
listed, since an earlier pattern includes its name again. -/
theorem yard_opened : ∃ before after,
    scan yardFiles {} (some ["!Keep.tmp.cs"]) (.ofLocation ["yard"]) = .ok before ∧
      scan yardFiles {} (some (["!Keep.tmp.cs"] ++ ["!/build/"]))
        (.ofLocation ["yard"]) = .ok after ∧
      before.files.map (·.path) = ["MAIN.CS", "src/Keep.tmp.cs"] ∧
      after.files.map (·.path) = ["MAIN.CS", "build/Keep.tmp.cs", "src/Keep.tmp.cs"] ∧
      IsPartOf before.files after.files := by
  have hproper : yardFiles.IsProper := .of_entries (by decide +kernel) (by decide +kernel)
  have hroot : IsRoot yardFiles ["yard"] :=
    ⟨by decide +kernel, by decide +kernel, by decide +kernel⟩
  have hlines : readIgnored yardFiles ["yard"] = .ok ["build/", "*.tmp.cs"] := by decide +kernel
  have hscan : ∀ given, unreadable? yardFiles ["yard"]
        (parsePatterns (["build/", "*.tmp.cs"] ++ given)) = none →
      scan yardFiles {} (some given) (.ofLocation ["yard"]) = .ok ⟨"/yard",
        sourcesBelow yardFiles ["yard"] (parsePatterns (["build/", "*.tmp.cs"] ++ given))⟩ := by
    intro given hshort
    rw [scan_eq hroot rfl rfl rfl, hlines, Except.bind, listSources, hshort]
    rfl
  have hbefore := hscan ["!Keep.tmp.cs"] (by decide +kernel)
  have hafter := hscan (["!Keep.tmp.cs"] ++ ["!/build/"]) (by decide +kernel)
  have hline : ExcludePattern.parse? "!/build/" = some ⟨"build", true, true, true⟩ := by
    decide +kernel
  obtain ⟨root, patterns, -, -, -, -, hpart⟩ :=
    (scan_further_pattern (S := {}) (x := .ofLocation ["yard"]) hproper hline).2.2.2 _ _
      hbefore hafter
  exact ⟨_, _, hbefore, hafter, by decide +kernel, by decide +kernel, hpart rfl⟩

end FieldWiring
