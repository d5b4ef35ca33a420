import FieldWiring.Proofs.Scanning.Roots
import FieldWiring.Proofs.Scanning.Walk

/-!
# What a scan lists

A scan lists the admissible files: those with a source's name that the patterns do not exclude and
that stand in directories which are all looked into. The patterns are the lines of the ignore file
and then those that the caller adds or the configuration states; the last one that applies decides.
An ignore file whose bytes are no text ends the scan, as does one that cannot be reached because its
path is too long, or a source of that sort. A directory whose path is too long is passed over.

Results:
* `isExcluded_iff`: what the patterns exclude.
* `isAdmitted_iff`: the admissible files.
* `scan_lists`: a scan lists the admissible files, each once, in order.
* `garbled_unscanned`: but a project whose ignore file is no text has no scan.
-/

namespace FieldWiring

open FileTree

/-! ## Patterns -/

section Patterns

variable {applies : ExcludePattern → Bool} {patterns : List ExcludePattern} {p q : ExcludePattern}

/-- The pattern applies, and none behind it does. -/
def IsLast (applies : ExcludePattern → Bool) (patterns : List ExcludePattern) (p : ExcludePattern) :
    Prop :=
  ∃ before after, patterns = before ++ p :: after ∧ applies p = true ∧
    ∀ q ∈ after, applies q = false

theorem isLast_iff : IsLast applies patterns p ↔ patterns.reverse.find? applies = some p := by
  rw [List.find?_eq_some_iff_append]
  constructor
  · rintro ⟨before, after, rfl, hp, hafter⟩
    refine ⟨hp, after.reverse, before.reverse, ?_, fun q hq => ?_⟩
    · rw [List.reverse_append, List.reverse_cons, List.append_assoc, List.singleton_append]
    · rw [hafter q (List.mem_reverse.mp hq)]
      rfl
  · rintro ⟨hp, after, before, heq, hafter⟩
    refine ⟨before.reverse, after.reverse, ?_, hp, fun q hq => ?_⟩
    · rw [← List.reverse_reverse patterns, heq, List.reverse_append, List.reverse_cons,
        List.append_assoc, List.singleton_append]
    · exact (Bool.not_eq_true' _).mp (hafter q (List.mem_reverse.mp hq))

/-- Some pattern applies, and the last one that does is not negated. -/
def Excludes (applies : ExcludePattern → Bool) (patterns : List ExcludePattern) : Prop :=
  ∃ p, IsLast applies patterns p ∧ p.isNegated = false

theorem excludes_iff :
    Excludes applies patterns ↔
      (patterns.reverse.find? applies).any (fun p => !p.isNegated) = true := by
  unfold Excludes
  rw [Option.any_eq_true]
  simp only [isLast_iff, Bool.not_eq_true']

instance : Decidable (Excludes applies patterns) := decidable_of_iff _ excludes_iff.symm

theorem isExcluded_iff {path : String} {isDir : Bool} :
    isExcluded patterns path isDir = true ↔ Excludes (·.applies path isDir) patterns := by
  rw [excludes_iff]
  unfold isExcluded
  cases patterns.reverse.find? fun p => p.applies path isDir <;> rfl

end Patterns

/-! ## Admissible files -/

/-- The entries on the way to the file at `l`: the directories above it, but not the root, and the
file itself. -/
inductive IsLevel (l : Location) : Location → Bool → Prop where
  | directory {k : Location} (ne_nil : k ≠ []) (above : k <+: l) (ne_file : k ≠ l) :
    IsLevel l k true
  | file : IsLevel l l false

/-- The file at `l` is to be listed, when `applies` tells which patterns apply to an entry. -/
structure Admissible (applies : ExcludePattern → Location → Bool → Bool)
    (patterns : List ExcludePattern) (l : Location) : Prop where
  name : HasSourceName (l.getLast?.getD "")
  entered : ∀ k, IsLevel l k true → k.getLast?.getD "" ∉ skippedDirectories
  included : ∀ k isDir, IsLevel l k isDir → ¬ Excludes (applies · k isDir) patterns

/-- The pattern applies to the entry at a location below the root. -/
def ExcludePattern.appliesTo (p : ExcludePattern) (k : Location) (isDir : Bool) : Bool :=
  p.applies (relativeText k) isDir

section Admissible

variable {applies : ExcludePattern → Location → Bool → Bool} {patterns : List ExcludePattern}
  {l m : Location} {s : String}

theorem isLevel_concat_iff {k : Location} {isDir : Bool} :
    IsLevel (m ++ [s]) k isDir ↔
      isDir = true ∧ k ∈ beginnings m ∨ isDir = false ∧ k = m ++ [s] := by
  rw [mem_beginnings]
  constructor
  · rintro (⟨hne, hk, hfile⟩ | -)
    · exact .inl ⟨rfl, hne, (List.prefix_concat_iff.mp hk).resolve_left hfile⟩
    · exact .inr ⟨rfl, rfl⟩
  · rintro (⟨rfl, hne, hk⟩ | ⟨rfl, rfl⟩)
    · refine .directory hne (hk.trans (List.prefix_append m [s])) ?_
      rintro rfl
      have := hk.length_le
      rw [List.length_append, List.length_singleton] at this
      omega
    · exact .file

theorem admissible_concat_iff :
    Admissible applies patterns (m ++ [s]) ↔
      HasSourceName s ∧ ¬ Excludes (applies · (m ++ [s]) false) patterns ∧
        ∀ k ∈ beginnings m,
          k.getLast?.getD "" ∉ skippedDirectories ∧ ¬ Excludes (applies · k true) patterns := by
  constructor
  · rintro ⟨hname, hentered, hincluded⟩
    rw [List.getLast?_concat, Option.getD_some] at hname
    refine ⟨hname, hincluded _ _ .file, fun k hk => ?_⟩
    have hlevel : IsLevel (m ++ [s]) k true := isLevel_concat_iff.mpr (.inl ⟨rfl, hk⟩)
    exact ⟨hentered k hlevel, hincluded k true hlevel⟩
  · rintro ⟨hname, hfile, habove⟩
    refine ⟨?_, fun k hk => ?_, fun k isDir hk => ?_⟩
    · rwa [List.getLast?_concat, Option.getD_some]
    · rcases isLevel_concat_iff.mp hk with ⟨-, hmem⟩ | ⟨hdir, -⟩
      · exact (habove k hmem).1
      · cases hdir
    · rcases isLevel_concat_iff.mp hk with ⟨rfl, hmem⟩ | ⟨rfl, rfl⟩
      · exact (habove k hmem).2
      · exact hfile

theorem isEntered_iff : isEntered patterns l = true ↔
    l.getLast?.getD "" ∉ skippedDirectories ∧ ¬ Excludes (·.appliesTo l true) patterns := by
  unfold isEntered ExcludePattern.appliesTo
  rw [Bool.and_eq_true, Bool.not_eq_true', Bool.not_eq_true', ← isExcluded_iff, Bool.not_eq_true,
    ← Bool.not_eq_true, List.contains_iff_mem]

theorem isAdmitted_iff (hl : l ≠ []) :
    isAdmitted patterns l = true ↔ Admissible ExcludePattern.appliesTo patterns l := by
  rcases List.eq_nil_or_concat l with rfl | ⟨m, s, rfl⟩
  · exact absurd rfl hl
  · rw [List.concat_eq_append, isAdmitted_concat, admissible_concat_iff, isSourceName_iff,
      ← Bool.not_eq_true, isExcluded_iff]
    simp only [isEntered_iff]
    rfl

end Admissible

/-! ## Scanning -/

section Scanning

variable {t : FileTree} {root : Location} {S : Surroundings} {excludes : Option (List String)}
  {extra : List String} {p q : Path}

/-- A list of the sources below `root`: the admissible files in directories that can be listed, each
once and in the order of their paths, with the sizes and digests of their bytes. Every walk finds
them and can tell their language, in whatever order it lists the directories, and the frontend reads
all of them. -/
structure ListsSources (t : FileTree) (root : Location) (patterns : List ExcludePattern)
    (files : List SourceFile) : Prop where
  increasing : (files.map (·.path)).Pairwise Text.Before
  mem_iff : ∀ f, f ∈ files ↔ ∃ l content, l ≠ [] ∧
    t.find? (placeOf root ++ l) = some (.file content) ∧
    Admissible ExcludePattern.appliesTo patterns l ∧ IsSeen root l ∧
      f = ⟨relativeText l, content.size, "C#", Sha256.hex content⟩
  walked : ∀ listing : t.Listing, ∃ found,
    (walk listing root patterns []).mapM SourceFile.ofWalked? = some found ∧ sortFiles found = files
  language : ∀ f ∈ files, languageOf? f.path = some f.language
  loaded : ∀ f ∈ files, CSharp.isSourcePath f.path = true

theorem mem_admittedFiles_iff (ht : t.IsProper) {patterns : List ExcludePattern} {l : Location}
    {content : ByteArray} :
    (l, content) ∈ admittedFiles t root patterns ↔ l ≠ [] ∧
      t.find? (placeOf root ++ l) = some (.file content) ∧
      Admissible ExcludePattern.appliesTo patterns l ∧ IsSeen root l := by
  rw [mem_admittedFiles, ht.mem_filesBelow, and_assoc]
  refine and_congr_right fun hne => and_congr_right fun _ => ?_
  rw [isAdmitted_iff hne]
  rfl

theorem listsSources_sourcesBelow (ht : t.IsProper) (root : Location)
    (patterns : List ExcludePattern) :
    ListsSources t root patterns (sourcesBelow t root patterns) where
  increasing := increasing_sourcesBelow ht
  mem_iff f := by
    rw [mem_sourcesBelow]
    refine exists_congr fun l => exists_congr fun content => ?_
    rw [mem_admittedFiles_iff ht, and_assoc, and_assoc, and_assoc]
    exact and_congr_right fun _ => and_congr_right fun _ => and_congr_right fun _ =>
      and_congr_right fun _ => eq_comm
  walked _ := sorted_walk ht
  language f hf := by
    obtain ⟨l, content, hmem, rfl⟩ := mem_sourcesBelow.mp hf
    obtain ⟨hnames, hne, hname⟩ := ht.of_admitted hmem
    exact languageOf?_source hnames hne hname
  loaded f hf := by
    obtain ⟨l, content, hmem, rfl⟩ := mem_sourcesBelow.mp hf
    obtain ⟨-, hne, hname⟩ := ht.of_admitted hmem
    exact isSourcePath_source hne hname

/-- The scan comes to the file at `l` and cannot read it: its path is too long. -/
structure IsUnreadable (t : FileTree) (root : Location) (patterns : List ExcludePattern)
    (l : Location) : Prop where
  ne_nil : l ≠ []
  file : ∃ content, t.find? (placeOf root ++ l) = some (.file content)
  admissible : Admissible ExcludePattern.appliesTo patterns l
  seen : IsSeen root l
  long : (Path.ofLocation (root ++ l)).isTooLong = true

/-- The sources are listed, unless one of them cannot be read. -/
theorem listSources_cases (ht : t.IsProper) (root : Location) (patterns : List ExcludePattern) :
    (∃ l, IsUnreadable t root patterns l ∧
      listSources t root patterns = .error (.file ⟨.nameTooLong, .ofLocation (root ++ l)⟩)) ∨
    (∀ l, ¬ IsUnreadable t root patterns l) ∧
      listSources t root patterns =
        .ok ⟨(Path.ofLocation root).text, sourcesBelow t root patterns⟩ := by
  unfold listSources
  cases hlong : unreadable? t root patterns with
  | none =>
    refine .inr ⟨?_, rfl⟩
    rintro l ⟨hne, ⟨content, hfind⟩, hadmissible, hseen, hl⟩
    have hadmitted := (mem_admittedFiles_iff ht).mpr ⟨hne, hfind, hadmissible, hseen⟩
    rw [unreadable?_eq_none_iff.mp hlong l content hadmitted] at hl
    cases hl
  | some file =>
    have hl := List.find?_some hlong
    obtain ⟨l, hmet, rfl⟩ := List.mem_map.mp (List.mem_of_find?_eq_some hlong)
    obtain ⟨⟨k, content⟩, hk, rfl⟩ := List.mem_map.mp ((perm_sortBy _ _).mem_iff.mp hmet)
    obtain ⟨hne, hfind, hadmissible, hseen⟩ := (mem_admittedFiles_iff ht).mp hk
    exact .inl ⟨k, ⟨hne, ⟨content, hfind⟩, hadmissible, hseen, hl⟩, rfl⟩

/-- **A scan lists the admissible files**, each once and in the order of their paths, unless the
ignore file or one of the files cannot be read: then it fails for that reason. -/
theorem scan_lists (ht : t.IsProper) (hroot : IsRoot t root)
    (hhome : p.expandHome S.homes = .ok q) (hresolve : S.resolve q = .ok root)
    (hextra : addedExcludes t S root excludes = .ok extra) :
    (∀ e, readIgnored t root = .error e → scan t S excludes p = .error e) ∧
      ∀ lines, readIgnored t root = .ok lines →
        (∃ l, IsUnreadable t root (parsePatterns (lines ++ extra)) l ∧
          scan t S excludes p = .error (.file ⟨.nameTooLong, .ofLocation (root ++ l)⟩)) ∨
        (∀ l, ¬ IsUnreadable t root (parsePatterns (lines ++ extra)) l) ∧
          ∃ files, scan t S excludes p = .ok ⟨(Path.ofLocation root).text, files⟩ ∧
            ListsSources t root (parsePatterns (lines ++ extra)) files := by
  rw [scan_eq hroot hhome hresolve hextra]
  refine ⟨fun e he => by rw [he]; rfl, fun lines hlines => ?_⟩
  rw [hlines]
  rcases listSources_cases ht root (parsePatterns (lines ++ extra)) with hlong | ⟨hshort, hlists⟩
  · exact .inl hlong
  · exact .inr ⟨hshort, _, hlists, listsSources_sourcesBelow ht root _⟩

end Scanning

/-- A project with a source in capitals, a directory that is not looked into, a generated source and
two names that the ignore file excludes. -/
def yardFiles : FileTree :=
  ⟨[(["yard"], .directory), (["yard", ".gitignore"], .file "build/\n*.tmp.cs\n".toUTF8),
    (["yard", "src"], .directory), (["yard", "src", "Keep.tmp.cs"], .file "class Keep {}".toUTF8),
    (["yard", "src", "Gone.tmp.cs"], .file .empty), (["yard", "src", "Made.G.cs"], .file .empty),
    (["yard", "build"], .directory), (["yard", "build", "Keep.tmp.cs"], .file .empty),
    (["yard", "MAIN.CS"], .file "class Main {}".toUTF8)]⟩

/-- The caller's pattern includes one of the names again, but not below the excluded directory. -/
theorem yard_scanned : ∃ files,
    scan yardFiles {} (some ["!Keep.tmp.cs"]) (.ofLocation ["yard"]) = .ok ⟨"/yard", files⟩ ∧
      files.map (·.path) = ["MAIN.CS", "src/Keep.tmp.cs"] ∧
      ListsSources yardFiles ["yard"]
        (parsePatterns (["build/", "*.tmp.cs"] ++ ["!Keep.tmp.cs"])) files := by
  have hproper : yardFiles.IsProper := .of_entries (by decide +kernel) (by decide +kernel)
  have hroot : IsRoot yardFiles ["yard"] :=
    ⟨by decide +kernel, by decide +kernel, by decide +kernel⟩
  have hlines : readIgnored yardFiles ["yard"] = .ok ["build/", "*.tmp.cs"] := by decide +kernel
  have hextra : addedExcludes yardFiles {} ["yard"] (some ["!Keep.tmp.cs"]) =
      .ok ["!Keep.tmp.cs"] := rfl
  have hshort : unreadable? yardFiles ["yard"]
      (parsePatterns (["build/", "*.tmp.cs"] ++ ["!Keep.tmp.cs"])) = none := by decide +kernel
  have heq := scan_eq (p := .ofLocation ["yard"]) hroot rfl rfl hextra
  rw [hlines, Except.bind, listSources, hshort] at heq
  rcases (scan_lists (p := .ofLocation ["yard"]) hproper hroot rfl rfl hextra).2 _ hlines
    with ⟨l, -, hfails⟩ | ⟨-, files, hscan, hlists⟩
  · cases heq.symm.trans hfails
  · refine ⟨files, hscan, ?_, hlists⟩
    rw [← (SourceManifest.mk.inj (Except.ok.inj (heq.symm.trans hscan))).2]
    decide +kernel

/-- A project whose ignore file is a single byte that begins no character. -/
def garbledFiles : FileTree :=
  ⟨[(["yard"], .directory), (["yard", ".gitignore"], .file ⟨#[0xFF]⟩),
    (["yard", "A.cs"], .file "class A {}\n".toUTF8)]⟩

/-- **A project whose ignore file is no text has no scan**, although nothing else keeps its source
from being listed. -/
theorem garbled_unscanned :
    garbledFiles.IsProper ∧ IsRoot garbledFiles ["yard"] ∧
    Admissible ExcludePattern.appliesTo [] ["A.cs"] ∧
      ∀ m, scan garbledFiles {} (some []) (.ofLocation ["yard"]) ≠ .ok m := by
  have hproper : garbledFiles.IsProper := .of_entries (by decide +kernel) (by decide +kernel)
  have hroot : IsRoot garbledFiles ["yard"] :=
    ⟨by decide +kernel, by decide +kernel, by decide +kernel⟩
  refine ⟨hproper, hroot, (isAdmitted_iff (List.cons_ne_nil _ _)).mp (by decide +kernel), ?_⟩
  intro m h
  have herror : readIgnored garbledFiles ["yard"] =
      .error (.notText (.ofLocation ["yard", ".gitignore"])) := by decide +kernel
  rw [scan_eq hroot rfl rfl rfl, herror] at h
  cases h

end FieldWiring
