import FieldWiring.Proofs.Discovery.Frontends
import FieldWiring.Proofs.Files.Overlay
import FieldWiring.Proofs.Scanning.OutputNames
import FieldWiring.Proofs.Scanning.Roots

/-!
# Reading a project again

After a run the project holds other units, another manifest and perhaps new directories, and while
it lasts its log file grows. None of it is read: the configuration, the ignore file and the sources
are what they were, and so is what a frontend reads of the sources. This holds of all names that are
`Unread`.

Results:
* `unread_output`: what a run leaves is not read.
* `Configuration.read_again`: the configuration is the same.
* `scan_again`: the scan lists the same sources.
* `read_listed`: every source that a scan lists has the same content.
* `CSharp.readsListed_frontend`: the frontend for C# reads nothing else.
-/

namespace FieldWiring

open FileTree

/-! ## Paths from the root -/

theorem ofLocation_joinText (root : Location) {s : String} (hs : IsName s) :
    (Path.ofLocation root).joinText s = .ofLocation (root ++ [s]) := joinText_name _ hs

theorem isName_configurationName : IsName configurationName :=
  ⟨by decide +kernel, by decide +kernel, by decide +kernel, by decide +kernel⟩

theorem not_isOutputName {s : String} (h : s.toList.getLast? ≠ some 's')
    (h' : s.toList.getLast? ≠ some 'n') : ¬ IsOutputName s := by
  rintro (⟨start, rfl⟩ | rfl)
  · have hending : ".g.cs".toList = ['.', 'g', '.', 'c', 's'] := by decide +kernel
    rw [String.toList_append, hending, List.getLast?_append] at h
    exact h rfl
  · exact h' (by decide +kernel)

/-- Files of these names are not read: they are no configurations, no ignore files and no
sources. -/
structure Unread (Out : String → Prop) : Prop where
  configuration : ¬ Out configurationName
  ignored : ¬ Out ignoreName
  sources : ∀ s, Out s → isSourceName s = false

/-- A scan lists no file of such a name, whatever its exclude patterns are. -/
theorem Unread.isAdmitted {Out : String → Prop} (hout : Unread Out) (patterns : List ExcludePattern)
    {s : String} (hs : Out s) (k : Location) : isAdmitted patterns (k ++ [s]) = false := by
  unfold FieldWiring.isAdmitted
  rw [List.getLast?_concat, Option.getD_some, hout.sources s hs]
  rfl

/-- What a run leaves is not read. -/
theorem unread_output : Unread IsOutputName where
  configuration := not_isOutputName (by decide +kernel) (by decide +kernel)
  ignored := not_isOutputName (by decide +kernel) (by decide +kernel)
  sources _ hs := isSourceName_of_output hs

section Again

variable {t u : FileTree} {root : Location} {made : List String} {Out : String → Prop}

theorem IsRoot.overlaid (hroot : IsRoot t root) (h : Overlaid made Out t u) :
    IsRoot u root :=
  ⟨reach_mono h.forth hroot.reached, h.forth _ hroot.directory, hroot.dots⟩

/-- A file of the project is reached as before. -/
theorem IsRoot.reach_eq (hroot : IsRoot t root) (h : Overlaid made Out t u) (s : String) :
    u.reach [] (.ofLocation (root ++ [s])) = t.reach [] (.ofLocation (root ++ [s])) :=
  reach_child h.forth hroot.reached hroot.directory rfl rfl

theorem readText_congr {here : Location} {p : Path} (h : u.read here p = t.read here p) :
    u.readText here p = t.readText here p := by
  unfold readText
  rw [h]

/-! ## Configurations -/

theorem IsRoot.configurationFile (hroot : IsRoot t root) (S : Surroundings) :
    configurationFile t S (.ofLocation root) =
      S.resolve (.ofLocation (root ++ [configurationName])) := by
  have hhome : (Path.ofLocation root).expandHome S.homes = .ok (.ofLocation root) := rfl
  have hleads : t.leadsToDirectory S.here (.ofLocation root) = .ok true :=
    leadsToDirectory_iff.mpr ⟨_, hroot.reached, hroot.directory⟩
  unfold FieldWiring.configurationFile
  rw [hhome, ← ofLocation_joinText root isName_configurationName]
  simp only [Except.mapError, bind, Except.bind, hleads, if_true]

/-- **The configuration is what it was.** -/
theorem Configuration.read_again (hout : Unread Out) (hroot : IsRoot t root)
    (h : Overlaid made Out t u) (hmade : configurationName ∉ made) (S : Surroundings) :
    Configuration.read u S (.ofLocation root) = Configuration.read t S (.ofLocation root) := by
  unfold Configuration.read
  rw [(hroot.overlaid h).configurationFile, hroot.configurationFile]
  cases hfile : S.resolve (.ofLocation (root ++ [configurationName])) with
  | error e => rfl
  | ok file =>
    have hdots : ".." ∉ root ++ [configurationName] := by
      rw [List.mem_append, List.mem_singleton, not_or]
      exact ⟨hroot.dots, isName_configurationName.ne_dots.symm⟩
    obtain rfl := resolve_ofLocation S hdots hfile
    have hreach := hroot.reach_eq h configurationName
    have hfind : ∀ l, t.reach [] (.ofLocation (root ++ [configurationName])) = .ok l →
        u.find? l = t.find? l := by
      intro l hl
      rw [reach_location isName_configurationName.ne_dots hl,
        FileName.onDisk_of_plain (by decide +kernel)]
      exact h.find?_eq hout.configuration hmade _
    simp only [bind, Except.bind]
    rw [look_congr hreach hfind, readText_congr (read_congr hreach hfind)]

/-! ## Sources -/

/-- A configuration file that can be read states the configuration. -/
theorem Configuration.read_of_text {t : FileTree} {S : Surroundings} {p : Path} {file : Location}
    {text : String} (hfile : configurationFile t S p = .ok file)
    (htext : t.readText [] (.ofLocation file) = .ok text) :
    Configuration.read t S p = Configuration.ofText S.homes file.dropLast text := by
  have hlook : ∃ e, t.look [] (.ofLocation file) = .ok (some e) := by
    cases hread : t.read [] (.ofLocation file) with
    | error e =>
      unfold FileTree.readText at htext
      rw [hread] at htext
      cases htext
    | ok content =>
      obtain ⟨l, hl, hat⟩ := read_ok_iff.mp hread
      exact ⟨_, look_some_iff.mpr ⟨l, hl, hat⟩⟩
  obtain ⟨e, hlook⟩ := hlook
  unfold Configuration.read
  rw [hfile]
  simp only [bind, Except.bind, Except.mapError, hlook, htext]

theorem readIgnored_again (hout : Unread Out) (h : Overlaid made Out t u) (root : Location) :
    readIgnored u root = readIgnored t root := by
  unfold readIgnored
  rw [h.fileAt_eq hout.ignored (placeOf root)]

/-- No file that is not read is admitted, so the others are the ones that were. -/
theorem admittedFiles_again (hout : Unread Out) (h : Overlaid made Out t u) (root : Location)
    (patterns : List ExcludePattern) :
    admittedFiles u root patterns = admittedFiles t root patterns := by
  refine h.listed (placeOf root) (fun l =>
    isAdmitted patterns l && !(Path.ofLocation (root ++ l.dropLast)).isTooLong) fun s hs k => ?_
  rw [hout.isAdmitted patterns hs k, Bool.false_and]

theorem listSources_again (hout : Unread Out) (h : Overlaid made Out t u) (root : Location)
    (patterns : List ExcludePattern) :
    listSources u root patterns = listSources t root patterns := by
  unfold listSources unreadable? sourcesBelow
  rw [admittedFiles_again hout h]

/-- **The scan lists the same sources**, so it passes over all that the run left. -/
theorem scan_again (hout : Unread Out) (hroot : IsRoot t root) (h : Overlaid made Out t u)
    (S : Surroundings) (excludes : List String) :
    scan u S (some excludes) (.ofLocation root) = scan t S (some excludes) (.ofLocation root) := by
  rw [scan_eq (hroot.overlaid h) rfl ((hroot.overlaid h).resolve S) rfl,
    scan_eq hroot rfl (hroot.resolve S) rfl, readIgnored_again hout h]
  simp only [listSources_again hout h]

/-! ## What frontends read -/

/-- What a scan of a project lists. -/
theorem scan_ok (hroot : IsRoot t root) {S : Surroundings} {excludes : List String}
    {m : SourceManifest} (h : scan t S (some excludes) (.ofLocation root) = .ok m) :
    m.root = (Path.ofLocation root).text ∧ ∃ patterns, m.files = sourcesBelow t root patterns := by
  rw [scan_eq hroot rfl (hroot.resolve S) rfl] at h
  cases hlines : readIgnored t root with
  | error e => rw [hlines] at h; cases h
  | ok lines =>
    rw [hlines, Except.bind] at h
    unfold listSources at h
    split at h
    · cases h
    · obtain rfl := Except.ok.inj h
      exact ⟨rfl, _, rfl⟩

/-- What is listed under the name of an entry is a name. -/
theorem isName_of_onDisk {s : String} (h : IsName (FileName.onDisk s)) : IsName s := by
  have hplain : Text.holdsHalf s = false → IsName s := fun hs => by
    rwa [FileName.onDisk_of_plain hs] at h
  refine ⟨?_, ?_, ?_, fun hslash => h.no_slash (FileName.mem_onDisk_of_ascii hslash (by decide))⟩
  · rintro rfl
    exact (hplain (by decide)).ne_empty rfl
  · rintro rfl
    exact (hplain (by decide)).ne_dot rfl
  · rintro rfl
    exact (hplain (by decide)).ne_dots rfl

/-- The names on the way to a root are names if those are that directories list there. -/
theorem IsRoot.isName (hroot : IsRoot t root) (h : ∀ s ∈ placeOf root, IsListedName s) :
    ∀ s ∈ root, IsName s := by
  intro s hs
  rw [placeOf_eq hroot.dots] at h
  exact isName_of_onDisk (h _ (List.mem_map_of_mem hs)).toIsName

/-- The path of a listed source, joined to the root's, leads from the root along its names. -/
theorem joinText_relativeText {l : Location} (hroot : ∀ s ∈ root, IsName s)
    (hl : ∀ s ∈ l, IsName s) :
    (Path.ofText (Path.ofLocation root).text).joinText (relativeText l) =
      .ofLocation (root ++ l) := by
  have hrelative : Path.ofText (relativeText l) = ⟨.here, l⟩ := ofText_intercalate hl
  rw [ofText_ofLocation hroot]
  show (Path.ofLocation root).join (Path.ofText (relativeText l)) = _
  rw [hrelative]
  rfl

/-- A listed file is reached where it is listed, before the change and after it. -/
theorem reach_listed {l : Location} {content : ByteArray} (hp : t.IsProper) (hroot : IsRoot t root)
    (h : Overlaid made Out t u) (hl : ∀ s ∈ l, IsListedName s)
    (hfind : t.find? (placeOf root ++ l) = some (.file content)) :
    u.reach [] (.ofLocation (root ++ l)) = t.reach [] (.ofLocation (root ++ l)) ∧
      ∀ k, t.reach [] (.ofLocation (root ++ l)) = .ok k → k = placeOf root ++ l := by
  have hdots : ".." ∉ root ++ l := by
    rw [List.mem_append, not_or]
    exact ⟨hroot.dots, fun hmem => (hl _ hmem).ne_dots rfl⟩
  have hplace : (root ++ l).map FileName.onDisk = placeOf root ++ l := by
    rw [List.map_append, map_onDisk hl, placeOf_eq hroot.dots]
  refine ⟨reach_congr (hp.grounded.follow_eq (e := .file content) h.forth hdots ?_), fun k hk => ?_⟩
  · show t.find? ([] ++ (root ++ l).map FileName.onDisk) = _
    rw [List.nil_append, hplace, hfind]
  · rw [reach_locate hk, ← hplace]
    exact foldl_along hdots

/-- **Every source that a scan lists has the content it had.** -/
theorem read_listed (hout : Unread Out) (hp : t.IsProper) (hroot : IsRoot t root)
    (h : Overlaid made Out t u) {S : Surroundings} {excludes : List String} {m : SourceManifest}
    (hscan : scan t S (some excludes) (.ofLocation root) = .ok m) {f : SourceFile}
    (hf : f ∈ m.files) :
    u.read [] ((Path.ofText m.root).joinText f.path) =
      t.read [] ((Path.ofText m.root).joinText f.path) := by
  obtain ⟨hmroot, patterns, hfiles⟩ := scan_ok hroot hscan
  rw [hfiles] at hf
  obtain ⟨l, content, hmem, rfl⟩ := mem_sourcesBelow.mp hf
  obtain ⟨hmem, hadmitted, -⟩ := mem_admittedFiles.mp hmem
  obtain ⟨hne, hfind⟩ := hp.find?_of_listed hmem
  have hnames := hp.names _ _ hfind
  have hlisted : ∀ s ∈ l, IsListedName s := fun s hs => hnames s (List.mem_append_right _ hs)
  have hpath : (Path.ofText m.root).joinText (SourceFile.ofEntry l content).path =
      .ofLocation (root ++ l) := by
    rw [hmroot]
    exact joinText_relativeText
      (hroot.isName fun s hs => hnames s (List.mem_append_left l hs))
      fun s hs => (hlisted s hs).toIsName
  obtain ⟨hreach, hplace⟩ := reach_listed hp hroot h hlisted hfind
  rw [hpath]
  refine read_congr hreach fun k hk => ?_
  rw [hplace k hk, hfind]
  -- its name is that of a source, so it is among those that are read
  rcases List.eq_nil_or_concat l with hnil | ⟨k', s, rfl⟩
  · exact absurd hnil hne
  · rw [List.concat_eq_append] at hadmitted hfind ⊢
    have hname : ¬ Out s := by
      intro hs
      rw [hout.isAdmitted patterns hs k'] at hadmitted
      cases hadmitted
    rw [← List.append_assoc] at hfind ⊢
    rw [← fileAt_eq_some, h.fileAt_eq hname, fileAt_eq_some]
    exact hfind

end Again

/-- The frontend reads the listed sources and nothing else. -/
def Frontend.ReadsListed (f : Frontend) : Prop :=
  ∀ (t u : FileTree) (m : SourceManifest),
    (∀ x ∈ m.files, u.read [] ((Path.ofText m.root).joinText x.path) =
      t.read [] ((Path.ofText m.root).joinText x.path)) →
    f.load u m = f.load t m

/-- The frontend for C# reads the listed sources and nothing else. -/
theorem CSharp.readsListed_frontend (hasParser : Bool) :
    (CSharp.frontend hasParser).ReadsListed := by
  intro t u m h
  show loadSources hasParser u m = loadSources hasParser t m
  unfold loadSources
  rw [mapM_congr fun f hf => ?_]
  have hread : readSource u m.root f.path = readSource t m.root f.path := by
    unfold readSource
    rw [h f (List.mem_filter.mp hf).1]
  rw [hread]

/-- The frontends without plugins read the listed sources and nothing else. -/
theorem readsListed_builtin {enabled : List String} {fs : List Frontend}
    (h : discoverFrontends enabled builtinFrontends = .ok fs) : ∀ f ∈ fs, f.ReadsListed := by
  intro f hf
  obtain ⟨p, hp, ho⟩ := exists_offer_of_discover loads_builtin h f hf
  obtain rfl := List.mem_singleton.mp hp
  obtain rfl := Offer.frontend.inj ho
  exact CSharp.readsListed_frontend true

end FieldWiring
