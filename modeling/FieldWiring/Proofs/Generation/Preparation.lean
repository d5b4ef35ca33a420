import FieldWiring.Project
import FieldWiring.Proofs.Generation.Kinds
import FieldWiring.Proofs.Scanning.Rereading
import FieldWiring.Proofs.Sessions.Notes

/-!
# The part of a run that reads

A run reads its project and generates units before it changes any file. `prepare` is that part and
`finish` is the rest. What the first part came to on some files it comes to again on files that
differ in what is not read, such as what a run leaves, provided that the templates are not found by
way of a directory that is new, and that what they write is not left to chance.

Results:
* `generate_eq`: a run reads first and writes then.
* `templates_again`: the templates are the same.
* `rereads_overlaid`, `rereads_left`: so is all that is read of a project.
* `repeats_corpus`, `repeats_prepare`: hence the corpus and all that is generated.
* `answers_parts`: what a run has read before it writes.
* `answers_generate`: a run that has come to its units answers as their publication does.
-/

namespace FieldWiring

open FileTree Output

/-- What a run has come to before it changes any file. -/
structure Prepared where
  root : Location
  configuration : Configuration
  generators : List Generator
  result : GenerationResult
  reports : List CandidateReport

namespace Setting

/-- What a run notes when it starts. -/
def startNote (root : Location) : Note :=
  ⟨.info, "orchestrator", "Starting generate run for " ++ (Path.ofLocation root).text⟩

/-- What a run comes to in the project at a root with a configuration. -/
def derive (E : Setting) (r : GenerateRequest) (root : Location) (c : Configuration) :
    Course Prepared := do
  let corpus ← E.corpus root c
  let generators ← Course.ask fun _ => wanted r.kinds c
  let T ← Course.ask fun t => .ok (E.templates t c)
  let (result, reports) ← E.generateKinds T corpus c.excludeSegments generators
  return ⟨root, c, generators, result, reports⟩

/-- The part of a run that reads. -/
def prepare (E : Setting) (r : GenerateRequest) : Course Prepared := do
  let root ← Course.ask fun _ => E.root r.path
  Course.note E.clock (startNote root)
  let c ← Course.ask fun t => Configuration.read t E.surroundings (.ofLocation root)
  E.derive r root c

/-- The part of a run that writes. -/
def finish (E : Setting) (r : GenerateRequest) (p : Prepared) : Course GenerateOutcome := do
  let dir := outputDir p.root r p.configuration
  let kinds := p.generators.map (·.kind)
  let report ←
    if r.isDry then do
      E.note .info "orchestrator"
        ("Dry run: " ++ Text.natText p.result.units.length ++ " unit(s) not written")
      pure none
    else some <$> E.publish dir p.result.units (some (kinds.map (·.key)))
  match r.dump.or p.configuration.debugDump with
  | none => pure ()
  | some path => E.dump path p.reports
  return ⟨p.root, dir, kinds, r.isDry, p.result, report⟩

/-- A run reads first and writes then. -/
theorem generate_eq (E : Setting) (r : GenerateRequest) :
    E.generate r = E.prepare r >>= E.finish r := by
  unfold generate prepare derive finish
  simp only [bind_assoc, pure_bind]
  rfl

end Setting

/-! ## Nothing is changed -/

namespace Setting

open Course

variable (E : Setting)

theorem onlyReads_corpus (root : Location) (c : Configuration) : OnlyReads (E.corpus root c) := by
  have hsources : OnlyReads (E.sources root c) := by
    unfold sources
    refine onlyReads_bind (onlyReads_ask _) fun m => ?_
    refine onlyReads_bind (onlyReads_note _ _) fun _ => ?_
    exact onlyReads_bind (onlyReads_note _ _) fun _ => onlyReads_pure m
  unfold corpus
  refine onlyReads_bind hsources fun m => ?_
  by_cases hempty : m.files.isEmpty = true
  · rw [if_pos hempty]
    exact onlyReads_bind (onlyReads_note _ _) fun _ => onlyReads_pure _
  · rw [if_neg hempty]
    refine onlyReads_bind (onlyReads_ask _) fun fs => ?_
    refine onlyReads_bind (onlyReads_ask _) fun f => ?_
    refine onlyReads_bind (onlyReads_note _ _) fun _ => ?_
    refine onlyReads_bind (onlyReads_ask _) fun a => ?_
    obtain ⟨corpus, notes⟩ := a
    exact onlyReads_bind (onlyReads_notes _ notes) fun _ => onlyReads_pure corpus

/-- **A run changes nothing but the log file before it writes.** -/
theorem onlyReads_prepare (r : GenerateRequest) : OnlyReads (E.prepare r) := by
  have hkinds : ∀ T corpus excluded gs, OnlyReads (E.generateKinds T corpus excluded gs) :=
    fun T corpus excluded gs => onlyReads_of_comesTo fun _ =>
      generateKinds_comesTo (fun _ n ht => ht.trans (onlyLogged_note _ _ n)) T corpus excluded gs
  unfold prepare
  refine onlyReads_bind (onlyReads_ask _) fun root => ?_
  refine onlyReads_bind (onlyReads_note _ _) fun _ => ?_
  refine onlyReads_bind (onlyReads_ask _) fun c => ?_
  unfold derive
  refine onlyReads_bind (E.onlyReads_corpus root c) fun corpus => ?_
  refine onlyReads_bind (onlyReads_ask _) fun gs => ?_
  refine onlyReads_bind (onlyReads_ask _) fun T => ?_
  refine onlyReads_bind (hkinds T corpus _ gs) fun a => ?_
  obtain ⟨result, reports⟩ := a
  exact onlyReads_pure _

end Setting

/-! ## Templates -/

section Templates

variable {t u : FileTree} {made : List String} {Out : String → Prop} {here : Location} {dir : Path}

/-- The file of a template: it lies in the directory of templates or further below, and its name is
not among `Out`. -/
def IsTemplateFile (Out : String → Prop) (file : String) : Prop :=
  ∃ ps s, Path.ofText file = ⟨.here, ps ++ [s]⟩ ∧ ".." ∉ ps ++ [s] ∧ ¬ Out (FileName.onDisk s)

/-- The templates of units and lookups are such files, if no name in `Out` ends as theirs do. -/
theorem TemplateName.isTemplateFile (hout : ∀ s, Out s → s.toList.getLast? ≠ some '2')
    (name : TemplateName) : IsTemplateFile Out name.file := by
  have hother : ∀ s, FileName.onDisk s = s → s.toList.getLast? = some '2' →
      ¬ Out (FileName.onDisk s) := by
    intro s hs hlast hmem
    rw [hs] at hmem
    exact hout s hmem hlast
  cases name with
  | unit =>
    exact ⟨[], "resolver.cs.j2", by decide +kernel, by decide +kernel,
      hother _ (by decide +kernel) (by decide +kernel)⟩
  | lookup mode =>
    cases mode with
    | byPath =>
      exact ⟨["lookups"], LookupMode.byPath.word ++ ".j2", by decide +kernel, by decide +kernel,
        hother _ (by decide +kernel) (by decide +kernel)⟩
    | byType =>
      exact ⟨["lookups"], LookupMode.byType.word ++ ".j2", by decide +kernel, by decide +kernel,
        hother _ (by decide +kernel) (by decide +kernel)⟩

/-- No run leaves the template of a unit or a lookup. -/
theorem isTemplateFile_output (name : TemplateName) : IsTemplateFile IsOutputName name.file := by
  refine TemplateName.isTemplateFile (fun s hs hlast => ?_) name
  exact not_isOutputName (by rw [hlast]; decide) (by rw [hlast]; decide) hs

/-- The files of templates that are found in `u` are found in `t` on the same way. -/
def FoundBefore (Out : String → Prop) (here : Location) (dir : Path) (t u : FileTree) : Prop :=
  ∀ file, IsTemplateFile Out file → ∀ l content, u.reach here (dir.joinText file) = .ok l →
    t.find? l = some (.file content) → t.reach here (dir.joinText file) = .ok l

theorem foundBefore_of_back (h : HasDirectories u t) : FoundBefore Out here dir t u :=
  fun _ _ _ _ hl _ => reach_mono h hl

/-- A directory that is new is on no way to a template, if all steps back are from old ones. -/
theorem foundBefore_of_stepsBack (hp : t.IsProper) (h : HasDirectories t u)
    (hdir : StepsBackWithin t here dir) : FoundBefore Out here dir t u := by
  rintro file ⟨ps, s, hfile, hdots, -⟩ l content hl hread
  have hpath : dir.joinText file = ⟨dir.start, dir.parts ++ (ps ++ [s])⟩ := by
    unfold Path.joinText
    rw [hfile]
    rfl
  have hback : StepsBackWithin t here (dir.joinText file) :=
    hdir.extend (by rw [hpath]) (by rw [hpath]) hdots
  exact hp.grounded.reach_of_file h hback hl hread

/-- A template's file that is read in the one tree is read in the other. -/
theorem read_template (h : Overlaid made Out t u) (hfound : FoundBefore Out here dir t u)
    {file : String} (hfile : IsTemplateFile Out file) (content : ByteArray) :
    u.read here (dir.joinText file) = .ok content ↔
      t.read here (dir.joinText file) = .ok content := by
  obtain ⟨ps, s, hparts, hdots, hout⟩ := id hfile
  have hs : s ≠ ".." := by
    rintro rfl
    exact hdots (List.mem_append_right ps List.mem_cons_self)
  -- the file has the same content in both, wherever it stands
  have hat : ∀ {w : FileTree} {l : Location}, w.reach here (dir.joinText file) = .ok l →
      u.fileAt l = t.fileAt l := by
    intro w l hl
    have hpath : dir.joinText file = ⟨dir.start, dir.parts ++ (ps ++ [s])⟩ := by
      unfold Path.joinText
      rw [hparts]
      rfl
    rw [reach_locate hl, hpath]
    unfold Path.locate
    rw [← List.append_assoc, List.foldl_append]
    simp only [List.foldl_cons, List.foldl_nil, Path.along, if_neg hs]
    exact h.fileAt_eq hout _
  rw [read_ok_iff, read_ok_iff]
  constructor
  · rintro ⟨l, hl, hread⟩
    rw [← fileAt_eq_some, hat hl, fileAt_eq_some] at hread
    exact ⟨l, hfound file hfile l content hl hread, hread⟩
  · rintro ⟨l, hl, hread⟩
    rw [← fileAt_eq_some, ← hat hl, fileAt_eq_some] at hread
    exact ⟨l, reach_mono h.forth hl, hread⟩

/-- The source of a template, told by what its file holds. -/
theorem templateSource_eq (w : FileTree) (here : Location) (dir : Path) (file : String) :
    (∃ content, w.read here (dir.joinText file) = .ok content ∧
      templateSource w here dir file =
        match Utf8.readText? content with
        | some source => .ok (some source)
        | none => .error (.notText (dir.joinText file))) ∨
    ((∀ content, w.read here (dir.joinText file) ≠ .ok content) ∧
      templateSource w here dir file = .ok none) := by
  unfold templateSource
  by_cases hleads : w.leadsToFile here (dir.joinText file) = .ok true
  · left
    obtain ⟨content, hread⟩ := leadsToFile_iff.mp hleads
    refine ⟨content, hread, ?_⟩
    simp only [hleads, readText, hread, Except.mapError, bind, Except.bind]
    cases Utf8.readText? content with
    | none => rfl
    | some source => rfl
  · right
    refine ⟨fun content hread => hleads (leadsToFile_iff.mpr ⟨content, hread⟩), ?_⟩
    split
    · contradiction
    · rfl

/-- **The sources of templates are what they were**, unless one is found by way of a new
directory. -/
theorem templateSource_again (h : Overlaid made Out t u) (hfound : FoundBefore Out here dir t u)
    {file : String} (hfile : IsTemplateFile Out file) :
    templateSource u here dir file = templateSource t here dir file := by
  have hread := read_template h hfound hfile
  rcases templateSource_eq u here dir file with ⟨content, hu, heq⟩ | ⟨hu, heq⟩
  · rcases templateSource_eq t here dir file with ⟨content', ht, heq'⟩ | ⟨ht, -⟩
    · have hsame : content = content' := Except.ok.inj (((hread content).mp hu).symm.trans ht)
      rw [heq, heq', hsame]
    · exact absurd ((hread content).mp hu) (ht content)
  · rcases templateSource_eq t here dir file with ⟨content', ht, -⟩ | ⟨-, heq'⟩
    · exact absurd ((hread content').mpr ht) (hu content')
    · rw [heq, heq']

/-- The templates of a project are steady when something else is left to chance: its own ones write
the same then, and they ask for no files but those that templates can have. -/
def Setting.IsSteady (E : Setting) (Out : String → Prop) (chance : Nat) (t : FileTree)
    (c : Configuration) : Prop :=
  ∀ dir, c.templatesDir = some dir → ∀ (name : TemplateName) source,
    templateSource t E.surroundings.here dir name.file = .ok (some source) →
    ∀ find, (∀ file, IsTemplateFile Out file →
        find file = templateSource t E.surroundings.here dir file) →
      E.language.write chance find name source =
        E.language.write E.chance (templateSource t E.surroundings.here dir) name source

/-- Templates of values, choices and loops are steady. -/
theorem Setting.isSteady_basic {E : Setting} (hE : E.language = .basic) (chance : Nat)
    (t : FileTree) (c : Configuration) : E.IsSteady Out chance t c := by
  intro dir _ name source _ find _
  rw [hE]
  rfl

/-- **The templates are what they were**, unless one is found by way of a new directory. -/
theorem templates_again {E : Setting} {chance : Nat} (h : Overlaid made Out t u) {c : Configuration}
    (htemplates : ∀ name : TemplateName, IsTemplateFile Out name.file)
    (hsteady : E.IsSteady Out chance t c)
    (hfound : ∀ dir, c.templatesDir = some dir → FoundBefore Out E.surroundings.here dir t u) :
    { E with chance := chance }.templates u c = E.templates t c := by
  unfold Setting.templates
  cases hc : c.templatesDir with
  | none => rfl
  | some dir =>
    funext name b
    have hsame : ∀ file, IsTemplateFile Out file → templateSource u E.surroundings.here dir file =
        templateSource t E.surroundings.here dir file := fun _ =>
      templateSource_again h (hfound dir hc)
    simp only [Templates.ofDirectory, hsame _ (htemplates name)]
    cases hsource : templateSource t E.surroundings.here dir name.file with
    | error e => rfl
    | ok source? =>
      cases source? with
      | none => rfl
      | some source => exact congrFun (hsteady dir hc name source hsource _ hsame) b

end Templates

/-! ## All that is read -/

section Repeating

variable {E : Setting} {clock : Clock} {chance : Nat} {t u : FileTree} {root : Location}
  {P Q : Session → Prop}

/-- Every frontend reads the listed sources and nothing else. -/
def Setting.ReadsListed (E : Setting) : Prop :=
  ∀ c fs, E.frontends c = .ok fs → ∀ f ∈ fs, f.ReadsListed

/-- Without plugins the frontends read nothing else. -/
theorem Setting.readsListed_default : Setting.ReadsListed {} :=
  fun _ _ h => readsListed_builtin h

/-- In the sessions with `P` the project at a root reads as it does on the files `t`, also when
something else is left to chance. -/
structure Rereads (E : Setting) (chance : Nat) (root : Location) (t : FileTree)
    (P : Session → Prop) : Prop where
  note : ∀ c s n, P s → P (s.note c n)
  configuration : ∀ s, P s → Configuration.read s.files E.surroundings (.ofLocation root) =
    Configuration.read t E.surroundings (.ofLocation root)
  sources : ∀ s excludes, P s → scan s.files E.surroundings (some excludes) (.ofLocation root) =
    scan t E.surroundings (some excludes) (.ofLocation root)
  loads : ∀ s c fs, P s → E.frontends c = .ok fs → ∀ f ∈ fs, ∀ excludes m,
    scan t E.surroundings (some excludes) (.ofLocation root) = .ok m → f.load s.files m = f.load t m
  templates : ∀ s c, P s → Configuration.read t E.surroundings (.ofLocation root) = .ok c →
    { E with chance := chance }.templates s.files c = E.templates t c

theorem rereads_quiet (h : ∀ c, Configuration.read t E.surroundings (.ofLocation root) = .ok c →
    { E with chance := chance }.templates t c = E.templates t c) :
    Rereads E chance root t (Quiet t) where
  note c _ n := quiet_note c n
  configuration s hs := by rw [hs.1]
  sources s excludes hs := by rw [hs.1]
  loads s c fs hs _ f _ _ m _ := by rw [hs.1]
  templates s c hs hc := by
    rw [hs.1]
    exact h c hc

/-- **A project reads as it did when files differ that are not read**, provided that its templates
are steady and not found by way of a new directory. -/
theorem rereads_overlaid {made : List String} {Out : String → Prop} (hout : Unread Out)
    (htemplates : ∀ name : TemplateName, IsTemplateFile Out name.file) (hE : E.ReadsListed)
    (hp : t.IsProper) (hroot : IsRoot t root) (hmade : configurationName ∉ made)
    (hnote : ∀ c s n, P s → P (s.note c n)) (h : ∀ s, P s → Overlaid made Out t s.files)
    (hsteady : ∀ c, Configuration.read t E.surroundings (.ofLocation root) = .ok c →
      E.IsSteady Out chance t c ∧ ∀ dir, c.templatesDir = some dir → ∀ s, P s →
        FoundBefore Out E.surroundings.here dir t s.files) : Rereads E chance root t P where
  note := hnote
  configuration s hs := Configuration.read_again hout hroot (h s hs) hmade E.surroundings
  sources s excludes hs := scan_again hout hroot (h s hs) E.surroundings excludes
  loads s c fs hs hfs f hf _ m hm :=
    hE c fs hfs f hf t s.files m fun _ hx => read_listed hout hp hroot (h s hs) hm hx
  templates s c hs hc :=
    templates_again (h s hs) htemplates (hsteady c hc).1
      fun dir hdir => (hsteady c hc).2 dir hdir s hs

/-- It reads as it did when a run has made directories and left outputs. -/
theorem rereads_left {made : List String} (hE : E.ReadsListed) (hp : t.IsProper)
    (hroot : IsRoot t root) (h : Overlaid made IsOutputName t u) (hmade : configurationName ∉ made)
    (hsteady : ∀ c, Configuration.read t E.surroundings (.ofLocation root) = .ok c →
      E.IsSteady IsOutputName chance t c ∧
        ∀ dir, c.templatesDir = some dir → StepsBackWithin t E.surroundings.here dir) :
    Rereads E chance root t (Quiet u) := by
  refine rereads_overlaid unread_output isTemplateFile_output hE hp hroot hmade
    (fun c _ n => quiet_note c n) (fun s hs => ?_) fun c hc => ⟨(hsteady c hc).1, ?_⟩
  · rw [hs.1]
    exact h
  · intro dir hdir s hs
    rw [hs.1]
    exact foundBefore_of_stepsBack hp h.forth ((hsteady c hc).2 dir hdir)

theorem scan_of_answers {s s' : Session} {c : Configuration} {m : SourceManifest}
    (h : (E.sources root c).Answers s m s') :
    scan s.files E.surroundings (some c.excludePaths) (.ofLocation root) = .ok m := by
  unfold Setting.sources at h
  obtain ⟨m', s₁, hscan, h₁⟩ := Course.answers_bind.mp h
  obtain ⟨_, s₂, -, h₂⟩ := Course.answers_bind.mp h₁
  obtain ⟨_, s₃, -, h₃⟩ := Course.answers_bind.mp h₂
  obtain ⟨rfl, -⟩ := Course.answers_pure.mp h₃
  exact (Course.answers_ask.mp hscan).1

theorem repeats_sources (hP : Rereads E E.chance root t P) (hQ : Rereads E chance root t Q)
    (c : Configuration) :
    Course.Repeats P (E.sources root c) Q
      ({ E with clock := clock, chance := chance }.sources root c) := by
  unfold Setting.sources
  refine Course.repeats_bind (Course.repeats_ask fun s u hs hu m hm => ?_) fun m _ _ _ _ => ?_
  · rw [hP.sources s _ hs] at hm
    rw [hQ.sources u _ hu]
    exact hm
  · refine Course.repeats_bind (Course.repeats_note (hP.note _ · _) (hQ.note _ · _))
      fun _ _ _ _ _ => ?_
    refine Course.repeats_bind (Course.repeats_note (hP.note _ · _) (hQ.note _ · _))
      fun _ _ _ _ _ => ?_
    exact Course.repeats_pure m

/-- The corpus is what it was. -/
theorem repeats_corpus (hP : Rereads E E.chance root t P) (hQ : Rereads E chance root t Q)
    (c : Configuration) :
    Course.Repeats P (E.corpus root c) Q
      ({ E with clock := clock, chance := chance }.corpus root c) := by
  unfold Setting.corpus
  refine Course.repeats_bind (repeats_sources hP hQ c) fun m s s' hs hm => ?_
  have hscan := scan_of_answers hm
  rw [hP.sources s _ hs] at hscan
  by_cases hempty : m.files.isEmpty = true
  · rw [if_pos hempty, if_pos hempty]
    refine Course.repeats_bind (Course.repeats_note (hP.note _ · _) (hQ.note _ · _))
      fun _ _ _ _ _ => ?_
    exact Course.repeats_pure _
  · rw [if_neg hempty, if_neg hempty]
    refine Course.repeats_bind (Course.repeats_ask fun _ _ _ _ _ hfs => hfs) fun fs _ _ _ hfs => ?_
    refine Course.repeats_bind (Course.repeats_ask fun _ _ _ _ _ hf => hf) fun f _ _ _ hf => ?_
    refine Course.repeats_bind (Course.repeats_note (hP.note _ · _) (hQ.note _ · _))
      fun _ _ _ _ _ => ?_
    -- the chosen frontend is one of those of the configuration
    have hmem : f ∈ fs := by
      have hchoose := (Course.answers_ask.mp hf).1
      unfold choose at hchoose
      split at hchoose
      · rename_i g hfind
        rw [← Except.ok.inj hchoose]
        exact List.mem_of_find?_eq_some hfind
      · cases hchoose
    have hfrontends : E.frontends c = .ok fs := by
      have hask := (Course.answers_ask.mp hfs).1
      cases hfs' : E.frontends c with
      | error e => rw [hfs'] at hask; cases hask
      | ok gs => rw [hfs'] at hask; exact congrArg _ (Except.ok.inj hask)
    refine Course.repeats_bind (Course.repeats_ask fun s u hs hu a ha => ?_) fun a _ _ _ _ => ?_
    · rw [hP.loads s c fs hs hfrontends f hmem _ m hscan] at ha
      rw [hQ.loads u c fs hu hfrontends f hmem _ m hscan]
      exact ha
    · obtain ⟨corpus, notes⟩ := a
      refine Course.repeats_bind (Course.repeats_notes (hP.note _) (hQ.note _) notes)
        fun _ _ _ _ _ => ?_
      exact Course.repeats_pure corpus

/-- **All that a run comes to before it writes, it comes to again.** -/
theorem repeats_prepare {r : GenerateRequest}
    (h : ∀ root, E.root r.path = .ok root →
      Rereads E E.chance root t P ∧ Rereads E chance root t Q) :
    Course.Repeats P (E.prepare r) Q
      ({ E with clock := clock, chance := chance }.prepare r) := by
  unfold Setting.prepare
  refine Course.repeats_bind (Course.repeats_ask fun _ _ _ _ _ ha => ha) fun root s s' hs ha => ?_
  obtain ⟨hP, hQ⟩ := h root (Course.answers_ask.mp ha).1
  refine Course.repeats_bind (Course.repeats_note (hP.note _ · _) (hQ.note _ · _))
    fun _ _ _ _ _ => ?_
  refine Course.repeats_bind (Course.repeats_ask fun s u hs hu c hc => ?_) fun c s₁ _ hs₁ hc => ?_
  · rw [hP.configuration s hs] at hc
    rw [hQ.configuration u hu]
    exact hc
  have hread := (Course.answers_ask.mp hc).1
  rw [hP.configuration s₁ hs₁] at hread
  unfold Setting.derive
  refine Course.repeats_bind (repeats_corpus hP hQ c) fun corpus _ _ _ _ => ?_
  refine Course.repeats_bind (Course.repeats_ask fun _ _ _ _ _ hgs => hgs) fun gs _ _ _ _ => ?_
  refine Course.repeats_bind (Course.repeats_ask fun s u hs hu T hT => ?_) fun T _ _ _ _ => ?_
  · rw [← hT]
    exact congrArg Except.ok ((hQ.templates u c hu hread).trans (hP.templates s c hs hread).symm)
  · refine Course.repeats_bind (Course.repeats_of_comesTo
      (generateKinds_comesTo (hP.note _) T corpus _ gs)
      (generateKinds_comesTo (hQ.note _) T corpus _ gs)) fun a _ _ _ _ => ?_
    obtain ⟨result, reports⟩ := a
    exact Course.repeats_pure _

end Repeating

/-! ## The two parts of a run -/

section Parts

variable {E : Setting} {r : GenerateRequest} {t : FileTree} {root : Location} {c : Configuration}
  {s s' : Session} {p : Prepared}

/-- What a path spells from the root on has no dots in it. -/
theorem dots_not_mem_spelledFrom {here : Location} (h : ".." ∉ here) (q : Path) :
    ".." ∉ q.spelledFrom here := by
  have hfold : ∀ (ps : List String) (l : Location), ".." ∉ l →
      ".." ∉ ps.foldl (fun l part => if part = ".." then l.dropLast else l ++ [part]) l := by
    intro ps
    induction ps with
    | nil => exact fun _ hl => hl
    | cons part ps ih =>
      intro l hl
      refine ih _ ?_
      show ".." ∉ if part = ".." then l.dropLast else l ++ [part]
      split
      · exact fun hmem => hl ((List.dropLast_sublist l).subset hmem)
      · rename_i hne
        rw [List.mem_append, List.mem_singleton, not_or]
        exact ⟨hl, Ne.symm hne⟩
  unfold Path.spelledFrom
  refine hfold _ _ ?_
  split
  · exact List.not_mem_nil
  · exact h

theorem isRoot_of_scan {S : Surroundings} {excludes : Option (List String)} {root : Location}
    {m : SourceManifest} (hdots : ".." ∉ root)
    (h : scan t S excludes (.ofLocation root) = .ok m) : IsRoot t root := by
  have hhome : (Path.ofLocation root).expandHome S.homes = .ok (.ofLocation root) := rfl
  unfold scan at h
  rw [hhome] at h
  simp only [Except.mapError, bind, Except.bind] at h
  cases hresolve : S.resolve (.ofLocation root) with
  | error e => rw [hresolve] at h; cases h
  | ok root' =>
    obtain rfl := resolve_ofLocation S hdots hresolve
    rw [hresolve] at h
    simp only at h
    cases hlook : t.look [] (.ofLocation root') with
    | error e => rw [hlook] at h; cases h
    | ok o =>
      rw [hlook] at h
      rcases o with _ | (content | _)
      · cases h
      · cases h
      · obtain ⟨l, hreach, hdir⟩ := look_some_iff.mp hlook
        obtain rfl : l = placeOf root' := reach_locate hreach
        exact ⟨hreach, hdir, hdots⟩

/-- What a run has read before it writes, part by part, once its start was noted. -/
theorem answers_parts (h : (E.prepare r).Answers s p s') :
    E.root r.path = .ok p.root ∧
      Configuration.read (s.note E.clock (Setting.startNote p.root)).files E.surroundings
        (.ofLocation p.root) = .ok p.configuration ∧
      Setting.wanted r.kinds p.configuration = .ok p.generators ∧
      ∃ T corpus s₁, (E.corpus p.root p.configuration).Answers
          (s.note E.clock (Setting.startNote p.root)) corpus s₁ ∧
        generated T corpus p.configuration.excludeSegments p.generators =
          .ok (p.result, p.reports) := by
  unfold Setting.prepare Setting.derive at h
  obtain ⟨root, s₁, hask, h₁⟩ := Course.answers_bind.mp h
  obtain ⟨hroot, rfl⟩ := Course.answers_ask.mp hask
  obtain ⟨_, s₂, hnote, h₂⟩ := Course.answers_bind.mp h₁
  obtain ⟨c, s₃, hread, h₃⟩ := Course.answers_bind.mp h₂
  obtain ⟨hread, rfl⟩ := Course.answers_ask.mp hread
  obtain ⟨corpus, s₄, hcorpus, h₄⟩ := Course.answers_bind.mp h₃
  obtain ⟨gs, s₅, hgs, h₅⟩ := Course.answers_bind.mp h₄
  obtain ⟨T, s₆, -, h₆⟩ := Course.answers_bind.mp h₅
  obtain ⟨⟨result, reports⟩, s₇, hresult, h₇⟩ := Course.answers_bind.mp h₆
  obtain ⟨rfl, -⟩ := Course.answers_pure.mp h₇
  obtain rfl := Course.answers_note.mp hnote
  exact ⟨hroot, hread, (Course.answers_ask.mp hgs).1, T, corpus, s₄, hcorpus,
    generated_of_answers hresult⟩

/-- The root of a run that has read its project is a directory. -/
theorem isRoot_of_prepare (hhere : ".." ∉ E.surroundings.here) (h : (E.prepare r).Answers s p s') :
    IsRoot (s.note E.clock (Setting.startNote p.root)).files p.root := by
  obtain ⟨hask, -, -, -, corpus, s₁, hcorpus, -⟩ := answers_parts h
  -- it was one when its sources were listed
  unfold Setting.corpus at hcorpus
  obtain ⟨m, s₂, hsources, -⟩ := Course.answers_bind.mp hcorpus
  refine isRoot_of_scan ?_ (scan_of_answers hsources)
  unfold Setting.root at hask
  cases hhome : r.path.expandHome E.surroundings.homes with
  | error e => rw [hhome] at hask; cases hask
  | ok q =>
    rw [hhome] at hask
    have hresolve : E.surroundings.resolve q = .ok p.root := hask
    unfold Surroundings.resolve at hresolve
    split at hresolve
    · cases hresolve
    · split at hresolve
      · cases hresolve
      · rw [← Except.ok.inj hresolve]
        exact dots_not_mem_spelledFrom hhere q

/-- What a run without a log file has read before it writes. -/
theorem answers_prepare (hs : Quiet t s) (hhere : ".." ∉ E.surroundings.here)
    (h : (E.prepare r).Answers s p s') :
    E.root r.path = .ok p.root ∧ IsRoot t p.root ∧
      Configuration.read t E.surroundings (.ofLocation p.root) = .ok p.configuration := by
  obtain ⟨hask, hread, -⟩ := answers_parts h
  have hroot := isRoot_of_prepare hhere h
  rw [(quiet_note E.clock _ hs).1] at hread hroot
  exact ⟨hask, hroot, hread⟩

/-- A run reads its configuration first, and derives everything from it. -/
theorem answers_prepare_of (hroot : E.root r.path = .ok root)
    (hread : Configuration.read s.files E.surroundings (.ofLocation root) = .ok c)
    (hs : s.logFile = none)
    (h : (E.derive r root c).Answers (s.note E.clock (Setting.startNote root)) p s') :
    (E.prepare r).Answers s p s' := by
  have hfiles := (quiet_note E.clock (Setting.startNote root) (⟨rfl, hs⟩ : Quiet s.files s)).1
  unfold Setting.prepare
  refine Course.answers_bind.mpr ⟨root, s, Course.answers_ask.mpr ⟨hroot, rfl⟩, ?_⟩
  refine Course.answers_bind.mpr ⟨(), _, Course.answers_note.mpr rfl, ?_⟩
  refine Course.answers_bind.mpr ⟨c, _, Course.answers_ask.mpr ⟨?_, rfl⟩, h⟩
  rw [hfiles]
  exact hread

/-- What a run does when it writes and leaves no dump: it publishes its units. -/
theorem answers_finish (hdry : r.isDry = false) (hdump : r.dump.or p.configuration.debugDump = none)
    {o : GenerateOutcome} :
    (E.finish r p).Answers s o s' ↔
      ∃ report, (E.publish (Setting.outputDir p.root r p.configuration) p.result.units
          (some ((p.generators.map (·.kind)).map (·.key)))).Answers s report s' ∧
        o = ⟨p.root, Setting.outputDir p.root r p.configuration, p.generators.map (·.kind), false,
          p.result, some report⟩ := by
  unfold Setting.finish
  rw [hdry, hdump]
  simp only [Bool.false_eq_true, if_false]
  rw [Course.answers_bind]
  constructor
  · rintro ⟨_, s₁, hpublish, hdone⟩
    obtain ⟨report, hreport, rfl⟩ := Course.answers_map.mp hpublish
    obtain ⟨rfl, rfl⟩ := Course.answers_pure.mp hdone
    exact ⟨report, hreport, rfl⟩
  · rintro ⟨report, hreport, rfl⟩
    refine ⟨some report, s', Course.answers_map.mpr ⟨report, hreport, rfl⟩, ?_⟩
    exact Course.answers_pure.mpr ⟨rfl, rfl⟩

/-- A run that has come to its units answers as their publication does. -/
theorem answers_generate {sₚ : Session} {o : GenerateOutcome}
    (hprepare : (E.prepare r).Answers s p sₚ) (hdry : r.isDry = false)
    (hdump : r.dump.or p.configuration.debugDump = none) :
    (E.generate r).Answers s o s' ↔
      ∃ report, (E.publish (Setting.outputDir p.root r p.configuration) p.result.units
          (some ((p.generators.map (·.kind)).map (·.key)))).Answers sₚ report s' ∧
        o = ⟨p.root, Setting.outputDir p.root r p.configuration, p.generators.map (·.kind), false,
          p.result, some report⟩ := by
  rw [Setting.generate_eq, Course.answers_bind]
  constructor
  · rintro ⟨p', s'', hprepare', hfinish⟩
    obtain ⟨rfl, rfl⟩ := Course.answers_unique hprepare hprepare'
    exact (answers_finish hdry hdump).mp hfinish
  · exact fun h => ⟨p, sₚ, hprepare, (answers_finish hdry hdump).mpr h⟩

end Parts

end FieldWiring
