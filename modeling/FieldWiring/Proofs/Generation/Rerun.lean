import FieldWiring.Proofs.Generation.Preparation
import FieldWiring.Proofs.Output.Fresh
import FieldWiring.Proofs.Output.Republishing
import FieldWiring.Proofs.Yaml.Plain

/-!
# Running again

A run that is repeated on the project that it left comes to the same units and failures and finds
all of them published: no file is written but the manifest, whose time is another. This holds
wherever the output directory lies, since no scan lists what a run leaves.

Results:
* `answers_generate_fresh`: a run into a new directory succeeds when it has come to units.
* `standing_publish`: what a publication left differs in outputs alone, and is complete.
* `leftBehind_generate`: a run leaves a manifest of runs.
* `generate_again`: the second run answers the same and changes the manifest's time alone.
* `no_condition_spared`: why so much is asked of the templates and the log file.
-/

namespace FieldWiring

open FileTree Output

/-! ## First runs -/

section First

variable {E : Setting} {r : GenerateRequest} {s s' : Session} {p : Prepared}

/-- **A run that has come to units publishes them**, if nothing was published there before. -/
theorem answers_generate_fresh {w : FileTree} (hprepare : (E.prepare r).Answers s p s')
    (hs' : s'.logFile = none)
    (hdry : r.isDry = false) (hdump : r.dump.or p.configuration.debugDump = none) {dir : Path}
    (hdir : Setting.outputDir p.root r p.configuration = dir)
    (hmade : (FileAction.ensureDirectories E.surroundings.here dir).Returns s'.files () w)
    (hvacant : Vacant E.surroundings.here dir p.result.units w)
    (hreached : w.reach E.surroundings.here (dir.joinText OutputManifest.fileName) =
      .ok (manifestAt (dir.locate E.surroundings.here)))
    (hfree : w.find? (manifestAt (dir.locate E.surroundings.here)) = none) :
    ∃ s₁, (E.generate r).Answers s ⟨p.root, dir, p.generators.map (·.kind), false, p.result,
      some ⟨p.result.units.map (target dir), [], []⟩⟩ s₁ := by
  subst hdir
  obtain ⟨s₁, hpublish⟩ := Setting.answers_publish_fresh
    (some ((p.generators.map (·.kind)).map (·.key))) hs' hmade hvacant hreached hfree
  exact ⟨s₁, (answers_generate hprepare hdry hdump).mpr ⟨_, hpublish, rfl⟩⟩

end First

/-! ## What a run leaves -/

/-- What is asked of a run in any case. It starts without a log file in a tree as file systems have
them and is no dry run; the frontends read what is listed and nothing else; nothing is dumped; and
the output directory has no part with the name of a configuration, and no manifest but one that runs
left. -/
structure Settled (E : Setting) (r : GenerateRequest) (s : Session) (o : GenerateOutcome)
    (c : Configuration) : Prop where
  unlogged : s.logFile = none
  proper : s.files.IsProper
  here : s.files.find? E.surroundings.here = some .directory
  wet : r.isDry = false
  listed : E.ReadsListed
  configured : ∃ root, E.root r.path = .ok root ∧
    Configuration.read s.files E.surroundings (.ofLocation root) = .ok c
  undumped : r.dump.or c.debugDump = none
  output : configurationName ∉ o.outputDir.parts.map FileName.onDisk
  left : LeftBehind s.files (o.outputDir.locate E.surroundings.here)

/-- What is asked of a run so that it can be repeated: besides, no unit's file name has a slash or a
half of a pair, and the templates are steady and not found by way of a directory that may be
missing. -/
structure Repeatable (E : Setting) (r : GenerateRequest) (s : Session) (o : GenerateOutcome)
    (c : Configuration) : Prop extends Settled E r s o c where
  names : ∀ u ∈ o.result.units, '/' ∉ u.fileName.toList ∧ Text.holdsHalf u.fileName = false
  templates : ∀ dir, c.templatesDir = some dir →
    StepsBackWithin s.files E.surroundings.here dir
  steady : ∀ chance, E.IsSteady IsOutputName chance s.files c

section Publishing

variable {E : Setting} {r : GenerateRequest} {s s' : Session} {dir : Path}
  {units : List GeneratedUnit} {kinds : Option (List String)} {report : WriteReport}

/-- What a publication did when no log is written: the directory was made, and the units were
published over what the manifest there lists. -/
theorem quiet_publish {t : FileTree} (hs : Quiet t s)
    (h : (E.publish dir units kinds).Answers s report s') :
    ∃ w v previous, (FileAction.ensureDirectories E.surroundings.here dir).Returns t () w ∧
      (readManifest w E.surroundings.here dir = .ok previous ∨
        readManifest w E.surroundings.here dir = .error .malformed ∧ previous = []) ∧
      (publishOver E.surroundings.here dir units kinds E.clock.updated previous).Returns
        w report v ∧
      Quiet v s' := by
  obtain ⟨w, s₂, v, previous, hmade, hlogged, hread, hpublish, hlast⟩ := Setting.answers_publish h
  obtain ⟨rfl, hlog⟩ := hs
  have hquiet : Quiet w s₂ := hlogged.quiet ⟨rfl, hlog⟩
  rw [hquiet.1] at hpublish
  exact ⟨w, v, previous, hmade, hread, hpublish, hlast.quiet ⟨rfl, hquiet.2⟩⟩

/-- What is taken over from a manifest of runs lists units, also after the directory was made. -/
theorem owned_of_made {t w : FileTree} {previous : OutputManifest}
    (hleft : LeftBehind t (dir.locate E.surroundings.here))
    (hmade : (FileAction.ensureDirectories E.surroundings.here dir).Returns t () w)
    (hread : readManifest w E.surroundings.here dir = .ok previous ∨
      readManifest w E.surroundings.here dir = .error .malformed ∧ previous = []) :
    Owned previous := by
  refine LeftBehind.owned (fun content hat => hleft content ?_) hread
  rw [← FileAction.ensureDirectories_fileAt hmade]
  exact hat

/-- **What a publication left differs in outputs alone, and is complete**: first the directory was
made, and then only outputs were touched. -/
theorem standing_publish {t : FileTree} (hs : Quiet t s)
    (hleft : LeftBehind t (dir.locate E.surroundings.here))
    (hdistinct : (units.map (·.fileName)).Nodup) (hrecord : ∀ u ∈ units, IsRecordable u)
    (hnames : ∀ u ∈ units, IsUnitName u.fileName ∧ '/' ∉ u.fileName.toList)
    (h : (E.publish dir units kinds).Answers s report s') :
    ∃ w v previous, (FileAction.ensureDirectories E.surroundings.here dir).Returns t () w ∧
      (∀ made, Overlaid made IsOutputName w v) ∧ Quiet v s' ∧
      Standing E.surroundings.here dir units kinds E.clock.updated previous v := by
  obtain ⟨w, v, previous, hmade, hread, hpublish, hv⟩ := quiet_publish hs h
  have howned := owned_of_made hleft hmade hread
  obtain ⟨hr, hd⟩ := FileAction.ensureDirectories_reaches hmade
  have hunits : ∀ u ∈ units, IsUnitName u.fileName := fun u hu => (hnames u hu).1
  obtain ⟨hmanifestReached, hreach, bs, hp, -, -⟩ := returns_publishOver
    (fun u hu => isName_fileName (hnames u hu).2)
    (fun x hx _ => (howned.name hx).2.2) hr hd hpublish
  have hforth := hp.hasDirectories
  refine ⟨w, v, previous, hmade, fun _ => overlaid_published hp hunits howned, hv, hdistinct,
    hrecord, howned, reach_mono hforth hr, hforth _ hd, ?_,
    reach_mono hforth hmanifestReached, hp.manifest⟩
  intro u hu
  obtain ⟨hhalf, htarget⟩ := hreach u hu
  obtain ⟨content, hat, hsame⟩ := hp.unit hdistinct hunits howned hu
  exact ⟨hhalf, _, content, reach_mono hforth htarget, hat, hsame⟩

/-- Kinds that come with the program can be written into a document. -/
theorem isSettled_key : ∀ k ∈ GeneratorKind.all, (Json.Symbols.ofString k.key).IsSettled := by
  decide +kernel

/-- The files of a run's units have names of their own, which end as those of units do; and the
units can be recorded, unless their names hold halves of pairs. -/
theorem outputNames_generate {o : GenerateOutcome} (h : (E.generate r).Answers s o s')
    (hplain : ∀ u ∈ o.result.units, Text.holdsHalf u.fileName = false) :
    (o.result.units.map (·.fileName)).Nodup ∧ (∀ u ∈ o.result.units, IsUnitName u.fileName) ∧
      ∀ u ∈ o.result.units, IsRecordable u := by
  obtain ⟨T, corpus, c, gs, reports, hgs, hgen⟩ := result_of_generate h
  obtain ⟨hdistinct, hmade⟩ := generated_fileNames hgen (wanted_toldApart hgs)
  refine ⟨hdistinct, fun u hu => ?_, fun u hu => ⟨?_, ?_⟩⟩
  · obtain ⟨g, -, d, text, rfl⟩ := hmade u hu
    exact ⟨fileName_generated g d text, hplain _ hu⟩
  · refine isSettled_of_encodable (List.any_eq_false.mpr fun c hc => ?_)
    have hc := List.any_eq_false.mp (hplain u hu) c hc
    rw [Bool.not_eq_true, Option.isSome_eq_false_iff, Option.isNone_iff_eq_none] at hc
    rw [hc]
    exact Bool.false_ne_true
  · obtain ⟨g, hg, d, text, rfl⟩ := hmade u hu
    exact isSettled_key _ ((wanted_kinds hgs).subset (List.mem_map_of_mem hg))

/-- What a run left, once it had come to its units. -/
theorem standing_generate {t : FileTree} {o : GenerateOutcome} {p : Prepared} {sₚ : Session}
    (h : (E.generate r).Answers s o s') (hprepare : (E.prepare r).Answers s p sₚ)
    (hsₚ : Quiet t sₚ) (hdry : r.isDry = false)
    (hdump : r.dump.or p.configuration.debugDump = none)
    (hleft : LeftBehind t (o.outputDir.locate E.surroundings.here))
    (hnames : ∀ u ∈ o.result.units,
      '/' ∉ u.fileName.toList ∧ Text.holdsHalf u.fileName = false) :
    (∃ report, o = ⟨p.root, Setting.outputDir p.root r p.configuration,
      p.generators.map (·.kind), false, p.result, some report⟩) ∧
    ∃ w v previous,
      (FileAction.ensureDirectories E.surroundings.here o.outputDir).Returns t () w ∧
      (∀ made, Overlaid made IsOutputName w v) ∧ Quiet v s' ∧
      Standing E.surroundings.here o.outputDir o.result.units (some (o.kinds.map (·.key)))
        E.clock.updated previous v := by
  obtain ⟨hdistinct, hends, hrecord⟩ := outputNames_generate h fun u hu => (hnames u hu).2
  have hunits : ∀ u ∈ o.result.units, IsUnitName u.fileName ∧ '/' ∉ u.fileName.toList :=
    fun u hu => ⟨hends u hu, (hnames u hu).1⟩
  obtain ⟨report, hpublish, rfl⟩ := (answers_generate hprepare hdry hdump).mp h
  exact ⟨⟨report, rfl⟩, standing_publish hsₚ hleft hdistinct hrecord hunits hpublish⟩

/-- **A run leaves a manifest of runs**, if it found none or one of these. -/
theorem leftBehind_generate {t : FileTree} {o : GenerateOutcome} {p : Prepared} {sₚ : Session}
    (h : (E.generate r).Answers s o s') (hprepare : (E.prepare r).Answers s p sₚ) (hs : Quiet t s)
    (hdry : r.isDry = false) (hdump : r.dump.or p.configuration.debugDump = none)
    (hleft : LeftBehind t (o.outputDir.locate E.surroundings.here))
    (hplain : ∀ u ∈ o.result.units, Text.holdsHalf u.fileName = false) :
    LeftBehind s'.files (o.outputDir.locate E.surroundings.here) := by
  have hsₚ : Quiet t sₚ := (E.onlyReads_prepare r s p sₚ hprepare).quiet hs
  obtain ⟨hdistinct, hunits, hrecord⟩ := outputNames_generate h hplain
  obtain ⟨report, hpublish, rfl⟩ := (answers_generate hprepare hdry hdump).mp h
  obtain ⟨w, v, previous, hmade, hread, hover, hv⟩ := quiet_publish hsₚ hpublish
  obtain ⟨hr, hd⟩ := FileAction.ensureDirectories_reaches hmade
  rw [hv.1]
  exact leftBehind_publishOver (owned_of_made hleft hmade hread) hdistinct hunits hrecord hr hd
    hover

/-- A run in which the first part repeats itself comes to the same, whatever it then publishes. -/
theorem determined_generate {t v : FileTree} {o : GenerateOutcome} {p : Prepared}
    {s₀ s₁ : Session} (hagain : Course.Repeats (Quiet t) (E.prepare r) (Quiet v) (E.prepare r))
    (hs₀ : Quiet t s₀) (hprepare : (E.prepare r).Answers s₀ p s₁) (hdry : r.isDry = false)
    (hdump : r.dump.or p.configuration.debugDump = none) (hs : Quiet v s)
    (h : (E.generate r).Answers s o s') :
    ∃ report sₚ, Quiet v sₚ ∧
      (E.publish (Setting.outputDir p.root r p.configuration) p.result.units
        (some ((p.generators.map (·.kind)).map (·.key)))).Answers sₚ report s' ∧
      o = ⟨p.root, Setting.outputDir p.root r p.configuration, p.generators.map (·.kind), false,
        p.result, some report⟩ := by
  obtain ⟨sₚ, hprepared, hsₚ⟩ := (hagain s₀ p s₁ hs₀ hprepare).2 s hs
  obtain ⟨report, hpublish, rfl⟩ := (answers_generate hprepared hdry hdump).mp h
  exact ⟨report, sₚ, hsₚ, hpublish, rfl⟩

end Publishing

/-- The outcome of a run that finds each unit as it should be: none is written, and none removed. -/
def GenerateOutcome.unchanged (o : GenerateOutcome) : GenerateOutcome :=
  { o with report := some ⟨[], o.result.units.map (target o.outputDir), []⟩ }

/-- **A run that is repeated answers the same and changes the manifest's time alone.** The second
run comes to the same units and failures, finds each unit's file as it should be, writes none and
removes none. It lists the sources that the first run listed, so none of what the first run wrote is
taken for one. -/
theorem generate_again {E : Setting} {r : GenerateRequest} {s s₁ : Session} {o : GenerateOutcome}
    {c : Configuration} (h : (E.generate r).Answers s o s₁) (hr : Repeatable E r s o c)
    (clock : Clock) (chance : Nat) :
    scan s₁.files E.surroundings (some c.excludePaths) (.ofLocation o.root) =
      scan s.files E.surroundings (some c.excludePaths) (.ofLocation o.root) ∧
    ∃ m : OutputManifest,
      s₁.files.fileAt (manifestAt (o.outputDir.locate E.surroundings.here)) =
        some (m.text E.clock.updated).toUTF8 ∧
      ∀ s', s'.files = s₁.files → s'.logFile = none →
        ∃ s₂, ({ E with clock := clock, chance := chance }.generate r).Answers s' o.unchanged s₂ ∧
          s₂.files = s₁.files.put (manifestAt (o.outputDir.locate E.surroundings.here))
            (.file (m.text clock.updated).toUTF8) := by
  have hs : Quiet s.files s := ⟨rfl, hr.unlogged⟩
  have hhere : ".." ∉ E.surroundings.here := fun hmem =>
    (hr.proper.names _ _ hr.here _ hmem).ne_dots rfl
  obtain ⟨p, sₚ, hprepare, -⟩ := Course.answers_bind.mp (Setting.generate_eq E r ▸ h)
  obtain ⟨hpath, hroot, hread⟩ := answers_prepare hs hhere hprepare
  -- the configuration is the one that is spoken of, so nothing is dumped
  obtain ⟨root, hpath', hconfigured⟩ := hr.configured
  obtain rfl : p.root = root := Except.ok.inj (hpath.symm.trans hpath')
  obtain rfl : p.configuration = c := Except.ok.inj (hread.symm.trans hconfigured)
  have hsₚ : Quiet s.files sₚ := (E.onlyReads_prepare r s p sₚ hprepare).quiet hs
  obtain ⟨⟨report, rfl⟩, w, v, previous, hmade, houtputs, hv, hstanding⟩ :=
    standing_generate h hprepare hsₚ hr.wet hr.undumped hr.left hr.names
  have hoverlaid := (overlaid_ensureDirectories hr.proper.grounded hr.here hmade).trans (houtputs _)
  have hagain : Course.Repeats (Quiet s.files) (E.prepare r) (Quiet v)
      ({ E with clock := clock, chance := chance }.prepare r) := by
    refine repeats_prepare fun root' hroot' => ⟨rereads_quiet fun _ _ => rfl, ?_⟩
    obtain rfl : p.root = root' := Except.ok.inj (hpath.symm.trans hroot')
    refine rereads_left hr.listed hr.proper hroot hoverlaid hr.output fun c' hc' => ?_
    rw [← Except.ok.inj (hread.symm.trans hc')]
    exact ⟨hr.steady chance, hr.templates⟩
  rw [hv.1]
  refine ⟨scan_again unread_output hroot hoverlaid _ _, _, hstanding.manifest, ?_⟩
  intro s' hfiles hlog
  obtain ⟨s'ₚ, hprepare', hs'ₚ⟩ := (hagain s p sₚ hs hprepare).2 s' ⟨hfiles, hlog⟩
  obtain ⟨s₂, hpublish', hs₂⟩ :=
    Setting.answers_publish_again (E := { E with clock := clock, chance := chance }) hs'ₚ hstanding
  refine ⟨s₂, ?_, hs₂.1⟩
  rw [Setting.generate_eq]
  refine Course.answers_bind.mpr ⟨p, s'ₚ, hprepare', ?_⟩
  exact (answers_finish hr.wet hr.undumped).mpr ⟨_, hpublish', rfl⟩

/-! ## A project of one class -/

section Player

/-- The run of all kinds in a project. -/
def playerRun : GenerateRequest := { path := ⟨.here, ["p"]⟩ }

def playerOutput : Path := ⟨.root, ["p", "Generated"]⟩

def playerName : String := "Global_Player_DependencyResolver.g.cs"

/-- All kinds have come to one unit with a text that begins with a byte and has no long codes. -/
def comesToOne (c : Configuration) (first : UInt8) (p : Prepared) : Bool :=
  decide (p.root = ["p"]) && decide (p.configuration = c) &&
    match p.result.units with
    | [u] => decide (u.fileName = playerName) && u.text.toUTF8.data.toList.all (· < 0xF0) &&
      decide (u.text.toUTF8.data.toList.head? = some first)
    | _ => false

theorem of_comesToOne {c : Configuration} {first : UInt8} {p : Prepared}
    (h : comesToOne c first p = true) :
    p.root = ["p"] ∧ p.configuration = c ∧
      ∃ u, p.result.units = [u] ∧ u.fileName = playerName ∧ Text.holdsHalf u.text = false ∧
        u.text.toUTF8.data.toList.head? = some first := by
  unfold comesToOne at h
  rw [Bool.and_eq_true, Bool.and_eq_true, decide_eq_true_eq, decide_eq_true_eq] at h
  obtain ⟨⟨hroot, hc⟩, h⟩ := h
  refine ⟨hroot, hc, ?_⟩
  split at h
  · rename_i u hunits
    rw [Bool.and_eq_true, Bool.and_eq_true, decide_eq_true_eq, decide_eq_true_eq,
      List.all_eq_true] at h
    obtain ⟨⟨hname, hbytes⟩, hfirst⟩ := h
    refine ⟨u, hunits, hname, Text.holdsHalf_of_bytes fun b hb => ?_, hfirst⟩
    exact of_decide_eq_true (hbytes b hb)
  · cases h

theorem plain_playerName : '/' ∉ playerName.toList ∧ Text.holdsHalf playerName = false := by
  decide +kernel

/-- The default setting with a language for templates and something that is left to chance. -/
abbrev playerSetting (language : TemplateLanguage) (chance : Nat) : Setting :=
  { language := language, chance := chance }

variable {t w : FileTree} {c : Configuration} {first : UInt8} {p : Prepared} {s' : Session}
  {o : GenerateOutcome} {language : TemplateLanguage} {chance : Nat}

theorem player_root : (playerSetting language chance).root playerRun.path = .ok ["p"] := rfl

theorem player_listed : (playerSetting language chance).ReadsListed := Setting.readsListed_default

theorem player_prepared (hread : Configuration.read t {} (.ofLocation ["p"]) = .ok c)
    (h : ((playerSetting language chance).derive playerRun ["p"] c).passes
      (({ files := t } : Session).note {} (Setting.startNote ["p"]))
      (fun p _ => comesToOne c first p) = true) :
    ∃ p s', ((playerSetting language chance).prepare playerRun).Answers { files := t } p s' ∧
      Quiet t s' ∧ comesToOne c first p = true := by
  obtain ⟨p, s', hderive, hone⟩ := Course.answers_of_passes h
  have hprepare : ((playerSetting language chance).prepare playerRun).Answers { files := t } p s' :=
    answers_prepare_of player_root hread rfl hderive
  exact ⟨p, s', hprepare, (Setting.onlyReads_prepare _ playerRun _ p s' hprepare).quiet ⟨rfl, rfl⟩,
    hone⟩

theorem player_settled (hproper : t.IsProper)
    (hread : Configuration.read t {} (.ofLocation ["p"]) = .ok c) (hc : c.debugDump = none)
    (ho : o.outputDir = playerOutput) (hleft : LeftBehind t ["p", "Generated"]) :
    Settled (playerSetting language chance) playerRun { files := t } o c where
  unlogged := rfl
  proper := hproper
  here := rfl
  wet := rfl
  listed := player_listed
  configured := ⟨["p"], player_root, hread⟩
  undumped := by
    rw [hc]
    rfl
  output := by
    rw [ho]
    decide +kernel
  left := by
    rw [ho]
    exact hleft

/-- Where nothing was generated yet, the unit is published. -/
theorem player_published
    (hprepare : ((playerSetting language chance).prepare playerRun).Answers { files := t } p s')
    (hs' : Quiet t s') (hone : comesToOne c first p = true)
    (hc : c.outputDir = none ∧ c.debugDump = none)
    (hadd : t.addDirectory [] playerOutput = .ok w)
    (hfree : ∀ s ∈ [playerName, OutputManifest.fileName],
      w.reach [] (playerOutput.joinText s) = .ok ["p", "Generated", s] ∧
        w.find? ["p", "Generated", s] = none) :
    ∃ o s₁, ((playerSetting language chance).generate playerRun).Answers { files := t } o s₁ ∧
      o.outputDir = playerOutput ∧ o.result = p.result := by
  obtain ⟨hroot, hconf, u, hunits, hname, hhalf, -⟩ := of_comesToOne hone
  have hdir : Setting.outputDir p.root playerRun p.configuration = playerOutput := by
    unfold Setting.outputDir
    rw [hroot, hconf, hc.1]
    rfl
  have hdump : playerRun.dump.or p.configuration.debugDump = none := by
    rw [hconf, hc.2]
    rfl
  have hunit := hfree playerName List.mem_cons_self
  have hmanifest := hfree _ (List.mem_cons_of_mem _ List.mem_cons_self)
  have hentry : entryName u = playerName := by
    rw [entryName, hname, FileName.onDisk_of_plain plain_playerName.2]
  have hvacant : Vacant [] playerOutput p.result.units w := by
    rw [hunits]
    refine ⟨List.nodup_singleton _, ?_, ?_, ?_⟩ <;> intro x hx <;> rw [List.mem_singleton.mp hx]
    · exact hhalf
    · rw [target, hentry, hname]
      exact hunit.1
    · rw [hentry]
      exact hunit.2
  have hmade : (FileAction.ensureDirectories [] playerOutput).Returns s'.files () w := by
    rw [hs'.1]
    exact FileAction.ensureDirectories_new hadd
  obtain ⟨s₁, h⟩ :=
    answers_generate_fresh hprepare hs'.2 rfl hdump hdir hmade hvacant hmanifest.1 hmanifest.2
  exact ⟨_, s₁, h, rfl, rfl⟩

/-- A project of one class. -/
def playerFiles : FileTree :=
  ⟨[(["p"], .directory), (["p", "Player.cs"],
    .file "partial class Player { [InjectDependency] Foo foo; }".toUTF8)]⟩

theorem player_read : Configuration.read playerFiles {} (.ofLocation ["p"]) =
    .ok { root := ["p"] } := by
  decide +kernel

/-- The first run publishes the unit of the one class. -/
theorem player_generated : ∃ o s₁,
    (Setting.generate {} playerRun).Answers { files := playerFiles } o s₁ ∧
      o.outputDir = playerOutput ∧ o.result.units.map (·.fileName) = [playerName] := by
  obtain ⟨p, s', hprepare, hs', hone⟩ := player_prepared player_read
    (by decide +kernel : ((playerSetting .basic 0).derive _ _ _).passes _
      (fun p _ => comesToOne _ 47 p) = true)
  have hadd : playerFiles.addDirectory [] playerOutput =
      .ok (playerFiles.put ["p", "Generated"] .directory) :=
    addDirectory_ok_iff.mpr ⟨_, by decide +kernel, by decide +kernel, rfl⟩
  obtain ⟨o, s₁, h, hdir, hresult⟩ :=
    player_published hprepare hs' hone ⟨rfl, rfl⟩ hadd (by decide +kernel)
  obtain ⟨-, -, u, hunits, hname, -⟩ := of_comesToOne hone
  refine ⟨o, s₁, h, hdir, ?_⟩
  rw [hresult, hunits, List.map_singleton, hname]

theorem plain_units {r : GenerationResult} (h : r.units.map (·.fileName) = [playerName]) :
    ∀ u ∈ r.units, '/' ∉ u.fileName.toList ∧ Text.holdsHalf u.fileName = false := by
  intro u hu
  have hname : u.fileName ∈ [playerName] := h ▸ List.mem_map_of_mem hu
  rw [List.mem_singleton.mp hname]
  exact plain_playerName

/-- The unit of the one class is found unchanged. -/
theorem player_generated_again : ∃ o s₁ s₂ c,
    (Setting.generate {} playerRun).Answers { files := playerFiles } o s₁ ∧
    Repeatable {} playerRun { files := playerFiles } o c ∧
    o.result.units.map (·.fileName) = [playerName] ∧
    (Setting.generate {} playerRun).Answers { files := s₁.files } o.unchanged s₂ := by
  obtain ⟨o, s₁, h, hdir, hnames⟩ := player_generated
  have hleft : LeftBehind playerFiles ["p", "Generated"] := .of_absent (by decide +kernel)
  have hr : Repeatable {} playerRun { files := playerFiles } o { root := ["p"] } :=
    ⟨player_settled (.of_entries (by decide +kernel) (by decide +kernel)) player_read rfl hdir
      hleft, plain_units hnames, (fun _ hc => nomatch hc),
      fun _ => Setting.isSteady_basic rfl _ _ _⟩
  obtain ⟨-, m, -, hagain⟩ := generate_again h hr {} 0
  obtain ⟨s₂, h₂, -⟩ := hagain { files := s₁.files } rfl rfl
  exact ⟨o, s₁, s₂, _, h, hr, hnames, h₂⟩

/-! ## What is asked of the templates -/

/-- A project of one class with a configuration, and a template for units in `tmpl`. -/
def templatedFiles (document : String) : FileTree :=
  ⟨playerFiles.entries ++ [(["p", ".resolvergen.yml"], .file document.toUTF8),
    (["p", "tmpl"], .directory), (["p", "tmpl", "resolver.cs.j2"], .file "{{ kind }}\n".toUTF8)]⟩

/-- The project after a run has made the output directory. -/
def templatedMade (document : String) : FileTree :=
  (templatedFiles document).put ["p", "Generated"] .directory

/-- The configuration of a project with a directory for templates. -/
def templatedConfiguration (dir : List String) : Configuration :=
  { root := ["p"], templatesDir := some ⟨.root, "p" :: dir⟩ }

/-- The first run comes to a unit and changes outputs alone, apart from making their directory. -/
theorem templated_generated (language : TemplateLanguage) (chance : Nat) (document : String)
    {dir : List String}
    (hproper : (templatedFiles document).IsProper)
    (hread : Configuration.read (templatedFiles document) {} (.ofLocation ["p"]) =
      .ok (templatedConfiguration dir))
    (h : Course.passes
      ((playerSetting language chance).derive playerRun ["p"] (templatedConfiguration dir))
      (({ files := templatedFiles document } : Session).note {} (Setting.startNote ["p"]))
      (fun p _ => comesToOne (templatedConfiguration dir) first p) = true) :
    ∃ o s₁ v u, ((playerSetting language chance).generate playerRun).Answers
        { files := templatedFiles document } o s₁ ∧
      Settled (playerSetting language chance) playerRun { files := templatedFiles document } o
        (templatedConfiguration dir) ∧
      o.result.units = [u] ∧ u.fileName = playerName ∧
      u.text.toUTF8.data.toList.head? = some first ∧ Quiet v s₁ ∧
      Overlaid [] IsOutputName (templatedMade document) v := by
  obtain ⟨p, s', hprepare, hs', hone⟩ := player_prepared hread h
  have hadd : (templatedFiles document).addDirectory [] playerOutput =
      .ok (templatedMade document) := addDirectory_ok_iff.mpr ⟨["p", "Generated"], rfl, rfl, rfl⟩
  obtain ⟨o, s₁, h, hdir, hresult⟩ := player_published hprepare hs' hone ⟨rfl, rfl⟩ hadd (by
    simp only [List.forall_mem_cons, List.not_mem_nil, false_implies, implies_true, and_true]
    exact ⟨⟨rfl, rfl⟩, rfl, rfl⟩)
  obtain ⟨-, hconf, u, hunits, hname, -, hfirst⟩ := of_comesToOne hone
  have hset : Settled (playerSetting language chance) playerRun
      { files := templatedFiles document } o
      (templatedConfiguration dir) := player_settled hproper hread rfl hdir (.of_absent rfl)
  have hnames : o.result.units.map (·.fileName) = [playerName] := by
    rw [hresult, hunits, List.map_singleton, hname]
  obtain ⟨-, w, v, -, hmade, houtputs, hv, -⟩ :=
    standing_generate h hprepare hs' rfl (by rw [hconf]; rfl) hset.left (plain_units hnames)
  rw [hdir] at hmade
  obtain ⟨-, rfl⟩ := FileAction.returns_unique hmade (FileAction.ensureDirectories_new hadd)
  exact ⟨o, s₁, v, u, h, hset, hresult ▸ hunits, hname, hfirst, hv, houtputs []⟩

/-- A run after it comes to a unit as it would right after the directory was made. -/
theorem templated_again (language : TemplateLanguage) (chance : Nat) (document : String)
    {dir : List String} {v : FileTree} {s s₂ : Session}
    (hproper : (templatedMade document).IsProper)
    (hread : Configuration.read (templatedMade document) {} (.ofLocation ["p"]) =
      .ok (templatedConfiguration dir))
    (hback : StepsBackWithin (templatedMade document) [] ⟨.root, "p" :: dir⟩)
    (hsteady : (playerSetting language chance).IsSteady IsOutputName chance
      (templatedMade document) (templatedConfiguration dir))
    (hpasses : ((playerSetting language chance).derive playerRun ["p"]
      (templatedConfiguration dir)).passes
      (({ files := templatedMade document } : Session).note {} (Setting.startNote ["p"]))
      (fun p _ => comesToOne (templatedConfiguration dir) first p) = true)
    (houtputs : Overlaid [] IsOutputName (templatedMade document) v) (hs : Quiet v s)
    (h : ((playerSetting language chance).generate playerRun).Answers s o s₂) :
    ∃ u, o.result.units = [u] ∧ u.text.toUTF8.data.toList.head? = some first := by
  obtain ⟨p, s', hprepare, -, hone⟩ := player_prepared hread hpasses
  obtain ⟨-, hconf, u, hunits, -, -, hfirst⟩ := of_comesToOne hone
  have hroot : IsRoot (templatedMade document) ["p"] := ⟨rfl, rfl, by decide⟩
  have hagain : Course.Repeats (Quiet (templatedMade document))
      ((playerSetting language chance).prepare playerRun) (Quiet v)
      ((playerSetting language chance).prepare playerRun) := by
    refine repeats_prepare fun root hroot' => ⟨rereads_quiet fun _ _ => rfl, ?_⟩
    obtain rfl := Except.ok.inj (player_root.symm.trans hroot')
    refine rereads_left player_listed hproper hroot houtputs List.not_mem_nil fun c' hc' => ?_
    rw [← Except.ok.inj (hread.symm.trans hc')]
    exact ⟨hsteady, fun _ hdir => Option.some.inj hdir ▸ hback⟩
  obtain ⟨report, -, -, -, rfl⟩ :=
    determined_generate hagain ⟨rfl, rfl⟩ hprepare rfl (by rw [hconf]; rfl) hs h
  exact ⟨u, hunits, hfirst⟩

/-- The configuration that says nothing but where the templates are. -/
theorem templated_read (text : String) {document : String} {dir : List String}
    (hcompose : Yaml.compose document = .ok (#[⟨.map, .entries [(1, 2)]⟩,
      ⟨.str, .scalar "templates_dir"⟩, ⟨.str, .scalar text⟩], some 0))
    (hstated : (Text.trimChars document.toList).isEmpty = false)
    (hconfiguration : Configuration.ofValue {} ["p"] (.dict [(.text "templates_dir", .text text)]) =
      .ok (templatedConfiguration dir))
    (hfile : configurationFile t {} (.ofLocation ["p"]) = .ok ["p", ".resolvergen.yml"])
    (htext : t.readText [] (.ofLocation ["p", ".resolvergen.yml"]) = .ok document) :
    Configuration.read t {} (.ofLocation ["p"]) = .ok (templatedConfiguration dir) := by
  have hload : Yaml.load document = .ok (.dict [(.text "templates_dir", .text text)]) := by
    rw [Yaml.load_plain hcompose rfl (List.forall_mem_singleton.mpr ⟨nofun, nofun⟩)]
    rfl
  rw [Configuration.read_of_text hfile htext]
  unfold Configuration.ofText
  rw [if_neg (Bool.eq_false_iff.mp hstated), hload]
  exact hconfiguration

/-- Where the text is another one when the output directory is there, a second run does not find the
unit unchanged. -/
theorem templated_differs (language : TemplateLanguage) (chance later : Nat) (document : String)
    {dir : List String} {second : UInt8} (hne : first ≠ second)
    (hproper : (templatedFiles document).IsProper)
    (hread : Configuration.read (templatedFiles document) {} (.ofLocation ["p"]) =
      .ok (templatedConfiguration dir))
    (h : Course.passes
      ((playerSetting language chance).derive playerRun ["p"] (templatedConfiguration dir))
      (({ files := templatedFiles document } : Session).note {} (Setting.startNote ["p"]))
      (fun p _ => comesToOne (templatedConfiguration dir) first p) = true)
    (hproper' : (templatedMade document).IsProper)
    (hread' : Configuration.read (templatedMade document) {} (.ofLocation ["p"]) =
      .ok (templatedConfiguration dir))
    (hback : StepsBackWithin (templatedMade document) [] ⟨.root, "p" :: dir⟩)
    (hsteady : (playerSetting language later).IsSteady IsOutputName later
      (templatedMade document) (templatedConfiguration dir))
    (h' : Course.passes
      ((playerSetting language later).derive playerRun ["p"] (templatedConfiguration dir))
      (({ files := templatedMade document } : Session).note {} (Setting.startNote ["p"]))
      (fun p _ => comesToOne (templatedConfiguration dir) second p) = true) :
    ∃ o s₁, ((playerSetting language chance).generate playerRun).Answers
        { files := templatedFiles document } o s₁ ∧
      Settled (playerSetting language chance) playerRun { files := templatedFiles document } o
        (templatedConfiguration dir) ∧
      (∀ u ∈ o.result.units, '/' ∉ u.fileName.toList ∧ Text.holdsHalf u.fileName = false) ∧
      ∀ s' s₂, Quiet s₁.files s' →
        ¬ ((playerSetting language later).generate playerRun).Answers s' o.unchanged s₂ := by
  obtain ⟨o, s₁, v, u, hfirstRun, hset, hunits, hname, hfirst, hv, houtputs⟩ :=
    templated_generated language chance document hproper hread h
  refine ⟨o, s₁, hfirstRun, hset, plain_units (by rw [hunits, List.map_singleton, hname]), ?_⟩
  intro s' s₂ hs' hsecondRun
  rw [hv.1] at hs'
  obtain ⟨u', hunits', hsecond⟩ := templated_again language later document hproper' hread' hback
    hsteady h' houtputs hs' hsecondRun
  obtain rfl : u = u' := (List.cons.inj (hunits.symm.trans hunits')).1
  exact hne (Option.some.inj (hfirst.symm.trans hsecond))

/-! The output directory stands on the way to the templates. -/

def steppingDocument : String := "templates_dir: Generated/../tmpl\n"

def steppingConfiguration : Configuration := templatedConfiguration ["Generated", "..", "tmpl"]

theorem stepping_read
    (hfile : configurationFile t {} (.ofLocation ["p"]) = .ok ["p", ".resolvergen.yml"])
    (htext : t.readText [] (.ofLocation ["p", ".resolvergen.yml"]) = .ok steppingDocument) :
    Configuration.read t {} (.ofLocation ["p"]) = .ok steppingConfiguration :=
  templated_read "Generated/../tmpl" (by decide +kernel) (by decide +kernel)
    (by decide +kernel) hfile htext

/-- The first run makes the directory that leads to the template, so the next one takes the template
and comes to another text. -/
theorem stepping_differs : ∃ o s₁,
    (Setting.generate {} playerRun).Answers { files := templatedFiles steppingDocument } o s₁ ∧
    Settled {} playerRun { files := templatedFiles steppingDocument } o steppingConfiguration ∧
    (∀ u ∈ o.result.units, '/' ∉ u.fileName.toList ∧ Text.holdsHalf u.fileName = false) ∧
    ∀ s' s₂, Quiet s₁.files s' → ¬ (Setting.generate {} playerRun).Answers s' o.unchanged s₂ :=
  templated_differs .basic 0 0 steppingDocument (by decide : (47 : UInt8) ≠ 100)
    (.of_entries (by decide +kernel) (by decide +kernel))
    (stepping_read (by decide +kernel) (by decide +kernel)) (by decide +kernel)
    (.of_entries (by decide +kernel) (by decide +kernel))
    (stepping_read (by decide +kernel) (by decide +kernel))
    ⟨["p", "Generated", ".."], ["tmpl"], ["p"], rfl, by decide +kernel, by decide +kernel⟩
    (Setting.isSteady_basic rfl _ _ _) (by decide +kernel)

/-! What the template writes is left to chance. -/

/-- A language in which templates write one thing or another. -/
def tossed : TemplateLanguage where
  write chance _ _ _ _ := .ok (if chance = 0 then "heads\n" else "tails\n")

def tossedDocument : String := "templates_dir: tmpl\n"

def tossedConfiguration : Configuration := templatedConfiguration ["tmpl"]

theorem tossed_read
    (hfile : configurationFile t {} (.ofLocation ["p"]) = .ok ["p", ".resolvergen.yml"])
    (htext : t.readText [] (.ofLocation ["p", ".resolvergen.yml"]) = .ok tossedDocument) :
    Configuration.read t {} (.ofLocation ["p"]) = .ok tossedConfiguration :=
  templated_read "tmpl" (by decide +kernel) (by decide +kernel) (by decide +kernel)
    hfile htext

/-- The next run comes to another text, though nothing has changed that it reads. -/
theorem tossed_differs : ∃ o s₁,
    ((playerSetting tossed 0).generate playerRun).Answers { files := templatedFiles tossedDocument }
      o s₁ ∧
    Settled (playerSetting tossed 0) playerRun { files := templatedFiles tossedDocument } o
      tossedConfiguration ∧
    (∀ u ∈ o.result.units, '/' ∉ u.fileName.toList ∧ Text.holdsHalf u.fileName = false) ∧
    ∀ s' s₂, Quiet s₁.files s' →
      ¬ ((playerSetting tossed 1).generate playerRun).Answers s' o.unchanged s₂ :=
  templated_differs tossed 0 1 tossedDocument (by decide : (104 : UInt8) ≠ 116)
    (.of_entries (by decide +kernel) (by decide +kernel))
    (tossed_read (by decide +kernel) (by decide +kernel)) (by decide +kernel)
    (.of_entries (by decide +kernel) (by decide +kernel))
    (tossed_read (by decide +kernel) (by decide +kernel))
    ⟨[], ["p", "tmpl"], [], rfl, by decide +kernel, rfl⟩ (fun _ _ _ _ _ _ _ => rfl)
    (by decide +kernel)

/-! A log file is kept. -/

/-- A project without sources, and a log file beside it. -/
def loggedBare : Session where
  files := ⟨[(["p"], .directory), (["run.log"], .file .empty)]⟩
  logFile := some ["run.log"]

/-- The second run puts further lines into the log file. -/
theorem logged_differs : ∃ o s₁ o' s₂, (Setting.generate {} playerRun).Answers loggedBare o s₁ ∧
    (Setting.generate {} playerRun).Answers s₁ o' s₂ ∧
    s₂.files.fileAt ["run.log"] ≠ s₁.files.fileAt ["run.log"] := by
  obtain ⟨o, s₁, h, hagain⟩ := Course.answers_of_passes
    (by decide +kernel : ((Setting.generate {} playerRun).passes loggedBare fun _ s₁ =>
      (Setting.generate {} playerRun).passes s₁ fun _ s₂ =>
        decide ((s₂.files.fileAt ["run.log"]).map (·.size) ≠
          (s₁.files.fileAt ["run.log"]).map (·.size))) = true)
  obtain ⟨o', s₂, h', hsize⟩ := Course.answers_of_passes hagain
  exact ⟨o, s₁, o', s₂, h, h', fun heq => of_decide_eq_true hsize (by rw [heq])⟩

/-- **None of the conditions can be spared.** Templates that are found by way of a new directory may
be others the next time, and so may be what is left to chance. And a log file takes lines of both
runs. -/
theorem no_condition_spared :
    (∃ t o s₁ c, (Setting.generate {} playerRun).Answers { files := t } o s₁ ∧
      Settled {} playerRun { files := t } o c ∧
      (∀ u ∈ o.result.units, '/' ∉ u.fileName.toList ∧ Text.holdsHalf u.fileName = false) ∧
      (∀ chance, Setting.IsSteady {} IsOutputName chance t c) ∧
      ∀ s' s₂, Quiet s₁.files s' →
        ¬ (Setting.generate {} playerRun).Answers s' o.unchanged s₂) ∧
    (∃ t o s₁ c, ((playerSetting tossed 0).generate playerRun).Answers { files := t } o s₁ ∧
      Settled (playerSetting tossed 0) playerRun { files := t } o c ∧
      (∀ u ∈ o.result.units, '/' ∉ u.fileName.toList ∧ Text.holdsHalf u.fileName = false) ∧
      (∀ dir, c.templatesDir = some dir → StepsBackWithin t [] dir) ∧
      ∀ s' s₂, Quiet s₁.files s' →
        ¬ ((playerSetting tossed 1).generate playerRun).Answers s' o.unchanged s₂) ∧
    (∃ o s₁ o' s₂, (Setting.generate {} playerRun).Answers loggedBare o s₁ ∧
      (Setting.generate {} playerRun).Answers s₁ o' s₂ ∧
      s₂.files.fileAt ["run.log"] ≠ s₁.files.fileAt ["run.log"]) := by
  refine ⟨?_, ?_, logged_differs⟩
  · obtain ⟨o, s₁, h, hset, hnames, hdiffers⟩ := stepping_differs
    exact ⟨_, o, s₁, _, h, hset, hnames, fun _ => Setting.isSteady_basic rfl _ _ _, hdiffers⟩
  · obtain ⟨o, s₁, h, hset, hnames, hdiffers⟩ := tossed_differs
    refine ⟨_, o, s₁, _, h, hset, hnames, fun dir hdir => ?_, hdiffers⟩
    obtain rfl := Option.some.inj hdir
    exact ⟨[], ["p", "tmpl"], [], rfl, by decide +kernel, rfl⟩

end Player

end FieldWiring
