import FieldWiring.Proofs.Generation.Rerun

/-!
# Listings, dry runs and runs

A listing, a dry run and a run read the same project, each on its own. They read the same, so they
agree: the listing names the kinds of the run, the candidates that it lists for a kind are those
that the run settles, and the dry run comes to the units and failures of the run and changes nothing
but the log file. The log file may grow in between, as long as it is none of the files that are
read, and what is left to chance may differ, as long as no template writes it.

Results:
* `rereads_logging`: what a run reads does not depend on its log file.
* `covers_ofKind`: the units and failures of a kind make up its candidates.
* `answers_list_of_prepare`: the listing reads what the run reads.
* `perm_reported`: what is reported as written or unchanged are the files of the units.
* `runs_agree`: listing, dry run and run agree.
* `disagreements`: why so much is asked of the log file and the templates.
-/

namespace FieldWiring

open FileTree Output

/-! ## Log files that are not read -/

/-- The name of the log file. -/
def LogName (s : Session) (n : String) : Prop := ∃ k, s.logFile = some (k ++ [n])

/-- The log file is none of the files that a run reads: its name is not that of a configuration, an
ignore file, a source or a template, in a tree as file systems have them, and the frontends read
what is listed and nothing else. -/
structure LogsApart (E : Setting) (s : Session) : Prop where
  unread : Unread (LogName s)
  templates : ∀ name : TemplateName, IsTemplateFile (LogName s) name.file
  proper : s.files.IsProper
  here : ".." ∉ E.surroundings.here
  listed : E.ReadsListed

/-- What notes make of a session: only the log file differs. -/
structure Logging (s v : Session) : Prop where
  files : Overlaid [] (LogName s) s.files v.files
  log : ∀ l, v.logFile = some l → s.logFile = some l

theorem logging_of_files {s v : Session} (h : v.files = s.files)
    (hlog : v.logFile = none ∨ v.logFile = s.logFile) : Logging s v := by
  refine ⟨h ▸ .refl _, fun l hl => ?_⟩
  rcases hlog with hnone | hsame
  · rw [hnone] at hl
    cases hl
  · rw [← hsame, hl]

theorem logging_note {s v : Session} (c : Clock) (n : Note) (h : Logging s v) :
    Logging s (v.note c n) := by
  unfold Session.note Session.logLine
  cases hlog : v.logFile with
  | none => exact ⟨h.files, fun l hl => nomatch hlog.symm.trans hl⟩
  | some l =>
    simp only
    cases hfile : v.files.find? l with
    | none => exact ⟨h.files, fun _ hl => nomatch hl⟩
    | some e =>
      cases e with
      | directory => exact ⟨h.files, fun _ hl => nomatch hl⟩
      | file before =>
        refine ⟨h.files.trans ?_, fun l' hl' => h.log l' (hlog.trans hl')⟩
        have hfree : v.files.find? l ≠ some .directory := by
          rw [hfile]
          exact fun h => nomatch h
        rcases List.eq_nil_or_concat l with rfl | ⟨k, s', rfl⟩
        · exact absurd rfl hfree
        · rw [List.concat_eq_append] at hlog hfree ⊢
          exact overlaid_put ⟨k, h.log _ hlog⟩ hfree

section Rereading

variable {E : Setting} {chance : Nat} {root : Location} {s s' : Session} {r : GenerateRequest}
  {p : Prepared}

/-- **What a run reads does not depend on its log file.** -/
theorem rereads_logging (h : LogsApart E s) (hroot : IsRoot s.files root)
    (hsteady : ∀ c, Configuration.read s.files E.surroundings (.ofLocation root) = .ok c →
      E.IsSteady (LogName s) chance s.files c) : Rereads E chance root s.files (Logging s) :=
  rereads_overlaid h.unread h.templates h.listed h.proper hroot List.not_mem_nil
    (fun c _ n => logging_note c n) (fun _ hv => hv.files)
    fun c hc => ⟨hsteady c hc, fun _ _ _ hv => foundBefore_of_back hv.files.hasDirectories_back⟩

/-- Sessions that differ in the lines of the log file read the same, whether there is a log file or
not. -/
theorem exists_rereads (hlog : s.logFile = none ∨ LogsApart E s)
    (h : (E.prepare r).Answers s p s') :
    ∃ P : Session → Prop,
      (∀ u, u.files = s.files → u.logFile = none ∨ u.logFile = s.logFile → P u) ∧
      ∀ chance, (∀ c, Configuration.read s.files E.surroundings (.ofLocation p.root) = .ok c →
        E.IsSteady (LogName s) chance s.files c) → Rereads E chance p.root s.files P := by
  rcases hlog with hnone | hapart
  · refine ⟨Quiet s.files, fun u hu hulog => ⟨hu, ?_⟩, fun chance hsteady => ?_⟩
    · rcases hulog with hulog | hulog
      · exact hulog
      · rw [hulog, hnone]
    · have hsame : Overlaid [] (LogName s) s.files s.files := .refl _
      refine rereads_quiet fun c hc => templates_again hsame ?_ (hsteady c hc) fun _ _ =>
        foundBefore_of_back (.refl _)
      exact TemplateName.isTemplateFile fun n hn => by
        obtain ⟨k, hk⟩ := hn
        exact nomatch hnone.symm.trans hk
  · refine ⟨Logging s, fun u hu hulog => logging_of_files hu hulog, fun chance hsteady => ?_⟩
    -- the root was a directory when the start had been noted
    have hnoted : Logging s (s.note E.clock (Setting.startNote p.root)) :=
      logging_note _ _ (logging_of_files rfl (.inr rfl))
    exact rereads_logging hapart
      ((isRoot_of_prepare hapart.here h).overlaid hnoted.files.symm) hsteady

end Rereading

/-! ## Units and failures of a kind -/

/-- A declaration by its name and the file it stands in. -/
def TypeDeclaration.mark (d : TypeDeclaration) : String × String := (d.qualifiedName, d.unitPath)

/-- The declaration that a unit was made for. -/
def GeneratedUnit.mark (u : GeneratedUnit) : String × String := (u.typeName, u.sourcePath)

/-- The declaration that failed. -/
def Failure.mark (f : Failure) : String × String := (f.typeName, f.sourcePath)

/-- The units and failures of one kind. -/
def GenerationResult.ofKind (r : GenerationResult) (k : GeneratorKind) : GenerationResult :=
  ⟨r.units.filter (·.kind = k.key), r.failures.filter (·.kind = k.key)⟩

/-- The units and failures together are those of the declarations, one for each, and both come in
the order of the declarations. -/
structure GenerationResult.Covers (r : GenerationResult) (ds : List TypeDeclaration) : Prop where
  together : (r.units.map (·.mark) ++ r.failures.map (·.mark)).Perm (ds.map (·.mark))
  units : (r.units.map (·.mark)).Sublist (ds.map (·.mark))
  failures : (r.failures.map (·.mark)).Sublist (ds.map (·.mark))

section Covering

variable {T : Templates} {c : Corpus} {excluded : List String} {g : Generator}

/-- The verdict is on this declaration, and of the generator's kind. -/
def IsOn (g : Generator) (d : TypeDeclaration) : Except Failure GeneratedUnit → Prop
  | .ok u => u.mark = d.mark ∧ u.kind = g.kind.key
  | .error f => f.mark = d.mark ∧ f.kind = g.kind.key

theorem isOn_settleOne {R : SymbolResolver} {d : TypeDeclaration} {o : Outcome}
    (h : outcome T c g R d = .ok o) (os : List Outcome) (place : Nat) :
    IsOn g d (settleOne g os o place) := by
  obtain rfl := outcome_candidate h
  unfold settleOne
  rcases outcome_iff h with ⟨text, -, hr⟩ | ⟨f, -, hr⟩
  · rw [hr]
    simp only
    split
    · exact ⟨rfl, rfl⟩
    · exact ⟨rfl, rfl⟩
  · rw [hr]
    exact ⟨rfl, rfl⟩

/-- There is one verdict on every candidate, in their order. -/
theorem isOn_settled {os : List Outcome} (h : outcomes T c g c.symbols excluded = .ok os) :
    List.Forall₂ (IsOn g) (candidates c g excluded) (settled g os) := by
  have hfrom : ∀ (start : Nat) (ds : List TypeDeclaration) (rest : List Outcome),
      List.Forall₂ (fun d o => outcome T c g c.symbols d = .ok o) ds rest →
      List.Forall₂ (IsOn g) ds ((rest.zipIdx start).map fun o => settleOne g os o.1 o.2) := by
    intro start ds rest hrest
    induction hrest generalizing start with
    | nil => exact .nil
    | cons ho _ ih => exact .cons (isOn_settleOne ho os start) (ih (start + 1))
  exact hfrom 0 _ _ (mapM_ok_iff.mp h)

/-- Verdicts come apart into units and failures that cover what they are on. -/
theorem covers_values {ds : List TypeDeclaration} {vs : List (Except Failure GeneratedUnit)}
    (h : List.Forall₂ (IsOn g) ds vs) : GenerationResult.Covers ⟨values vs, errors vs⟩ ds := by
  induction h with
  | nil => exact ⟨.nil, .slnil, .slnil⟩
  | @cons d v ds vs hv _ ih =>
    obtain ⟨htogether, hunits, hfailures⟩ := ih
    cases v with
    | ok u =>
      have hmark : u.mark = d.mark := hv.1
      refine ⟨?_, ?_, hfailures.cons _⟩
      · simp only [values, errors, List.map_cons, List.cons_append, hmark]
        exact htogether.cons _
      · simp only [values, List.map_cons, hmark]
        exact hunits.cons_cons _
    | error f =>
      have hmark : f.mark = d.mark := hv.1
      refine ⟨?_, hunits.cons _, ?_⟩
      · simp only [values, errors, List.map_cons, hmark]
        exact List.perm_middle.trans (htogether.cons _)
      · simp only [errors, List.map_cons, hmark]
        exact hfailures.cons_cons _

/-- The units and failures of a generator are of its kind. -/
theorem kinds_settle {os : List Outcome} (h : outcomes T c g c.symbols excluded = .ok os) :
    (∀ u ∈ (settle g os).units, u.kind = g.kind.key) ∧
      ∀ f ∈ (settle g os).failures, f.kind = g.kind.key := by
  have hkinds : ∀ {ds : List TypeDeclaration} {vs : List (Except Failure GeneratedUnit)},
      List.Forall₂ (IsOn g) ds vs →
        (∀ u ∈ values vs, u.kind = g.kind.key) ∧ ∀ f ∈ errors vs, f.kind = g.kind.key := by
    intro ds vs hall
    induction hall with
    | nil => exact ⟨fun _ hu => absurd hu List.not_mem_nil, fun _ hf => absurd hf List.not_mem_nil⟩
    | @cons d v ds vs hv _ ih =>
      cases v with
      | ok u => exact ⟨List.forall_mem_cons.mpr ⟨hv.2, ih.1⟩, ih.2⟩
      | error f => exact ⟨ih.1, List.forall_mem_cons.mpr ⟨hv.2, ih.2⟩⟩
  exact hkinds (isOn_settled h)

/-- What several generators gave one after the other, each of its own kind, comes apart again by
kinds. -/
theorem filter_flatten_kinds {α : Type} {part : Generator → List Outcome → List α}
    {k : α → String} {R : Generator → List Outcome → Prop}
    (hkind : ∀ g os, R g os → ∀ a ∈ part g os, k a = g.kind.key) {gs : List Generator}
    {oss : List (List Outcome)} (h : List.Forall₂ R gs oss) (hk : (gs.map (·.kind.key)).Nodup)
    (hg : g ∈ gs) :
    ∃ os, R g os ∧ (List.zipWith part gs oss).flatten.filter (k · = g.kind.key) = part g os := by
  have hothers : ∀ {l m : Generator} {os : List Outcome}, R m os → l.kind.key ≠ m.kind.key →
      (part m os).filter (k · = l.kind.key) = [] := by
    intro l m os hm hne
    rw [List.filter_eq_nil_iff]
    intro a ha hla
    rw [hkind m os hm a ha, decide_eq_true_eq] at hla
    exact hne hla.symm
  have hnone : ∀ {l : Generator} {ls : List Generator} {rest : List (List Outcome)},
      List.Forall₂ R ls rest → l.kind.key ∉ ls.map (·.kind.key) →
        (List.zipWith part ls rest).flatten.filter (k · = l.kind.key) = [] := by
    intro l ls rest hrest hl
    induction hrest with
    | nil => rfl
    | @cons m os ls rest hm _ ih =>
      rw [List.map_cons, List.mem_cons, not_or] at hl
      rw [List.zipWith_cons_cons, List.flatten_cons, List.filter_append, ih hl.2, hothers hm hl.1]
      rfl
  induction h with
  | nil => exact absurd hg List.not_mem_nil
  | @cons l os gs oss hl hrest ih =>
    obtain ⟨hfresh, hk⟩ := List.nodup_cons.mp hk
    rw [List.zipWith_cons_cons, List.flatten_cons, List.filter_append]
    rcases List.mem_cons.mp hg with rfl | hg
    · refine ⟨os, hl, ?_⟩
      rw [hnone hrest hfresh, List.append_nil, List.filter_eq_self]
      exact fun a ha => decide_eq_true (hkind g os hl a ha)
    · obtain ⟨os', hos', hpart⟩ := ih hk hg
      refine ⟨os', hos', ?_⟩
      rw [hpart, hothers hl fun heq => hfresh (List.mem_map.mpr ⟨g, hg, heq⟩)]
      rfl

/-- **The units and failures of a kind make up its candidates**, also when other kinds had their
turn before and after. -/
theorem covers_ofKind {gs : List Generator} {oss : List (List Outcome)}
    {r : GenerationResult × List CandidateReport} (h : InTurn T c excluded gs oss r)
    (hk : (gs.map (·.kind.key)).Nodup) (hg : g ∈ gs) :
    (r.1.ofKind g.kind).Covers (candidates c g excluded) := by
  obtain ⟨os, hos, hunits⟩ := filter_flatten_kinds (k := GeneratedUnit.kind)
    (fun _ _ hos => (kinds_settle hos).1) h.outcomes hk hg
  obtain ⟨os', hos', hfailures⟩ := filter_flatten_kinds (k := Failure.kind)
    (fun _ _ hos => (kinds_settle hos).2) h.outcomes hk hg
  obtain rfl := Except.ok.inj (hos.symm.trans hos')
  have hsame : r.1.ofKind g.kind = ⟨values (settled g os), errors (settled g os)⟩ := by
    unfold GenerationResult.ofKind
    rw [h.units, h.failures, hunits, hfailures]
    rfl
  rw [hsame]
  exact covers_values (isOn_settled hos)

end Covering

/-! ## Three readings of a project -/

section Reading

variable {E : Setting} {chance : Nat} {r : GenerateRequest} {t : FileTree}
  {s s' u : Session} {p : Prepared} {P : Session → Prop}

/-- **The listing reads what the run reads**: the same corpus, under the same configuration and for
the same generators. -/
theorem answers_list_of_prepare (clock : Clock) (hP : Rereads E E.chance p.root t P)
    (hQ : Rereads E chance p.root t P) (hs : P s) (h : (E.prepare r).Answers s p s') (hu : P u) :
    ∃ T corpus u', ({ E with clock := clock, chance := chance }.list r.path r.kinds).Answers u
        (p.generators.map fun g : Generator =>
          (g.kind, candidates corpus g p.configuration.excludeSegments)) u' ∧
      generated T corpus p.configuration.excludeSegments p.generators =
        .ok (p.result, p.reports) := by
  obtain ⟨hroot, hread, hwanted, T, corpus, s₁, hcorpus, hgen⟩ := answers_parts h
  -- the run notes its start before it reads, and the listing does not
  have hs₁ := hP.note E.clock s (Setting.startNote p.root) hs
  rw [hP.configuration _ hs₁, ← hQ.configuration u hu] at hread
  obtain ⟨u', hcorpus', -⟩ := (repeats_corpus hP hQ _ _ _ _ hs₁ hcorpus).2 u hu
  refine ⟨T, corpus, u', ?_, hgen⟩
  unfold Setting.list
  refine Course.answers_bind.mpr ⟨p.root, u, Course.answers_ask.mpr ⟨hroot, rfl⟩, ?_⟩
  refine Course.answers_bind.mpr ⟨p.configuration, u, Course.answers_ask.mpr ⟨hread, rfl⟩, ?_⟩
  refine Course.answers_bind.mpr ⟨corpus, u', hcorpus', ?_⟩
  refine Course.answers_bind.mpr ⟨p.generators, u', Course.answers_ask.mpr ⟨hwanted, rfl⟩, ?_⟩
  exact Course.answers_pure.mpr ⟨rfl, rfl⟩

/-- A listing changes nothing but the log file. -/
theorem onlyReads_list (E : Setting) (path : Path) (kinds : List (Option String)) :
    Course.OnlyReads (E.list path kinds) := by
  unfold Setting.list
  refine Course.onlyReads_bind (Course.onlyReads_ask _) fun root => ?_
  refine Course.onlyReads_bind (Course.onlyReads_ask _) fun c => ?_
  refine Course.onlyReads_bind (E.onlyReads_corpus root c) fun corpus => ?_
  exact Course.onlyReads_bind (Course.onlyReads_ask _) fun gs => Course.onlyReads_pure _

/-- The request for the dry run. -/
def GenerateRequest.dry (r : GenerateRequest) : GenerateRequest := { r with isDry := true }

/-- The outcome of the dry run. -/
def GenerateOutcome.dry (o : GenerateOutcome) : GenerateOutcome :=
  { o with isDry := true, report := none }

/-- What is asked of the configuration that a request leads to: neither it nor the request asks for
a dump, and its templates are steady, whatever is left to chance. -/
def IsPlain (E : Setting) (r : GenerateRequest) (s : Session) : Prop :=
  ∀ root c, E.root r.path = .ok root →
    Configuration.read s.files E.surroundings (.ofLocation root) = .ok c →
      r.dump.or c.debugDump = none ∧ ∀ chance, E.IsSteady (LogName s) chance s.files c

/-- **A dry run that leaves no dump hands out what was generated**, and changes nothing but the log
file. -/
theorem answers_generate_dry (h : (E.prepare r).Answers s p s')
    (hdump : r.dump.or p.configuration.debugDump = none) :
    ∃ s₁, (E.generate r.dry).Answers s ⟨p.root, Setting.outputDir p.root r p.configuration,
      p.generators.map (·.kind), true, p.result, none⟩ s₁ ∧ OnlyLogged s s₁ := by
  have hdump' : r.dry.dump.or p.configuration.debugDump = none := hdump
  refine ⟨_, ?_, (E.onlyReads_prepare r s p s' h).trans (onlyLogged_note s' E.clock ⟨.info,
    "orchestrator", "Dry run: " ++ Text.natText p.result.units.length ++ " unit(s) not written"⟩)⟩
  rw [Setting.generate_eq]
  refine Course.answers_bind.mpr ⟨p, s', h, ?_⟩
  unfold Setting.finish
  rw [hdump']
  show Course.Answers (E.note _ _ _ >>= fun _ => _) _ _ _
  exact Course.answers_bind.mpr
    ⟨(), _, Course.answers_note.mpr rfl, Course.answers_pure.mpr ⟨rfl, rfl⟩⟩

/-- What is generated in the end, the dry run hands out, too. -/
theorem outcome_of_finish {o : GenerateOutcome} (h : (E.finish r p).Answers s o s') :
    o.dry = ⟨p.root, Setting.outputDir p.root r p.configuration, p.generators.map (·.kind), true,
      p.result, none⟩ := by
  unfold Setting.finish at h
  simp only at h
  split at h
  · obtain ⟨-, s₁, -, h⟩ := Course.answers_bind.mp h
    obtain ⟨report, s₂, -, h⟩ := Course.answers_bind.mp h
    split at h
    · obtain ⟨rfl, -⟩ := Course.answers_pure.mp h
      rfl
    · obtain ⟨-, s₃, -, h⟩ := Course.answers_bind.mp h
      obtain ⟨rfl, -⟩ := Course.answers_pure.mp h
      rfl
  · obtain ⟨report, s₁, -, h⟩ := Course.answers_bind.mp h
    split at h
    · obtain ⟨rfl, -⟩ := Course.answers_pure.mp h
      rfl
    · obtain ⟨-, s₂, -, h⟩ := Course.answers_bind.mp h
      obtain ⟨rfl, -⟩ := Course.answers_pure.mp h
      rfl

/-! ## What is reported -/

open FileAction in
theorem targets_of_writeUnits {here : Location} {dir : Path} :
    ∀ {units : List GeneratedUnit} {t v : FileTree} {targets : List (Path × Bool)},
      Returns (writeUnits here dir units) t targets v →
        targets.map (·.1) = units.map (target dir)
  | [], t, v, targets, h => by
    obtain ⟨rfl, -⟩ := returns_pure.mp h
    rfl
  | u :: us, t, v, targets, h => by
    obtain ⟨b, w, rest, -, htail, rfl⟩ := returns_writeUnits_cons.mp h
    rw [List.map_cons, List.map_cons, targets_of_writeUnits htail]

/-- **What is reported as written or unchanged are the files of the units**, one for each, and both
come in the order of the units. -/
theorem perm_reported {dir : Path} {units : List GeneratedUnit} {kinds : Option (List String)}
    {report : WriteReport} (h : (E.publish dir units kinds).Answers s report s') :
    (report.written ++ report.unchanged).Perm (units.map (target dir)) ∧
      report.written.Sublist (units.map (target dir)) ∧
      report.unchanged.Sublist (units.map (target dir)) := by
  obtain ⟨w, s₂, v, previous, -, -, -, hover, -⟩ := Setting.answers_publish h
  unfold publishOver at hover
  obtain ⟨targets, w₁, hwrite, hrest⟩ := FileAction.returns_bind.mp hover
  obtain ⟨⟨m, removed⟩, w₂, -, hlast⟩ := FileAction.returns_bind.mp hrest
  obtain ⟨_, w₃, -, hdone⟩ := FileAction.returns_bind.mp hlast
  obtain ⟨rfl, -⟩ := FileAction.returns_pure.mp hdone
  rw [← targets_of_writeUnits hwrite, ← List.map_append]
  exact ⟨(List.filter_append_perm _ targets).map _, List.filter_sublist.map _,
    List.filter_sublist.map _⟩

/-- **Listing, dry run and run agree.** Let a run answer, with no dump asked for, with steady
templates, and in a session without a log file or with one that is not read. On the same files, with
the same log file or none, at any time and whatever is left to chance, the listing for its path and
kinds answers, too: it names the kinds of the run in their order, each once, and what it lists for a
kind are the candidates that the run's units and failures of this kind are for, in their order. The
dry run answers with the same units and failures. Both change nothing but the log file. And the
report of a run that writes says of the file of every unit that it was written or unchanged, and of
no other file. -/
theorem runs_agree {o : GenerateOutcome} (hlog : s.logFile = none ∨ LogsApart E s)
    (hplain : IsPlain E r s) (h : (E.generate r).Answers s o s') (clock : Clock) (chance : Nat)
    (hu : u.files = s.files) (hulog : u.logFile = none ∨ u.logFile = s.logFile) :
    (∃ listed u₁,
      ({ E with clock := clock, chance := chance }.list r.path r.kinds).Answers u listed u₁ ∧
      OnlyLogged u u₁ ∧ listed.map (·.1) = o.kinds ∧ o.kinds.Nodup ∧
      ∀ k ds, (k, ds) ∈ listed → (o.result.ofKind k).Covers ds) ∧
    (∃ u₁, ({ E with clock := clock, chance := chance }.generate r.dry).Answers u o.dry u₁ ∧
      OnlyLogged u u₁) ∧
    (r.isDry = false → ∃ report, o.report = some report ∧
      (report.written ++ report.unchanged).Perm (o.result.units.map (target o.outputDir)) ∧
      report.written.Sublist (o.result.units.map (target o.outputDir)) ∧
      report.unchanged.Sublist (o.result.units.map (target o.outputDir))) := by
  rw [Setting.generate_eq] at h
  obtain ⟨p, sₚ, hprepare, hfinish⟩ := Course.answers_bind.mp h
  obtain ⟨hroot, hread, hwanted, -⟩ := answers_parts hprepare
  obtain ⟨P, hP, hrereads⟩ := exists_rereads hlog hprepare
  have hs := hP s rfl (.inr rfl)
  have hreads : ∀ chance, Rereads E chance p.root s.files P := fun chance =>
    hrereads chance fun c hc => (hplain _ c hroot hc).2 chance
  have hundumped := (hplain _ _ hroot ((hreads E.chance).configuration _
    ((hreads E.chance).note E.clock s _ hs) ▸ hread)).1
  have hdry := outcome_of_finish hfinish
  have hkinds : o.kinds = p.generators.map (·.kind) := congrArg GenerateOutcome.kinds hdry
  have hresult : o.result = p.result := congrArg GenerateOutcome.result hdry
  refine ⟨?_, ?_, ?_⟩
  · obtain ⟨T, corpus, u₁, hlist, hgen⟩ := answers_list_of_prepare clock (hreads E.chance)
      (hreads chance) hs hprepare (hP u hu hulog)
    refine ⟨_, u₁, hlist, onlyReads_list _ _ _ _ _ _ hlist, ?_, ?_, ?_⟩
    · rw [List.map_map, hkinds]
      rfl
    · rw [hkinds]
      exact wanted_nodup hwanted
    · intro k ds hmem
      obtain ⟨g, hg, heq⟩ := List.mem_map.mp hmem
      obtain ⟨rfl, rfl⟩ := Prod.mk.inj heq
      obtain ⟨oss, hturn⟩ := inTurn_generated hgen
      rw [hresult]
      exact covers_ofKind hturn (wanted_keys hwanted) hg
  · have hagain : Course.Repeats P (E.prepare r) P
        ({ E with clock := clock, chance := chance }.prepare r) := by
      refine repeats_prepare (t := s.files) fun root hroot' => ?_
      obtain rfl := Except.ok.inj (hroot.symm.trans hroot')
      exact ⟨hreads E.chance, hreads chance⟩
    obtain ⟨uₚ, hprepare', -⟩ := (hagain s p sₚ hs hprepare).2 u (hP u hu hulog)
    rw [hdry]
    exact answers_generate_dry hprepare' hundumped
  · intro hwet
    obtain ⟨report, hpublish, rfl⟩ := (answers_finish hwet hundumped).mp hfinish
    exact ⟨report, rfl, perm_reported hpublish⟩

end Reading

/-! ## The project of one class -/

section Player

/-- The project of one class with a log file beside it. -/
def loggedPlayer : Session where
  files := ⟨playerFiles.entries ++ [(["run.log"], .file .empty)]⟩
  logFile := some ["run.log"]

/-- The log file is none of the files that a run of the project reads. -/
theorem player_logsApart : LogsApart {} loggedPlayer := by
  have hname : ∀ n, LogName loggedPlayer n → n = "run.log" := by
    rintro n ⟨k, hk⟩
    have hlast := congrArg List.getLast? (Option.some.inj hk : ["run.log"] = k ++ [n])
    rw [List.getLast?_concat] at hlast
    exact (Option.some.inj hlast).symm
  refine ⟨⟨?_, ?_, ?_⟩, TemplateName.isTemplateFile ?_, .of_entries ?_ ?_, List.not_mem_nil,
    Setting.readsListed_default⟩
  · exact fun h => absurd (hname _ h) (by decide +kernel)
  · exact fun h => absurd (hname _ h) (by decide +kernel)
  · intro n hn
    rw [hname n hn]
    decide +kernel
  · intro n hn
    rw [hname n hn]
    decide +kernel
  · decide +kernel
  · decide +kernel

/-- A dry run of it comes to the unit and leaves lines in the log file. -/
theorem player_logged : ∃ o s', (Setting.generate {} playerRun.dry).Answers loggedPlayer o s' ∧
    o.result.units.map (·.fileName) = [playerName] ∧
    s'.files.fileAt ["run.log"] ≠ loggedPlayer.files.fileAt ["run.log"] := by
  obtain ⟨o, s', h, hcheck⟩ := Course.answers_of_passes
    (by decide +kernel : ((Setting.generate {} playerRun.dry).passes loggedPlayer fun o s' =>
      decide (o.result.units.map (·.fileName) = [playerName]) &&
        decide ((s'.files.fileAt ["run.log"]).map (·.size) ≠ some 0)) = true)
  rw [Bool.and_eq_true, decide_eq_true_eq, decide_eq_true_eq] at hcheck
  refine ⟨o, s', h, hcheck.1, fun heq => hcheck.2 ?_⟩
  rw [heq]
  rfl

/-! What each command comes to when a condition fails. -/

/-- A project whose root has the pattern for its class on a line of its name, and whose ignore file
takes the notes. -/
def ignoringPlayer : Session where
  files := ⟨[(["p\nPlayer.cs"], .directory), (["p\nPlayer.cs", "Player.cs"],
    .file "partial class Player { [InjectDependency] Foo foo; }".toUTF8),
    (["p\nPlayer.cs", ".gitignore"], .file .empty)]⟩
  logFile := some ["p\nPlayer.cs", ".gitignore"]

def ignoringRun : GenerateRequest := { path := ⟨.here, ["p\nPlayer.cs"]⟩ }

/-- The class is listed, but a run has noted its start when it reads the ignore file. -/
theorem ignoring_differs : ∃ listed s₁ o s₂,
    (Setting.list {} ignoringRun.path ignoringRun.kinds).Answers ignoringPlayer listed s₁ ∧
    (Setting.generate {} ignoringRun).Answers ignoringPlayer o s₂ ∧
    (∃ k ds, (k, ds) ∈ listed ∧ ds ≠ []) ∧ o.result = {} := by
  obtain ⟨listed, s₁, hlist, hsome⟩ := Course.answers_of_passes
    (by decide +kernel : ((Setting.list {} ignoringRun.path ignoringRun.kinds).passes ignoringPlayer
      fun listed _ => listed.any fun x => decide (x.2 ≠ [])) = true)
  obtain ⟨o, s₂, h, hnone⟩ := Course.answers_of_passes
    (by decide +kernel : ((Setting.generate {} ignoringRun).passes ignoringPlayer
      fun o _ => decide (o.result = {})) = true)
  obtain ⟨⟨k, ds⟩, hmem, hds⟩ := List.any_eq_true.mp hsome
  exact ⟨listed, s₁, o, s₂, hlist, h, ⟨k, ds, hmem, of_decide_eq_true hds⟩, of_decide_eq_true hnone⟩

/-- A dry run may come to another text than the run, if a template leaves it to chance. -/
theorem tossed_dry_differs : ∃ o s₁ o' s₂,
    ((playerSetting tossed 0).generate playerRun).Answers { files := templatedFiles tossedDocument }
      o s₁ ∧
    ((playerSetting tossed 1).generate playerRun.dry).Answers
      { files := templatedFiles tossedDocument } o' s₂ ∧
    o'.result.units ≠ o.result.units := by
  have hread : Configuration.read (templatedFiles tossedDocument) {} (.ofLocation ["p"]) =
      .ok tossedConfiguration := tossed_read (by decide +kernel) (by decide +kernel)
  obtain ⟨o, s₁, -, u, h, -, hunits, -, hfirst, -⟩ := templated_generated tossed 0 tossedDocument
    (.of_entries (by decide +kernel) (by decide +kernel)) hread
    (by decide +kernel : Course.passes _ _ (fun p _ => comesToOne _ 104 p) = true)
  obtain ⟨p, s', hprepare, -, hone⟩ := player_prepared hread
    (by decide +kernel : ((playerSetting tossed 1).derive _ _ _).passes _
      (fun p _ => comesToOne _ 116 p) = true)
  obtain ⟨-, hconf, u', hunits', -, -, hfirst'⟩ := of_comesToOne hone
  have hdump : playerRun.dump.or p.configuration.debugDump = none := by
    rw [hconf]
    rfl
  obtain ⟨s₂, hdry, -⟩ := answers_generate_dry hprepare hdump
  refine ⟨o, s₁, _, s₂, h, hdry, fun heq => ?_⟩
  obtain rfl := (List.cons.inj (hunits'.symm.trans (heq.trans hunits))).1
  rw [hfirst] at hfirst'
  exact absurd hfirst' (by decide)

/-- **None of the conditions can be spared.** A dry run writes into its log file. A log file that is
read may keep a run from a class that is listed. And a template may leave to chance what it
writes. -/
theorem disagreements :
    (∃ o s', (Setting.generate {} playerRun.dry).Answers loggedPlayer o s' ∧
      s'.files.fileAt ["run.log"] ≠ loggedPlayer.files.fileAt ["run.log"]) ∧
    (∃ listed s₁ o s₂,
      (Setting.list {} ignoringRun.path ignoringRun.kinds).Answers ignoringPlayer listed s₁ ∧
      (Setting.generate {} ignoringRun).Answers ignoringPlayer o s₂ ∧
      (∃ k ds, (k, ds) ∈ listed ∧ ds ≠ []) ∧ o.result = {}) ∧
    (∃ o s₁ o' s₂,
      ((playerSetting tossed 0).generate playerRun).Answers
        { files := templatedFiles tossedDocument } o s₁ ∧
      ((playerSetting tossed 1).generate playerRun.dry).Answers
        { files := templatedFiles tossedDocument } o' s₂ ∧
      o'.result.units ≠ o.result.units) := by
  obtain ⟨o, s', h, -, hlog⟩ := player_logged
  exact ⟨⟨o, s', h, hlog⟩, ignoring_differs, tossed_dry_differs⟩

theorem player_isPlain {r : GenerateRequest} {s : Session} (hpath : r.path = playerRun.path)
    (hdump : r.dump = none)
    (hread : Configuration.read s.files {} (.ofLocation ["p"]) = .ok { root := ["p"] }) :
    IsPlain {} r s := by
  intro root c hroot hc
  rw [hpath] at hroot
  obtain rfl : root = ["p"] := (Except.ok.inj (hroot : Except.ok ["p"] = Except.ok root)).symm
  obtain rfl := Except.ok.inj (hread.symm.trans hc)
  exact ⟨by rw [hdump]; rfl, fun _ => Setting.isSteady_basic rfl _ _ _⟩

/-- The project of one class is listed under both kinds, and the dry run comes to its unit, when a
log file is kept and when none is. -/
theorem player_runs_agree :
    (∃ o s' listed s₁ s₂, (Setting.generate {} playerRun).Answers { files := playerFiles } o s' ∧
      (Setting.list {} playerRun.path playerRun.kinds).Answers { files := playerFiles } listed s₁ ∧
      listed.map (·.1) = o.kinds ∧
      (Setting.generate {} playerRun.dry).Answers { files := playerFiles } o.dry s₂ ∧
      o.dry.result.units.map (·.fileName) = [playerName]) ∧
    (∃ o s' listed s₁, LogsApart {} loggedPlayer ∧
      (Setting.generate {} playerRun.dry).Answers loggedPlayer o s' ∧
      (Setting.list {} playerRun.path playerRun.kinds).Answers loggedPlayer listed s₁ ∧
      OnlyLogged loggedPlayer s₁ ∧ listed.map (·.1) = o.kinds ∧
      o.result.units.map (·.fileName) = [playerName]) := by
  constructor
  · obtain ⟨o, s', h, -, hnames⟩ := player_generated
    have hplain : IsPlain {} playerRun { files := playerFiles } :=
      player_isPlain rfl rfl player_read
    obtain ⟨⟨listed, s₁, hlist, -, hkinds, -⟩, ⟨s₂, hdry, -⟩, -⟩ :=
      runs_agree (u := { files := playerFiles }) (.inl rfl) hplain h {} 0 rfl (.inl rfl)
    exact ⟨o, s', listed, s₁, s₂, h, hlist, hkinds, hdry, hnames⟩
  · obtain ⟨o, s', h, hnames, -⟩ := player_logged
    have hplain : IsPlain {} playerRun.dry loggedPlayer :=
      player_isPlain rfl rfl (by decide +kernel)
    obtain ⟨⟨listed, s₁, hlist, hlogged, hkinds, -⟩, -, -⟩ :=
      runs_agree (u := loggedPlayer) (.inr player_logsApart) hplain h {} 0 rfl (.inr rfl)
    exact ⟨o, s', listed, s₁, player_logsApart, h, hlist, hlogged, hkinds, hnames⟩

end Player

end FieldWiring
