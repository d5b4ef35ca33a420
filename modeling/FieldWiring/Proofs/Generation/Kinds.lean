import FieldWiring.Project
import FieldWiring.Proofs.Generation.Verdict
import FieldWiring.Proofs.Sessions.Course

/-!
# Several kinds in turn

A run goes through its generators one after the other and notes what it meets on the way. Neither
the notes nor the files have a part in what comes out: `generated` computes the units and failures
of all generators from the templates and the corpus alone.

Results:
* `generateKinds_comesTo`: from any session, generating comes to `generated`.
* `inTurn_generated`: a run comes to what its generators come to, one generator after the other.
* `toldApart_builtin`: the kinds that come with the program are told apart by the names of their
  units.
* `nodup_fileNames`: kinds that are told apart never give two units one file name.
* `candidates_settled`: each candidate is published or fails, and names are unique.
-/

namespace FieldWiring

/-! ## Results without a session -/

/-- What a generator comes to, with the reports about its candidates. -/
def generatedKind (T : Templates) (corpus : Corpus) (excluded : List String) (g : Generator) :
    Except RunError (GenerationResult × List CandidateReport) := do
  let os ← outcomes T corpus g corpus.symbols excluded
  return (settle g os, os.map (·.report))

/-- What several generators come to, one after the other. -/
def generated (T : Templates) (corpus : Corpus) (excluded : List String) (gs : List Generator) :
    Except RunError (GenerationResult × List CandidateReport) :=
  gs.foldlM (fun (r, reports) g => do
    let (s, more) ← generatedKind T corpus excluded g
    return (r.append s, reports ++ more)) ({}, [])

section Notes

variable {P : Session → Prop} {E : Setting} (hP : ∀ s n, P s → P (s.note E.clock n))
include hP

theorem outcomes_comesTo (T : Templates) (corpus : Corpus) (excluded : List String)
    (g : Generator) :
    (E.outcomes T corpus excluded g).ComesTo P (outcomes T corpus g corpus.symbols excluded) := by
  unfold Setting.outcomes outcomes
  refine Course.comesTo_bind_ok (Course.comesTo_note fun s hs => hP s _ hs) ?_
  refine Course.comesTo_mapM (fun d => ?_) _
  exact Course.comesTo_bind_ok (Course.comesTo_notes hP _) (Course.comesTo_ask fun _ _ => rfl)

theorem generateKind_comesTo (T : Templates) (corpus : Corpus) (excluded : List String)
    (g : Generator) :
    (E.generateKind T corpus excluded g).ComesTo P (generatedKind T corpus excluded g) := by
  unfold Setting.generateKind generatedKind
  refine Course.comesTo_bind (outcomes_comesTo hP T corpus excluded g) fun os _ => ?_
  exact Course.comesTo_bind_ok (Course.comesTo_notes hP _) (Course.comesTo_pure P _)

/-- **Notes have no part in what is generated**, nor has the session in which it happens. -/
theorem generateKinds_comesTo (T : Templates) (corpus : Corpus) (excluded : List String)
    (gs : List Generator) :
    (E.generateKinds T corpus excluded gs).ComesTo P (generated T corpus excluded gs) := by
  unfold Setting.generateKinds generated
  refine Course.comesTo_foldlM (fun r g => ?_) gs _
  exact Course.comesTo_bind (generateKind_comesTo hP T corpus excluded g)
    fun s _ => Course.comesTo_pure P _

end Notes

/-- What generating answers with is what it comes to. -/
theorem generated_of_answers {E : Setting} {T : Templates} {corpus : Corpus}
    {excluded : List String}
    {gs : List Generator} {s s' : Session} {result : GenerationResult}
    {reports : List CandidateReport}
    (h : (E.generateKinds T corpus excluded gs).Answers s (result, reports) s') :
    generated T corpus excluded gs = .ok (result, reports) :=
  ((generateKinds_comesTo (P := fun _ => True) (E := E) (fun _ _ _ => trivial)
    T corpus excluded gs).of_answers trivial h).1

/-! ## Names of files -/

/-- Whatever stands before what the names of their units end in, units of the two kinds are told
apart by it. -/
def GeneratorKind.ToldApart (k l : GeneratorKind) : Prop :=
  ∀ a b : String, a ++ k.hintSuffix ≠ b ++ l.hintSuffix

theorem GeneratorKind.ToldApart.symm {k l : GeneratorKind} (h : k.ToldApart l) : l.ToldApart k :=
  fun a b heq => h b a heq.symm

/-- The kinds that come with the program are told apart. -/
theorem toldApart_builtin {k l : GeneratorKind} (hk : k ∈ GeneratorKind.all)
    (hl : l ∈ GeneratorKind.all) (h : k ≠ l) : k.ToldApart l := by
  have hdiffer : GeneratorKind.dependency.ToldApart .sceneNode := by
    intro a b heq
    have hlist : (a.toList ++ "Dependenc".toList) ++ "yResolver".toList =
        (b.toList ++ "SceneNod".toList) ++ "eResolver".toList := by
      simpa [GeneratorKind.dependency, GeneratorKind.sceneNode] using congrArg String.toList heq
    exact absurd (List.append_inj' hlist (by decide)).2 (by decide)
  simp only [GeneratorKind.all, List.mem_cons, List.not_mem_nil, or_false] at hk hl
  rcases hk with rfl | rfl <;> rcases hl with rfl | rfl
  · exact absurd rfl h
  · exact hdiffer
  · exact hdiffer.symm
  · exact absurd rfl h

/-- The name of a unit's file, from what its kind says on. -/
theorem fileName_ending (g : Generator) (d : TypeDeclaration) (text : String) :
    ∃ start, (unitOf g d text).fileName = start ++ g.kind.hintSuffix ++ ".g.cs" := by
  have hend : ".g" ++ ".cs" = ".g.cs" := by decide +kernel
  refine ⟨d.displayNamespace ++ "_" ++ d.name ++ "_", ?_⟩
  unfold GeneratedUnit.fileName unitOf Generator.hintName
  simp only [String.append_assoc, hend]

/-- A unit is published as a generated source. -/
theorem fileName_generated (g : Generator) (d : TypeDeclaration) (text : String) :
    ∃ start, (unitOf g d text).fileName = start ++ ".g.cs" := by
  obtain ⟨start, hstart⟩ := fileName_ending g d text
  exact ⟨_, hstart⟩

/-! ## Units of a run -/

theorem mem_values {ε α : Type} {a : α} : ∀ {vs : List (Except ε α)}, a ∈ values vs ↔ .ok a ∈ vs
  | [] => by simp [values]
  | .error e :: vs => by simp [values, mem_values]
  | .ok b :: vs => by simp [values, mem_values]

/-- The units of a generator are made of its candidates. -/
theorem mem_units {T : Templates} {c : Corpus} {g : Generator} {excluded : List String}
    {os : List Outcome} (h : outcomes T c g c.symbols excluded = .ok os) {u : GeneratedUnit}
    (hu : u ∈ (settle g os).units) : ∃ d text, u = unitOf g d text := by
  have hs := settles_outcomes h
  obtain ⟨i, hi, hget⟩ := List.mem_iff_getElem.mp (mem_values.mp hu)
  have hi' : i < (candidates c g excluded).length := hs.one_each ▸ hi
  obtain ⟨text, -, rfl, -⟩ := (hs.published (List.getElem?_eq_getElem hi')).mp
    (by rw [List.getElem?_eq_getElem hi, hget])
  exact ⟨_, text, rfl⟩

theorem mem_units_of_forall₂ {T : Templates} {c : Corpus} {excluded : List String}
    {gs : List Generator} {oss : List (List Outcome)}
    (h : List.Forall₂ (fun g os => outcomes T c g c.symbols excluded = .ok os) gs oss)
    {u : GeneratedUnit}
    (hu : u ∈ (List.zipWith (fun g os => (settle g os).units) gs oss).flatten) :
    ∃ g ∈ gs, ∃ d text, u = unitOf g d text := by
  induction h with
  | nil => exact absurd hu List.not_mem_nil
  | cons ho _ ih =>
    rw [List.zipWith_cons_cons, List.flatten_cons, List.mem_append] at hu
    rcases hu with hu | hu
    · exact ⟨_, List.mem_cons_self, mem_units ho hu⟩
    · obtain ⟨g, hg, hu⟩ := ih hu
      exact ⟨g, List.mem_cons_of_mem _ hg, hu⟩

theorem nodup_map_fileName {units : List GeneratedUnit} (h : (units.map (·.hintName)).Nodup) :
    (units.map (·.fileName)).Nodup := by
  rw [List.nodup_iff_pairwise_ne, List.pairwise_map] at h ⊢
  exact h.imp fun hne heq => hne ((String.append_left_inj ".cs").mp heq)

/-- **Kinds that are told apart never give two units one file name**, whatever those are called. -/
theorem nodup_fileNames {T : Templates} {c : Corpus} {excluded : List String} {gs : List Generator}
    {oss : List (List Outcome)}
    (h : List.Forall₂ (fun g os => outcomes T c g c.symbols excluded = .ok os) gs oss)
    (hk : (gs.map (·.kind)).Pairwise GeneratorKind.ToldApart) :
    ((List.zipWith (fun g os => (settle g os).units) gs oss).flatten.map (·.fileName)).Nodup := by
  induction h with
  | nil => exact .nil
  | @cons g os gs oss ho hrest ih =>
    obtain ⟨hg, hgs⟩ := List.pairwise_cons.mp hk
    rw [List.zipWith_cons_cons, List.flatten_cons, List.map_append, List.nodup_append]
    refine ⟨nodup_map_fileName (settles_outcomes ho).nodup_hintNames, ih hgs, ?_⟩
    -- a unit of this kind and one of a later kind end differently
    intro a ha b hb hab
    obtain ⟨u, hu, rfl⟩ := List.mem_map.mp ha
    obtain ⟨v, hv, rfl⟩ := List.mem_map.mp hb
    obtain ⟨d, text, rfl⟩ := mem_units ho hu
    obtain ⟨l, hl, e, text', rfl⟩ := mem_units_of_forall₂ hrest hv
    obtain ⟨start, hstart⟩ := fileName_ending g d text
    obtain ⟨start', hstart'⟩ := fileName_ending l e text'
    rw [hstart, hstart'] at hab
    exact hg l.kind (List.mem_map.mpr ⟨l, hl, rfl⟩) _ _ ((String.append_left_inj ".g.cs").mp hab)

/-- A run over generators, told by the outcomes of each in its turn: its units, its failures and its
reports are those of the generators, one generator after the other. -/
structure InTurn (T : Templates) (corpus : Corpus) (excluded : List String) (gs : List Generator)
    (oss : List (List Outcome)) (r : GenerationResult × List CandidateReport) : Prop where
  outcomes : gs.Forall₂ (fun g os => outcomes T corpus g corpus.symbols excluded = .ok os) oss
  units : r.1.units = (List.zipWith (fun g os => (settle g os).units) gs oss).flatten
  failures : r.1.failures = (List.zipWith (fun g os => (settle g os).failures) gs oss).flatten
  reports : r.2 = oss.flatten.map (·.report)

theorem inTurn_generated_from {T : Templates} {corpus : Corpus} {excluded : List String} :
    ∀ {gs : List Generator} {start r : GenerationResult × List CandidateReport},
      gs.foldlM (fun (r, reports) g => do
          let (s, more) ← generatedKind T corpus excluded g
          return (r.append s, reports ++ more)) start = .ok r →
        ∃ oss turn, InTurn T corpus excluded gs oss turn ∧
          r = (start.1.append turn.1, start.2 ++ turn.2)
  | [], start, r, h => by
    cases h
    refine ⟨[], ({}, []), ⟨.nil, rfl, rfl, rfl⟩, ?_⟩
    simp [GenerationResult.append]
  | g :: gs, start, r, h => by
    rw [List.foldlM_cons] at h
    unfold generatedKind at h
    cases ho : outcomes T corpus g corpus.symbols excluded with
    | error e => rw [ho] at h; cases h
    | ok os =>
      rw [ho] at h
      obtain ⟨oss, turn, hturn, hr⟩ := inTurn_generated_from h
      refine ⟨os :: oss, ((settle g os).append turn.1, os.map (·.report) ++ turn.2),
        ⟨.cons ho hturn.outcomes, ?_, ?_, ?_⟩, ?_⟩
      · simp [GenerationResult.append, hturn.units]
      · simp [GenerationResult.append, hturn.failures]
      · simp [hturn.reports]
      · rw [hr]
        simp [GenerationResult.append]

/-- What a run comes to is what its generators come to, one generator after the other. -/
theorem inTurn_generated {T : Templates} {corpus : Corpus} {excluded : List String}
    {gs : List Generator} {r : GenerationResult × List CandidateReport}
    (h : generated T corpus excluded gs = .ok r) : ∃ oss, InTurn T corpus excluded gs oss r := by
  obtain ⟨oss, turn, hturn, hr⟩ := inTurn_generated_from h
  refine ⟨oss, ?_⟩
  have hsame : r = turn := by
    rw [hr]
    simp [GenerationResult.append]
  exact hsame ▸ hturn

/-- The file names of a run's units are distinct, and each is that of a generated source. -/
theorem generated_fileNames {T : Templates} {corpus : Corpus} {excluded : List String}
    {gs : List Generator} {r : GenerationResult × List CandidateReport}
    (h : generated T corpus excluded gs = .ok r)
    (hk : (gs.map (·.kind)).Pairwise GeneratorKind.ToldApart) :
    (r.1.units.map (·.fileName)).Nodup ∧
      ∀ u ∈ r.1.units, ∃ g ∈ gs, ∃ d text, u = unitOf g d text := by
  obtain ⟨oss, hturn⟩ := inTurn_generated h
  rw [hturn.units]
  exact ⟨nodup_fileNames hturn.outcomes hk, fun u hu => mem_units_of_forall₂ hturn.outcomes hu⟩

/-! ## Runs -/

/-- The kinds of a run are some of those that come with the program, in their order, whoever chose
them. -/
theorem wanted_kinds {kinds : List (Option String)} {c : Configuration} {gs : List Generator}
    (h : Setting.wanted kinds c = .ok gs) : (gs.map (·.kind)).Sublist GeneratorKind.all := by
  unfold Setting.wanted at h
  simp only at h
  cases hm : (if kinds.isEmpty = true then c.enabledGenerators.map some else kinds).mapM id with
  | none => rw [hm] at h; cases h
  | some names =>
    rw [hm] at h
    simp only at h
    cases hs : selectGenerators (if names.isEmpty then none else some names) c.overrides with
    | error e => rw [hs] at h; cases h
    | ok gs' =>
      rw [hs] at h
      cases h
      rw [selectGenerators_kinds hs]
      unfold selectedKinds
      split
      · exact .refl _
      · exact List.filter_sublist

theorem wanted_nodup {kinds : List (Option String)} {c : Configuration} {gs : List Generator}
    (h : Setting.wanted kinds c = .ok gs) : (gs.map (·.kind)).Nodup :=
  (by decide : GeneratorKind.all.Nodup).sublist (wanted_kinds h)

theorem wanted_keys {kinds : List (Option String)} {c : Configuration} {gs : List Generator}
    (h : Setting.wanted kinds c = .ok gs) : (gs.map (·.kind.key)).Nodup := by
  have hkeys := (by decide : (GeneratorKind.all.map (·.key)).Nodup).sublist ((wanted_kinds h).map _)
  rw [List.map_map] at hkeys
  exact hkeys

theorem wanted_toldApart {kinds : List (Option String)} {c : Configuration} {gs : List Generator}
    (h : Setting.wanted kinds c = .ok gs) : (gs.map (·.kind)).Pairwise GeneratorKind.ToldApart := by
  refine (wanted_nodup h).imp_of_mem fun hk hl hne => ?_
  exact toldApart_builtin ((wanted_kinds h).subset hk) ((wanted_kinds h).subset hl) hne

/-- What a run published was generated with its templates, from its corpus, for its kinds. -/
theorem result_of_generate {E : Setting} {r : GenerateRequest} {s s' : Session}
    {o : GenerateOutcome} (h : (E.generate r).Answers s o s') :
    ∃ (T : Templates) (corpus : Corpus) (c : Configuration) (gs : List Generator)
      (reports : List CandidateReport),
      Setting.wanted r.kinds c = .ok gs ∧
        generated T corpus c.excludeSegments gs = .ok (o.result, reports) := by
  unfold Setting.generate at h
  obtain ⟨root, s₁, -, h⟩ := Course.answers_bind.mp h
  obtain ⟨-, s₂, -, h⟩ := Course.answers_bind.mp h
  obtain ⟨c, s₃, -, h⟩ := Course.answers_bind.mp h
  obtain ⟨corpus, s₄, -, h⟩ := Course.answers_bind.mp h
  obtain ⟨gs, s₅, hgs, h⟩ := Course.answers_bind.mp h
  obtain ⟨T, s₆, -, h⟩ := Course.answers_bind.mp h
  obtain ⟨⟨result, reports⟩, s₇, hresult, h⟩ := Course.answers_bind.mp h
  -- whatever is written afterwards, the result is handed out as it is
  have hr : o.result = result := by
    simp only at h
    split at h
    · obtain ⟨-, s₈, -, h⟩ := Course.answers_bind.mp h
      obtain ⟨report, s₉, -, h⟩ := Course.answers_bind.mp h
      split at h
      · obtain ⟨rfl, -⟩ := Course.answers_pure.mp h
        rfl
      · obtain ⟨-, s₁₀, -, h⟩ := Course.answers_bind.mp h
        obtain ⟨rfl, -⟩ := Course.answers_pure.mp h
        rfl
    · obtain ⟨report, s₉, -, h⟩ := Course.answers_bind.mp h
      split at h
      · obtain ⟨rfl, -⟩ := Course.answers_pure.mp h
        rfl
      · obtain ⟨-, s₁₀, -, h⟩ := Course.answers_bind.mp h
        obtain ⟨rfl, -⟩ := Course.answers_pure.mp h
        rfl
  refine ⟨T, corpus, c, gs, reports, (Course.answers_ask.mp hgs).1, ?_⟩
  rw [hr]
  exact generated_of_answers hresult

/-- **Each candidate is published or fails, and names are unique.** A generator comes to an end
unless a template breaks off, which the standard ones never do; then its candidates are settled one
by one, in their order, so that units have distinct names. The units of a run over kinds that are
told apart, as distinct ones of the program are, have distinct file names, and a run that generates
a project is one. -/
theorem candidates_settled (T : Templates) (c : Corpus) (g : Generator) (R : SymbolResolver)
    (excluded : List String) :
    ((∃ os, outcomes T c g R excluded = .ok os) ↔
      ∀ d ∈ candidates c g excluded, ∀ e, candidateText T c g R d ≠ .error (.run e)) ∧
    (∃ os, outcomes .standard c g R excluded = .ok os) ∧
    (∀ os, outcomes T c g R excluded = .ok os →
      ∃ vs, Settles T c g R (candidates c g excluded) vs ∧ (settle g os).units = values vs ∧
        (settle g os).failures = errors vs ∧ ((settle g os).units.map (·.hintName)).Nodup) ∧
    (∀ (E : Setting) (gs : List Generator), (gs.map (·.kind)).Pairwise GeneratorKind.ToldApart →
      ∀ s r s', (E.generateKinds T c excluded gs).Answers s r s' →
        (r.1.units.map (·.fileName)).Nodup) ∧
    (∀ k ∈ GeneratorKind.all, ∀ l ∈ GeneratorKind.all, k ≠ l → k.ToldApart l) ∧
    ∀ (E : Setting) (r : GenerateRequest) (s : Session) (o : GenerateOutcome) (s' : Session),
      (E.generate r).Answers s o s' → (o.result.units.map (·.fileName)).Nodup := by
  refine ⟨outcomes_ends, ?_, ?_, ?_, fun k hk l hl => toldApart_builtin hk hl, ?_⟩
  · exact outcomes_ends.mpr fun d _ => candidateText_standard d
  · intro os h
    have hs := settles_outcomes h
    exact ⟨settled g os, hs, rfl, rfl, hs.nodup_hintNames⟩
  · intro E gs hk s r s' h
    have hcomes := generateKinds_comesTo (P := fun _ => True) (E := E) (fun _ _ _ => trivial)
      T c excluded gs
    exact (generated_fileNames (hcomes.of_answers trivial h).1 hk).1
  · intro E r s o s' h
    obtain ⟨T, corpus, c, gs, reports, hgs, hgen⟩ := result_of_generate h
    exact (generated_fileNames hgen (wanted_toldApart hgs)).1

end FieldWiring
