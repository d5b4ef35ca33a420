import FieldWiring.Proofs.Configuration.Coercion
import FieldWiring.Proofs.Generation.Verdict
import FieldWiring.Proofs.Scanning.Rereading
import FieldWiring.Proofs.Yaml.Plain

/-!
# Reading configurations

A document is taken part by part in a fixed order. The first part that cannot be taken ends the
reading, and the reason is that part's own. What is read can be used: there is a worker, paths start
at the root, and the lookup modes are such as a selection accepts.

Not every reason is one that a configuration reports. Three are not: a number that has no text, a
home that is not there, and a value that is to be refused as a number of workers but cannot be
shown.

Results:
* `failsBy_bind`: what is taken part by part fails by the first part that breaks.
* `failsBy_ofEntries`: so do the entries of a document.
* `isUsable_of_ofEntries`: a configuration that is read can be used.
* `configuration_settled`: which documents are read, and how the reading of others ends.
-/

namespace FieldWiring

open Yaml (Value)

/-! ## Taking part by part -/

section Parts

variable {Part α β : Type} {breaks : Part → RunError → Prop}

/-- Of several parts in order the first one that breaks does so for this reason. -/
inductive FirstBreak (breaks : Part → RunError → Prop) : List Part → RunError → Prop
  | here {p : Part} {ps : List Part} {e : RunError} : breaks p e → FirstBreak breaks (p :: ps) e
  | later {p : Part} {ps : List Part} {e : RunError} :
    (∀ e', ¬ breaks p e') → FirstBreak breaks ps e → FirstBreak breaks (p :: ps) e

theorem firstBreak_cons {p : Part} {ps : List Part} {e : RunError} :
    FirstBreak breaks (p :: ps) e ↔ breaks p e ∨ (∀ e', ¬ breaks p e') ∧
      FirstBreak breaks ps e := by
  constructor
  · intro h
    cases h with
    | here h => exact .inl h
    | later hp h => exact .inr ⟨hp, h⟩
  · rintro (h | ⟨hp, h⟩)
    · exact .here h
    · exact .later hp h

theorem not_firstBreak_nil (e : RunError) : ¬ FirstBreak breaks [] e := fun h => nomatch h

/-- Nothing breaks first iff nothing breaks. -/
theorem not_firstBreak_iff {ps : List Part} :
    (∀ e, ¬ FirstBreak breaks ps e) ↔ ∀ p ∈ ps, ∀ e, ¬ breaks p e := by
  induction ps with
  | nil => exact iff_of_true not_firstBreak_nil fun _ h => absurd h List.not_mem_nil
  | cons p ps ih =>
    rw [List.forall_mem_cons, ← ih]
    constructor
    · intro h
      have hp : ∀ e, ¬ breaks p e := fun e hb => h e (.here hb)
      exact ⟨hp, fun e hb => h e (.later hp hb)⟩
    · rintro ⟨hp, h⟩ e (hb | ⟨-, hb⟩)
      · exact hp e hb
      · exact h e hb

theorem exists_of_firstBreak {ps : List Part} {e : RunError} (h : FirstBreak breaks ps e) :
    ∃ p, breaks p e := by
  induction h with
  | here h => exact ⟨_, h⟩
  | later _ _ ih => exact ih

/-- What breaks first in two rows of parts does so in the first row, or in the second one when
nothing in the first breaks. -/
theorem firstBreak_append {ps qs : List Part} {e : RunError} :
    FirstBreak breaks (ps ++ qs) e ↔
      FirstBreak breaks ps e ∨ (∀ e', ¬ FirstBreak breaks ps e') ∧ FirstBreak breaks qs e := by
  induction ps with
  | nil =>
    rw [List.nil_append, or_iff_right (not_firstBreak_nil e), and_iff_right not_firstBreak_nil]
  | cons p ps ih =>
    rw [List.cons_append, firstBreak_cons, ih, firstBreak_cons]
    constructor
    · rintro (h | ⟨hp, h | ⟨hps, h⟩⟩)
      · exact .inl (.inl h)
      · exact .inl (.inr ⟨hp, h⟩)
      · refine .inr ⟨?_, h⟩
        rintro e' (h' | ⟨-, h'⟩)
        · exact hp e' h'
        · exact hps e' h'
    · rintro ((h | ⟨hp, h⟩) | ⟨hnone, h⟩)
      · exact .inl h
      · exact .inr ⟨hp, .inl h⟩
      · have hp : ∀ e', ¬ breaks p e' := fun e' hb => hnone e' (.here hb)
        exact .inr ⟨hp, .inr ⟨fun e' hb => hnone e' (.later hp hb), h⟩⟩

/-- The computation fails by the first of the parts that breaks, and by nothing else. -/
def FailsBy (breaks : Part → RunError → Prop) (m : Except RunError α) (ps : List Part) : Prop :=
  ∀ e, m = .error e ↔ FirstBreak breaks ps e

theorem failsBy_pure (a : α) : FailsBy breaks (pure a : Except RunError α) [] :=
  fun e => iff_of_false (fun h => nomatch h) (not_firstBreak_nil e)

theorem failsBy_single {m : Except RunError α} {p : Part} (h : ∀ e, m = .error e ↔ breaks p e) :
    FailsBy breaks m [p] := fun e => by
  rw [h, firstBreak_cons]
  exact (or_iff_left fun h => not_firstBreak_nil e h.2).symm

/-- One computation after another fails by the parts of both, in that order. -/
theorem failsBy_bind {m : Except RunError α} {f : α → Except RunError β} {ps qs : List Part}
    (hm : FailsBy breaks m ps) (hf : ∀ a, FailsBy breaks (f a) qs) :
    FailsBy breaks (m >>= f) (ps ++ qs) := by
  intro e
  rw [bind_eq_error_iff, firstBreak_append, hm e]
  refine or_congr_right ⟨?_, ?_⟩
  · rintro ⟨a, ha, h⟩
    refine ⟨fun e' hb => ?_, (hf a e).mp h⟩
    cases ha.symm.trans ((hm e').mpr hb)
  · rintro ⟨hnone, h⟩
    cases hcase : m with
    | error e' => exact absurd ((hm e').mp hcase) (hnone e')
    | ok a => exact ⟨a, rfl, (hf a e).mpr h⟩

/-- A part is taken first, and then the others. -/
theorem failsBy_cons {m : Except RunError α} {f : α → Except RunError β} {p : Part}
    {ps : List Part} (hm : ∀ e, m = .error e ↔ breaks p e) (hf : ∀ a, FailsBy breaks (f a) ps) :
    FailsBy breaks (m >>= f) (p :: ps) := failsBy_bind (failsBy_single hm) hf

/-- For each item of a list its parts are taken. -/
theorem failsBy_mapM {ι : Type} {g : ι → Except RunError α} {parts : ι → List Part}
    (h : ∀ i, FailsBy breaks (g i) (parts i)) (is : List ι) :
    FailsBy breaks (is.mapM g) (is.flatMap parts) := by
  induction is with
  | nil => exact failsBy_pure []
  | cons i is ih =>
    rw [List.mapM_cons, List.flatMap_cons]
    refine failsBy_bind (h i) fun a => ?_
    rw [← List.append_nil (is.flatMap parts)]
    exact failsBy_bind ih fun as => failsBy_pure (a :: as)

end Parts

/-! ## The parts of a document -/

/-- What a document may say about a project. -/
inductive ConfigurationPart where
  | enabledKinds
  | lookup (kind : GeneratorKind)
  | resolverNamespace (kind : GeneratorKind)
  | excludedSegments
  | excludedPaths
  | frontends
  | outputDirectory
  | templates
  | debugDump
  | workers
deriving DecidableEq, Repr

namespace ConfigurationPart

/-- The parts that concern one kind of generator. -/
def ofKind (kind : GeneratorKind) : List ConfigurationPart := [lookup kind, resolverNamespace kind]

/-- The parts in the order in which they are taken. -/
def inOrder : List ConfigurationPart :=
  enabledKinds :: (GeneratorKind.all.flatMap ofKind ++
    [excludedSegments, excludedPaths, frontends, outputDirectory, templates, debugDump, workers])

/-- What a document says of a part; nothing where it does not mention it. -/
def valueIn (entries : List (Value × Value)) : ConfigurationPart → Value
  | enabledKinds => valueAt "enabled" (valueAt "generators" entries).asEntries
  | lookup kind => lookupValue kind (valueAt "generators" entries).asEntries
  | resolverNamespace kind => namespaceValue kind (valueAt "generators" entries).asEntries
  | excludedSegments => valueAt "exclude_segments" entries
  | excludedPaths => valueAt "exclude_paths" entries
  | frontends => valueAt "enabled" (valueAt "frontends" entries).asEntries
  | outputDirectory => valueAt "output_dir" entries
  | templates => valueAt "templates_dir" entries
  | debugDump => valueAt "debug_dump" entries
  | workers => valueAt "workers" entries

/-- What is said of a part cannot be taken: texts and paths are too long or ask for a home that is
not there, a lookup mode is none, and a number of workers is none. -/
def Breaks (homes : Homes) (entries : List (Value × Value)) (part : ConfigurationPart)
    (e : RunError) : Prop :=
  let v := part.valueIn entries
  match part with
  | enabledKinds | excludedSegments | excludedPaths | frontends =>
    v.HoldsLongItem ∧ e = .longNumber
  | lookup kind => MisnamesMode kind v e
  | resolverNamespace _ => v.IsLong ∧ e = .longNumber
  | outputDirectory | templates | debugDump =>
    v.IsLong ∧ e = .longNumber ∨ ∃ f, homes.Lacks v f ∧ e = .home f
  | workers => v ≠ .null ∧ (∀ n, v.Counts n → n < 1) ∧ v.IsRefused e

end ConfigurationPart

open ConfigurationPart

/-- A document says what its entries say. One that counts as nothing has none. -/
inductive Says : Value → List (Value × Value) → Prop
  | entries (es : List (Value × Value)) : Says (.dict es) es
  | nothing {v : Value} : v.isTrue = false → Says v []

theorem documentEntries_ok_iff {document : Value} {es : List (Value × Value)} :
    documentEntries document = .ok es ↔ Says document es := by
  constructor
  · intro h
    unfold documentEntries at h
    split at h
    · obtain rfl := Except.ok.inj h
      exact .entries _
    · split at h
      · cases h
      · rename_i hfalse
        obtain rfl := Except.ok.inj h
        exact .nothing (Bool.eq_false_iff.mpr hfalse)
  · rintro (_ | hfalse)
    · rfl
    · unfold documentEntries
      split
      · rename_i es
        cases es with
        | nil => rfl
        | cons _ _ => cases hfalse
      · rw [if_neg (Bool.eq_false_iff.mp hfalse)]

/-- A document that says nothing of the kind is no mapping. -/
theorem documentEntries_refused {document : Value} (h : ∀ es, ¬ Says document es) :
    documentEntries document = .error (.configuration .noMapping) := by
  unfold documentEntries
  split
  · exact absurd (.entries _) (h _)
  · split
    · rfl
    · rename_i hfalse
      exact absurd (.nothing (Bool.eq_false_iff.mpr hfalse)) (h [])

section Document

variable {homes : Homes} {root : Location} {document : Value} {es : List (Value × Value)}
  {e : RunError}

theorem segmentsAt_error_iff : segmentsAt es = .error e ↔ Breaks homes es .excludedSegments e := by
  show _ ↔ (valueAt "exclude_segments" es).HoldsLongItem ∧ e = .longNumber
  rw [← Value.asTexts_error_iff]
  unfold segmentsAt valueAt
  cases Value.find? "exclude_segments" es with
  | none => exact iff_of_false (fun h => nomatch h) fun h => nomatch h
  | some v => rfl

theorem workersAt_error_iff : workersAt es = .error e ↔ Breaks homes es .workers e := by
  show _ ↔ valueAt "workers" es ≠ .null ∧ (∀ n, (valueAt "workers" es).Counts n → n < 1) ∧
    (valueAt "workers" es).IsRefused e
  rw [← Value.asWorkers_error_iff]
  unfold workersAt
  cases valueAt "workers" es with
  | null => exact iff_of_false (fun h => nomatch h) fun h => h.1 rfl
  | _ => exact (and_iff_right nofun).symm

theorem failsBy_kindSettings (kind : GeneratorKind) :
    FailsBy (Breaks homes es) (kindSettings kind (valueAt "generators" es).asEntries)
      (ofKind kind) := by
  intro e
  have hlast : ¬ ((∀ e', ¬ Breaks homes es (.resolverNamespace kind) e') ∧
      FirstBreak (Breaks homes es) [] e) := fun h => not_firstBreak_nil e h.2
  rw [kindSettings_error_iff, ofKind, firstBreak_cons, firstBreak_cons, or_iff_left hlast]
  rfl

/-- What a document says is taken part by part. -/
theorem failsBy_ofEntries :
    FailsBy (Breaks homes es) (Configuration.ofEntries homes root es) inOrder := by
  unfold Configuration.ofEntries
  refine failsBy_cons (fun _ => Value.asTexts_error_iff) fun enabled => ?_
  refine failsBy_bind (failsBy_mapM failsBy_kindSettings _) fun kinds => ?_
  refine failsBy_cons (fun _ => segmentsAt_error_iff) fun segments => ?_
  refine failsBy_cons (fun _ => Value.asTexts_error_iff) fun paths => ?_
  refine failsBy_cons (fun _ => Value.asTexts_error_iff) fun frontends => ?_
  refine failsBy_cons (fun _ => pathAt_error_iff) fun outputDir => ?_
  refine failsBy_cons (fun _ => pathAt_error_iff) fun templatesDir => ?_
  refine failsBy_cons (fun _ => pathAt_error_iff) fun debugDump => ?_
  exact failsBy_cons (fun _ => workersAt_error_iff) fun workers => failsBy_pure _

/-- A part that is not mentioned does not break. -/
theorem not_breaks_of_null {part : ConfigurationPart} (h : part.valueIn es = .null) :
    ¬ Breaks homes es part e := by
  have hshort : ¬ Value.null.IsLong := Value.not_isLong nofun
  have hsilent : ∀ s, ¬ Value.null.Writes s := fun s h => nomatch h
  have hitems : ¬ Value.null.HoldsLongItem := fun ⟨_, h, _⟩ => nomatch h
  unfold Breaks
  rw [h]
  cases part with
  | enabledKinds | excludedSegments | excludedPaths | frontends => exact fun h => hitems h.1
  | lookup kind => exact fun
    | .inl h => hshort h.1
    | .inr ⟨word, h, _⟩ => hsilent word h
  | resolverNamespace kind => exact fun h => hshort h.1
  | outputDirectory | templates | debugDump => exact fun
    | .inl h => hshort h.1
    | .inr ⟨_, ⟨s, _, _, h, _⟩, _⟩ => hsilent s h
  | workers => exact fun h => h.1 rfl

/-- The reasons for which a reading ends that a configuration does not report. -/
inductive IsUnreported : RunError → Prop
  | longNumber : IsUnreported .longNumber
  | deepLiteral : IsUnreported .deepLiteral
  | home (f : HomeError) : IsUnreported (.home f)

theorem reported_or_unreported {part : ConfigurationPart} (h : Breaks homes es part e) :
    (∃ f, e = .configuration f) ∨ IsUnreported e := by
  cases part with
  | enabledKinds | excludedSegments | excludedPaths | frontends | resolverNamespace _ =>
    obtain ⟨-, rfl⟩ := h
    exact .inr .longNumber
  | lookup kind =>
    rcases h with ⟨-, rfl⟩ | ⟨word, -, -, rfl⟩
    · exact .inr .longNumber
    · exact .inl ⟨_, rfl⟩
  | outputDirectory | templates | debugDump =>
    rcases h with ⟨-, rfl⟩ | ⟨f, -, rfl⟩
    · exact .inr .longNumber
    · exact .inr (.home f)
  | workers =>
    rcases h with ⟨-, -, ⟨-, rfl⟩ | ⟨_ | _, -, rfl⟩⟩
    · exact .inl ⟨_, rfl⟩
    · exact .inr .longNumber
    · exact .inr .deepLiteral

end Document

/-! ## Configurations that can be used -/

/-- There is a worker, every path starts at the root, every lookup mode is one, and a selection
refuses no more than kinds that do not exist. -/
structure Configuration.IsUsable (c : Configuration) : Prop where
  hasWorker : 1 ≤ c.workers
  isAbsolute : ∀ p, c.outputDir = some p ∨ c.templatesDir = some p ∨ c.debugDump = some p →
    p.isAbsolute = true
  isMode : ∀ x ∈ c.overrides, ∀ word, x.2.lookup = some word → ∃ m ∈ LookupMode.all, m.word = word
  isSelectable : ∀ enabled, (∃ gs, selectGenerators enabled c.overrides = .ok gs) ∨
    ∃ names, selectGenerators enabled c.overrides = .error (.unknownKinds names)

/-- The lookup modes that replace others are modes. -/
theorem isMode_overrides (c : Configuration) {x : String × GeneratorOverride} (hx : x ∈ c.overrides)
    {word : String} (h : x.2.lookup = some word) : ∃ m ∈ LookupMode.all, m.word = word := by
  obtain ⟨⟨kind, s⟩, -, rfl⟩ := List.mem_map.mp hx
  obtain ⟨m, -, rfl⟩ := Option.map_eq_some_iff.mp h
  exact ⟨m, by cases m <;> decide, rfl⟩

/-- A selection does not refuse the replacements of a configuration. -/
theorem isSelectable_overrides (c : Configuration) (enabled : Option (List String)) :
    (∃ gs, selectGenerators enabled c.overrides = .ok gs) ∨
      ∃ names, selectGenerators enabled c.overrides = .error (.unknownKinds names) := by
  unfold selectGenerators
  split
  · refine .inl (mapM_ends.mpr fun kind _ => ?_)
    have hsettings : ∃ s : KindSettings, (c.overrides.lookup kind.key).getD {} = s.override := by
      cases hlookup : c.overrides.lookup kind.key with
      | none => exact ⟨{}, rfl⟩
      | some o =>
        obtain ⟨before, behind, heq, -⟩ := List.lookup_eq_some_iff.mp hlookup
        have hmem : (kind.key, o) ∈ c.overrides := heq ▸ List.mem_append_right _ List.mem_cons_self
        obtain ⟨⟨kind', s⟩, -, h⟩ := List.mem_map.mp hmem
        exact ⟨s, (congrArg Prod.snd h).symm⟩
    obtain ⟨s, hs⟩ := hsettings
    rw [hs]
    exact Configuration.replacing_override kind s
  · exact .inr ⟨_, rfl⟩

section Taken

variable {homes : Homes} {root : Location} {es : List (Value × Value)} {c : Configuration}

/-- A configuration consists of what was taken for its parts. -/
theorem parts_of_ofEntries (h : Configuration.ofEntries homes root es = .ok c) :
    c.root = root ∧ workersAt es = .ok c.workers ∧
      pathAt homes root (outputDirectory.valueIn es) = .ok c.outputDir ∧
      pathAt homes root (templates.valueIn es) = .ok c.templatesDir ∧
      pathAt homes root (debugDump.valueIn es) = .ok c.debugDump ∧
      ∃ kinds, GeneratorKind.all.mapM
          (fun kind => kindSettings kind (valueAt "generators" es).asEntries) = .ok kinds ∧
        c.generators = kinds.filterMap id := by
  simp only [Configuration.ofEntries, bind_eq_ok_iff] at h
  obtain ⟨_, -, kinds, hkinds, _, -, _, -, _, -, _, hout, _, htemplates, _, hdump, _,
    hworkers, h⟩ := h
  obtain rfl := Except.ok.inj h
  exact ⟨rfl, hworkers, hout, htemplates, hdump, kinds, hkinds, rfl⟩

/-- A configuration that is read can be used. -/
theorem isUsable_of_ofEntries (h : Configuration.ofEntries homes root es = .ok c) : c.IsUsable := by
  obtain ⟨-, hworkers, hout, htemplates, hdump, -⟩ := parts_of_ofEntries h
  refine ⟨?_, ?_, fun x hx word => isMode_overrides c hx, isSelectable_overrides c⟩
  · unfold workersAt at hworkers
    split at hworkers
    · exact Nat.le_of_eq (Except.ok.inj hworkers)
    · exact Value.one_le_of_asWorkers hworkers
  · rintro p (hp | hp | hp)
    · exact isAbsolute_of_pathAt (hp ▸ hout)
    · exact isAbsolute_of_pathAt (hp ▸ htemplates)
    · exact isAbsolute_of_pathAt (hp ▸ hdump)

/-- A lookup mode that the document names is that of the kind. -/
theorem lookup_of_ofEntries (h : Configuration.ofEntries homes root es = .ok c)
    {kind : GeneratorKind} (hkind : kind ∈ GeneratorKind.all) {word : String}
    (hword : ((lookup kind).valueIn es).Writes word) :
    ∃ m ∈ LookupMode.all, m.word = word ∧ ∃ s, (kind, s) ∈ c.generators ∧ s.lookup = some m := by
  obtain ⟨-, -, -, -, -, kinds, hkinds, hgenerators⟩ := parts_of_ofEntries h
  obtain ⟨taken, htaken, hread⟩ := exists_mem_of_mapM hkinds hkind
  obtain ⟨m, hm, hmword, s, hs, rfl⟩ := kindSettings_lookup hread hword
  refine ⟨m, hm, hmword, s, ?_, hs⟩
  rw [hgenerators]
  exact List.mem_filterMap.mpr ⟨_, htaken, rfl⟩

end Taken

/-! ## Files -/

/-- The configuration file that belongs to a path can be read and states a document. An empty file
states nothing. -/
structure StatesDocument (t : FileTree) (S : Surroundings) (p : Path) (file : Location)
    (document : Value) : Prop where
  located : configurationFile t S p = .ok file
  stated : ∃ text, t.readText [] (.ofLocation file) = .ok text ∧
    if (Text.trimChars text.toList).isEmpty then document = .null else Yaml.load text = .ok document

theorem StatesDocument.read_eq {t : FileTree} {S : Surroundings} {p : Path} {file : Location}
    {document : Value} (h : StatesDocument t S p file document) :
    Configuration.read t S p = Configuration.ofValue S.homes file.dropLast document := by
  obtain ⟨text, htext, hstated⟩ := h.stated
  rw [Configuration.read_of_text h.located htext]
  unfold Configuration.ofText
  split at hstated
  · rename_i hblank
    rw [if_pos hblank, hstated]
    rfl
  · rename_i hblank
    rw [if_neg hblank, hstated]

/-- **Which documents are read, and how the reading of others ends.** A document that is no mapping
is reported, unless it counts as nothing. Otherwise the reading fails iff a part breaks, for the
reason of the first one that does; this may be one that no configuration reports. A configuration
that is read can be used, and the lookup modes that the document names are those of the kinds. -/
theorem configuration_settled {t : FileTree} {S : Surroundings} {p : Path} {file : Location}
    {document : Value} (h : StatesDocument t S p file document) :
    ((∀ es, ¬ Says document es) →
      Configuration.read t S p = .error (.configuration .noMapping)) ∧
    ∀ es, Says document es →
      ((∃ c, Configuration.read t S p = .ok c) ↔
        ∀ part ∈ inOrder, ∀ e, ¬ Breaks S.homes es part e) ∧
      (∀ e, Configuration.read t S p = .error e ↔ FirstBreak (Breaks S.homes es) inOrder e) ∧
      (∀ e, Configuration.read t S p = .error e → (∃ f, e = .configuration f) ∨ IsUnreported e) ∧
      ∀ c, Configuration.read t S p = .ok c → c.root = file.dropLast ∧ c.IsUsable ∧
        ∀ kind ∈ GeneratorKind.all, ∀ word, ((lookup kind).valueIn es).Writes word →
          ∃ m ∈ LookupMode.all, m.word = word ∧
            ∃ s, (kind, s) ∈ c.generators ∧ s.lookup = some m := by
  rw [h.read_eq]
  refine ⟨fun hnone => ?_, fun es hes => ?_⟩
  · unfold Configuration.ofValue
    rw [documentEntries_refused hnone]
    rfl
  · have hread : Configuration.ofValue S.homes file.dropLast document =
        Configuration.ofEntries S.homes file.dropLast es := by
      unfold Configuration.ofValue
      rw [documentEntries_ok_iff.mpr hes]
      rfl
    rw [hread]
    have hfails : FailsBy (Breaks S.homes es)
        (Configuration.ofEntries S.homes file.dropLast es) inOrder := failsBy_ofEntries
    refine ⟨?_, hfails, ?_, ?_⟩
    · rw [← not_firstBreak_iff]
      constructor
      · rintro ⟨c, hc⟩ e hb
        cases hc.symm.trans ((hfails e).mpr hb)
      · intro hnone
        cases hcase : Configuration.ofEntries S.homes file.dropLast es with
        | ok c => exact ⟨c, rfl⟩
        | error e => exact absurd ((hfails e).mp hcase) (hnone e)
    · intro e he
      obtain ⟨part, hpart⟩ := exists_of_firstBreak ((hfails e).mp he)
      exact reported_or_unreported hpart
    · exact fun c hc => ⟨(parts_of_ofEntries hc).1, isUsable_of_ofEntries hc,
        fun kind hkind word => lookup_of_ofEntries hc hkind⟩

/-- A document that asks for the home of an account that does not exist. -/
def absentDocument : String := "output_dir: ~nobody/out\n"

def absentFiles : FileTree :=
  ⟨[(["p"], .directory), (["p", ".resolvergen.yml"], .file absentDocument.toUTF8)]⟩

/-- What it says. -/
def absentEntries : List (Value × Value) := [(.text "output_dir", .text "~nobody/out")]

/-- The reading ends, and no configuration reports why. -/
theorem absent_home_unreported :
    StatesDocument absentFiles {} (.ofLocation ["p"]) ["p", ".resolvergen.yml"]
      (.dict absentEntries) ∧
    Configuration.read absentFiles {} (.ofLocation ["p"]) = .error (.home .unknownAccount) ∧
    IsUnreported (.home .unknownAccount) := by
  have hcompose : Yaml.compose absentDocument = .ok (#[⟨.map, .entries [(1, 2)]⟩,
      ⟨.str, .scalar "output_dir"⟩, ⟨.str, .scalar "~nobody/out"⟩], some 0) := by
    decide +kernel
  have hload : Yaml.load absentDocument = .ok (.dict absentEntries) := by
    rw [Yaml.load_plain hcompose rfl (by decide +kernel)]
    rfl
  have hstates : StatesDocument absentFiles {} (.ofLocation ["p"]) ["p", ".resolvergen.yml"]
      (.dict absentEntries) := by
    refine ⟨by decide +kernel, absentDocument, by decide +kernel, ?_⟩
    rw [if_neg (by decide +kernel)]
    exact hload
  have hsilent : ∀ part, part ≠ outputDirectory → part.valueIn absentEntries = .null := by
    intro part hpart
    cases part with
    | outputDirectory => exact absurd rfl hpart
    | _ => rfl
  have hbreaks : Breaks {} absentEntries outputDirectory (.home .unknownAccount) :=
    .inr ⟨.unknownAccount, ⟨"~nobody/out", "nobody", ["out"], .text _, by decide +kernel,
      by decide +kernel⟩, rfl⟩
  refine ⟨hstates, ?_, .home _⟩
  refine (((configuration_settled hstates).2 _ (.entries _)).2.1 _).mpr ?_
  have hinOrder : inOrder = enabledKinds :: (GeneratorKind.all.flatMap ofKind ++
      [excludedSegments, excludedPaths, frontends]) ++
        outputDirectory :: [templates, debugDump, workers] := rfl
  rw [hinOrder, firstBreak_append]
  refine .inr ⟨not_firstBreak_iff.mpr fun part hpart e => not_breaks_of_null (hsilent part ?_),
    .here hbreaks⟩
  rintro rfl
  exact absurd hpart (by decide)

end FieldWiring
