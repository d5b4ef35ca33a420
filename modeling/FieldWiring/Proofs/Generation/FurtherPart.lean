import FieldWiring.Project
import FieldWiring.Proofs.Sessions.Course
import FieldWiring.Proofs.Text.Leading
import FieldWiring.Proofs.Walks.Comparing

/-!
# A further part of a type

The first part of a partial type is the one that names denote. So a part that is declared later, in
a unit of its own, is never found. If its unit opens no new namespace and imports nothing globally,
every name is read as before, and if it is no candidate itself, a generator does the same as before.

Results:
* `Extends.lookup_eq`, `Extends.isNamespace_eq`: names and namespaces are what they were.
* `Extends.walkHierarchy_eq`, `Extends.climb_eq`: so are walks and chains.
* `part_unnoticed`: every answer and everything that a generator does is as it was.
-/

namespace FieldWiring

/-- The corpus `c'` is `c` with a further part of one of its types behind all declarations, and with
a unit of a new path anywhere among the units. The unit imports nothing globally and opens only
namespaces that `c` knows. -/
structure Extends (c : Corpus) (part : TypeDeclaration) (u : SourceUnit) (c' : Corpus) : Prop where
  declarations : c'.declarations = c.declarations ++ [part]
  units : ∃ before after, c.units = before ++ after ∧ c'.units = before ++ u :: after
  further : ∃ d ∈ c.declarations, d.scope = part.scope ∧ d.containingTypes = part.containingTypes ∧
    d.name = part.name ∧ d.arity = part.arity
  fresh_unit : ∀ v ∈ c.units, v.path ≠ u.path
  fresh_path : ∀ d ∈ c.declarations, d.unitPath ≠ u.path
  no_globals : ∀ i ∈ u.imports, i.isGlobal = false
  known : ∀ n ∈ u.namespaces, c.isNamespace n = true

namespace Extends

variable {c c' : Corpus} {part : TypeDeclaration} {u : SourceUnit} (h : Extends c part u c')
include h

/-! ## Names -/

/-- A type of the corpus has the key of the further part. -/
theorem key_mem : ∃ d ∈ c.declarations, d.key = part.key := by
  obtain ⟨d, hd, hscope, htypes, hname, harity⟩ := h.further
  refine ⟨d, hd, ?_⟩
  unfold TypeDeclaration.key TypeDeclaration.qualifiedName
  rw [hscope, htypes, hname, harity]

/-- Lookups find what they found. -/
theorem lookup_eq (name : String) (arity : Nat) : c'.lookup name arity = c.lookup name arity := by
  unfold Corpus.lookup
  rw [h.declarations, List.find?_append]
  cases hfound : c.declarations.find? fun d => decide (d.key = ⟨name, arity⟩) with
  | some d => rfl
  | none =>
    -- the further part has no other key than the first one
    obtain ⟨d, hd, hkey⟩ := h.key_mem
    have hother : part.key ≠ ⟨name, arity⟩ := by
      have hne := List.find?_eq_none.mp hfound d hd
      rw [hkey] at hne
      simpa using hne
    rw [Option.none_or, List.find?_cons_of_neg (by simpa using hother), List.find?_nil]

/-- The same names are namespaces. -/
theorem isNamespace_eq (name : String) : c'.isNamespace name = c.isNamespace name := by
  obtain ⟨before, after, hold, hnew⟩ := h.units
  have hopened : ∀ n, n ∈ c'.openedNamespaces ↔
      n ∈ c.openedNamespaces ∨ n = part.scope ∨ n ∈ u.namespaces := by
    intro n
    unfold Corpus.openedNamespaces
    rw [h.declarations, hold, hnew]
    simp only [List.map_append, List.map_cons, List.map_nil, List.flatMap_append,
      List.flatMap_cons, List.mem_append, List.mem_singleton]
    grind
  unfold Corpus.isNamespace
  rw [Bool.eq_iff_iff, List.any_eq_true, List.any_eq_true]
  constructor
  · rintro ⟨n, hn, hname⟩
    rcases (hopened n).mp hn with hopen | rfl | hunit
    · exact ⟨n, hopen, hname⟩
    · -- the namespace of the part is that of the first part
      obtain ⟨d, hd, hscope, -⟩ := h.further
      exact ⟨_, List.mem_append_left _ (List.mem_map.mpr ⟨d, hd, hscope⟩), hname⟩
    · obtain ⟨m, hm, hknown⟩ := List.any_eq_true.mp (h.known n hunit)
      rw [List.contains_iff_mem] at hname hknown
      exact ⟨m, hm, List.contains_iff_mem.mpr (mem_leadingNames_trans hname hknown)⟩
  · rintro ⟨n, hn, hname⟩
    exact ⟨n, (hopened n).mpr (.inl hn), hname⟩

/-- A declaration that was there stands in the unit in which it stood. -/
theorem unitFor_eq {d : TypeDeclaration} (hd : d ∈ c.declarations) :
    c'.unitFor d = c.unitFor d := by
  obtain ⟨before, after, hold, hnew⟩ := h.units
  have hother : u.path ≠ d.unitPath := (h.fresh_path d hd).symm
  unfold Corpus.unitFor Corpus.unitAt
  rw [hold, hnew, List.find?_append, List.find?_append,
    List.find?_cons_of_neg (by simpa using hother)]

theorem globalImports_eq : c'.globalImports = c.globalImports := by
  obtain ⟨before, after, hold, hnew⟩ := h.units
  have hnone : u.imports.filter (·.isGlobal) = [] :=
    List.filter_eq_nil_iff.mpr fun i hi => by simp [h.no_globals i hi]
  unfold Corpus.globalImports
  rw [hold, hnew, List.flatMap_append, List.flatMap_append, List.flatMap_cons, List.filter_append,
    List.filter_append, List.filter_append, hnone, List.nil_append]

/-- References denote what they denoted. -/
theorem resolve_eq {d : TypeDeclaration} (hd : d ∈ c.declarations) (r : TypeReference) :
    c'.resolve r d = c.resolve r d := by
  have hnames : c'.searchNames r d = c.searchNames r d :=
    Corpus.searchNames_congr h.isNamespace_eq h.globalImports_eq
      (congrArg SourceUnit.imports (h.unitFor_eq hd)) r
  have hlookup : (c'.lookup · r.arity) = (c.lookup · r.arity) :=
    funext fun name => h.lookup_eq name r.arity
  unfold Corpus.resolve
  rw [hnames, hlookup]

/-- The imports of a declaration's unit are stated as they were. -/
theorem importsFor_eq {d : TypeDeclaration} (hd : d ∈ c.declarations) :
    c'.importsFor d = c.importsFor d :=
  Corpus.importsFor_congr h.isNamespace_eq (congrArg SourceUnit.imports (h.unitFor_eq hd))

/-! ## Walks -/

theorem climb_eq {d : TypeDeclaration} (hd : d ∈ c.declarations) :
    climb c'.symbols [] d = climb c.symbols [] d := by
  refine (FieldWiring.climb_eq [] d fun e he base => ?_).symm
  rw [Corpus.symbols_resolve, Corpus.symbols_resolve]
  exact (h.resolve_eq (mem_declarations_of_climb hd e he) base).symm

theorem walkHierarchy_eq {d : TypeDeclaration} (hd : d ∈ c.declarations) (g : Generator) :
    walkHierarchy c' g c'.symbols d = walkHierarchy c g c.symbols d := by
  have hlevels : ∀ e ∈ walked g (climb c.symbols [] d).levels, e ∈ c.declarations := fun e he =>
    mem_declarations_of_climb hd e ((walked_sublist g _).subset he)
  refine (walkHierarchy_congr (fun e he => ?_) fun e he base _ => FindsAlike.of_eq ?_).symm
  · exact (h.importsFor_eq (hlevels e he)).symm
  · rw [Corpus.symbols_resolve, Corpus.symbols_resolve]
    exact (h.resolve_eq (hlevels e he) base).symm

theorem walkNotes_eq {d : TypeDeclaration} (hd : d ∈ c.declarations) (g : Generator) :
    walkNotes c' g c'.symbols d = walkNotes c g c.symbols d := by
  unfold walkNotes
  rw [h.walkHierarchy_eq hd, h.climb_eq hd]

/-! ## Generators -/

theorem outcome_eq {d : TypeDeclaration} (hd : d ∈ c.declarations) (T : Templates) (g : Generator) :
    outcome T c' g c'.symbols d = outcome T c g c.symbols d := by
  unfold outcome
  rw [h.walkHierarchy_eq hd]

/-- A part that is no candidate leaves the candidates as they were. -/
theorem candidates_eq {g : Generator} {excluded : List String}
    (hpart : isCandidate g excluded part = false) :
    candidates c' g excluded = candidates c g excluded := by
  unfold candidates
  rw [h.declarations, List.filter_append, List.filter_cons_of_neg (by simp [hpart]),
    List.filter_nil, List.append_nil]

/-- The candidates come to the same, and the same is noted about them on the way. -/
theorem outcomes_eq {g : Generator} {excluded : List String}
    (hpart : isCandidate g excluded part = false) (E : Setting) (T : Templates) :
    E.outcomes T c' excluded g = E.outcomes T c excluded g := by
  unfold Setting.outcomes
  rw [h.candidates_eq hpart]
  refine bind_congr fun _ => mapM_congr fun d hd => ?_
  have hmem : d ∈ c.declarations := (mem_candidates.mp hd).1
  rw [h.walkNotes_eq hmem, h.outcome_eq hmem]

end Extends

/-- **A further part changes nothing else.** When a corpus gets a further part of one of its types,
in a unit that imports nothing globally and opens no new namespace, names, namespaces, references
and imports are read as before from every declaration that was there, and a generator for which the
part is no candidate has the same units, failures, reports and notes, in every setting. -/
theorem part_unnoticed {c c' : Corpus} {part : TypeDeclaration} {u : SourceUnit}
    (h : Extends c part u c') :
    (∀ name arity, c'.lookup name arity = c.lookup name arity) ∧
    (∀ name, c'.isNamespace name = c.isNamespace name) ∧
    (∀ d ∈ c.declarations, (∀ r, c'.resolve r d = c.resolve r d) ∧
      c'.importsFor d = c.importsFor d) ∧
    ∀ (g : Generator) (excluded : List String), isCandidate g excluded part = false →
      ∀ (E : Setting) (T : Templates),
        E.generateKind T c' excluded g = E.generateKind T c excluded g := by
  refine ⟨h.lookup_eq, h.isNamespace_eq, fun d hd => ⟨h.resolve_eq hd, h.importsFor_eq hd⟩, ?_⟩
  intro g excluded hpart E T
  unfold Setting.generateKind
  rw [h.outcomes_eq hpart]

/-- A singer has a field to assign. -/
def singer : TypeDeclaration where
  name := "Singer"
  unitPath := "singer.cs"
  namespaceName := some "Opera.Choir"
  modifiers := ["public", "partial"]
  fields := [⟨"Score", "score", [⟨"InjectDependency", []⟩], 3⟩]

/-- A second part of the singer, with a base type. -/
def singerAgain : TypeDeclaration where
  name := "Singer"
  unitPath := "singer.voice.cs"
  namespaceName := some "Opera.Choir"
  modifiers := ["partial"]
  baseTypes := [⟨"Voice"⟩]

/-- A base type that has a field to assign as well. -/
def voice : TypeDeclaration where
  name := "Voice"
  unitPath := "voice.cs"
  namespaceName := some "Opera"
  fields := [⟨"Pitch", "pitch", [⟨"InjectDependency", []⟩], 2⟩]

/-- The unit of the second part. -/
def singerUnit : SourceUnit where
  path := "singer.voice.cs"
  imports := [{ text := "using Opera;", target := "Opera" }]
  namespaces := ["Opera", "Opera.Choir"]

/-- The singer and the voice. -/
def opera : Corpus := .ofSources [⟨"singer.cs", [], []⟩, ⟨"voice.cs", [], []⟩] [singer, voice]

/-- The same with the second part, whose unit comes between theirs. -/
def operaAgain : Corpus :=
  .ofSources [⟨"singer.cs", [], []⟩, singerUnit, ⟨"voice.cs", [], []⟩] [singer, voice, singerAgain]

theorem singer_unnoticed :
    operaAgain.lookup "Opera.Choir.Singer" = opera.lookup "Opera.Choir.Singer" ∧
      operaAgain.importsFor singer = opera.importsFor singer ∧
      ({} : Setting).generateKind .standard operaAgain [] (.ofKind .dependency) =
        ({} : Setting).generateKind .standard opera [] (.ofKind .dependency) := by
  have hextends : Extends opera singerAgain singerUnit operaAgain := by
    refine ⟨rfl, ⟨[⟨"singer.cs", [], []⟩], [⟨"voice.cs", [], []⟩], ?_, ?_⟩,
      ⟨singer, List.mem_cons_self, ?_⟩, ?_, ?_, ?_, ?_⟩ <;> decide +kernel
  obtain ⟨hlookup, -, hold, hgenerator⟩ := part_unnoticed hextends
  exact ⟨hlookup _ _, (hold singer List.mem_cons_self).2,
    hgenerator (.ofKind .dependency) [] (by decide +kernel) {} .standard⟩

end FieldWiring
