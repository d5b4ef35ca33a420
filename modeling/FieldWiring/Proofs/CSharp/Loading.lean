import FieldWiring.Frontend
import FieldWiring.Proofs.CSharp.Lines
import FieldWiring.Proofs.CSharp.Places
import FieldWiring.Proofs.Generation.Verdict

/-!
# Loading sources

The C# frontend reads the sources of a manifest one by one and puts together what each of them
declares. A source that cannot be read is passed over. `declaredAt` is what one source has a part
in.

Results:
* `loads_iff`: loading fails only on a path that no system could look up.
* `corpus_of_loadSources`: the corpus is what the sources declare, in the order of the manifest.
* `loadSources_passes`: a source that cannot be read makes no difference.
* `declarations_placed`: whatever is declared is placed where it stands, source by source.
-/

namespace FieldWiring.CSharp

variable {t : FileTree} {root : String}

/-! ## Single sources -/

/-- The text of a source of a project, if it can be read. -/
def textAt (t : FileTree) (root path : String) : Option String :=
  match t.read [] ((Path.ofText root).joinText path) with
  | .ok content => sourceText? content
  | .error _ => none

/-- The path of a source can be looked up, whatever is found there. -/
def IsNameable (t : FileTree) (root path : String) : Prop :=
  ∀ e, t.read [] ((Path.ofText root).joinText path) = .error e → e.cause.isUnwritable = false

/-- What a file of a project declares: nothing, unless it is a C# source that can be read. -/
def declaredAt (t : FileTree) (root : String) (f : SourceFile) :
    Option (SourceUnit × List TypeDeclaration) :=
  if isSourcePath f.path then (textAt t root f.path).map (parseSource f.path) else none

/-- A source whose path can be looked up is read or noted. -/
theorem readSource_ok_iff {path : String} :
    (∃ x, readSource t root path = .ok x) ↔ IsNameable t root path := by
  unfold readSource IsNameable
  cases hread : t.read [] ((Path.ofText root).joinText path) with
  | ok content => cases hcontent : sourceText? content <;> simp [hcontent]
  | error e => cases hcause : e.cause.isUnwritable <;> simp [hcause]

theorem readSource_toOption {path : String} {x : Except Note String}
    (h : readSource t root path = .ok x) : x.toOption = textAt t root path := by
  unfold readSource at h
  unfold textAt
  cases hread : t.read [] ((Path.ofText root).joinText path) with
  | ok content =>
    rw [hread] at h
    cases hcontent : sourceText? content with
    | none =>
      simp only [hcontent] at h
      rw [← Except.ok.inj h]
      exact hcontent.symm
    | some text =>
      simp only [hcontent] at h
      rw [← Except.ok.inj h]
      exact hcontent.symm
  | error e =>
    rw [hread] at h
    cases hcause : e.cause.isUnwritable with
    | true => simp [hcause] at h
    | false =>
      simp only [hcause] at h
      rw [← Except.ok.inj h]
      rfl

/-! ## All sources -/

/-- What becomes of a source while a project is loaded. -/
def loadOne (t : FileTree) (root : String) (f : SourceFile) :
    Except RunError (Except Note (SourceUnit × List TypeDeclaration)) := do
  match ← readSource t root f.path with
  | .ok text => return .ok (← parse true f.path text)
  | .error note => return .error note

/-- A source that is read is parsed, and a note is handed on. -/
theorem loadOne_eq (f : SourceFile) :
    loadOne t root f = (readSource t root f.path).map (·.map (parseSource f.path)) := by
  unfold loadOne
  rcases readSource t root f.path with e | (note | text) <;> rfl

theorem loadOne_ok_iff {f : SourceFile} {x : Except Note (SourceUnit × List TypeDeclaration)} :
    loadOne t root f = .ok x ↔
      ∃ y, readSource t root f.path = .ok y ∧ x = y.map (parseSource f.path) := by
  rw [loadOne_eq]
  cases readSource t root f.path with
  | error e => exact iff_of_false (nomatch ·) fun ⟨_, h, _⟩ => nomatch h
  | ok y =>
    constructor
    · exact fun h => ⟨y, rfl, (Except.ok.inj h).symm⟩
    · rintro ⟨_, hy, rfl⟩
      rw [← Except.ok.inj hy]
      rfl

/-- The C# sources of a manifest. -/
def csharpSources (m : SourceManifest) : List SourceFile :=
  m.files.filter fun f => isSourcePath f.path

/-- What the sources of a manifest declare, in its order. -/
def declaredBy (t : FileTree) (m : SourceManifest) : List (SourceUnit × List TypeDeclaration) :=
  m.files.filterMap (declaredAt t m.root)

theorem declaredBy_eq (t : FileTree) (m : SourceManifest) :
    declaredBy t m =
      (csharpSources m).filterMap fun f => (textAt t m.root f.path).map (parseSource f.path) := by
  unfold declaredBy csharpSources
  rw [List.filterMap_filter]
  rfl

theorem parsed_of_loadOne {fs : List SourceFile}
    {xs : List (Except Note (SourceUnit × List TypeDeclaration))}
    (h : List.Forall₂ (fun f x => loadOne t root f = .ok x) fs xs) :
    xs.filterMap Except.toOption =
      fs.filterMap fun f => (textAt t root f.path).map (parseSource f.path) := by
  induction h with
  | nil => rfl
  | @cons f x fs xs hx _ ih =>
    obtain ⟨y, hy, rfl⟩ := loadOne_ok_iff.mp hx
    rw [List.filterMap_cons, List.filterMap_cons, ← readSource_toOption hy, ih]
    cases y <;> rfl

theorem loadSources_ok {m : SourceManifest}
    {xs : List (Except Note (SourceUnit × List TypeDeclaration))}
    (h : (csharpSources m).mapM (loadOne t m.root) = .ok xs) : ∃ notes, loadSources true t m =
      .ok (.ofSources ((declaredBy t m).map (·.1)) ((declaredBy t m).flatMap (·.2)), notes) := by
  have hload : loadSources true t m = ((csharpSources m).mapM (loadOne t m.root) >>= _) := rfl
  rw [declaredBy_eq, ← parsed_of_loadOne (mapM_ok_iff.mp h), hload, h]
  exact ⟨_, rfl⟩

theorem loadSources_error {m : SourceManifest} {e : RunError}
    (h : (csharpSources m).mapM (loadOne t m.root) = .error e) :
    loadSources true t m = .error e := by
  have hload : loadSources true t m = ((csharpSources m).mapM (loadOne t m.root) >>= _) := rfl
  rw [hload, h]
  rfl

/-- **Loading fails only on a path that no system could look up.** -/
theorem loads_iff {m : SourceManifest} : (∃ r, loadSources true t m = .ok r) ↔
    ∀ f ∈ csharpSources m, IsNameable t m.root f.path := by
  have hone : ∀ f, (∃ x, loadOne t m.root f = .ok x) ↔ IsNameable t m.root f.path := by
    intro f
    rw [← readSource_ok_iff]
    constructor
    · rintro ⟨x, hx⟩
      obtain ⟨y, hy, -⟩ := loadOne_ok_iff.mp hx
      exact ⟨y, hy⟩
    · rintro ⟨y, hy⟩
      exact ⟨_, loadOne_ok_iff.mpr ⟨y, hy, rfl⟩⟩
  simp only [← hone]
  rw [← mapM_ends]
  constructor
  · rintro ⟨r, hr⟩
    cases hx : (csharpSources m).mapM (loadOne t m.root) with
    | error e => cases hr.symm.trans (loadSources_error hx)
    | ok xs => exact ⟨xs, rfl⟩
  · rintro ⟨xs, hxs⟩
    obtain ⟨notes, hnotes⟩ := loadSources_ok hxs
    exact ⟨_, hnotes⟩

/-- **The corpus is what the sources declare**, in the order of the manifest. -/
theorem corpus_of_loadSources {m : SourceManifest} {corpus : Corpus} {notes : List Note}
    (h : loadSources true t m = .ok (corpus, notes)) :
    corpus = .ofSources ((declaredBy t m).map (·.1)) ((declaredBy t m).flatMap (·.2)) := by
  cases hx : (csharpSources m).mapM (loadOne t m.root) with
  | error e => cases h.symm.trans (loadSources_error hx)
  | ok xs =>
    obtain ⟨notes', hnotes⟩ := loadSources_ok hx
    exact (Prod.mk.inj (Except.ok.inj (h.symm.trans hnotes))).1

theorem placeUnit_of_fresh {u : SourceUnit} {us : List SourceUnit} (h : u.path ∉ us.map (·.path)) :
    FieldWiring.placeUnit u us = us ++ [u] := by
  induction us with
  | nil => rfl
  | cons v us ih =>
    rw [List.map_cons, List.mem_cons, not_or] at h
    rw [FieldWiring.placeUnit, if_neg (Ne.symm h.1), ih h.2, List.cons_append]

/-- Units of different paths are kept as they come. -/
theorem units_ofSources {us : List SourceUnit} (h : (us.map (·.path)).Nodup)
    (ds : List TypeDeclaration) : (Corpus.ofSources us ds).units = us := by
  have hfrom : ∀ (us earlier : List SourceUnit), ((earlier ++ us).map (·.path)).Nodup →
      us.foldl (fun vs u => FieldWiring.placeUnit u vs) earlier = earlier ++ us := by
    intro us
    induction us with
    | nil => exact fun earlier _ => (List.append_nil earlier).symm
    | cons u us ih =>
      intro earlier hnodup
      have hfresh : u.path ∉ earlier.map (·.path) := by
        rw [List.map_append, List.map_cons, List.nodup_append] at hnodup
        exact fun hmem => hnodup.2.2 _ hmem _ List.mem_cons_self rfl
      rw [List.append_cons] at hnodup ⊢
      rw [List.foldl_cons, placeUnit_of_fresh hfresh, ih _ hnodup]
  exact hfrom us [] h

/-- The units of sources with different paths have different paths. -/
theorem nodup_paths {m : SourceManifest} (h : (m.files.map (·.path)).Nodup) :
    (((declaredBy t m).map (·.1)).map (·.path)).Nodup := by
  have hpath : ∀ {f x}, declaredAt t m.root f = some x → x.1.path = f.path := by
    intro f x hx
    unfold declaredAt at hx
    split at hx
    · obtain ⟨text, -, rfl⟩ := Option.map_eq_some_iff.mp hx
      rfl
    · cases hx
  have hsub : ∀ fs : List SourceFile,
      (((fs.filterMap (declaredAt t m.root)).map (·.1)).map (·.path)).Sublist
      (fs.map (·.path)) := by
    intro fs
    induction fs with
    | nil => exact .refl _
    | cons f fs ih =>
      rw [List.filterMap_cons]
      cases hx : declaredAt t m.root f with
      | none => exact ih.cons _
      | some x =>
        rw [List.map_cons, List.map_cons, List.map_cons, hpath hx]
        exact ih.cons_cons _
  exact h.sublist (hsub m.files)

/-- **A source that cannot be read makes no difference** but for the notes. -/
theorem loadSources_passes {m : SourceManifest} {before after : List SourceFile} {f : SourceFile}
    (hm : m.files = before ++ f :: after) (hf : declaredAt t m.root f = none) {corpus : Corpus}
    {notes : List Note} (h : loadSources true t m = .ok (corpus, notes)) :
    ∃ notes', loadSources true t { m with files := before ++ after } = .ok (corpus, notes') := by
  have hsame : declaredBy t { m with files := before ++ after } = declaredBy t m := by
    unfold declaredBy
    rw [hm, List.filterMap_append, List.filterMap_append, List.filterMap_cons, hf]
  have hnameable : ∀ f ∈ csharpSources { m with files := before ++ after },
      IsNameable t m.root f.path := by
    intro g hg
    obtain ⟨hg, hpath⟩ := List.mem_filter.mp hg
    refine loads_iff.mp ⟨_, h⟩ g (List.mem_filter.mpr ⟨?_, hpath⟩)
    rw [hm]
    rcases List.mem_append.mp hg with hg | hg
    · exact List.mem_append_left _ hg
    · exact List.mem_append_right _ (List.mem_cons_of_mem f hg)
  obtain ⟨⟨corpus', notes'⟩, hr⟩ := loads_iff.mpr hnameable
  refine ⟨notes', ?_⟩
  rw [hr, corpus_of_loadSources hr, hsame, ← corpus_of_loadSources h]

/-! ## Sources, declarations and places -/

/-- **Whatever is declared is placed where it stands.** Let a source be read as a compilation unit.
It declares each of its types and lists each of its imports once, in source order and on lines that
never fall; a type has the types around it and both are in the namespaces with braces around them,
or, where there are none, in the namespace for the rest of the file that stands before them. That
are all namespaces around them, except in a block behind a namespace for the rest of the file, which
is forgotten there. What is declared stands in the root or in a listed namespace. A manifest is
loaded source by source, in its order, and a source that cannot be read makes no difference; loading
fails only on a path that no system could look up. -/
theorem declarations_placed {path source : String}
    (h : isUnit (readUnit (trees source.toList)) = true) (t : FileTree) (m : SourceManifest) :
    (Placement path (readUnit (trees source.toList)) (parseSource path source).1
        (parseSource path source).2 ∧
      (parseSource path source).2.Pairwise (fun a b => a.line ≤ b.line) ∧
      ∀ p, placedIn (readUnit (trees source.toList)) p =
        enclosing (readUnit (trees source.toList)) p ↔
        blocksAround (readUnit (trees source.toList)) p = [] ∨
          fileScopeAt (readUnit (trees source.toList)) p = none) ∧
    ((∃ r, loadSources true t m = .ok r) ↔ ∀ f ∈ csharpSources m, IsNameable t m.root f.path) ∧
    ∀ corpus notes, loadSources true t m = .ok (corpus, notes) →
      corpus.declarations = (declaredBy t m).flatMap (·.2) ∧
      ((m.files.map (·.path)).Nodup → corpus.units = (declaredBy t m).map (·.1)) ∧
      ∀ before f after, m.files = before ++ f :: after → declaredAt t m.root f = none →
        ∃ notes', loadSources true t { m with files := before ++ after } =
          .ok (corpus, notes') := by
  refine ⟨⟨placement_placeUnit path h, lines_parseSource path source,
    fun _ => placedIn_eq_enclosing⟩, loads_iff, fun corpus notes hload => ⟨?_, ?_, ?_⟩⟩
  · rw [corpus_of_loadSources hload]
    rfl
  · intro hnodup
    rw [corpus_of_loadSources hload, units_ofSources (nodup_paths hnodup)]
  · exact fun before f after hm hf => loadSources_passes hm hf hload

/-- A block behind a namespace for the rest of the file. -/
def boxedSource : String := "namespace A;\nnamespace B { class C {} }"

/-- The class stands in both namespaces and is declared in the inner one alone. -/
theorem boxed_placed :
    isUnit (readUnit (trees boxedSource.toList)) = true ∧
    enclosing (readUnit (trees boxedSource.toList)) [1, 0] = ["A", "B"] ∧
    (parseSource "a.cs" boxedSource).2.map (fun d => (d.name, d.namespaceName)) =
      [("C", some "B")] ∧
    Placement "a.cs" (readUnit (trees boxedSource.toList)) (parseSource "a.cs" boxedSource).1
      (parseSource "a.cs" boxedSource).2 := by
  have hunit : isUnit (readUnit (trees boxedSource.toList)) = true := by decide +kernel
  refine ⟨hunit, by decide +kernel, by decide +kernel, ?_⟩
  exact (declarations_placed hunit ⟨[]⟩ { root := "" }).1.1

end FieldWiring.CSharp
