import FieldWiring.Proofs.Walks.Comparing

/-!
# Imports with the root word

The root word before a reference or a marker is cut off when its name is read. It is not cut off the
target of an import. There it becomes a part of every name that the import stands for, and since no
declaration has a name with the root word, the import stands for nothing: what it brought in is not
found any more, and the search goes on as if there were no such import.

Results:
* `Thinned.findSome?`: a search that leaves out some elements misses hits among these only.
* `thinned_searchNames`: with the root word, an import adds names with the root word to a search.
* `rooted_import_dead`: such an import finds what is found without it.
-/

namespace FieldWiring

/-! ## Lists with elements left out -/

/-- The second list is the first one without some of the elements that have `Q`. -/
inductive Thinned {α : Type} (Q : α → Prop) : List α → List α → Prop
  | nil : Thinned Q [] []
  | keep {l m : List α} (a : α) : Thinned Q l m → Thinned Q (a :: l) (a :: m)
  | leave {l m : List α} {a : α} : Q a → Thinned Q l m → Thinned Q (a :: l) m

namespace Thinned

variable {α β : Type} {Q : α → Prop} {l l' m m' : List α}

theorem refl (Q : α → Prop) : ∀ l : List α, Thinned Q l l
  | [] => .nil
  | a :: l => .keep a (refl Q l)

theorem all (h : ∀ a ∈ l, Q a) : Thinned Q l [] := by
  induction l with
  | nil => exact .nil
  | cons a l ih =>
    obtain ⟨ha, hl⟩ := List.forall_mem_cons.mp h
    exact .leave ha (ih hl)

theorem append (h : Thinned Q l m) (h' : Thinned Q l' m') : Thinned Q (l ++ l') (m ++ m') := by
  induction h with
  | nil => exact h'
  | keep a _ ih => exact .keep a ih
  | leave ha _ ih => exact .leave ha ih

theorem filter (h : Thinned Q l m) (p : α → Bool) : Thinned Q (l.filter p) (m.filter p) := by
  induction h with
  | nil => exact .nil
  | @keep l m a _ ih =>
    by_cases ha : p a = true
    · rw [List.filter_cons_of_pos ha, List.filter_cons_of_pos ha]
      exact .keep a ih
    · rw [List.filter_cons_of_neg ha, List.filter_cons_of_neg ha]
      exact ih
  | @leave l m a hQ _ ih =>
    by_cases ha : p a = true
    · rw [List.filter_cons_of_pos ha]
      exact .leave hQ ih
    · rw [List.filter_cons_of_neg ha]
      exact ih

/-- What is left out may lead only to what may be left out. -/
theorem flatMap {R : β → Prop} {f : α → List β} (h : Thinned Q l m)
    (hf : ∀ a, Q a → ∀ b ∈ f a, R b) :
    Thinned R (l.flatMap f) (m.flatMap f) := by
  induction h with
  | nil => exact .nil
  | keep a _ ih =>
    rw [List.flatMap_cons, List.flatMap_cons]
    exact (refl R _).append ih
  | leave hQ _ ih =>
    rw [List.flatMap_cons]
    exact (all (hf _ hQ)).append ih

/-- Parts may be thinned one by one. -/
theorem flatMap_each {R : β → Prop} {f g : α → List β} (h : ∀ a, Thinned R (f a) (g a)) :
    ∀ l : List α, Thinned R (l.flatMap f) (l.flatMap g)
  | [] => .nil
  | a :: l => by
    rw [List.flatMap_cons, List.flatMap_cons]
    exact (h a).append (flatMap_each h l)

/-- A search that leaves out some elements misses hits among these only. -/
theorem findSome? (h : Thinned Q l m) (f : α → Option β) :
    l.findSome? f = m.findSome? f ∨ ∃ a b, Q a ∧ f a = some b ∧ l.findSome? f = some b := by
  induction h with
  | nil => exact .inl rfl
  | keep a _ ih =>
    rw [List.findSome?_cons, List.findSome?_cons]
    cases hfa : f a with
    | some b => exact .inl rfl
    | none => exact ih
  | @leave l m a hQ _ ih =>
    rw [List.findSome?_cons]
    cases hfa : f a with
    | some b => exact .inr ⟨a, b, hQ, hfa, rfl⟩
    | none => exact ih

end Thinned

/-! ## A gap among imports -/

/-- A corpus with a gap among the imports of one of its units. -/
structure ImportGap where
  unitsBefore : List SourceUnit := []
  path : String
  namespaces : List String := []
  importsBefore : List ImportDirective := []
  importsAfter : List ImportDirective := []
  unitsAfter : List SourceUnit := []
  declarations : List TypeDeclaration

namespace ImportGap

/-- The unit with the gap, filled with imports. -/
def filledUnit (p : ImportGap) (here : List ImportDirective) : SourceUnit :=
  ⟨p.path, p.importsBefore ++ here ++ p.importsAfter, p.namespaces⟩

/-- The corpus with its gap filled with imports. -/
def filled (p : ImportGap) (here : List ImportDirective) : Corpus :=
  ⟨p.unitsBefore ++ p.filledUnit here :: p.unitsAfter, p.declarations⟩

variable (p : ImportGap)

theorem isNamespace_filled (here there : List ImportDirective) (name : String) :
    (p.filled here).isNamespace name = (p.filled there).isNamespace name := by
  have hopened : (p.filled here).openedNamespaces = (p.filled there).openedNamespaces := by
    unfold Corpus.openedNamespaces filled
    rw [List.flatMap_append, List.flatMap_append, List.flatMap_cons, List.flatMap_cons]
    rfl
  exact Corpus.isNamespace_congr (fun n => hopened ▸ Iff.rfl) name

variable (i : ImportDirective)

theorem thinned_imports :
    Thinned (· = i) (p.filledUnit [i]).imports (p.filledUnit []).imports := by
  have hgap : Thinned (· = i) [i] [] := .leave rfl .nil
  exact ((Thinned.refl _ _).append hgap).append (.refl _ _)

theorem thinned_globalImports :
    Thinned (· = i) (p.filled [i]).globalImports (p.filled []).globalImports := by
  unfold Corpus.globalImports filled
  rw [List.flatMap_append, List.flatMap_append, List.flatMap_cons, List.flatMap_cons]
  exact ((Thinned.refl _ _).append ((p.thinned_imports i).append (.refl _ _))).filter _

/-- A path leads to the unit with the gap, or to one that does not depend on it. -/
theorem unitFor_filled (d : TypeDeclaration) :
    (∀ here, (p.filled here).unitFor d = p.filledUnit here) ∨
      ∃ u, ∀ here, (p.filled here).unitFor d = u := by
  unfold Corpus.unitFor Corpus.unitAt filled
  cases hbefore : p.unitsBefore.find? fun u => decide (u.path = d.unitPath) with
  | some u =>
    refine .inr ⟨u, fun here => ?_⟩
    rw [List.find?_append, hbefore]
    rfl
  | none =>
    by_cases hpath : p.path = d.unitPath
    · refine .inl fun here => ?_
      rw [List.find?_append, hbefore, Option.none_or,
        List.find?_cons_of_pos (by simpa [filledUnit] using hpath)]
      rfl
    · refine .inr ⟨(p.unitsAfter.find? fun u => decide (u.path = d.unitPath)).getD
        { path := d.unitPath }, fun here => ?_⟩
      rw [List.find?_append, hbefore, Option.none_or,
        List.find?_cons_of_neg (by simpa [filledUnit] using hpath)]

/-- An import at the root is an import more at the root, and no import more elsewhere. -/
theorem thinned_importsAt (hroot : i.scope = "") (d : TypeDeclaration) (scope : String) :
    Thinned (fun j => j = i ∧ scope = "")
      ((p.filled [i]).importsAt ((p.filled [i]).unitFor d) scope)
      ((p.filled []).importsAt ((p.filled []).unitFor d) scope) := by
  have hunit : Thinned (· = i) ((p.filled [i]).unitFor d).imports
      ((p.filled []).unitFor d).imports := by
    rcases p.unitFor_filled d with hgap | ⟨u, hother⟩
    · rw [hgap, hgap]
      exact p.thinned_imports i
    · rw [hother, hother]
      exact .refl _ _
  unfold Corpus.importsAt
  by_cases hscope : scope = ""
  · have hall := (hunit.filter fun j => decide (j.scope = scope) && !j.isGlobal).append
      (p.thinned_globalImports i)
    simp only [hscope, if_true, and_true] at hall ⊢
    exact hall
  · -- elsewhere the import does not hold
    have hown : ∀ {l m : List ImportDirective}, Thinned (· = i) l m →
        l.filter (fun j => decide (j.scope = scope) && !j.isGlobal) =
          m.filter fun j => decide (j.scope = scope) && !j.isGlobal := by
      intro l m h
      induction h with
      | nil => rfl
      | keep a _ ih => rw [List.filter_cons, List.filter_cons, ih]
      | leave heq _ ih =>
        rw [heq, List.filter_cons_of_neg (by simp [hroot, Ne.symm hscope]), ih]
    rw [if_neg hscope, if_neg hscope, List.append_nil, List.append_nil, hown hunit]
    exact .refl _ _

end ImportGap

/-! ## Targets with the root word -/

/-- The import with the root word before its target. -/
def ImportDirective.rooted (i : ImportDirective) : ImportDirective :=
  { i with target := String.ofList globalLead ++ i.target }

/-- The name begins with the root word. -/
def HasRootWord (name : String) : Prop := globalLead <+: name.toList

instance (name : String) : Decidable (HasRootWord name) :=
  inferInstanceAs (Decidable (globalLead <+: name.toList))

theorem hasRootWord_append (s : String) : HasRootWord (String.ofList globalLead ++ s) := by
  rw [HasRootWord, String.toList_append, String.toList_ofList]
  exact List.prefix_append _ _

theorem HasRootWord.append {s : String} (h : HasRootWord s) (t : String) :
    HasRootWord (s ++ t) := by
  rw [HasRootWord, String.toList_append]
  exact h.trans (List.prefix_append _ _)

theorem HasRootWord.qualify {s : String} (h : HasRootWord s) (t : String) :
    HasRootWord (FieldWiring.qualify s t) := by
  have hne : s ≠ "" := by
    rintro rfl
    exact absurd h (by decide +kernel)
  unfold FieldWiring.qualify
  rw [if_neg hne]
  exact (h.append ".").append t

/-- At the root, an import with the root word stands for names with the root word, whatever it
renames or brings in. -/
theorem hasRootWord_of_rooted {c : Corpus} {i : ImportDirective} (hroot : i.scope = "")
    {name n : String} (hn : n ∈ Corpus.renamedNames "" name i.rooted ∨
      n ∈ c.importedNames name i.rooted) : HasRootWord n := by
  have htarget : HasRootWord i.rooted.target := hasRootWord_append i.target
  have hscopes : enclosingScopes "" = [""] := by decide +kernel
  rcases hn with hn | hn
  · unfold Corpus.renamedNames at hn
    simp only [hscopes, List.map_cons, List.map_nil, qualify_empty] at hn
    split at hn
    · rw [List.mem_singleton] at hn
      rw [hn]
      split
      · exact htarget
      · exact htarget.qualify _
    · exact absurd hn List.not_mem_nil
  · unfold Corpus.importedNames at hn
    split at hn
    · -- read at the root, the target is the namespace
      have hsame : (c.resolveNamespace i.rooted).getD i.rooted.target = i.rooted.target := by
        have hkind : i.rooted.kind = .names := ‹_›
        have hscope : i.rooted.scope = "" := hroot
        unfold Corpus.resolveNamespace
        rw [hkind, hscope, hscopes]
        simp only [List.map_cons, List.map_nil, qualify_empty, List.find?_cons, List.find?_nil]
        split <;> rfl
      rw [hsame, List.mem_singleton] at hn
      rw [hn]
      exact htarget.qualify _
    · exact absurd hn List.not_mem_nil

/-- With the root word before its target, an import at the root adds names with the root word to
what a reference stands for. -/
theorem thinned_searchNames (p : ImportGap) {i : ImportDirective} (hroot : i.scope = "")
    (r : TypeReference) (context : TypeDeclaration) :
    Thinned HasRootWord ((p.filled [i.rooted]).searchNames r context)
      ((p.filled []).searchNames r context) := by
  have hscope : ∀ scope, Thinned HasRootWord
      ((p.filled [i.rooted]).namesAt ((p.filled [i.rooted]).unitFor context) r.name scope)
      ((p.filled []).namesAt ((p.filled []).unitFor context) r.name scope) := by
    intro scope
    have himports := p.thinned_importsAt i.rooted hroot context scope
    have hsame : (p.filled [i.rooted]).importedNames r.name = (p.filled []).importedNames r.name :=
      funext (Corpus.importedNames_congr (p.isNamespace_filled _ _) r.name)
    unfold Corpus.namesAt
    refine .keep _ ((himports.flatMap ?_).append ?_)
    · rintro j ⟨rfl, rfl⟩ n hn
      exact hasRootWord_of_rooted (c := p.filled []) hroot (.inl hn)
    · rw [hsame]
      refine himports.flatMap ?_
      rintro j ⟨rfl, -⟩ n hn
      exact hasRootWord_of_rooted hroot (.inr hn)
  unfold Corpus.searchNames
  split
  · exact .nil
  · split
    · exact .refl _ _
    · exact (Thinned.refl _ _).append (Thinned.flatMap_each hscope _)

/-- **With the root word before its target, an import at the root is dead.** Wherever it stands in a
corpus and whether it is global or not, a reference denotes what it denotes without the import,
unless that is a declaration whose name has the root word itself. Where no declaration is named so,
putting the root word before the target of an import keeps what a reference denotes iff the
reference does not need the import. -/
theorem rooted_import_dead (p : ImportGap) (i : ImportDirective) (hroot : i.scope = "")
    (r : TypeReference) (context : TypeDeclaration) :
    ((p.filled [i.rooted]).resolve r context = (p.filled []).resolve r context ∨
      ∃ d, (p.filled [i.rooted]).resolve r context = some d ∧ HasRootWord d.qualifiedName) ∧
    ((∀ d ∈ p.declarations, ¬ HasRootWord d.qualifiedName) →
      ((p.filled [i.rooted]).resolve r context = (p.filled [i]).resolve r context ↔
        (p.filled []).resolve r context = (p.filled [i]).resolve r context)) := by
  have hlookup : ∀ name, (p.filled [i.rooted]).lookup name r.arity =
      (p.filled []).lookup name r.arity :=
    fun _ => rfl
  have hdead : (p.filled [i.rooted]).resolve r context = (p.filled []).resolve r context ∨
      ∃ d, (p.filled [i.rooted]).resolve r context = some d ∧ HasRootWord d.qualifiedName := by
    unfold Corpus.resolve
    rw [← funext hlookup]
    rcases (thinned_searchNames p hroot r context).findSome?
        ((p.filled [i.rooted]).lookup · r.arity) with hsame | ⟨name, d, hname, hd, hfound⟩
    · exact .inl hsame
    · have hkey : d.qualifiedName = name := congrArg TypeKey.name (Corpus.lookup_key hd)
      exact .inr ⟨d, hfound, hkey ▸ hname⟩
  refine ⟨hdead, fun hnone => ?_⟩
  rcases hdead with hsame | ⟨d, hd, hname⟩
  · rw [hsame]
  · have hmem : d ∈ p.declarations := Corpus.resolve_mem hd
    exact absurd hname (hnone d hmem)

/-- A lamp of another namespace. -/
def lamp : TypeDeclaration :=
  { name := "Lamp", unitPath := "lamp.cs", namespaceName := some "Light" }

/-- A desk whose unit brings in the lamp's namespace. -/
def desk : TypeDeclaration :=
  { name := "Desk", unitPath := "desk.cs", namespaceName := some "Room" }

/-- The import of the desk's unit. -/
def lampImport : ImportDirective := { text := "using Light;", target := "Light" }

/-- The corpus of both, with a gap in the place of the import. -/
def study : ImportGap := { path := "desk.cs", namespaces := ["Room"], declarations := [lamp, desk] }

theorem lamp_lost_from_desk :
    lampImport.scope = "" ∧ (∀ d ∈ study.declarations, ¬ HasRootWord d.qualifiedName) ∧
      (study.filled [lampImport]).resolve ⟨"Lamp"⟩ desk = some lamp ∧
      (study.filled [lampImport.rooted]).resolve ⟨"Lamp"⟩ desk ≠
        (study.filled [lampImport]).resolve ⟨"Lamp"⟩ desk := by
  have hnone : ∀ d ∈ study.declarations, ¬ HasRootWord d.qualifiedName := by decide +kernel
  have hneeded : (study.filled []).resolve ⟨"Lamp"⟩ desk ≠
      (study.filled [lampImport]).resolve ⟨"Lamp"⟩ desk := by decide +kernel
  have hiff := (rooted_import_dead study lampImport rfl ⟨"Lamp"⟩ desk).2 hnone
  exact ⟨rfl, hnone, by decide +kernel, fun hsame => hneeded (hiff.mp hsame)⟩

end FieldWiring
