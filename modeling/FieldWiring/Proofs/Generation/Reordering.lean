import FieldWiring.Proofs.Generation.Verdict
import FieldWiring.Proofs.Walks.Comparing
import Mathlib.Data.List.Nodup
import Mathlib.Data.List.Perm.Basic

/-!
# Declarations in another order

A corpus that declares no type twice is as good in any order of its declarations. A lookup then
finds the only declaration of its key, so every name, reference and chain is read in the same way.
The outcomes come in another order, but an outcome is settled by what the others claim, not by where
they stand. Only the list of claimants in the message about a shared name tells the orders apart.

Results:
* `lookup_reordered`, `walkHierarchy_reordered`: lookups and walks do not depend on the order.
* `settleOne_eq_verdictOn`: among outcomes of different candidates, a place counts for nothing.
* `outcomes_reordered`: neither do units and failures, up to the order in which they come.
-/

namespace FieldWiring

/-! ## Names -/

/-- The corpus with its declarations in another order. -/
def Corpus.reordered (c : Corpus) (ds : List TypeDeclaration) : Corpus :=
  { c with declarations := ds }

/-- In a corpus that declares no type twice, a lookup finds whatever has the key. -/
theorem lookup_eq_some_of_nodup {c : Corpus} (hkeys : (c.declarations.map (·.key)).Nodup)
    {name : String} {arity : Nat} {d : TypeDeclaration} :
    c.lookup name arity = some d ↔ d ∈ c.declarations ∧ d.key = ⟨name, arity⟩ := by
  constructor
  · exact fun h => ⟨Corpus.lookup_mem h, Corpus.lookup_key h⟩
  · rintro ⟨hd, hkey⟩
    cases hfound : c.lookup name arity with
    | none => exact absurd hkey (by simpa using List.find?_eq_none.mp hfound d hd)
    | some e =>
      have hsame : e.key = d.key := (Corpus.lookup_key hfound).trans hkey.symm
      rw [List.inj_on_of_nodup_map hkeys (Corpus.lookup_mem hfound) hd hsame]

section Reordered

variable {c : Corpus} {ds : List TypeDeclaration} (hkeys : (c.declarations.map (·.key)).Nodup)
  (hperm : ds.Perm c.declarations)
include hperm

theorem isNamespace_reordered (name : String) :
    c.isNamespace name = (c.reordered ds).isNamespace name := by
  refine Corpus.isNamespace_congr (fun n => ?_) name
  unfold Corpus.openedNamespaces Corpus.reordered
  rw [List.mem_append, List.mem_append, (hperm.map _).mem_iff]

include hkeys

theorem lookup_reordered (name : String) (arity : Nat) :
    c.lookup name arity = (c.reordered ds).lookup name arity := by
  have hkeys' : ((c.reordered ds).declarations.map (·.key)).Nodup :=
    (hperm.map _).nodup_iff.mpr hkeys
  ext d
  rw [lookup_eq_some_of_nodup hkeys, lookup_eq_some_of_nodup hkeys']
  exact and_congr_left' hperm.mem_iff.symm

theorem resolve_reordered (r : TypeReference) (d : TypeDeclaration) :
    c.resolve r d = (c.reordered ds).resolve r d := by
  have hlookup : (c.lookup · r.arity) = ((c.reordered ds).lookup · r.arity) :=
    funext fun name => lookup_reordered hkeys hperm name r.arity
  have hnames : c.searchNames r d = (c.reordered ds).searchNames r d :=
    Corpus.searchNames_congr (isNamespace_reordered hperm) rfl rfl r
  unfold Corpus.resolve
  rw [hlookup, hnames]

/-- A walk does not depend on the order of the declarations. -/
theorem walkHierarchy_reordered (g : Generator) (d : TypeDeclaration) :
    walkHierarchy c g c.symbols d =
      walkHierarchy (c.reordered ds) g (c.reordered ds).symbols d := by
  refine walkHierarchy_congr (fun e _ => ?_) fun e _ base _ => ?_
  · exact Corpus.importsFor_congr (isNamespace_reordered hperm) rfl
  · apply FindsAlike.of_eq
    rw [Corpus.symbols_resolve, Corpus.symbols_resolve]
    exact resolve_reordered hkeys hperm base e

theorem outcome_reordered (T : Templates) (g : Generator) (d : TypeDeclaration) :
    outcome T c g c.symbols d = outcome T (c.reordered ds) g (c.reordered ds).symbols d := by
  unfold outcome
  rw [walkHierarchy_reordered hkeys hperm]

/-- The outcomes of the reordered corpus are those of the corpus, in another order. -/
theorem mapM_reordered {T : Templates} {g : Generator} {excluded : List String} {os : List Outcome}
    (h : outcomes T c g c.symbols excluded = .ok os) :
    ∃ os', outcomes T (c.reordered ds) g (c.reordered ds).symbols excluded = .ok os' ∧
      os'.Perm os := by
  have hcandidates : (candidates (c.reordered ds) g excluded).Perm (candidates c g excluded) :=
    hperm.filter _
  obtain ⟨os', hos', hsame⟩ := List.perm_comp_forall₂ hcandidates (mapM_ok_iff.mp h)
  refine ⟨os', mapM_ok_iff.mpr (hos'.imp fun d o ho => ?_), hsame⟩
  exact (outcome_reordered hkeys hperm T g d).symm.trans ho

end Reordered

/-! ## Settling -/

/-- The outcomes that made a unit of a name for another candidate. -/
def rivalsOf (os : List Outcome) (o : Outcome) (hint : String) : List Outcome :=
  os.filter fun p => p.claims hint && decide (p.candidate ≠ o.candidate)

/-- What becomes of an outcome among others, wherever it stands. -/
def verdictOn (g : Generator) (os : List Outcome) (o : Outcome) : Except Failure GeneratedUnit :=
  match o.result with
  | .error cause => .error (.of g.kind.key o.candidate cause)
  | .ok u =>
    match rivalsOf os o u.hintName with
    | [] => .ok u
    | others =>
      .error (.of g.kind.key o.candidate
        (.sharedHint u.hintName (others.map fun other => claimant other.candidate)))

theorem map_zipIdx {α β : Type} (f : α → β) (as : List α) :
    (as.zipIdx.map fun q => f q.1) = as.map f := by
  have hmap : (as.zipIdx.map Prod.fst).map f = as.zipIdx.map fun q => f q.1 := List.map_map
  rw [← hmap, List.zipIdx_map_fst]

theorem filter_zipIdx {α : Type} (p : α → Bool) (as : List α) :
    (as.zipIdx.filter fun q => p q.1).map (·.1) = as.filter p := by
  have hfilter : (as.zipIdx.map Prod.fst).filter p =
      (as.zipIdx.filter fun q => p q.1).map Prod.fst := List.filter_map
  rw [← hfilter, List.zipIdx_map_fst]

/-- Among outcomes of different candidates, the rivals of one are those of other candidates. -/
theorem rivals_eq_rivalsOf {os : List Outcome} (hdistinct : (os.map (·.candidate)).Nodup) {i : Nat}
    {o : Outcome} (hi : os[i]? = some o) (hint : String) :
    rivals os i hint = rivalsOf os o hint := by
  have hplace : ∀ q ∈ os.zipIdx, (q.1.claims hint && decide (q.2 ≠ i)) =
      (q.1.claims hint && decide (q.1.candidate ≠ o.candidate)) := by
    rintro ⟨p, j⟩ hq
    have hj : os[j]? = some p := List.mk_mem_zipIdx_iff_getElem?.mp hq
    have hcandidate : p.candidate = o.candidate ↔ j = i := by
      constructor
      · intro h
        have hlt : j < (os.map (·.candidate)).length := by
          rw [List.length_map]
          exact (List.getElem?_eq_some_iff.mp hj).1
        refine (List.getElem?_inj hlt hdistinct).mp ?_
        rw [List.getElem?_map, List.getElem?_map, hj, hi, Option.map_some, Option.map_some, h]
      · rintro rfl
        rw [hi] at hj
        rw [Option.some.inj hj]
    exact congrArg (p.claims hint && ·) (decide_eq_decide.mpr (not_congr hcandidate.symm))
  unfold rivals rivalsOf
  rw [List.filter_congr hplace]
  exact filter_zipIdx (fun p => p.claims hint && decide (p.candidate ≠ o.candidate)) os

theorem settleOne_eq_verdictOn {g : Generator} {os : List Outcome}
    (hdistinct : (os.map (·.candidate)).Nodup) {i : Nat} {o : Outcome} (hi : os[i]? = some o) :
    settleOne g os o i = verdictOn g os o := by
  have hrivals := rivals_eq_rivalsOf hdistinct hi
  unfold settleOne verdictOn
  cases o.result with
  | error cause => rfl
  | ok u =>
    cases hothers : rivalsOf os o u.hintName with
    | nil => simp only [hrivals, hothers]
    | cons p ps => simp only [hrivals, hothers]

theorem settled_eq_map {g : Generator} {os : List Outcome}
    (hdistinct : (os.map (·.candidate)).Nodup) : settled g os = os.map (verdictOn g os) := by
  have hverdict : ∀ q ∈ os.zipIdx, settleOne g os q.1 q.2 = verdictOn g os q.1 := fun q hq =>
    settleOne_eq_verdictOn hdistinct (List.mem_zipIdx_iff_getElem?.mp hq)
  unfold settled
  rw [List.map_congr_left hverdict]
  exact map_zipIdx (verdictOn g os) os

/-! ## Failures up to the order of claimants -/

/-- Two failures that differ at most in the order in which the claimants of a shared name are
listed. -/
inductive SameFailure : Failure → Failure → Prop
  | same (f : Failure) : SameFailure f f
  | shared (kind : String) (d : TypeDeclaration) (hint : String) {others others' : List String}
    (h : others.Perm others') :
    SameFailure (.of kind d (.sharedHint hint others)) (.of kind d (.sharedHint hint others'))

/-- Two verdicts that differ at most in the order of the claimants. -/
inductive SameVerdict : Except Failure GeneratedUnit → Except Failure GeneratedUnit → Prop
  | unit (u : GeneratedUnit) : SameVerdict (.ok u) (.ok u)
  | failure {f f' : Failure} (h : SameFailure f f') : SameVerdict (.error f) (.error f')

/-- A verdict does not depend on the order of the outcomes. -/
theorem verdictOn_perm (g : Generator) {os os' : List Outcome} (h : os.Perm os') (o : Outcome) :
    SameVerdict (verdictOn g os o) (verdictOn g os' o) := by
  unfold verdictOn
  cases o.result with
  | error cause => exact .failure (.same _)
  | ok u =>
    have hrivals : (rivalsOf os o u.hintName).Perm (rivalsOf os' o u.hintName) := h.filter _
    simp only
    generalize rivalsOf os o u.hintName = others at hrivals ⊢
    generalize rivalsOf os' o u.hintName = others' at hrivals ⊢
    cases others with
    | nil =>
      obtain rfl := hrivals.nil_eq
      exact .unit u
    | cons other others =>
      cases others' with
      | nil => exact absurd hrivals.eq_nil (List.cons_ne_nil _ _)
      | cons other' others' => exact .failure (.shared _ _ _ (hrivals.map _))

theorem values_sameVerdict {vs vs' : List (Except Failure GeneratedUnit)}
    (h : List.Forall₂ SameVerdict vs vs') :
    values vs = values vs' ∧ List.Forall₂ SameFailure (errors vs) (errors vs') := by
  induction h with
  | nil => exact ⟨rfl, .nil⟩
  | cons hv _ ih =>
    cases hv with
    | unit u => exact ⟨congrArg (u :: ·) ih.1, ih.2⟩
    | failure hf => exact ⟨ih.1, .cons hf ih.2⟩

theorem values_perm {ε α : Type} {rs rs' : List (Except ε α)} (h : rs.Perm rs') :
    (values rs).Perm (values rs') ∧ (errors rs).Perm (errors rs') := by
  induction h with
  | nil => exact ⟨.nil, .nil⟩
  | cons r _ ih =>
    cases r with
    | ok a => exact ⟨ih.1.cons a, ih.2⟩
    | error e => exact ⟨ih.1, ih.2.cons e⟩
  | swap r s rs =>
    rcases r with e | a <;> rcases s with e' | b
    · exact ⟨.refl _, .swap ..⟩
    · exact ⟨.refl _, .refl _⟩
    · exact ⟨.refl _, .refl _⟩
    · exact ⟨.swap .., .refl _⟩
  | trans _ _ ih ih' => exact ⟨ih.1.trans ih'.1, ih.2.trans ih'.2⟩

/-- A result is another one in a different order: its units are the same, with their texts, and so
are its failures, but for the order in which the claimants of a shared name are listed. -/
structure Reorders (r r' : GenerationResult) : Prop where
  units : r'.units.Perm r.units
  failures : ∃ fs, List.Forall₂ SameFailure r.failures fs ∧ fs.Perm r'.failures

/-- Outcomes of different candidates come to the same result in any order. -/
theorem settle_perm (g : Generator) {os os' : List Outcome}
    (hdistinct : (os.map (·.candidate)).Nodup) (h : os'.Perm os) :
    Reorders (settle g os) (settle g os') := by
  have hdistinct' : (os'.map (·.candidate)).Nodup := (h.map _).nodup_iff.mpr hdistinct
  have hverdicts : List.Forall₂ SameVerdict (os.map (verdictOn g os))
      (os.map (verdictOn g os')) := by
    rw [List.forall₂_map_left_iff, List.forall₂_map_right_iff, List.forall₂_same]
    exact fun o _ => verdictOn_perm g h.symm o
  obtain ⟨hunits, hfailures⟩ := values_sameVerdict hverdicts
  obtain ⟨hvalues, herrors⟩ := values_perm (h.map (verdictOn g os'))
  unfold settle
  rw [settled_eq_map hdistinct, settled_eq_map hdistinct']
  exact ⟨hunits ▸ hvalues, _, hfailures, herrors.symm⟩

/-- **The order of declarations decides nothing.** Let a corpus declare no type twice, and let
another one have the same units and the same declarations in another order. A generator comes to an
end on the other one whenever it does on the corpus, which it always does with the standard
templates, and then both results have the same units and failures, up to their order and up to the
order in which a failure lists the claimants of a shared name. -/
theorem outcomes_reordered (c : Corpus) (g : Generator) (excluded : List String)
    (ds : List TypeDeclaration) (hkeys : (c.declarations.map (·.key)).Nodup)
    (hperm : ds.Perm c.declarations) :
    (∃ os, outcomes .standard c g c.symbols excluded = .ok os) ∧
      ∀ T os, outcomes T c g c.symbols excluded = .ok os →
        ∃ os', outcomes T (c.reordered ds) g (c.reordered ds).symbols excluded = .ok os' ∧
          Reorders (settle g os) (settle g os') := by
  refine ⟨outcomes_ends.mpr fun d _ => candidateText_standard d, fun T os hos => ?_⟩
  obtain ⟨os', hos', hsame⟩ := mapM_reordered hkeys hperm hos
  refine ⟨os', hos', settle_perm g ?_ hsame⟩
  rw [outcomes_candidates hos]
  exact hkeys.of_map.sublist (candidates_sublist c g excluded)

/-- A class whose units are named as those of `longNamed`. -/
def longSpaced : TypeDeclaration where
  name := "Menu"
  unitPath := "a.cs"
  namespaceName := some "Game_Main"
  modifiers := ["partial"]
  fields := [⟨"Foo", "foo", [⟨"InjectDependency", []⟩], 1⟩]

/-- A class whose units are named as those of `longSpaced`. -/
def longNamed : TypeDeclaration where
  name := "Main_Menu"
  unitPath := "b.cs"
  namespaceName := some "Game"
  modifiers := ["partial"]
  fields := [⟨"Foo", "foo", [⟨"InjectDependency", []⟩], 1⟩]

/-- Both classes, in their units. -/
def menus : Corpus := .ofSources [⟨"a.cs", [], []⟩, ⟨"b.cs", [], []⟩] [longSpaced, longNamed]

theorem menus_reordered :
    ∃ os os', outcomes .standard menus (.ofKind .dependency) menus.symbols [] = .ok os ∧
      outcomes .standard (menus.reordered [longNamed, longSpaced]) (.ofKind .dependency)
        (menus.reordered [longNamed, longSpaced]).symbols [] = .ok os' ∧
      Reorders (settle (.ofKind .dependency) os) (settle (.ofKind .dependency) os') := by
  obtain ⟨⟨os, hos⟩, hall⟩ := outcomes_reordered menus (.ofKind .dependency) []
    [longNamed, longSpaced] (by decide +kernel) (.swap ..)
  obtain ⟨os', hos', hreorders⟩ := hall .standard os hos
  exact ⟨os, os', hos, hos', hreorders⟩

end FieldWiring
