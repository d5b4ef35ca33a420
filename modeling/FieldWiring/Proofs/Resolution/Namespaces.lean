import FieldWiring.Corpus
import FieldWiring.Proofs.Text.Leading

/-!
# Namespaces and the scopes that know them

The corpus knows the namespaces that its declarations stand in and its units open, and those around
them. Which names these are can be told from their texts alone, with a dot behind each so that no
name ends inside of a segment. An import of names is read in the scopes around it in the same sense,
and the innermost one that makes a namespace of it counts.

Results:
* `mem_units_ofSources`: of the units supplied for one path the last one is the corpus's.
* `isNamespace_ofSources`: the namespaces are what leads into one that is opened.
* `pairwise_enclosingScopes`: the scopes around a place come with the longest first.
* `resolveNamespace_eq_some_iff`: an import brings in what the longest such scope makes of it.
* `namespaces_indexed`: both, for every corpus made of sources.
-/

namespace FieldWiring

/-! ## Units that count -/

/-- The unit counts: no later one is supplied for its path. -/
def IsFinal (units : List SourceUnit) (u : SourceUnit) : Prop :=
  ∃ before after, units = before ++ u :: after ∧ ∀ v ∈ after, v.path ≠ u.path

/-- No two units have the same path. -/
def HaveOwnPaths (units : List SourceUnit) : Prop := units.Pairwise fun u v => u.path ≠ v.path

theorem isFinal_concat {units : List SourceUnit} {u v : SourceUnit} :
    IsFinal (units ++ [u]) v ↔ v = u ∨ IsFinal units v ∧ v.path ≠ u.path := by
  constructor
  · rintro ⟨before, after, h, hlast⟩
    rcases List.eq_nil_or_concat after with rfl | ⟨front, w, rfl⟩
    · exact .inl (List.cons.inj (List.append_inj' h rfl).2).1.symm
    · rw [List.concat_eq_append, ← List.cons_append, ← List.append_assoc] at h
      obtain ⟨rfl, hw⟩ := List.append_inj' h rfl
      obtain rfl := (List.cons.inj hw).1
      rw [List.concat_eq_append, List.forall_mem_append] at hlast
      exact .inr ⟨⟨before, front, rfl, hlast.1⟩, (hlast.2 u List.mem_cons_self).symm⟩
  · rintro (rfl | ⟨⟨before, after, rfl, hlast⟩, hne⟩)
    · exact ⟨units, [], rfl, fun w hw => absurd hw List.not_mem_nil⟩
    · refine ⟨before, after ++ [u], by simp, List.forall_mem_append.mpr ⟨hlast, ?_⟩⟩
      exact fun w hw => List.mem_singleton.mp hw ▸ hne.symm

theorem mem_placeUnit {units : List SourceUnit} (h : HaveOwnPaths units) {u v : SourceUnit} :
    v ∈ placeUnit u units ↔ v = u ∨ v ∈ units ∧ v.path ≠ u.path := by
  induction units with
  | nil => simp [placeUnit]
  | cons w ws ih =>
    obtain ⟨hw, hws⟩ := List.pairwise_cons.mp h
    unfold placeUnit
    by_cases hpath : w.path = u.path
    · rw [if_pos hpath, List.mem_cons, List.mem_cons]
      refine or_congr_right ⟨fun hv => ⟨.inr hv, fun heq => hw v hv (hpath.trans heq.symm)⟩, ?_⟩
      rintro ⟨rfl | hv, hne⟩
      · exact absurd hpath hne
      · exact hv
    · rw [if_neg hpath, List.mem_cons, List.mem_cons, ih hws]
      constructor
      · rintro (rfl | rfl | ⟨hv, hne⟩)
        · exact .inr ⟨.inl rfl, hpath⟩
        · exact .inl rfl
        · exact .inr ⟨.inr hv, hne⟩
      · rintro (rfl | ⟨rfl | hv, hne⟩)
        · exact .inr (.inl rfl)
        · exact .inl rfl
        · exact .inr (.inr ⟨hv, hne⟩)

theorem haveOwnPaths_placeUnit {units : List SourceUnit} (h : HaveOwnPaths units) (u : SourceUnit) :
    HaveOwnPaths (placeUnit u units) := by
  induction units with
  | nil => exact List.pairwise_singleton _ _
  | cons w ws ih =>
    obtain ⟨hw, hws⟩ := List.pairwise_cons.mp h
    unfold placeUnit
    by_cases hpath : w.path = u.path
    · rw [if_pos hpath]
      exact List.pairwise_cons.mpr ⟨fun v hv => hpath ▸ hw v hv, hws⟩
    · rw [if_neg hpath]
      refine List.pairwise_cons.mpr ⟨fun v hv => ?_, ih hws⟩
      rcases (mem_placeUnit hws).mp hv with rfl | ⟨hv, -⟩
      · exact hpath
      · exact hw v hv

/-- Of the units supplied for one path, the last one is the corpus's. -/
theorem mem_units_ofSources (units : List SourceUnit) (ds : List TypeDeclaration) (u : SourceUnit) :
    u ∈ (Corpus.ofSources units ds).units ↔ IsFinal units u := by
  -- along the units supplied, those placed so far have paths of their own
  have hplaced : ∀ reversed : List SourceUnit,
      let placed := reversed.reverse.foldl (fun us u => placeUnit u us) []
      HaveOwnPaths placed ∧ ∀ u, u ∈ placed ↔ IsFinal reversed.reverse u := by
    intro reversed
    induction reversed with
    | nil =>
      refine ⟨.nil, fun u => iff_of_false List.not_mem_nil ?_⟩
      rintro ⟨before, after, h, -⟩
      exact List.append_ne_nil_of_right_ne_nil before (List.cons_ne_nil u after) h.symm
    | cons v earlier ih =>
      rw [List.reverse_cons, List.foldl_append]
      refine ⟨haveOwnPaths_placeUnit ih.1 v, fun u => ?_⟩
      rw [isFinal_concat, ← ih.2]
      exact mem_placeUnit ih.1
  have h := (hplaced units.reverse).2 u
  rw [List.reverse_reverse] at h
  exact h

/-! ## Names that lead into others -/

/-- With a dot behind it, a name begins another one with a dot behind it: it is that name or one
around it. -/
def LeadsInto (n m : String) : Prop := (n ++ ".").toList <+: (m ++ ".").toList

theorem mem_leadingNames_iff {n m : String} : n ∈ leadingNames m ↔ m ≠ "" ∧ LeadsInto n m := by
  have hdot : ".".toList = ['.'] := String.toList_ofList
  rw [mem_leadingNames, LeadsInto, String.toList_append, String.toList_append, hdot]

/-- A namespace that a declaration stands in, or that a unit which counts opens. -/
def IsOpened (units : List SourceUnit) (ds : List TypeDeclaration) (m : String) : Prop :=
  m ≠ "" ∧ ((∃ d ∈ ds, d.scope = m) ∨ ∃ u, IsFinal units u ∧ m ∈ u.namespaces)

/-- The namespaces are what leads into one that is opened. -/
theorem isNamespace_ofSources (units : List SourceUnit) (ds : List TypeDeclaration) (n : String) :
    (Corpus.ofSources units ds).isNamespace n = true ↔ ∃ m, IsOpened units ds m ∧
      LeadsInto n m := by
  have hopened : ∀ m, m ∈ (Corpus.ofSources units ds).openedNamespaces ↔
      (∃ d ∈ ds, d.scope = m) ∨ ∃ u, IsFinal units u ∧ m ∈ u.namespaces := by
    intro m
    unfold Corpus.openedNamespaces
    rw [List.mem_append, List.mem_map, List.mem_flatMap]
    simp only [mem_units_ofSources]
    rfl
  unfold Corpus.isNamespace
  rw [List.any_eq_true]
  simp only [hopened, List.contains_iff_mem, mem_leadingNames_iff, IsOpened]
  constructor
  · rintro ⟨m, hm, hne, hlead⟩
    exact ⟨m, ⟨hne, hm⟩, hlead⟩
  · rintro ⟨m, ⟨hne, hm⟩, hlead⟩
    exact ⟨m, hm, hne, hlead⟩

/-! ## Scopes from the longest to the root -/

/-- The scope lies around a place in a namespace: it is the root, or it leads into the namespace. -/
def IsAround (scope namespaceName : String) : Prop := scope = "" ∨ LeadsInto scope namespaceName

theorem mem_enclosingScopes {s n : String} : s ∈ enclosingScopes n ↔ IsAround s n := by
  unfold enclosingScopes
  rw [List.mem_append, List.mem_reverse, mem_leadingNames_iff, List.mem_singleton]
  constructor
  · rintro (⟨-, hlead⟩ | rfl)
    · exact .inr hlead
    · exact .inl rfl
  · rintro (rfl | hlead)
    · exact .inr rfl
    · by_cases hn : n = ""
      · -- only the root is around the root
        subst hn
        have hlen := hlead.length_le
        rw [String.toList_append, String.toList_append, List.length_append, List.length_append,
          String.toList_empty, List.length_nil] at hlen
        exact .inr (String.toList_eq_nil_iff.mp (List.eq_nil_of_length_eq_zero (by omega)))
      · exact .inl ⟨hn, hlead⟩

theorem dotted_append {a b : List String} (ha : a ≠ []) (hb : b ≠ []) :
    dotted (a ++ b) = dotted a ++ "." ++ dotted b := by
  have hdot : ".".toList = ['.'] := String.toList_ofList
  have hmap : ∀ l : List String, l ≠ [] → l.map String.toList ≠ [] :=
    fun l hl h => hl (List.map_eq_nil_iff.mp h)
  unfold dotted
  rw [← String.toList_inj, String.toList_append, String.toList_append, String.toList_intercalate,
    String.toList_intercalate, String.toList_intercalate, hdot, List.map_append,
    Text.intercalate_append (hmap a ha) (hmap b hb), List.append_assoc, List.singleton_append]

/-- A beginning makes a shorter name. -/
theorem length_dotted_le {a b : List String} (ha : a ≠ []) (h : a <+: b) :
    (dotted a).length ≤ (dotted b).length := by
  obtain ⟨rest, rfl⟩ := h
  by_cases hrest : rest = []
  · exact Nat.le_of_eq (by rw [hrest, List.append_nil])
  · rw [dotted_append ha hrest, String.length_append, String.length_append]
    omega

theorem pairwise_beginnings {α : Type} (l : List α) :
    (beginnings l).Pairwise fun a b => a ≠ [] ∧ a <+: b := by
  induction l with
  | nil => exact .nil
  | cons a l ih =>
    refine List.pairwise_cons.mpr ⟨fun b hb => ⟨List.cons_ne_nil _ _, ?_⟩, ?_⟩
    · obtain ⟨b', -, rfl⟩ := List.mem_map.mp hb
      exact List.prefix_append [a] b'
    · rw [List.pairwise_map]
      exact ih.imp fun h => ⟨List.cons_ne_nil _ _, (List.prefix_cons_inj a).mpr h.2⟩

/-- The scopes around a place come with the longest first. -/
theorem pairwise_enclosingScopes (n : String) :
    (enclosingScopes n).Pairwise fun inner outer => outer.length ≤ inner.length := by
  refine List.pairwise_append.mpr ⟨?_, List.pairwise_singleton _ _, fun s _ root hroot => ?_⟩
  · rw [List.pairwise_reverse, leadingNames, List.pairwise_map]
    exact (pairwise_beginnings _).imp fun h => length_dotted_le h.1 h.2
  · rw [List.mem_singleton.mp hroot]
    exact Nat.zero_le _

/-- Of the scopes around a place no two are equally long. -/
theorem IsAround.eq_of_length {s t n : String} (hs : IsAround s n) (ht : IsAround t n)
    (hlen : s.length = t.length) : s = t := by
  have hempty : ∀ r : String, r.length = 0 → r = "" := fun r hr =>
    String.toList_eq_nil_iff.mp (List.eq_nil_of_length_eq_zero hr)
  rcases hs with rfl | hs
  · exact (hempty t hlen.symm).symm
  · rcases ht with rfl | ht
    · exact hempty s hlen
    · have hsame : (s ++ ".").toList.length = (t ++ ".").toList.length := by
        rw [String.toList_append, String.toList_append, List.length_append, List.length_append]
        exact congrArg (· + _) hlen
      have hbegin := List.prefix_of_prefix_length_le hs ht (Nat.le_of_eq hsame)
      have heq := String.toList_inj.mp (hbegin.eq_of_length hsame)
      exact String.append_left_inj "." |>.mp heq

/-! ## Imports of names -/

/-- The scope around an import that makes a namespace of its target, with none inside of it that
does. -/
structure IsInnermost (c : Corpus) (i : ImportDirective) (scope : String) : Prop where
  around : IsAround scope i.scope
  isNamespace : c.isNamespace (qualify scope i.target) = true
  longest : ∀ s, IsAround s i.scope → c.isNamespace (qualify s i.target) = true →
    s.length ≤ scope.length

theorem resolveNamespace_names {c : Corpus} {i : ImportDirective} (h : i.kind = .names) :
    c.resolveNamespace i =
      ((enclosingScopes i.scope).find? fun s => c.isNamespace (qualify s i.target)).map
        (qualify · i.target) := by
  unfold Corpus.resolveNamespace
  rw [h]
  exact List.find?_map

theorem find?_enclosingScopes {c : Corpus} {i : ImportDirective} {scope : String} :
    (enclosingScopes i.scope).find? (fun s => c.isNamespace (qualify s i.target)) = some scope ↔
      IsInnermost c i scope := by
  -- what is found is the longest, for what is longer stands before it
  have hfound : ∀ s, (enclosingScopes i.scope).find?
      (fun s => c.isNamespace (qualify s i.target)) = some s → IsInnermost c i s := by
    intro s hs
    obtain ⟨hspace, before, after, heq, hbefore⟩ := List.find?_eq_some_iff_append.mp hs
    have hsorted := pairwise_enclosingScopes i.scope
    rw [heq] at hsorted
    refine ⟨mem_enclosingScopes.mp (List.mem_of_find?_eq_some hs), hspace, fun t ht htspace => ?_⟩
    have hmem := mem_enclosingScopes.mpr ht
    rw [heq, List.mem_append, List.mem_cons] at hmem
    rcases hmem with hfirst | rfl | hlater
    · have hnot := hbefore t hfirst
      rw [htspace] at hnot
      exact absurd hnot (by decide)
    · exact Nat.le_refl _
    · exact List.rel_of_pairwise_cons (List.pairwise_append.mp hsorted).2.1 hlater
  refine ⟨hfound scope, fun h => ?_⟩
  cases hs : (enclosingScopes i.scope).find? fun s => c.isNamespace (qualify s i.target) with
  | none =>
    have hnot := List.find?_eq_none.mp hs scope (mem_enclosingScopes.mpr h.around)
    exact absurd h.isNamespace hnot
  | some s =>
    have hother := hfound s hs
    have hlen := Nat.le_antisymm (h.longest s hother.around hother.isNamespace)
      (hother.longest scope h.around h.isNamespace)
    rw [hother.around.eq_of_length h.around hlen]

/-- An import of names brings in what the longest scope that makes a namespace of it makes of it. -/
theorem resolveNamespace_eq_some_iff {c : Corpus} {i : ImportDirective} (h : i.kind = .names)
    {m : String} :
    c.resolveNamespace i = some m ↔ ∃ scope, IsInnermost c i scope ∧
      m = qualify scope i.target := by
  rw [resolveNamespace_names h, Option.map_eq_some_iff]
  simp only [find?_enclosingScopes]
  exact exists_congr fun scope => and_congr_right fun _ => eq_comm

theorem resolveNamespace_eq_none_iff {c : Corpus} {i : ImportDirective} (h : i.kind = .names) :
    c.resolveNamespace i = none ↔
      ∀ scope, IsAround scope i.scope → c.isNamespace (qualify scope i.target) = false := by
  rw [resolveNamespace_names h, Option.map_eq_none_iff, List.find?_eq_none]
  simp only [mem_enclosingScopes, Bool.not_eq_true]

/-- **The corpus knows the namespaces that lead into one that is opened, and imports bring in the
innermost of them.** For every corpus made of sources, a name is a namespace iff some namespace of a
declaration or of a unit that counts begins with it, where both have a dot behind them. Of the
scopes around an import of names, from its own outwards to the root, the longest that makes such a
name of the target is the one in which the target is read; without such a scope the import brings in
nothing. -/
theorem namespaces_indexed (units : List SourceUnit) (ds : List TypeDeclaration) :
    (∀ n, (Corpus.ofSources units ds).isNamespace n = true ↔
      ∃ m, IsOpened units ds m ∧ LeadsInto n m) ∧
    ∀ i : ImportDirective, i.kind = .names →
      (∀ n, (Corpus.ofSources units ds).resolveNamespace i = some n ↔
        ∃ scope, IsInnermost (Corpus.ofSources units ds) i scope ∧ n = qualify scope i.target) ∧
      ((Corpus.ofSources units ds).resolveNamespace i = none ↔
        ∀ scope, IsAround scope i.scope →
          (Corpus.ofSources units ds).isNamespace (qualify scope i.target) = false) :=
  ⟨isNamespace_ofSources units ds, fun _ hi =>
    ⟨fun _ => resolveNamespace_eq_some_iff hi, resolveNamespace_eq_none_iff hi⟩⟩

/-- An import in the namespace of a panel. -/
def panelImport : ImportDirective :=
  { text := "using Parts;", target := "Parts", scope := "Game.Ui" }

/-- Units that open namespaces of parts. A later unit takes the place of the first one, which opens
the innermost of them, and a further one stands beside the panel's own. -/
def panelUnits : List SourceUnit :=
  [⟨"panel.cs", [], ["Game.Ui.Parts"]⟩, ⟨"panel.cs", [panelImport], ["Game.Ui"]⟩,
    ⟨"parts.cs", [], ["Parts", "Game.Parts", "Game.UiKit.Parts"]⟩]

theorem panel_parts_of_game :
    panelImport.kind = .names ∧
      (∃ scope, IsInnermost (.ofSources panelUnits []) panelImport scope ∧
        "Game.Parts" = qualify scope panelImport.target) ∧
      (Corpus.ofSources panelUnits []).isNamespace "Game.Ui.Parts" = false := by
  have hmeant : (Corpus.ofSources panelUnits []).resolveNamespace panelImport =
      some "Game.Parts" := by
    decide +kernel
  exact ⟨rfl, (((namespaces_indexed panelUnits []).2 panelImport rfl).1 "Game.Parts").mp hmeant,
    by decide +kernel⟩

end FieldWiring
