import FieldWiring.Proofs.Template.Layout
import FieldWiring.Proofs.Walks.Comparing
import Mathlib.Data.List.Chain
import Mathlib.Data.List.Nodup
import Mathlib.Data.List.Perm.Subperm

/-!
# The sequence of base types

`SymbolResolver.next` is the class that the first base type of a declaration denotes. The types from
a candidate upwards are a sequence that this function determines, and an `Ascent` is a beginning of
it in which no type occurs twice. A walk gathers from the longest ascent: it ends where the sequence
ends, it breaks off at the first field with an open type, and it refuses a sequence that comes back
to a type.

Results:
* `Ascent.length_le`: an ascent visits each declaration that can be found at most once.
* `Ascent.prefix_climb`: the climbed chain is the longest ascent.
* `levelFields_closed`, `levelFields_open`: what one level gives, or its first field with an open
  type.
* `walk_determined`: the sequence alone decides what a walk gives, in three cases that exclude each
  other.
-/

namespace FieldWiring

variable {c : Corpus} {g : Generator} {R : SymbolResolver} {d : TypeDeclaration}

/-! ## The sequence -/

/-- The class that the first base type of a declaration denotes. -/
def SymbolResolver.next (R : SymbolResolver) (d : TypeDeclaration) : Option TypeDeclaration :=
  d.baseType.bind fun base =>
    (R.resolve base d).filter fun parent => decide (parent.kind = .classType)

/-- A beginning of the sequence from `d` upwards in which no type occurs twice. -/
structure Ascent (R : SymbolResolver) (d : TypeDeclaration) (levels : List TypeDeclaration) :
    Prop where
  head : levels.head? = some d
  steps : levels.IsChain fun below above => R.next below = some above
  distinct : (levels.map (·.key)).Nodup

theorem next_eq_some_iff {parent : TypeDeclaration} : R.next d = some parent ↔
    ∃ base, d.baseType = some base ∧ R.resolve base d = some parent ∧ parent.kind = .classType := by
  unfold SymbolResolver.next
  rw [Option.bind_eq_some_iff]
  simp only [Option.filter_eq_some_iff, decide_eq_true_eq]

theorem next_mem_range {parent : TypeDeclaration} (h : R.next d = some parent) :
    parent ∈ R.range := by
  obtain ⟨base, -, hfound, -⟩ := next_eq_some_iff.mp h
  exact R.resolve_mem hfound

/-- What stands above the first level was found, and is a class. -/
theorem mem_tail_of_steps : ∀ {levels : List TypeDeclaration},
    (levels.IsChain fun below above => R.next below = some above) →
    ∀ e ∈ levels.tail, e ∈ R.range ∧ e.kind = .classType
  | [], _ => by simp
  | [_], _ => by simp
  | below :: above :: levels, h => by
    obtain ⟨hstep, hrest⟩ := List.isChain_cons_cons.mp h
    intro e he
    rcases List.mem_cons.mp he with rfl | he
    · obtain ⟨_, _, _, hkind⟩ := next_eq_some_iff.mp hstep
      exact ⟨next_mem_range hstep, hkind⟩
    · exact mem_tail_of_steps hrest e he

/-- An ascent visits each declaration that can be found at most once. -/
theorem Ascent.length_le {levels : List TypeDeclaration} (h : Ascent R d levels) :
    levels.length ≤ R.range.length + 1 := by
  have hnodup : levels.tail.Nodup := (List.Nodup.of_map _ h.distinct).tail
  have hsub : levels.tail ⊆ R.range := fun e he => (mem_tail_of_steps h.steps e he).1
  have hlen := (List.Nodup.subperm hnodup hsub).length_le
  rw [List.length_tail] at hlen
  omega

/-- An ascent can stop earlier. -/
theorem Ascent.initial {levels above : List TypeDeclaration} (h : Ascent R d (levels ++ above))
    (hne : levels ≠ []) : Ascent R d levels where
  head := (List.head?_append_of_ne_nil levels hne).symm.trans h.head
  steps := (List.isChain_append.mp h.steps).1
  distinct := h.distinct.sublist ((List.sublist_append_left levels above).map _)

/-! ## Climbing -/

/-- The declaration of a type met before at which a chain closes. -/
def ChainEnd.again : ChainEnd → Option TypeDeclaration
  | .cycle again => some again
  | _ => none

/-- A climb follows the sequence; where it stops, nothing stands above, or a type met before. -/
structure Climbs (R : SymbolResolver) (visited : List TypeKey) (chain : Chain) : Prop where
  steps : chain.levels.IsChain fun below above => R.next below = some above
  ends : ∀ top ∈ chain.levels.getLast?, R.next top = chain.last.again
  met : ∀ again ∈ chain.last.again, again.key ∈ chain.levels.map (·.key) ++ visited

theorem climbs_singleton {visited : List TypeKey} {last : ChainEnd} (hends : R.next d = last.again)
    (hmet : ∀ again ∈ last.again, again.key ∈ d.key :: visited) : Climbs R visited ⟨[d], last⟩ where
  steps := List.isChain_singleton d
  ends := by simpa using hends
  met := hmet

theorem climbs_climb (R : SymbolResolver) (visited : List TypeKey) (d : TypeDeclaration) :
    Climbs R visited (climb R visited d) := by
  have hnone : ∀ {last : ChainEnd} {visited : List TypeKey} {d : TypeDeclaration},
      last.again = none → R.next d = none → Climbs R visited ⟨[d], last⟩ := by
    intro last visited d hlast hnext
    exact climbs_singleton (hnext.trans hlast.symm) (by simp [hlast])
  fun_induction climb R visited d with
  | case1 visited d hbase => exact hnone rfl (by simp [SymbolResolver.next, hbase])
  | case2 visited d base hbase hfound =>
    exact hnone rfl (by simp [SymbolResolver.next, hbase, hfound])
  | case3 visited d base hbase parent hfound hkind =>
    exact hnone rfl (by simp [SymbolResolver.next, hbase, hfound, hkind])
  | case4 visited d base hbase parent hfound hkind hmet =>
    have hnext := next_eq_some_iff.mpr ⟨base, hbase, hfound, Decidable.not_not.mp hkind⟩
    exact climbs_singleton hnext fun again hagain => Option.some.inj hagain ▸ hmet
  | case5 visited d base hbase parent hfound hkind hnew rest ih =>
    have hnext := next_eq_some_iff.mpr ⟨base, hbase, hfound, Decidable.not_not.mp hkind⟩
    obtain ⟨above, habove⟩ := climb_head R (d.key :: visited) parent
    have hrest : rest.levels = parent :: above := habove
    refine ⟨?_, ?_, fun again hagain => ?_⟩
    · rw [hrest, List.isChain_cons_cons]
      exact ⟨hnext, hrest ▸ ih.steps⟩
    · rw [hrest, List.getLast?_cons_cons, ← hrest]
      exact ih.ends
    · -- what was visited below the next level is the first level, or was visited below it
      have hmet := ih.met again hagain
      rw [List.map_cons]
      exact List.perm_middle.subset hmet

/-- A beginning of the sequence without a type met before is a beginning of what is climbed. -/
theorem prefix_climb (visited : List TypeKey) (d : TypeDeclaration) {levels : List TypeDeclaration}
    (h : Ascent R d levels) (hnew : ∀ e ∈ levels, e.key ∉ visited) :
    levels <+: (climb R visited d).levels := by
  induction levels generalizing d visited with
  | nil => exact List.nil_prefix
  | cons e levels ih =>
    obtain rfl : e = d := Option.some.inj h.head
    obtain ⟨above, habove⟩ := climb_head R visited e
    cases levels with
    | nil => exact habove ▸ List.prefix_append [e] above
    | cons parent levels =>
      obtain ⟨hstep, hsteps⟩ := List.isChain_cons_cons.mp h.steps
      have hdistinct := h.distinct
      rw [List.map_cons, List.nodup_cons] at hdistinct
      have hfresh : ∀ e' ∈ parent :: levels, e'.key ∉ e.key :: visited := by
        intro e' he' hmem
        rcases List.mem_cons.mp hmem with heq | hbefore
        · exact hdistinct.1 (heq ▸ List.mem_map_of_mem he')
        · exact hnew e' (List.mem_cons_of_mem e he') hbefore
      obtain ⟨base, hbase, hfound, hkind⟩ := next_eq_some_iff.mp hstep
      rw [climb_further hbase hfound hkind (hfresh parent List.mem_cons_self),
        List.prefix_cons_inj]
      exact ih _ parent ⟨rfl, hsteps, hdistinct.2⟩ hfresh

/-- The climbed chain is the longest ascent. -/
theorem Ascent.prefix_climb {levels : List TypeDeclaration} (h : Ascent R d levels) :
    levels <+: (climb R [] d).levels :=
  FieldWiring.prefix_climb [] d h fun _ _ => List.not_mem_nil

theorem ascent_climb (R : SymbolResolver) (d : TypeDeclaration) :
    Ascent R d (climb R [] d).levels where
  head := by
    obtain ⟨above, habove⟩ := climb_head R [] d
    rw [habove, List.head?_cons]
  steps := (climbs_climb R [] d).steps
  distinct := (nodup_climb R [] d List.not_mem_nil).1

/-- Behind the last level of a shorter ascent, the sequence goes on with a further type. -/
theorem next_of_prefix {levels above : List TypeDeclaration} {top e : TypeDeclaration}
    (h : Ascent R d (levels ++ e :: above)) (htop : top ∈ levels.getLast?) :
    R.next top = some e ∧ e.key ∉ levels.map (·.key) := by
  refine ⟨(List.isChain_append.mp h.steps).2.2 top htop e rfl, fun hmem => ?_⟩
  have hdistinct := h.distinct
  rw [List.map_append, List.nodup_append] at hdistinct
  exact hdistinct.2.2 _ hmem _ List.mem_cons_self rfl

/-- An ascent that ends with the sequence, or before a type met on it, is the whole climb. -/
theorem Ascent.eq_climb {levels : List TypeDeclaration} {again : Option TypeDeclaration}
    (h : Ascent R d levels) (hends : ∀ top ∈ levels.getLast?, R.next top = again)
    (hmet : ∀ e ∈ again, e.key ∈ levels.map (·.key)) :
    (climb R [] d).levels = levels ∧ (climb R [] d).last.again = again := by
  have hclimb := ascent_climb R d
  obtain ⟨above, habove⟩ := h.prefix_climb
  obtain ⟨top, htop⟩ : ∃ top, top ∈ levels.getLast? := by
    have hhead := h.head
    cases levels with
    | nil => cases hhead
    | cons e levels => exact ⟨_, List.getLast?_eq_some_getLast (List.cons_ne_nil e levels)⟩
  cases above with
  | nil =>
    rw [List.append_nil] at habove
    have hlast := (climbs_climb R [] d).ends
    rw [← habove] at hlast
    exact ⟨habove.symm, (hlast top htop).symm.trans (hends top htop)⟩
  | cons e above =>
    rw [← habove] at hclimb
    obtain ⟨hnext, hnew⟩ := next_of_prefix hclimb htop
    exact absurd (hmet e ((hends top htop).symm.trans hnext)) hnew

/-! ## Levels -/

/-- The type of a marked field names a type parameter of the declaration that the field stands
in. -/
def IsOpen (g : Generator) (d : TypeDeclaration) (f : Field) : Prop :=
  (∃ m, g.markerOn f = some m) ∧ ∃ p ∈ d.typeParameters, p ∈ identifiersIn f.typeText

/-- The marked fields of a declaration, each with the key of its first marker. -/
def markedFields (g : Generator) (d : TypeDeclaration) : List MarkedField :=
  d.fields.filterMap fun f =>
    (g.markerOn f).map fun m => ⟨f.typeText, f.name, m.lookupKey, d.qualifiedName⟩

theorem mem_openParameters {typeText p : String} :
    p ∈ openParameters d typeText ↔ p ∈ d.typeParameters ∧ p ∈ identifiersIn typeText := by
  unfold openParameters
  rw [(perm_sorted _).mem_iff, mem_dedupe, List.mem_filter, List.contains_iff_mem]

/-- Parameters are named in the order of their names, each once. -/
theorem sorted_openParameters (d : TypeDeclaration) (typeText : String) :
    (openParameters d typeText).Pairwise Text.Before := by
  have hnodup : (openParameters d typeText).Nodup :=
    (perm_sorted _).nodup_iff.mpr (nodup_dedupe _)
  have hsorted : (openParameters d typeText).Pairwise fun p q => Text.precedes p q = true :=
    pairwise_sortBy Text.precedes_total (fun _ _ _ => Text.precedes_trans) _
  exact (hsorted.and hnodup).imp fun h => Text.before_of_precedes h.1 h.2

theorem markedField_closed {f : Field} (h : ¬ IsOpen g d f) :
    markedField g d f = .ok ((g.markerOn f).map fun m =>
      ⟨f.typeText, f.name, m.lookupKey, d.qualifiedName⟩) := by
  unfold markedField
  cases hm : g.markerOn f with
  | none => rfl
  | some m =>
    have hnone : openParameters d f.typeText = [] := by
      rw [List.eq_nil_iff_forall_not_mem]
      intro p hp
      exact h ⟨⟨m, hm⟩, p, mem_openParameters.mp hp⟩
    rw [hnone]
    rfl

theorem markedField_open {f : Field} (h : IsOpen g d f) :
    markedField g d f = .error
      (.unrenderableField f.name (openTypeReason d f.typeText (openParameters d f.typeText))) := by
  obtain ⟨⟨m, hm⟩, p, hp⟩ := h
  unfold markedField
  rw [hm]
  cases hused : openParameters d f.typeText with
  | nil =>
    rw [← mem_openParameters, hused] at hp
    exact absurd hp List.not_mem_nil
  | cons => rfl

/-- A level without a field of an open type gives its marked fields. -/
theorem levelFields_closed (h : ∀ f ∈ d.fields, ¬ IsOpen g d f) :
    levelFields g d = .ok (markedFields g d) := by
  unfold levelFields markedFields
  rw [mapM_of_forall fun f hf => markedField_closed (h f hf)]
  exact congrArg Except.ok (List.filterMap_map ..)

/-- Another level breaks off at the first such field. -/
theorem levelFields_open {before behind : List Field} {f : Field}
    (hfields : d.fields = before ++ f :: behind) (hf : IsOpen g d f)
    (hbefore : ∀ f' ∈ before, ¬ IsOpen g d f') :
    levelFields g d = .error
      (.unrenderableField f.name (openTypeReason d f.typeText (openParameters d f.typeText))) := by
  unfold levelFields
  rw [hfields, mapM_error (markedField_open hf) behind fun f' hf' =>
    ⟨_, markedField_closed (hbefore f' hf')⟩]
  rfl

/-! ## What a chain gives -/

theorem gather_closed {chain : Chain} (h : ∀ e ∈ chain.levels, ∀ f ∈ e.fields, ¬ IsOpen g e f) :
    gather c g chain = match chain.last.again with
      | none =>
        .ok ⟨chain.levels.flatMap (markedFields g), dedupe (chain.levels.flatMap c.importsFor),
          chain.levels⟩
      | some again =>
        .error (.cyclicChain (chain.levels.map (·.qualifiedName) ++ [again.qualifiedName])) := by
  unfold gather
  rw [mapM_of_forall fun e he => levelFields_closed (h e he), List.flatMap_def]
  cases chain.last <;> rfl

theorem gather_open {chain : Chain} {below above : List TypeDeclaration} {cause : FaultCause}
    (hlevels : chain.levels = below ++ d :: above)
    (hbelow : ∀ e ∈ below, ∀ f ∈ e.fields, ¬ IsOpen g e f) (hd : levelFields g d = .error cause) :
    gather c g chain = .error cause := by
  unfold gather
  rw [hlevels, mapM_error hd above fun e he => ⟨_, levelFields_closed (hbelow e he)⟩]
  rfl

/-! ## The three cases -/

/-- The sequence from a candidate upwards ends before any type occurs twice on it, and no field has
an open type. -/
structure Completes (g : Generator) (R : SymbolResolver) (candidate : TypeDeclaration)
    (levels : List TypeDeclaration) : Prop where
  ascent : Ascent R candidate levels
  ends : ∀ top ∈ levels.getLast?, R.next top = none
  closed : ∀ e ∈ levels, ∀ f ∈ e.fields, ¬ IsOpen g e f

/-- Before any type occurs twice on the sequence, `level` is reached, and `f` is the first field
with an open type. -/
structure BreaksOff (g : Generator) (R : SymbolResolver) (candidate : TypeDeclaration)
    (level : TypeDeclaration) (f : Field) : Prop where
  opened : IsOpen g level f
  first : ∃ below before behind, Ascent R candidate (below ++ [level]) ∧
    level.fields = before ++ f :: behind ∧ (∀ e ∈ below, ∀ f' ∈ e.fields, ¬ IsOpen g e f') ∧
    ∀ f' ∈ before, ¬ IsOpen g level f'

/-- The sequence comes back from the last of the levels to the type of one of them, and no field has
an open type. -/
structure ComesBack (g : Generator) (R : SymbolResolver) (candidate : TypeDeclaration)
    (levels : List TypeDeclaration) (again : TypeDeclaration) : Prop where
  ascent : Ascent R candidate levels
  back : ∀ top ∈ levels.getLast?, R.next top = some again
  met : again.key ∈ levels.map (·.key)
  closed : ∀ e ∈ levels, ∀ f ∈ e.fields, ¬ IsOpen g e f

variable {candidate : TypeDeclaration}

theorem Completes.walk {levels : List TypeDeclaration} (h : Completes g R candidate levels) :
    walkHierarchy c g R candidate =
      .ok ⟨levels.flatMap (markedFields g), dedupe (levels.flatMap c.importsFor), levels⟩ := by
  obtain ⟨hlevels, hagain⟩ := h.ascent.eq_climb h.ends (by simp)
  unfold walkHierarchy
  rw [gather_closed (hlevels ▸ h.closed), hagain, hlevels]
  rfl

theorem BreaksOff.walk {level : TypeDeclaration} {f : Field} (h : BreaksOff g R candidate level f) :
    walkHierarchy c g R candidate = .error (.of candidate
      (.unrenderableField f.name
        (openTypeReason level f.typeText (openParameters level f.typeText)))) := by
  obtain ⟨below, before, behind, hascent, hfields, hbelow, hbefore⟩ := h.first
  obtain ⟨above, habove⟩ := hascent.prefix_climb
  rw [List.append_assoc, List.singleton_append] at habove
  unfold walkHierarchy
  rw [gather_open habove.symm hbelow (levelFields_open hfields h.opened hbefore)]
  rfl

theorem ComesBack.walk {levels : List TypeDeclaration} {again : TypeDeclaration}
    (h : ComesBack g R candidate levels again) :
    walkHierarchy c g R candidate = .error (.of candidate
      (.cyclicChain (levels.map (·.qualifiedName) ++ [again.qualifiedName]))) := by
  obtain ⟨hlevels, hagain⟩ := h.ascent.eq_climb h.back (by simpa using h.met)
  unfold walkHierarchy
  rw [gather_closed (hlevels ▸ h.closed), hagain, hlevels]
  rfl

/-- One of the three cases holds. -/
theorem completes_or (g : Generator) (R : SymbolResolver) (candidate : TypeDeclaration) :
    (∃ levels, Completes g R candidate levels) ∨ (∃ level f, BreaksOff g R candidate level f) ∨
      ∃ levels again, ComesBack g R candidate levels again := by
  have hascent := ascent_climb R candidate
  have hclimbs := climbs_climb R [] candidate
  by_cases hopen : ∃ e ∈ (climb R [] candidate).levels, ∃ f ∈ e.fields, IsOpen g e f
  · obtain ⟨below, level, above, hlevels, hfield, hbelow⟩ := exists_first hopen
    obtain ⟨before, f, behind, hfields, hf, hbefore⟩ := exists_first hfield
    have hreached : Ascent R candidate (below ++ [level]) := by
      rw [hlevels, List.append_cons] at hascent
      exact hascent.initial (by simp)
    refine .inr (.inl ⟨level, f, hf, below, before, behind, hreached, hfields, ?_, hbefore⟩)
    exact fun e he f' hf' hopen' => hbelow e he ⟨f', hf', hopen'⟩
  · have hclosed : ∀ e ∈ (climb R [] candidate).levels, ∀ f ∈ e.fields, ¬ IsOpen g e f :=
      fun e he f hf hf' => hopen ⟨e, he, f, hf, hf'⟩
    cases hagain : (climb R [] candidate).last.again with
    | none => exact .inl ⟨_, hascent, hagain ▸ hclimbs.ends, hclosed⟩
    | some again =>
      have hmet := hclimbs.met again hagain
      rw [List.append_nil] at hmet
      exact .inr (.inr ⟨_, again, hascent, hagain ▸ hclimbs.ends, hmet, hclosed⟩)

/-- **The sequence of base types decides what a walk gives.** Of three cases exactly one holds: the
sequence from the candidate upwards ends before any type occurs twice on it and no field on it has
an open type; or such a field is met first; or the sequence comes back to a type. In the first case
the walk gathers the whole sequence, with the marked fields of all levels from the candidate
upwards, in the second it fails at that field and names the type parameters, and in the third it
fails with the names of all levels and of the type met again. No ascent is longer than the
declarations that the resolver can find, and all that stands above the candidate on it are classes:
the walk ends. -/
theorem walk_determined (c : Corpus) (g : Generator) (R : SymbolResolver)
    (candidate : TypeDeclaration) :
    ((∃ levels, Completes g R candidate levels) ∨ (∃ level f, BreaksOff g R candidate level f) ∨
        ∃ levels again, ComesBack g R candidate levels again) ∧
      (∀ levels level f, Completes g R candidate levels → ¬ BreaksOff g R candidate level f) ∧
      (∀ levels levels' again, Completes g R candidate levels →
        ¬ ComesBack g R candidate levels' again) ∧
      (∀ level f levels again, BreaksOff g R candidate level f →
        ¬ ComesBack g R candidate levels again) ∧
      (∀ levels, Completes g R candidate levels → walkHierarchy c g R candidate =
        .ok ⟨levels.flatMap (markedFields g), dedupe (levels.flatMap c.importsFor), levels⟩) ∧
      (∀ level f, BreaksOff g R candidate level f →
        ∃ used : List String, used.Pairwise Text.Before ∧
        (∀ p, p ∈ used ↔ p ∈ level.typeParameters ∧ p ∈ identifiersIn f.typeText) ∧
        walkHierarchy c g R candidate = .error (.of candidate
          (.unrenderableField f.name (openTypeReason level f.typeText used)))) ∧
      (∀ levels again, ComesBack g R candidate levels again → walkHierarchy c g R candidate =
        .error (.of candidate
          (.cyclicChain (levels.map (·.qualifiedName) ++ [again.qualifiedName])))) ∧
      ∀ levels, Ascent R candidate levels →
        levels.length ≤ R.range.length + 1 ∧ ∀ e ∈ levels.tail, e.kind = .classType := by
  -- the outcomes of two cases differ, so no two of them hold together
  refine ⟨completes_or g R candidate, fun levels level f h h' => ?_,
    fun levels levels' again h h' => ?_, fun level f levels again h h' => ?_,
    fun levels h => h.walk, fun level f h => ?_, fun levels again h => h.walk,
    fun levels h => ⟨h.length_le, fun e he => (mem_tail_of_steps h.steps e he).2⟩⟩
  · cases h.walk.symm.trans (h'.walk (c := c))
  · cases h.walk.symm.trans (h'.walk (c := c))
  · cases h.walk.symm.trans (h'.walk (c := c))
  · exact ⟨_, sorted_openParameters level f.typeText, fun p => mem_openParameters, h.walk⟩

end FieldWiring
