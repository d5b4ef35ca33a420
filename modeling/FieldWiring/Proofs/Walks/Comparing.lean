import FieldWiring.Hierarchy

/-!
# Walks in two corpora

What one corpus makes of a reference or an import depends on little of it: on the names that are
namespaces, on the global imports, on the imports of the unit in question and on the declarations
that lookups find. A walk depends on its corpus only through these, level by level, and it reads no
level behind one that holds a fault.

Results:
* `searchNames_congr`, `importsFor_congr`: what resolution and imports read of a corpus.
* `mapM_walked`: the levels that a walk comes to decide what it gathers.
* `walkHierarchy_congr`: walks that find the same at every level they come to gather the same.
-/

namespace FieldWiring

/-! ## What is read of a corpus -/

namespace Corpus

/-- Which names are namespaces depends on what is opened, not on where or how often. -/
theorem isNamespace_congr {c c' : Corpus}
    (h : ∀ n, n ∈ c.openedNamespaces ↔ n ∈ c'.openedNamespaces) (name : String) :
    c.isNamespace name = c'.isNamespace name := by
  unfold isNamespace
  rw [Bool.eq_iff_iff, List.any_eq_true, List.any_eq_true]
  exact exists_congr fun n => and_congr_left' (h n)

variable {c c' : Corpus} (hn : ∀ n, c.isNamespace n = c'.isNamespace n)
include hn

theorem resolveNamespace_congr (i : ImportDirective) :
    c.resolveNamespace i = c'.resolveNamespace i := by
  have hsame : c.isNamespace = c'.isNamespace := funext hn
  unfold resolveNamespace
  rw [hsame]

theorem importStatement_congr (i : ImportDirective) :
    c.importStatement i = c'.importStatement i := by
  unfold importStatement
  rw [resolveNamespace_congr hn]

theorem importedNames_congr (name : String) (i : ImportDirective) :
    c.importedNames name i = c'.importedNames name i := by
  unfold importedNames
  rw [resolveNamespace_congr hn]

/-- The statements for the imports of a unit depend on these and on the namespaces. -/
theorem importsFor_congr {d : TypeDeclaration}
    (hu : (c.unitFor d).imports = (c'.unitFor d).imports) : c.importsFor d = c'.importsFor d := by
  have hsame : c.importStatement = c'.importStatement := funext (importStatement_congr hn)
  unfold importsFor
  rw [hu, hsame]

/-- The names that a reference stands for depend on the namespaces and on the imports that hold
where it is written. -/
theorem searchNames_congr (hg : c.globalImports = c'.globalImports) {d : TypeDeclaration}
    (hu : (c.unitFor d).imports = (c'.unitFor d).imports) (r : TypeReference) :
    c.searchNames r d = c'.searchNames r d := by
  have himports : ∀ scope, c.importsAt (c.unitFor d) scope = c'.importsAt (c'.unitFor d) scope := by
    intro scope
    unfold importsAt
    rw [hu, hg]
  have hnames : c.namesAt (c.unitFor d) r.name = c'.namesAt (c'.unitFor d) r.name := by
    funext scope
    have hsame : c.importedNames r.name = c'.importedNames r.name :=
      funext (importedNames_congr hn r.name)
    unfold namesAt
    rw [himports, hsame]
  unfold searchNames
  rw [hnames]

end Corpus

/-! ## The levels that a walk comes to -/

/-- The levels that a walk comes to: it goes no further than one that holds a fault. -/
def walked (g : Generator) : List TypeDeclaration → List TypeDeclaration
  | [] => []
  | d :: ds =>
    d ::
      match levelFields g d with
      | .ok _ => walked g ds
      | .error _ => []

/-- The type at which a chain closes. -/
def ChainEnd.closing : ChainEnd → Option TypeKey
  | .cycle again => some again.key
  | _ => none

variable {g : Generator}

theorem walked_of_ok {d : TypeDeclaration} {ds : List TypeDeclaration} {fields : List MarkedField}
    (h : levelFields g d = .ok fields) : walked g (d :: ds) = d :: walked g ds := by
  rw [walked, h]

theorem walked_of_error {d : TypeDeclaration} {ds : List TypeDeclaration} {cause : FaultCause}
    (h : levelFields g d = .error cause) : walked g (d :: ds) = [d] := by
  rw [walked, h]

theorem mem_walked_head {d : TypeDeclaration} {ds : List TypeDeclaration} :
    d ∈ walked g (d :: ds) := by
  rw [walked]
  exact List.mem_cons_self

theorem walked_sublist (g : Generator) :
    ∀ ds : List TypeDeclaration, (walked g ds).Sublist ds
  | [] => .slnil
  | d :: ds => by
    cases hd : levelFields g d with
    | error cause =>
      rw [walked_of_error hd]
      exact (List.nil_sublist ds).cons_cons d
    | ok fields =>
      rw [walked_of_ok hd]
      exact (walked_sublist g ds).cons_cons d

/-- The levels that a walk comes to decide what it gathers. -/
theorem mapM_walked : ∀ ds : List TypeDeclaration,
    ds.mapM (levelFields g) = (walked g ds).mapM (levelFields g)
  | [] => rfl
  | d :: ds => by
    cases hd : levelFields g d with
    | error cause =>
      rw [walked_of_error hd, List.mapM_cons, List.mapM_cons, hd]
      rfl
    | ok fields => rw [walked_of_ok hd, List.mapM_cons, List.mapM_cons, mapM_walked ds]

/-- A walk that gathers comes to all levels. -/
theorem walked_of_gathered {fields : List (List MarkedField)} : ∀ {ds : List TypeDeclaration},
    (walked g ds).mapM (levelFields g) = .ok fields → walked g ds = ds
  | [], _ => rfl
  | d :: ds, h => by
    cases hd : levelFields g d with
    | error cause =>
      rw [walked_of_error hd, List.mapM_cons, hd] at h
      cases h
    | ok first =>
      rw [walked_of_ok hd] at h ⊢
      rw [List.mapM_cons, hd] at h
      cases hrest : (walked g ds).mapM (levelFields g) with
      | error e => rw [hrest] at h; cases h
      | ok rest => rw [walked_of_gathered hrest]

/-- Chains whose walks come to the same levels, and close at the same type when no level holds a
fault, give the same, if the levels have the same imports. -/
theorem gather_congr {c c' : Corpus} {chain chain' : Chain}
    (hlevels : walked g chain.levels = walked g chain'.levels)
    (himports : ∀ e ∈ walked g chain.levels, c.importsFor e = c'.importsFor e)
    (hlast : walked g chain.levels = chain.levels → chain.last.closing = chain'.last.closing) :
    gather c g chain = gather c' g chain' := by
  unfold gather
  rw [mapM_walked chain.levels, mapM_walked chain'.levels, ← hlevels]
  cases hfields : (walked g chain.levels).mapM (levelFields g) with
  | error e => rfl
  | ok fields =>
    have hall := walked_of_gathered hfields
    have hall' : walked g chain'.levels = chain'.levels := walked_of_gathered (hlevels ▸ hfields)
    have hsame : chain'.levels = chain.levels := by rw [← hall, ← hall', hlevels]
    have hstatements : chain.levels.flatMap c.importsFor = chain.levels.flatMap c'.importsFor := by
      rw [List.flatMap_def, List.flatMap_def,
        List.map_congr_left fun e he => himports e (hall.symm ▸ he)]
    have hclosing := hlast hall
    rw [hsame, hstatements]
    cases hl : chain.last with
    | cycle again =>
      cases hl' : chain'.last with
      | cycle again' =>
        -- both close, at types of one name
        rw [hl, hl'] at hclosing
        have hname : again.qualifiedName = again'.qualifiedName :=
          congrArg TypeKey.name (Option.some.inj hclosing)
        simp only [bind, Except.bind, hname]
      | noBase | unknownBase | noClass =>
        rw [hl, hl'] at hclosing
        cases hclosing
    | noBase | unknownBase | noClass =>
      cases hl' : chain'.last with
      | cycle again' =>
        rw [hl, hl'] at hclosing
        cases hclosing
      | noBase | unknownBase | noClass => rfl

/-! ## Walks that find the same -/

theorem Corpus.symbols_resolve (c : Corpus) (r : TypeReference) (d : TypeDeclaration) :
    c.symbols.resolve r d = c.resolve r d := by
  rw [Corpus.symbols]

/-- What two resolvers find for a reference in a declaration: nothing, or a type of the same key and
kind; and the very same declaration when it is one of `next`. -/
structure FindsAlike (R R' : SymbolResolver) (next : List TypeDeclaration) (d : TypeDeclaration)
    (base : TypeReference) : Prop where
  alike : (R.resolve base d).map (fun e => (e.key, e.kind)) =
    (R'.resolve base d).map fun e => (e.key, e.kind)
  same : ∀ p ∈ next, R.resolve base d = some p → R'.resolve base d = some p

theorem FindsAlike.none {R R' : SymbolResolver} {next : List TypeDeclaration} {d : TypeDeclaration}
    {base : TypeReference} (h : FindsAlike R R' next d base) (hnone : R.resolve base d = none) :
    R'.resolve base d = none := by
  have halike := h.alike
  rw [hnone] at halike
  exact Option.map_eq_none_iff.mp halike.symm

theorem FindsAlike.some {R R' : SymbolResolver} {next : List TypeDeclaration}
    {d p : TypeDeclaration}
    {base : TypeReference} (h : FindsAlike R R' next d base) (hsome : R.resolve base d = some p) :
    ∃ p', R'.resolve base d = some p' ∧ p'.key = p.key ∧ p'.kind = p.kind := by
  have halike := h.alike
  rw [hsome] at halike
  obtain ⟨p', hp', heq⟩ := Option.map_eq_some_iff.mp halike.symm
  obtain ⟨hkey, hkind⟩ := Prod.mk.inj heq
  exact ⟨p', hp', hkey, hkind⟩

theorem FindsAlike.mono {R R' : SymbolResolver} {next next' : List TypeDeclaration}
    {d : TypeDeclaration} {base : TypeReference} (h : FindsAlike R R' next d base)
    (hsub : next' ⊆ next) : FindsAlike R R' next' d base :=
  ⟨h.alike, fun p hp => h.same p (hsub hp)⟩

theorem FindsAlike.of_eq {R R' : SymbolResolver} {next : List TypeDeclaration}
    {d : TypeDeclaration} {base : TypeReference} (h : R.resolve base d = R'.resolve base d) :
    FindsAlike R R' next d base :=
  ⟨congrArg (Option.map fun e => (e.key, e.kind)) h, fun _ _ hp => h.symm.trans hp⟩

section Climbing

variable {R : SymbolResolver} {visited : List TypeKey} {d parent : TypeDeclaration}
  {base : TypeReference}

theorem climb_noBase (hbase : d.baseType = none) : climb R visited d = ⟨[d], .noBase⟩ := by
  grind [climb]

theorem climb_unknownBase (hbase : d.baseType = some base) (hfound : R.resolve base d = none) :
    climb R visited d = ⟨[d], .unknownBase base⟩ := by
  grind [climb]

theorem climb_noClass (hbase : d.baseType = some base) (hfound : R.resolve base d = some parent)
    (hkind : parent.kind ≠ .classType) : climb R visited d = ⟨[d], .noClass base parent.kind⟩ := by
  grind [climb]

theorem climb_cycle (hbase : d.baseType = some base) (hfound : R.resolve base d = some parent)
    (hkind : parent.kind = .classType) (hmet : parent.key ∈ d.key :: visited) :
    climb R visited d = ⟨[d], .cycle parent⟩ := by
  grind [climb]

theorem climb_further (hbase : d.baseType = some base) (hfound : R.resolve base d = some parent)
    (hkind : parent.kind = .classType) (hnew : parent.key ∉ d.key :: visited) :
    climb R visited d =
      ⟨d :: (climb R (d.key :: visited) parent).levels,
        (climb R (d.key :: visited) parent).last⟩ := by
  grind [climb]

end Climbing

/-- The levels above a declaration are among those that the resolver finds. -/
theorem mem_range_of_climb (R : SymbolResolver) (visited : List TypeKey) (d : TypeDeclaration) :
    ∀ e ∈ (climb R visited d).levels, e = d ∨ e ∈ R.range := by
  fun_induction climb R visited d with
  | case1 | case2 | case3 | case4 => exact fun e he => .inl (List.mem_singleton.mp he)
  | case5 visited d base _ parent hfound _ _ rest ih =>
    intro e he
    rcases List.mem_cons.mp he with hself | habove
    · exact .inl hself
    · rcases ih e habove with hparent | hrange
      · exact .inr (hparent ▸ R.resolve_mem hfound)
      · exact .inr hrange

/-- The levels above a declaration of a corpus are declarations of it. -/
theorem mem_declarations_of_climb {c : Corpus} {d : TypeDeclaration} (hd : d ∈ c.declarations) :
    ∀ e ∈ (climb c.symbols [] d).levels, e ∈ c.declarations := by
  intro e he
  rcases mem_range_of_climb c.symbols [] d e he with hself | hrange
  · exact hself ▸ hd
  · exact hrange

/-- Resolvers that find the same at every level climb the same chain. -/
theorem climb_eq {R R' : SymbolResolver} (visited : List TypeKey) (d : TypeDeclaration)
    (h : ∀ e ∈ (climb R visited d).levels, ∀ base, R.resolve base e = R'.resolve base e) :
    climb R visited d = climb R' visited d := by
  fun_induction climb R visited d with
  | case1 visited d hbase => rw [climb_noBase hbase]
  | case2 visited d base hbase hnone =>
    rw [h d List.mem_cons_self base] at hnone
    rw [climb_unknownBase hbase hnone]
  | case3 visited d base hbase parent hfound hkind =>
    rw [h d List.mem_cons_self base] at hfound
    rw [climb_noClass hbase hfound hkind]
  | case4 visited d base hbase parent hfound hkind hmet =>
    rw [h d List.mem_cons_self base] at hfound
    rw [climb_cycle hbase hfound (Decidable.not_not.mp hkind) hmet]
  | case5 visited d base hbase parent hfound hkind hnew rest ih =>
    rw [h d List.mem_cons_self base] at hfound
    rw [climb_further hbase hfound (Decidable.not_not.mp hkind) hnew,
      ← ih fun e he => h e (List.mem_cons_of_mem d he)]

/-- A chain and the one of a resolver that finds alike at every level that a walk comes to. -/
theorem climb_congr {R R' : SymbolResolver} (visited : List TypeKey) (d : TypeDeclaration)
    (h : ∀ e ∈ walked g (climb R visited d).levels, ∀ base, e.baseType = some base →
      FindsAlike R R' (walked g (climb R visited d).levels).tail e base) :
    walked g (climb R visited d).levels = walked g (climb R' visited d).levels ∧
      (walked g (climb R visited d).levels = (climb R visited d).levels →
        (climb R visited d).last.closing = (climb R' visited d).last.closing) := by
  fun_induction climb R visited d with
  | case1 visited d hbase => rw [climb_noBase hbase]; exact ⟨rfl, fun _ => rfl⟩
  | case2 visited d base hbase hnone =>
    rw [climb_unknownBase hbase ((h d mem_walked_head base hbase).none hnone)]
    exact ⟨rfl, fun _ => rfl⟩
  | case3 visited d base hbase parent hfound hkind =>
    obtain ⟨p', hp', -, hkind'⟩ := (h d mem_walked_head base hbase).some hfound
    rw [climb_noClass hbase hp' (hkind' ▸ hkind)]
    exact ⟨rfl, fun _ => rfl⟩
  | case4 visited d base hbase parent hfound hkind hmet =>
    obtain ⟨p', hp', hkey, hkind'⟩ := (h d mem_walked_head base hbase).some hfound
    rw [climb_cycle hbase hp' (hkind'.trans (Decidable.not_not.mp hkind)) (hkey ▸ hmet)]
    exact ⟨rfl, fun _ => congrArg some hkey.symm⟩
  | case5 visited d base hbase parent hfound hkind hnew rest ih =>
    cases hd : levelFields g d with
    | error cause =>
      -- the walk ends here, whatever lies above
      obtain ⟨above, habove⟩ := climb_head R' visited d
      rw [habove, walked_of_error hd, walked_of_error hd]
      refine ⟨rfl, fun hall => ?_⟩
      exact absurd (List.cons.inj hall).2.symm (climb_levels_ne_nil R _ parent)
    | ok fields =>
      have hlevels : walked g (d :: rest.levels) = d :: walked g rest.levels := walked_of_ok hd
      rw [hlevels] at h
      have hparent : parent ∈ walked g rest.levels := by
        obtain ⟨above, habove⟩ := climb_head R (d.key :: visited) parent
        have hrest : rest.levels = parent :: above := habove
        exact hrest ▸ mem_walked_head
      have hfound' : R'.resolve base d = some parent :=
        (h d List.mem_cons_self base hbase).same parent hparent hfound
      obtain ⟨hwalked, hlast⟩ := ih fun e he b hb =>
        (h e (List.mem_cons_of_mem _ he) b hb).mono fun _ => List.mem_of_mem_tail
      rw [climb_further hbase hfound' (Decidable.not_not.mp hkind) hnew]
      refine ⟨?_, fun hall => hlast (List.cons.inj (hlevels.symm.trans hall)).2⟩
      rw [hlevels, walked_of_ok hd, hwalked]

/-- **What a walk reads.** When two corpora have the same imports at every level that a walk comes
to and their resolvers find alike there, the walk gathers the same in both, or meets the same
fault. -/
theorem walkHierarchy_congr {c c' : Corpus} {R R' : SymbolResolver} {d : TypeDeclaration}
    (himports : ∀ e ∈ walked g (climb R [] d).levels, c.importsFor e = c'.importsFor e)
    (hfinds : ∀ e ∈ walked g (climb R [] d).levels, ∀ base, e.baseType = some base →
      FindsAlike R R' (walked g (climb R [] d).levels).tail e base) :
    walkHierarchy c g R d = walkHierarchy c' g R' d := by
  obtain ⟨hlevels, hlast⟩ := climb_congr [] d hfinds
  exact congrArg (Except.mapError (Fault.of d)) (gather_congr hlevels himports hlast)

end FieldWiring
