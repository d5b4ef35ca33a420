import FieldWiring.Proofs.Generation.Verdict
import FieldWiring.Proofs.Walks.Comparing

/-!
# The walk of a candidate and the rest of its corpus

Of a declaration that a walk does not visit, only the outline matters: its name and kind, where it
stands and how many type parameters it has. Its fields, base types, modifiers and line do not, nor
do the imports of its unit unless they are global. Two corpora that agree on the outlines, on what
opens namespaces, on the global imports and on everything that the walk of a candidate visits
therefore give the candidate the same walk and the same text.

Results:
* `lookup_outline`, `resolve_outline`: what is found for a name has the same outline in both
  corpora.
* `lookup_of_climb`: a level above the candidate is the first declaration of its type.
* `walk_local`: the walk and the text of a candidate depend on what the walk visits alone.
-/

namespace FieldWiring

/-- A declaration as others see it: without its fields, base types, modifiers and line. -/
def TypeDeclaration.outline (d : TypeDeclaration) : TypeDeclaration :=
  { d with fields := [], baseTypes := [], modifiers := [], line := 0 }

@[simp] theorem TypeDeclaration.outline_key (d : TypeDeclaration) : d.outline.key = d.key := rfl

@[simp] theorem TypeDeclaration.outline_kind (d : TypeDeclaration) : d.outline.kind = d.kind := rfl

@[simp] theorem TypeDeclaration.outline_scope (d : TypeDeclaration) :
    d.outline.scope = d.scope := rfl

/-! ## What a walk visits -/

/-- The place of the first declaration of a type. -/
def Corpus.placeOf (c : Corpus) (k : TypeKey) : Option Nat :=
  c.declarations.findIdx? fun d => decide (d.key = k)

/-- The walk of the candidate at `place` visits the declaration at `i`: the candidate, or the first
declaration of the type of a level above it that the walk comes to. -/
def Visits (c : Corpus) (g : Generator) (place : Nat) (candidate : TypeDeclaration) (i : Nat) :
    Prop :=
  i = place ∨
    ∃ e ∈ (walked g (climb c.symbols [] candidate).levels).tail, c.placeOf e.key = some i

/-- A corpus that agrees with another one on all outlines, on the paths and namespaces of the units
and on the global imports, and on everything that the walk of a candidate visits, with the imports
of the units it stands in. -/
structure AgreesAlong (c c' : Corpus) (g : Generator) (place : Nat) (candidate : TypeDeclaration) :
    Prop where
  outlines : c'.declarations.map (·.outline) = c.declarations.map (·.outline)
  units : (c'.units.map fun u => (u.path, u.namespaces)).Perm
    (c.units.map fun u => (u.path, u.namespaces))
  globals : c'.globalImports = c.globalImports
  visited : ∀ i, Visits c g place candidate i → c'.declarations[i]? = c.declarations[i]?
  imports : ∀ i e, Visits c g place candidate i → c.declarations[i]? = some e →
    (c'.unitFor e).imports = (c.unitFor e).imports

/-! ## What is found for a name -/

/-- A lookup finds the declaration at the place of the type. -/
theorem lookup_eq_some_iff {c : Corpus} {k : TypeKey} {e : TypeDeclaration} :
    c.lookup k.name k.arity = some e ↔ ∃ i, c.placeOf k = some i ∧ c.declarations[i]? = some e := by
  unfold Corpus.lookup Corpus.placeOf
  rw [List.find?_eq_some_iff_getElem]
  constructor
  · rintro ⟨hk, i, hi, heq, hbefore⟩
    refine ⟨i, List.findIdx?_eq_some_iff_getElem.mpr ⟨hi, heq ▸ hk, ?_⟩, ?_⟩
    · exact fun j hj => by simpa using hbefore j hj
    · exact List.getElem?_eq_some_iff.mpr ⟨hi, heq⟩
  · rintro ⟨i, hplace, hat⟩
    obtain ⟨hi, hk, hbefore⟩ := List.findIdx?_eq_some_iff_getElem.mp hplace
    obtain ⟨_, heq⟩ := List.getElem?_eq_some_iff.mp hat
    exact ⟨heq ▸ hk, i, hi, heq, fun j hj => by simpa using hbefore j hj⟩

/-- What a reference denotes is what a lookup of its key finds. -/
theorem lookup_of_resolve {c : Corpus} {r : TypeReference} {d e : TypeDeclaration}
    (h : c.resolve r d = some e) : c.lookup e.key.name e.key.arity = some e := by
  obtain ⟨name, -, hn⟩ := List.exists_of_findSome?_eq_some h
  rw [Corpus.lookup_key hn]
  exact hn

/-- A level above the candidate is the first declaration of its type. -/
theorem lookup_of_climb {c : Corpus} (visited : List TypeKey) (d : TypeDeclaration) :
    ∀ e ∈ (climb c.symbols visited d).levels.tail, c.lookup e.key.name e.key.arity = some e := by
  fun_induction climb c.symbols visited d with
  | case1 => simp
  | case2 => simp
  | case3 => simp
  | case4 => simp
  | case5 visited d base hbase parent hfound hkind hnew rest ih =>
    intro e he
    obtain ⟨above, habove⟩ := climb_head c.symbols (d.key :: visited) parent
    have hlevel : e ∈ (climb c.symbols (d.key :: visited) parent).levels := he
    rw [habove] at hlevel ih
    rcases List.mem_cons.mp hlevel with hparent | hfurther
    · rw [Corpus.symbols_resolve] at hfound
      rw [hparent]
      exact lookup_of_resolve hfound
    · exact ih e hfurther

section Outlines

variable {c c' : Corpus}
  (houtlines : c'.declarations.map (·.outline) = c.declarations.map (·.outline))
include houtlines

theorem lookup_outline (name : String) (arity : Nat) :
    (c'.lookup name arity).map (·.outline) = (c.lookup name arity).map (·.outline) := by
  have hfind : ∀ ds : List TypeDeclaration,
      (ds.find? fun d => decide (d.key = ⟨name, arity⟩)).map (·.outline) =
        (ds.map (·.outline)).find? fun d => decide (d.key = ⟨name, arity⟩) := by
    intro ds
    rw [List.find?_map]
    rfl
  unfold Corpus.lookup
  rw [hfind, hfind, houtlines]

theorem placeOf_outline (k : TypeKey) : c'.placeOf k = c.placeOf k := by
  have hfind : ∀ ds : List TypeDeclaration, (ds.findIdx? fun d => decide (d.key = k)) =
      (ds.map (·.outline)).findIdx? fun d => decide (d.key = k) := by
    intro ds
    rw [List.findIdx?_map]
    rfl
  unfold Corpus.placeOf
  rw [hfind, hfind c.declarations, houtlines]

theorem isNamespace_outline
    (hunits : (c'.units.map fun u => (u.path, u.namespaces)).Perm
      (c.units.map fun u => (u.path, u.namespaces))) (name : String) :
    c'.isNamespace name = c.isNamespace name := by
  have hscopes : c'.declarations.map (·.scope) = c.declarations.map (·.scope) := by
    simpa only [List.map_map, Function.comp_def, TypeDeclaration.outline_scope] using
      congrArg (List.map (·.scope)) houtlines
  have hopened : (c'.units.flatMap (·.namespaces)).Perm (c.units.flatMap (·.namespaces)) := by
    simpa only [List.flatMap_map] using hunits.flatMap_right Prod.snd
  refine Corpus.isNamespace_congr (fun n => ?_) name
  unfold Corpus.openedNamespaces
  rw [List.mem_append, List.mem_append, hscopes, hopened.mem_iff]

/-- References that stand for the same names denote declarations of the same outline. -/
theorem resolve_outline {r : TypeReference} {d : TypeDeclaration}
    (hnames : c'.searchNames r d = c.searchNames r d) :
    (c'.resolve r d).map (·.outline) = (c.resolve r d).map (·.outline) := by
  have hlookups : (Option.map (·.outline)) ∘ (c'.lookup · r.arity) =
      (Option.map (·.outline)) ∘ (c.lookup · r.arity) :=
    funext fun name => lookup_outline houtlines name r.arity
  unfold Corpus.resolve
  rw [List.map_findSome?, List.map_findSome?, hnames, hlookups]

end Outlines

namespace AgreesAlong

variable {c c' : Corpus} {g : Generator} {place : Nat} {candidate : TypeDeclaration}

/-- A level that the walk comes to stands at a place that it visits. -/
theorem visits_level (hc : c.declarations[place]? = some candidate) {e : TypeDeclaration}
    (he : e ∈ walked g (climb c.symbols [] candidate).levels) :
    ∃ i, Visits c g place candidate i ∧ c.declarations[i]? = some e := by
  obtain ⟨above, habove⟩ := climb_head c.symbols [] candidate
  have hlevels : walked g (climb c.symbols [] candidate).levels =
      candidate :: (walked g (climb c.symbols [] candidate).levels).tail := by
    rw [habove, walked]
    rfl
  rw [hlevels] at he
  rcases List.mem_cons.mp he with hself | htail
  · exact ⟨place, .inl rfl, hself ▸ hc⟩
  · have hlookup := lookup_of_climb [] candidate e ((walked_sublist g _).tail.subset htail)
    obtain ⟨i, hplace, hat⟩ := lookup_eq_some_iff.mp hlookup
    exact ⟨i, .inr ⟨e, htail, hplace⟩, hat⟩

variable (h : AgreesAlong c c' g place candidate) (hc : c.declarations[place]? = some candidate)
include h hc

theorem imports_level {e : TypeDeclaration}
    (he : e ∈ walked g (climb c.symbols [] candidate).levels) :
    (c.unitFor e).imports = (c'.unitFor e).imports := by
  obtain ⟨i, hi, hat⟩ := visits_level hc he
  exact (h.imports i e hi hat).symm

/-- Both corpora find alike at every level that the walk comes to. -/
theorem findsAlike {e : TypeDeclaration}
    (he : e ∈ walked g (climb c.symbols [] candidate).levels) (base : TypeReference) :
    FindsAlike c.symbols c'.symbols
      (walked g (climb c.symbols [] candidate).levels).tail e base := by
  have hnames : c'.searchNames base e = c.searchNames base e :=
    Corpus.searchNames_congr (isNamespace_outline h.outlines h.units) h.globals
      (h.imports_level hc he).symm base
  have hfound := resolve_outline h.outlines hnames
  constructor
  · have hkeys := congrArg (Option.map fun d : TypeDeclaration => (d.key, d.kind)) hfound
    rw [Corpus.symbols_resolve, Corpus.symbols_resolve]
    simpa only [Option.map_map, Function.comp_def, TypeDeclaration.outline_key,
      TypeDeclaration.outline_kind] using hkeys.symm
  · intro p hp hresolve
    rw [Corpus.symbols_resolve] at hresolve ⊢
    -- the declaration found stands at a place that is visited, hence in the other corpus as well
    obtain ⟨i, hplace, hat⟩ := lookup_eq_some_iff.mp (lookup_of_resolve hresolve)
    have hat' : c'.declarations[i]? = some p := (h.visited i (.inr ⟨p, hp, hplace⟩)).trans hat
    have hlookup : c'.lookup p.key.name p.key.arity = some p :=
      lookup_eq_some_iff.mpr ⟨i, (placeOf_outline h.outlines p.key).trans hplace, hat'⟩
    rw [hresolve] at hfound
    obtain ⟨p', hp', houtline⟩ := Option.map_eq_some_iff.mp hfound
    have hkey : p'.outline.key = p.outline.key := congrArg TypeDeclaration.key houtline
    rw [TypeDeclaration.outline_key, TypeDeclaration.outline_key] at hkey
    have hlookup' := lookup_of_resolve hp'
    rw [hkey, hlookup] at hlookup'
    exact hp'.trans hlookup'.symm

end AgreesAlong

/-- **A walk depends on what it visits alone.** A corpus that agrees with another one on all
outlines, on the paths and namespaces of its units, on the global imports and on what the walk of a
candidate visits has the candidate at the same place and gives it the same walk, or the same fault,
and the same text under any templates. -/
theorem walk_local {c c' : Corpus} {g : Generator} {place : Nat} {candidate : TypeDeclaration}
    (hc : c.declarations[place]? = some candidate) (h : AgreesAlong c c' g place candidate) :
    c'.declarations[place]? = some candidate ∧
      walkHierarchy c g c.symbols candidate = walkHierarchy c' g c'.symbols candidate ∧
      ∀ T : Templates,
        candidateText T c g c.symbols candidate = candidateText T c' g c'.symbols candidate := by
  have hspaces : ∀ n, c.isNamespace n = c'.isNamespace n := fun n =>
    (isNamespace_outline h.outlines h.units n).symm
  have hwalk : walkHierarchy c g c.symbols candidate = walkHierarchy c' g c'.symbols candidate :=
    walkHierarchy_congr (fun e he => Corpus.importsFor_congr hspaces (h.imports_level hc he))
      fun e he base _ => h.findsAlike hc he base
  refine ⟨(h.visited place (.inl rfl)).trans hc, hwalk, fun T => ?_⟩
  unfold candidateText
  rw [hwalk]

/-- A knight is a piece and has a field to assign. -/
def chessKnight : TypeDeclaration where
  name := "Knight"
  unitPath := "knight.cs"
  namespaceName := some "Chess"
  modifiers := ["partial"]
  baseTypes := [⟨"Piece"⟩]
  fields := [⟨"Rules", "rules", [⟨"InjectDependency", []⟩], 3⟩]

/-- So has every piece. -/
def chessPiece : TypeDeclaration where
  name := "Piece"
  unitPath := "piece.cs"
  namespaceName := some "Chess"
  fields := [⟨"Board", "board", [⟨"InjectDependency", []⟩], 2⟩]

/-- The knight, the piece and a clock, whose unit and contents vary. -/
def chess (clockImports : List ImportDirective) (third : TypeDeclaration) : Corpus where
  units := [⟨"knight.cs", [⟨"using System;", "System", "", .names, "", false⟩], []⟩,
    ⟨"piece.cs", [], []⟩, ⟨"clock.cs", clockImports, []⟩]
  declarations := [third, chessKnight, chessPiece]

/-- A clock without contents. -/
def chessClock : TypeDeclaration where
  name := "Clock"
  unitPath := "clock.cs"
  namespaceName := some "Chess"

/-- A clock that is a piece itself, with a field to assign. -/
def movedClock : TypeDeclaration where
  name := "Clock"
  unitPath := "clock.cs"
  namespaceName := some "Chess"
  modifiers := ["partial"]
  baseTypes := [⟨"Piece"⟩]
  fields := [⟨"Timer", "timer", [⟨"InjectDependency", []⟩], 7⟩]
  line := 4

/-- The import of a clock's unit. -/
def clockImport : ImportDirective := ⟨"using Time;", "Time", "Chess", .names, "", false⟩

theorem chess_climb :
    (climb (chess [] chessClock).symbols [] chessKnight).levels = [chessKnight, chessPiece] := by
  have hfound : (chess [] chessClock).symbols.resolve ⟨"Piece"⟩ chessKnight = some chessPiece := by
    rw [Corpus.symbols_resolve]
    decide +kernel
  rw [climb_further rfl hfound rfl (by decide +kernel), climb_noBase rfl]

theorem knight_unmoved :
    walkHierarchy (chess [] chessClock) (.ofKind .dependency) (chess [] chessClock).symbols
        chessKnight =
      walkHierarchy (chess [clockImport] movedClock) (.ofKind .dependency)
        (chess [clockImport] movedClock).symbols chessKnight := by
  have hvisits : ∀ i, Visits (chess [] chessClock) (.ofKind .dependency) 1 chessKnight i →
      i = 1 ∨ i = 2 := by
    rintro i (rfl | ⟨e, he, hplace⟩)
    · exact .inl rfl
    · have hlevel := (walked_sublist _ _).tail.subset he
      rw [chess_climb] at hlevel
      obtain rfl := List.mem_singleton.mp hlevel
      have htwo : (chess [] chessClock).placeOf chessPiece.key = some 2 := by decide +kernel
      rw [htwo] at hplace
      exact .inr (Option.some.inj hplace).symm
  have hagrees : AgreesAlong (chess [] chessClock) (chess [clockImport] movedClock)
      (.ofKind .dependency) 1 chessKnight := by
    refine ⟨rfl, .refl _, rfl, fun i hi => ?_, fun i e hi he => ?_⟩
    · rcases hvisits i hi with rfl | rfl <;> rfl
    · rcases hvisits i hi with rfl | rfl <;> cases he <;> decide +kernel
  exact (walk_local rfl hagrees).2.1

end FieldWiring
