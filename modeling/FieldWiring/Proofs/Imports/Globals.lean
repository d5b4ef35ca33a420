import FieldWiring.Proofs.Walks.Comparing

/-!
# Global imports as imports of every unit

A global import at the root stands for a copy of it in every unit, behind the unit's own imports.
The search for a name reads the imports of one scope after the other, and the root's last. There the
global imports follow those of the unit, which is where the copies stand.

Results:
* `importsAt_localised`: at each scope, a unit has the same imports with its copies as with the
  globals.
* `namesAt_localised`: a name stands for the same names there.
* `globals_localised`: a reference denotes the same declaration.
-/

namespace FieldWiring

/-- A copy of an import that holds in its own unit only; `text` says how it is written there. -/
def ImportDirective.localCopy (text : ImportDirective → String) (i : ImportDirective) :
    ImportDirective :=
  { i with text := text i, isGlobal := false }

namespace Corpus

/-- A unit with copies of the global imports of a corpus in place of its own global ones. -/
def localisedUnit (c : Corpus) (text : ImportDirective → String) (u : SourceUnit) : SourceUnit :=
  { u with imports := u.imports.filter (fun i => !i.isGlobal) ++
      c.globalImports.map (·.localCopy text) }

/-- The corpus in which every unit has copies of the global imports. -/
def localised (c : Corpus) (text : ImportDirective → String) : Corpus :=
  { c with units := c.units.map (c.localisedUnit text) }

variable (c : Corpus) (text : ImportDirective → String)

theorem isNamespace_localised (name : String) :
    (c.localised text).isNamespace name = c.isNamespace name := by
  unfold isNamespace openedNamespaces localised
  rw [List.flatMap_map]
  rfl

/-- No import is global any more. -/
theorem globalImports_localised : (c.localised text).globalImports = [] := by
  unfold globalImports localised
  rw [List.filter_eq_nil_iff]
  intro i hi
  obtain ⟨u, hu, hi⟩ := List.mem_flatMap.mp hi
  obtain ⟨v, -, rfl⟩ := List.mem_map.mp hu
  rcases List.mem_append.mp hi with hown | hcopy
  · simpa using (List.mem_filter.mp hown).2
  · obtain ⟨j, -, rfl⟩ := List.mem_map.mp hcopy
    exact Bool.false_ne_true

/-- A declaration of a unit of the corpus has that unit with copies. -/
theorem unitFor_localised {d : TypeDeclaration} (hunit : ∃ u ∈ c.units, u.path = d.unitPath) :
    (c.localised text).unitFor d = c.localisedUnit text (c.unitFor d) := by
  obtain ⟨u, hfound⟩ : ∃ u, c.units.find? (fun u => decide (u.path = d.unitPath)) = some u := by
    rw [← Option.isSome_iff_exists, List.find?_isSome]
    simpa using hunit
  unfold unitFor unitAt localised
  rw [List.find?_map]
  have hpath : ((fun u : SourceUnit => decide (u.path = d.unitPath)) ∘ c.localisedUnit text) =
      fun u => decide (u.path = d.unitPath) := rfl
  rw [hpath, hfound, Option.map_some, Option.getD_some, Option.getD_some]

/-- At each scope, a unit has the same imports with its copies as with the global imports, but for
how they are written and that they are global. -/
theorem importsAt_localised (hroot : ∀ i ∈ c.globalImports, i.scope = "") (u : SourceUnit)
    (scope : String) :
    (c.localised text).importsAt (c.localisedUnit text u) scope =
      u.imports.filter (fun i => decide (i.scope = scope) && !i.isGlobal) ++
        if scope = "" then c.globalImports.map (·.localCopy text) else [] := by
  have hown : (u.imports.filter fun i => !i.isGlobal).filter
      (fun i => decide (i.scope = scope) && !i.isGlobal) =
        u.imports.filter fun i => decide (i.scope = scope) && !i.isGlobal := by
    rw [List.filter_filter]
    refine List.filter_congr fun i _ => ?_
    rw [Bool.and_assoc, Bool.and_self]
  have hcopies : (c.globalImports.map (·.localCopy text)).filter
      (fun i => decide (i.scope = scope) && !i.isGlobal) =
        if scope = "" then c.globalImports.map (·.localCopy text) else [] := by
    -- every copy stands at the root
    have hall : ∀ i ∈ c.globalImports.map (·.localCopy text),
        (decide (i.scope = scope) && !i.isGlobal) = decide (scope = "") := by
      intro i hi
      obtain ⟨j, hj, rfl⟩ := List.mem_map.mp hi
      have hscope : (j.localCopy text).scope = "" := hroot j hj
      have hlocal : (j.localCopy text).isGlobal = false := rfl
      rw [hscope, hlocal, Bool.not_false, Bool.and_true]
      exact decide_eq_decide.mpr eq_comm
    rw [List.filter_congr hall]
    by_cases hs : scope = ""
    · simp [hs]
    · simp [hs]
  unfold importsAt
  rw [globalImports_localised, localisedUnit, List.filter_append, hown, hcopies, ite_self,
    List.append_nil]

/-- A name stands for the same names at each scope of a unit. -/
theorem namesAt_localised (hroot : ∀ i ∈ c.globalImports, i.scope = "") (u : SourceUnit)
    (name scope : String) :
    (c.localised text).namesAt (c.localisedUnit text u) name scope = c.namesAt u name scope := by
  have himported : (c.localised text).importedNames name = c.importedNames name :=
    funext (importedNames_congr (isNamespace_localised c text) name)
  -- neither search reads how an import is written or that it is global
  have hcopied : ∀ f : ImportDirective → List String,
      (∀ i, f (i.localCopy text) = f i) →
      ((c.localised text).importsAt (c.localisedUnit text u) scope).flatMap f =
        (c.importsAt u scope).flatMap f := by
    intro f hf
    rw [importsAt_localised c text hroot, importsAt, List.flatMap_append, List.flatMap_append]
    by_cases hs : scope = ""
    · rw [if_pos hs, if_pos hs, List.flatMap_map, funext hf]
    · rw [if_neg hs, if_neg hs]
  unfold namesAt
  rw [himported, hcopied _ fun i => rfl, hcopied _ fun i => rfl]

end Corpus

/-- **A global import is an import of every unit.** When all global imports of a corpus stand at the
root, let every unit have copies of them, in the order of the corpus and behind its own imports,
however the copies are written. A reference in any declaration whose unit is in the corpus then
stands for the same names, tried in the same order, and denotes the same declaration or none as
before. -/
theorem globals_localised (c : Corpus) (text : ImportDirective → String)
    (hroot : ∀ i ∈ c.globalImports, i.scope = "") (r : TypeReference) (context : TypeDeclaration)
    (hunit : ∃ u ∈ c.units, u.path = context.unitPath) :
    (c.localised text).globalImports = [] ∧
      (c.localised text).searchNames r context = c.searchNames r context ∧
      (c.localised text).resolve r context = c.resolve r context := by
  have hnames : (c.localised text).searchNames r context = c.searchNames r context := by
    unfold Corpus.searchNames
    rw [c.unitFor_localised text hunit,
      funext (c.namesAt_localised text hroot (c.unitFor context) r.name)]
  refine ⟨c.globalImports_localised text, hnames, ?_⟩
  unfold Corpus.resolve
  rw [hnames]
  rfl

/-- A ship of the fleet. -/
def ship : TypeDeclaration where
  name := "Ship"
  unitPath := "ship.cs"
  namespaceName := some "Fleet"
  baseTypes := [⟨"Vessel"⟩]

/-- A vessel of a namespace that the ship's unit imports itself. -/
def localVessel : TypeDeclaration where
  name := "Vessel"
  unitPath := "harbour.cs"
  namespaceName := some "Harbour"

/-- A vessel of a namespace that another unit imports globally. -/
def globalVessel : TypeDeclaration where
  name := "Vessel"
  unitPath := "sea.cs"
  namespaceName := some "Sea"

/-- The ship and both vessels. The unit with the global imports comes first. -/
def fleet : Corpus where
  units := [
    { path := "globals.cs"
      imports := [{ text := "global using Sea;", target := "Sea", isGlobal := true }] },
    { path := "ship.cs", imports := [{ text := "using Harbour;", target := "Harbour" }] }]
  declarations := [globalVessel, localVessel, ship]

theorem ship_localised :
    (fleet.localised fun i => "using " ++ i.target ++ ";").resolve ⟨"Vessel"⟩ ship =
        fleet.resolve ⟨"Vessel"⟩ ship ∧
      fleet.resolve ⟨"Vessel"⟩ ship = some localVessel := by
  have hroot : ∀ i ∈ fleet.globalImports, i.scope = "" := by decide +kernel
  have hunit : ∃ u ∈ fleet.units, u.path = ship.unitPath := by decide +kernel
  exact ⟨(globals_localised fleet _ hroot ⟨"Vessel"⟩ ship hunit).2.2, by decide +kernel⟩

end FieldWiring
