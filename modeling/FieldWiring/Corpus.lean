import FieldWiring.Declaration
import FieldWiring.Listing

/-!
# The corpus

All source units and type declarations that one run sees, and the names in it: which names are
namespaces, which declaration a qualified name denotes, and which one a reference denotes from where
it is written. A reference stands for a list of qualified names, in a fixed order; it denotes the
first of them that is declared with the right number of type parameters.

Model of the class `Corpus` (specification, §2):
* `unitFor`, `isNamespace`, `lookup`, `resolve`, `resolveNamespace` and `importsFor` are its methods
  `unit_for`, `is_namespace`, `lookup`, `resolve`, `resolve_namespace` and `imports_for`, and
  `importStatement` is `normalise_import`.
* `searchNames` lists the names that `resolve` looks up, in its order: `memberNames` for the
  enclosing types, `namesAt` for one enclosing scope, `importedNames` for one directive of
  `_resolve_through_imports`.
* `openedNamespaces` are the names that `_add_namespace` enters.

Results:
* `find?_placeUnit`: of the units supplied for one path the last one counts.
* `lookup_key`: what a lookup finds has the name and the arity looked up.
* `resolve_mem`: a reference denotes a declaration of the corpus.
-/

namespace FieldWiring

/-- Source units, at most one for each path, and declarations in the order of their sources. -/
structure Corpus where
  units : List SourceUnit := []
  declarations : List TypeDeclaration := []
deriving Repr

/-- Puts a unit in the place of the unit of its path, or at the end. -/
def placeUnit (u : SourceUnit) : List SourceUnit → List SourceUnit
  | [] => [u]
  | v :: vs => if v.path = u.path then u :: vs else v :: placeUnit u vs

theorem find?_placeUnit (u : SourceUnit) (us : List SourceUnit) (path : String) :
    (placeUnit u us).find? (fun v => decide (v.path = path)) =
      if u.path = path then some u else us.find? (fun v => decide (v.path = path)) := by
  induction us with
  | nil => by_cases h : u.path = path <;> simp [placeUnit, h]
  | cons v vs ih =>
    simp only [placeUnit]
    by_cases hv : v.path = u.path
    · by_cases h : u.path = path
      · simp [hv, h]
      · simp [hv, h]
    · by_cases h : v.path = path
      · have : u.path ≠ path := fun hu => hv (h.trans hu.symm)
        rw [if_neg hv, if_neg this]
        simp [h]
      · rw [if_neg hv]
        simp [h, ih]

namespace Corpus

/-- The corpus of units and declarations as supplied: a unit replaces an earlier one of its path. -/
def ofSources (units : List SourceUnit) (declarations : List TypeDeclaration) : Corpus :=
  ⟨units.foldl (fun us u => placeUnit u us) [], declarations⟩

/-- The unit at a path; a path without one has neither imports nor namespaces. -/
def unitAt (c : Corpus) (path : String) : SourceUnit :=
  (c.units.find? fun u => decide (u.path = path)).getD { path := path }

/-- The unit that a declaration stands in. -/
def unitFor (c : Corpus) (d : TypeDeclaration) : SourceUnit := c.unitAt d.unitPath

/-- The first declaration of a type: of a partial type, its first part. -/
def lookup (c : Corpus) (name : String) (arity : Nat := 0) : Option TypeDeclaration :=
  c.declarations.find? fun d => decide (d.key = ⟨name, arity⟩)

theorem lookup_key {c : Corpus} {name : String} {arity : Nat} {d : TypeDeclaration}
    (h : c.lookup name arity = some d) : d.key = ⟨name, arity⟩ := by
  simpa using List.find?_some h

theorem lookup_mem {c : Corpus} {name : String} {arity : Nat} {d : TypeDeclaration}
    (h : c.lookup name arity = some d) : d ∈ c.declarations := List.mem_of_find?_eq_some h

/-! ## Namespaces -/

/-- The namespaces that declarations stand in and that units open. -/
def openedNamespaces (c : Corpus) : List String :=
  c.declarations.map (·.scope) ++ c.units.flatMap (·.namespaces)

/-- A name of a namespace or of one around it. -/
def isNamespace (c : Corpus) (name : String) : Bool :=
  c.openedNamespaces.any fun n => (leadingNames n).contains name

/-- The namespace that an import of names brings in, when the corpus knows it: the innermost one
around the directive. -/
def resolveNamespace (c : Corpus) (i : ImportDirective) : Option String :=
  match i.kind with
  | .names => ((enclosingScopes i.scope).map (qualify · i.target)).find? c.isNamespace
  | _ => none

/-! ## Search -/

/-- The imports that hold in every unit. -/
def globalImports (c : Corpus) : List ImportDirective :=
  (c.units.flatMap (·.imports)).filter (·.isGlobal)

/-- The imports that hold at `scope` in a unit: its own, and at the root the global ones after
them. -/
def importsAt (c : Corpus) (u : SourceUnit) (scope : String) : List ImportDirective :=
  u.imports.filter (fun i => decide (i.scope = scope) && !i.isGlobal) ++
    if scope = "" then c.globalImports else []

/-- The names that `name` stands for through a renaming at `scope`. -/
def renamedNames (scope name : String) (i : ImportDirective) : List String :=
  let (head, rest) := Text.cutAt '.' name
  if i.kind = .renamed ∧ i.newName = head then
    let target := if rest = "" then i.target else qualify i.target rest
    (enclosingScopes scope).map (qualify · target)
  else []

/-- The name that `name` stands for through an import of names. -/
def importedNames (c : Corpus) (name : String) (i : ImportDirective) : List String :=
  match i.kind with
  | .names => [qualify ((c.resolveNamespace i).getD i.target) name]
  | _ => []

/-- The names that `name` stands for at `scope` in a unit: the scope's own, then those of its
renamings, then those of its imports. -/
def namesAt (c : Corpus) (u : SourceUnit) (name scope : String) : List String :=
  qualify scope name ::
    ((c.importsAt u scope).flatMap (renamedNames scope name) ++
      (c.importsAt u scope).flatMap (c.importedNames name))

/-- The names that `name` stands for as a member of the types around it, the innermost first. -/
def memberNames (context : TypeDeclaration) (name : String) : List String :=
  (beginnings context.containingTypes).reverse.map fun outer =>
    qualify (qualify context.scope (dotted outer)) name

/-- The names that a reference stands for in a declaration, in the order in which they are tried. -/
def searchNames (c : Corpus) (r : TypeReference) (context : TypeDeclaration) : List String :=
  if r.name = "" then []
  else if r.isRooted then [r.name]
  else
    memberNames context r.name ++
      (enclosingScopes context.scope).flatMap (c.namesAt (c.unitFor context) r.name)

/-- The declaration that a reference denotes in a declaration. -/
def resolve (c : Corpus) (r : TypeReference) (context : TypeDeclaration) : Option TypeDeclaration :=
  (c.searchNames r context).findSome? (c.lookup · r.arity)

theorem resolve_mem {c : Corpus} {r : TypeReference} {context d : TypeDeclaration}
    (h : c.resolve r context = some d) : d ∈ c.declarations := by
  obtain ⟨name, _, hn⟩ := List.exists_of_findSome?_eq_some h
  exact lookup_mem hn

theorem resolve_arity {c : Corpus} {r : TypeReference} {context d : TypeDeclaration}
    (h : c.resolve r context = some d) : d.arity = r.arity := by
  obtain ⟨name, _, hn⟩ := List.exists_of_findSome?_eq_some h
  exact congrArg TypeKey.arity (lookup_key hn)

/-! ## Imports of a unit -/

/-- The statement that repeats an import in another unit; a global import needs none. -/
def importStatement (c : Corpus) (i : ImportDirective) : Option String :=
  if i.isGlobal then none
  else
    match c.resolveNamespace i with
    | some n => some ("using " ++ n ++ ";")
    | none => some (Text.collapse i.text)

/-- The statements for the imports of a declaration's unit, each once. -/
def importsFor (c : Corpus) (d : TypeDeclaration) : List String :=
  dedupe ((c.unitFor d).imports.filterMap c.importStatement)

end Corpus

end FieldWiring
