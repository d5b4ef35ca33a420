import FieldWiring.Declaration
import FieldWiring.Listing

/-!
# Declarations of a C# source

A compilation unit as the list of its members: import directives, namespaces and types, and the
fields that stand in types. Everything else in a source (methods, properties, statements,
enumerations) is left out. `Placed` puts every member in its place: which namespace it stands in and
which types enclose it.

Model of the walk of `_UnitVisitor`: `placeMembers` is `_visit_members`, `innerNamespace` is
`_enter_namespace`, and `placeType` is `_add_type` with the types nested in it.

Results:
* `placeMembers_append`: members are placed from left to right; a namespace for the rest of a file
  holds for what follows.
* `placeType_head`: a type comes before the types nested in it.
-/

namespace FieldWiring.CSharp

/-- A type declaration without its members; `line` is that of its first token. -/
structure TypeHead where
  kind : TypeKind
  name : String
  modifiers : List String := []
  typeParameters : List String := []
  baseTypes : List TypeReference := []
  line : Nat := 0
deriving DecidableEq, Repr

/-- A declaration: an import directive, a namespace with its members, a namespace for the rest of
the file, a type with its members, or a field. -/
inductive Member where
  | importing (directive : ImportDirective)
  | block (name : String) (members : List Member)
  | fileScoped (name : String)
  | type (head : TypeHead) (members : List Member)
  | field (field : Field)

/-- What a source declares, each in its place. -/
structure Placed where
  imports : List ImportDirective := []
  namespaces : List String := []
  types : List TypeDeclaration := []
deriving DecidableEq, Repr

/-- What two parts of a source declare. -/
def Placed.append (a b : Placed) : Placed :=
  ⟨a.imports ++ b.imports, a.namespaces ++ b.namespaces, a.types ++ b.types⟩

instance : Append Placed := ⟨Placed.append⟩

theorem Placed.append_def (a b : Placed) :
    a ++ b = ⟨a.imports ++ b.imports, a.namespaces ++ b.namespaces, a.types ++ b.types⟩ := rfl

theorem Placed.append_assoc (a b c : Placed) : a ++ b ++ c = a ++ (b ++ c) := by
  simp [Placed.append_def]

@[simp] theorem Placed.nil_append (a : Placed) : ({} : Placed) ++ a = a := rfl

/-! ## Placing -/

/-- The name of a namespace declared in another one. -/
def innerNamespace (outer name : String) : String :=
  if name = "" then outer else qualify outer name

/-- The opening of a namespace; the root is not opened. -/
def opening (name : String) : Placed := { namespaces := if name = "" then [] else [name] }

/-- The fields among members. -/
def fieldsOf : List Member → List Field
  | [] => []
  | .field f :: ms => f :: fieldsOf ms
  | _ :: ms => fieldsOf ms

/-- A type declared in a unit, in a namespace and in other types. -/
def TypeHead.declared (head : TypeHead) (path scope : String) (containing : List String)
    (members : List Member) : TypeDeclaration where
  name := head.name
  unitPath := path
  namespaceName := if scope = "" then none else some scope
  fields := fieldsOf members
  baseTypes := head.baseTypes
  modifiers := head.modifiers
  typeParameters := head.typeParameters
  containingTypes := containing
  kind := head.kind
  line := head.line

mutual
/-- The types that a member of a type declares. -/
def placeType (path scope : String) (containing : List String) : Member → List TypeDeclaration
  | .type head members =>
    head.declared path scope containing members ::
      placeTypes path scope (containing ++ [head.name]) members
  | _ => []
/-- The types that the members of a type declare. -/
def placeTypes (path scope : String) (containing : List String) :
    List Member → List TypeDeclaration
  | [] => []
  | m :: ms => placeType path scope containing m ++ placeTypes path scope containing ms
end

/-- The namespace that holds behind a member: a namespace for the rest of the file replaces the
one before it. -/
def scopeAfter (outer current : String) : Member → String
  | .fileScoped name => innerNamespace outer name
  | _ => current

mutual
/-- What a member declares where `current` is the namespace and `outer` the one around the list. -/
def placeMember (path outer current : String) : Member → Placed
  | .importing directive => { imports := [{ directive with scope := current }] }
  | .block name members =>
    opening (innerNamespace outer name) ++
      placeMembers path (innerNamespace outer name) (innerNamespace outer name) members
  | .fileScoped name => opening (innerNamespace outer name)
  | .type head members => { types := placeType path current [] (.type head members) }
  | .field _ => {}
/-- What members declare. -/
def placeMembers (path outer current : String) : List Member → Placed
  | [] => {}
  | m :: ms =>
    placeMember path outer current m ++ placeMembers path outer (scopeAfter outer current m) ms
end

/-- What a compilation unit declares. -/
def placeUnit (path : String) (members : List Member) : SourceUnit × List TypeDeclaration :=
  let placed := placeMembers path "" "" members
  (⟨path, placed.imports, dedupe placed.namespaces⟩, placed.types)

/-- Members are placed from left to right. -/
theorem placeMembers_append (path outer current : String) (ms ns : List Member) :
    placeMembers path outer current (ms ++ ns) =
      placeMembers path outer current ms ++
        placeMembers path outer (ms.foldl (scopeAfter outer) current) ns := by
  induction ms generalizing current with
  | nil => simp [placeMembers]
  | cons m ms ih => simp [placeMembers, ih, Placed.append_assoc]

/-- A type comes before the types nested in it. -/
theorem placeType_head (path scope : String) (containing : List String) (head : TypeHead)
    (members : List Member) :
    (placeType path scope containing (.type head members)).head? =
      some (head.declared path scope containing members) := by
  simp [placeType]

end FieldWiring.CSharp
