import FieldWiring.TypeReference

/-!
# Declarations and source units

What is known of the sources: the type declarations found in them, and for each source unit the
directives that import names and the namespaces that it opens.

Model of `TypeDeclaration` with its properties, `ImportDirective` and `SourceUnit` (specification,
§3).

Results:
* `TypeKind.word_ofWord`, `ImportKind.word_ofWord`: a kind read from a word has that word.
* `key_eq_iff`: two declarations share a key iff they share qualified name and arity.
-/

namespace FieldWiring

/-! ## Types -/

/-- What a type declaration declares. -/
inductive TypeKind where
  | classType
  | structType
  | interfaceType
  | recordType
  | other (word : String)
deriving DecidableEq, Repr

namespace TypeKind

/-- The word for a kind. -/
def word : TypeKind → String
  | classType => "class"
  | structType => "struct"
  | interfaceType => "interface"
  | recordType => "record"
  | other w => w

/-- The kind that a word names. -/
def ofWord (w : String) : TypeKind :=
  if w = "class" then classType
  else if w = "struct" then structType
  else if w = "interface" then interfaceType
  else if w = "record" then recordType
  else other w

theorem word_ofWord (w : String) : (ofWord w).word = w := by
  unfold ofWord
  split
  · simp_all [word]
  · split
    · simp_all [word]
    · split
      · simp_all [word]
      · split <;> simp_all [word]

end TypeKind

/-- A named type declaration and where it stands. -/
structure TypeDeclaration where
  name : String
  unitPath : String
  namespaceName : Option String := none
  fields : List Field := []
  baseTypes : List TypeReference := []
  modifiers : List String := []
  typeParameters : List String := []
  containingTypes : List String := []
  kind : TypeKind := .classType
  line : Int := 0
deriving DecidableEq, Repr

/-- The name of a type and the number of its type parameters: what tells types apart. -/
structure TypeKey where
  name : String
  arity : Nat
deriving DecidableEq, Repr

namespace TypeDeclaration

/-- The namespace of a declaration; the root is the empty name. -/
def scope (d : TypeDeclaration) : String := d.namespaceName.getD ""

/-- The dotted name from the root. -/
def qualifiedName (d : TypeDeclaration) : String :=
  dotted ((if d.scope = "" then [] else [d.scope]) ++ d.containingTypes ++ [d.name])

/-- The namespace as names of units show it. -/
def displayNamespace (d : TypeDeclaration) : String :=
  if d.scope = "" then "Global" else d.scope

/-- The number of type parameters. -/
def arity (d : TypeDeclaration) : Nat := d.typeParameters.length

/-- The key of the declared type; the parts of a partial type share it. -/
def key (d : TypeDeclaration) : TypeKey := ⟨d.qualifiedName, d.arity⟩

theorem key_eq_iff {d e : TypeDeclaration} :
    d.key = e.key ↔ d.qualifiedName = e.qualifiedName ∧ d.arity = e.arity := by
  simp [key]

/-- The base type that a walk follows: the first one. -/
def baseType (d : TypeDeclaration) : Option TypeReference := d.baseTypes.head?

/-- The declaration is one part of its type. -/
def isPartial (d : TypeDeclaration) : Bool := d.modifiers.contains "partial"

/-- The type has no instances. -/
def isStatic (d : TypeDeclaration) : Bool := d.modifiers.contains "static"

/-- The type is instantiated through derived types only. -/
def isAbstract (d : TypeDeclaration) : Bool := d.modifiers.contains "abstract"

/-- The declaration stands inside another type. -/
def isNested (d : TypeDeclaration) : Bool := !d.containingTypes.isEmpty

/-- The modifiers that say who sees a type. -/
def accessModifiers : List String := ["public", "protected", "internal", "private", "file"]

/-- The access modifiers of a declaration, as written. -/
def accessibility (d : TypeDeclaration) : List String :=
  d.modifiers.filter accessModifiers.contains

end TypeDeclaration

/-! ## Imports and units -/

/-- What an import directive brings in: the names of a namespace, the static members of a type, or
one name under another. -/
inductive ImportKind where
  | names
  | statics
  | renamed
  | other (word : String)
deriving DecidableEq, Repr

namespace ImportKind

/-- The word for a kind. -/
def word : ImportKind → String
  | names => "namespace"
  | statics => "static"
  | renamed => "alias"
  | other w => w

/-- The kind that a word names. -/
def ofWord (w : String) : ImportKind :=
  if w = "namespace" then names
  else if w = "static" then statics
  else if w = "alias" then renamed
  else other w

theorem word_ofWord (w : String) : (ofWord w).word = w := by
  unfold ofWord
  split
  · simp_all [word]
  · split
    · simp_all [word]
    · split <;> simp_all [word]

end ImportKind

/-- A `using` directive: its text, what it names, and the namespace it stands in. A renaming brings
in its target as `newName`. -/
structure ImportDirective where
  text : String
  target : String
  scope : String := ""
  kind : ImportKind := .names
  newName : String := ""
  isGlobal : Bool := false
deriving DecidableEq, Repr

/-- A source file with its import directives and the namespaces it opens. -/
structure SourceUnit where
  path : String
  imports : List ImportDirective := []
  namespaces : List String := []
deriving DecidableEq, Repr

end FieldWiring
