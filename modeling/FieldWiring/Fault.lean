import FieldWiring.Declaration

/-!
# Faults of one type

Why no resolver is made for a type. A fault concerns that type alone: it is recorded as a failure
and every other type keeps its resolver.

Model of `GenerationError` with its three subclasses, which are `FaultCause`, and of
`CandidateFailure` with `describe` (specification, §7).

Results:
* `Failure.describe_of`: a failure's line names source, type, kind and fault.
-/

namespace FieldWiring

/-- What is wrong: a chain of base types that closes, a marked field whose type cannot be written
in a resolver, or a name that several resolvers share. -/
inductive FaultCause where
  | cyclicChain (names : List String)
  | unrenderableField (field reason : String)
  | sharedHint (hint : String) (others : List String)
deriving DecidableEq, Repr

namespace FaultCause

/-- The name of the fault in reports. -/
def label : FaultCause → String
  | cyclicChain _ => "HierarchyCycleError"
  | unrenderableField .. => "UnrenderableFieldTypeError"
  | sharedHint .. => "HintNameCollisionError"

/-- What the fault is, in words. -/
def detail : FaultCause → String
  | cyclicChain names => "cyclic base-type chain: " ++ " -> ".intercalate names
  | unrenderableField field reason => "field '" ++ field ++ "' " ++ reason
  | sharedHint hint others =>
    "hint name '" ++ hint ++ "' is also produced by " ++ ", ".intercalate others

end FaultCause

/-- A fault and the type that it concerns. -/
structure Fault where
  typeName : String
  sourcePath : String
  cause : FaultCause
deriving DecidableEq, Repr

namespace Fault

/-- The fault of a declaration. -/
def of (d : TypeDeclaration) (cause : FaultCause) : Fault := ⟨d.qualifiedName, d.unitPath, cause⟩

/-- The fault with the type it concerns. -/
def message (f : Fault) : String := f.typeName ++ ": " ++ f.cause.detail

end Fault

/-- A type for which one kind of generator made no resolver. -/
structure Failure where
  kind : String
  typeName : String
  sourcePath : String
  error : String
  message : String
deriving DecidableEq, Repr

namespace Failure

/-- The failure as one line. -/
def describe (f : Failure) : String :=
  f.sourcePath ++ ": " ++ f.typeName ++ " [" ++ f.kind ++ "] " ++ f.error ++ ": " ++ f.message

/-- The failure of a declaration under the generator kind with key `kind`. -/
def of (kind : String) (d : TypeDeclaration) (cause : FaultCause) : Failure :=
  ⟨kind, d.qualifiedName, d.unitPath, cause.label, cause.detail⟩

theorem describe_of (kind : String) (d : TypeDeclaration) (cause : FaultCause) :
    (of kind d cause).describe =
      d.unitPath ++ ": " ++ d.qualifiedName ++ " [" ++ kind ++ "] " ++ cause.label ++ ": " ++
        cause.detail := rfl

end Failure

end FieldWiring
