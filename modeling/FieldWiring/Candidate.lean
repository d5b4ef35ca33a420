import FieldWiring.Corpus
import FieldWiring.Generator
import FieldWiring.Vendored

/-!
# Candidates

The types that get a resolver: partial classes of their own files, neither nested nor static nor
abstract nor vendored, that declare a marked field themselves.

Model of `is_candidate` and `discover_candidates` (specification, §4.1).

Results:
* `mem_candidates`: a candidate is a declaration of the corpus that is eligible.
* `candidates_sublist`: candidates come in the order of the corpus.
-/

namespace FieldWiring

/-- A declaration that a resolver can reopen. -/
def isReopenable (d : TypeDeclaration) : Bool :=
  d.kind = .classType && !d.isNested && d.isPartial && !d.isStatic && !d.isAbstract

/-- A declaration for which the generator makes a resolver. -/
def isCandidate (g : Generator) (excluded : List String) (d : TypeDeclaration) : Bool :=
  isReopenable d && !isVendored d.unitPath excluded && g.hasMarkedField d.fields

/-- The candidates of a corpus, in its order. -/
def candidates (c : Corpus) (g : Generator) (excluded : List String) : List TypeDeclaration :=
  c.declarations.filter (isCandidate g excluded)

theorem mem_candidates {c : Corpus} {g : Generator} {excluded : List String}
    {d : TypeDeclaration} :
    d ∈ candidates c g excluded ↔ d ∈ c.declarations ∧ isCandidate g excluded d = true :=
  List.mem_filter

theorem candidates_sublist (c : Corpus) (g : Generator) (excluded : List String) :
    (candidates c g excluded).Sublist c.declarations := List.filter_sublist

end FieldWiring
