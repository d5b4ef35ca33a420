import FieldWiring.Corpus
import FieldWiring.Fault
import FieldWiring.Generator

/-!
# The chain of base types

A resolver assigns the marked fields of a type and of its base types. `climb` follows the first base
type of each level as long as it denotes a class that was not met before; `walkHierarchy` gathers
what the levels hold: the marked fields, from the type itself upwards, and the imports of the units
they stand in.

Model of `walk_hierarchy`, `_marked_fields`, `MarkedField` and `WalkResult` (specification, §4.2):
* `climb` is the loop over the levels, with the set of the types visited; `ChainEnd` says why it
  stops.
* `levelFields` is `_marked_fields`, and `gather` is what the loop adds up level by level. The two
  are told apart here: that a chain comes back is told only after the fields of its levels.
* `SymbolResolver` is the protocol of that name. A resolver finds only types of a finite range, as a
  corpus does.

Results:
* `climb_levels_ne_nil`, `climb_head`: a chain begins with the type itself.
* `nodup_climb`: no type occurs twice on a chain.
* `gather_ok`: what a chain gives, it gives of all its levels.
* `walkHierarchy_chain`: the chain of a walk is the climbed one.
-/

namespace FieldWiring

/-- A field that a resolver assigns. -/
structure MarkedField where
  typeText : String
  name : String
  lookupKey : String
  declaredIn : String
deriving DecidableEq, Repr

/-- What a walk along the base types gathers. -/
structure Walk where
  fields : List MarkedField := []
  imports : List String := []
  chain : List TypeDeclaration := []
deriving DecidableEq, Repr

/-! ## Resolving references -/

/-- A way to find what references denote, among finitely many declarations. -/
structure SymbolResolver where
  resolve : TypeReference → TypeDeclaration → Option TypeDeclaration
  range : List TypeDeclaration
  resolve_mem : ∀ {r d e}, resolve r d = some e → e ∈ range

/-- References denote what the corpus says. -/
def Corpus.symbols (c : Corpus) : SymbolResolver := ⟨c.resolve, c.declarations, c.resolve_mem⟩

/-- References denote what a table says about their names. -/
def SymbolResolver.ofTable (table : List (String × TypeDeclaration)) : SymbolResolver where
  resolve r _ := (table.find? fun e => decide (e.1 = r.name)).map (·.2)
  range := table.map (·.2)
  resolve_mem h := by
    obtain ⟨e, he, rfl⟩ := Option.map_eq_some_iff.1 h
    exact List.mem_map_of_mem (List.mem_of_find?_eq_some he)

/-! ## Climbing -/

/-- Why a chain has no further level. -/
inductive ChainEnd where
  | noBase
  | unknownBase (base : TypeReference)
  | noClass (base : TypeReference) (kind : TypeKind)
  | cycle (again : TypeDeclaration)
deriving DecidableEq, Repr

/-- The levels from a type upwards and why they end. -/
structure Chain where
  levels : List TypeDeclaration
  last : ChainEnd
deriving Repr

/-- The declarations that a climb may still reach. -/
def SymbolResolver.unvisited (R : SymbolResolver) (visited : List TypeKey) :
    List TypeDeclaration :=
  R.range.filter fun d => decide (d.key ∉ visited)

theorem SymbolResolver.unvisited_lt {R : SymbolResolver} {visited : List TypeKey}
    {d : TypeDeclaration} (hd : d ∈ R.range) (hv : d.key ∉ visited) :
    (R.unvisited (d.key :: visited)).length < (R.unvisited visited).length := by
  have hsub : R.unvisited (d.key :: visited) =
      (R.unvisited visited).filter fun e => decide (e.key ≠ d.key) := by
    simp only [unvisited, List.filter_filter]
    congr 1
    funext e
    simp
  rw [hsub]
  refine List.length_filter_lt_length_iff_exists.2 ⟨d, ?_, by simp⟩
  simp [unvisited, hd, hv]

/-- The chain from `d` upwards, when the types with the keys `visited` lie below it. -/
def climb (R : SymbolResolver) (visited : List TypeKey) (d : TypeDeclaration) : Chain :=
  match d.baseType with
  | none => ⟨[d], .noBase⟩
  | some base =>
    match _h : R.resolve base d with
    | none => ⟨[d], .unknownBase base⟩
    | some parent =>
      if parent.kind ≠ .classType then ⟨[d], .noClass base parent.kind⟩
      else if parent.key ∈ d.key :: visited then ⟨[d], .cycle parent⟩
      else
        let rest := climb R (d.key :: visited) parent
        ⟨d :: rest.levels, rest.last⟩
termination_by (R.unvisited (d.key :: visited)).length
decreasing_by exact SymbolResolver.unvisited_lt (R.resolve_mem (by assumption)) (by assumption)

theorem climb_head (R : SymbolResolver) (visited : List TypeKey) (d : TypeDeclaration) :
    ∃ rest, (climb R visited d).levels = d :: rest := by
  rw [climb]
  split
  · exact ⟨[], rfl⟩
  · split
    · exact ⟨[], rfl⟩
    · split
      · exact ⟨[], rfl⟩
      · split
        · exact ⟨[], rfl⟩
        · exact ⟨_, rfl⟩

theorem climb_levels_ne_nil (R : SymbolResolver) (visited : List TypeKey) (d : TypeDeclaration) :
    (climb R visited d).levels ≠ [] := by
  obtain ⟨rest, h⟩ := climb_head R visited d
  simp [h]

/-- No type occurs twice on a chain, nor does one that lies below it. -/
theorem nodup_climb (R : SymbolResolver) (visited : List TypeKey) (d : TypeDeclaration)
    (hd : d.key ∉ visited) :
    ((climb R visited d).levels.map (·.key)).Nodup ∧
      ∀ e ∈ (climb R visited d).levels, e.key ∉ visited := by
  fun_induction climb R visited d with
  | case1 => simp [hd]
  | case2 => simp [hd]
  | case3 => simp [hd]
  | case4 => simp [hd]
  | case5 visited d _ _ parent _ _ hv rest ih =>
    obtain ⟨hn, hr⟩ := ih hv
    refine ⟨?_, ?_⟩
    · simp only [List.map_cons, List.nodup_cons]
      refine ⟨?_, hn⟩
      intro h
      obtain ⟨e, he, hk⟩ := List.mem_map.1 h
      exact hr e he (by simp [hk])
    · intro e he
      rcases List.mem_cons.1 he with rfl | he
      · exact hd
      · exact fun h => hr e he (List.mem_cons_of_mem _ h)

/-! ## Gathering -/

/-- The type parameters of a declaration that a type text mentions. -/
def openParameters (d : TypeDeclaration) (typeText : String) : List String :=
  sorted (dedupe (d.typeParameters.filter (identifiersIn typeText).contains))

/-- Why the type of a field has no meaning outside of its declaration. -/
def openTypeReason (d : TypeDeclaration) (typeText : String) (used : List String) : String :=
  "has open generic type '" ++ typeText ++ "' (type parameter " ++ ", ".intercalate used ++
    " of " ++ d.name ++ ")"

/-- A field as the walk gathers it: nothing unless it is marked, a fault when its type mentions type
parameters. -/
def markedField (g : Generator) (d : TypeDeclaration) (f : Field) :
    Except FaultCause (Option MarkedField) :=
  match g.markerOn f with
  | none => .ok none
  | some m =>
    match openParameters d f.typeText with
    | [] => .ok (some ⟨f.typeText, f.name, m.lookupKey, d.qualifiedName⟩)
    | used => .error (.unrenderableField f.name (openTypeReason d f.typeText used))

/-- The marked fields of one level. -/
def levelFields (g : Generator) (d : TypeDeclaration) : Except FaultCause (List MarkedField) := do
  let fields ← d.fields.mapM (markedField g d)
  return fields.filterMap id

/-- What a chain holds, unless it closes or a field of it has an open type. -/
def gather (c : Corpus) (g : Generator) (chain : Chain) : Except FaultCause Walk := do
  let fields ← chain.levels.mapM (levelFields g)
  match chain.last with
  | .cycle again =>
    throw (.cyclicChain (chain.levels.map (·.qualifiedName) ++ [again.qualifiedName]))
  | _ =>
    return ⟨fields.flatten, dedupe (chain.levels.flatMap c.importsFor), chain.levels⟩

/-- The marked fields and imports along the base types of a candidate. -/
def walkHierarchy (c : Corpus) (g : Generator) (R : SymbolResolver) (candidate : TypeDeclaration) :
    Except Fault Walk :=
  (gather c g (climb R [] candidate)).mapError (Fault.of candidate)

/-- What a chain gives, it gives of all its levels. -/
theorem gather_ok {c : Corpus} {g : Generator} {chain : Chain} {w : Walk}
    (h : gather c g chain = .ok w) :
    ∃ fields, chain.levels.mapM (levelFields g) = .ok fields ∧
      w = ⟨fields.flatten, dedupe (chain.levels.flatMap c.importsFor), chain.levels⟩ := by
  unfold gather at h
  cases hf : chain.levels.mapM (levelFields g) with
  | error e => rw [hf] at h; cases h
  | ok fields =>
    rw [hf] at h
    refine ⟨fields, rfl, ?_⟩
    cases hl : chain.last <;> rw [hl] at h <;> cases h <;> rfl

theorem walkHierarchy_ok {c : Corpus} {g : Generator} {R : SymbolResolver}
    {candidate : TypeDeclaration} {w : Walk} (h : walkHierarchy c g R candidate = .ok w) :
    gather c g (climb R [] candidate) = .ok w := by
  unfold walkHierarchy at h
  cases hg : gather c g (climb R [] candidate) with
  | error e => rw [hg] at h; cases h
  | ok w' =>
    rw [hg] at h
    cases h
    rfl

theorem walkHierarchy_chain {c : Corpus} {g : Generator} {R : SymbolResolver}
    {candidate : TypeDeclaration} {w : Walk} (h : walkHierarchy c g R candidate = .ok w) :
    w.chain = (climb R [] candidate).levels := by
  obtain ⟨fields, -, rfl⟩ := gather_ok (walkHierarchy_ok h)
  rfl

end FieldWiring
