import FieldWiring.Candidate
import FieldWiring.Log
import FieldWiring.Resolver

/-!
# Generating units

One generator over one corpus: every candidate becomes a unit or a failure. Candidates share nothing
but the corpus, so each outcome is made on its own; only then are units compared, because two units
under one name are both refused.

Model of `GenerationDriver`, `GeneratedUnit`, `GenerationResult` and `CandidateDiagnostics`
(specification, §4.4):
* `outcome` is `_generate`, `outcomes` is the loop of `run`, and `settle` is `_aggregate`: `rivals`
  are the other owners of a hint name.
* `CandidateReport` is `CandidateDiagnostics`, with `record_walk`, `record_unit` and
  `record_failure` as `addWalk`, `addUnit` and `addFailure`.

Results:
* `outcomes_candidates`: there is one outcome for every candidate, in their order.
* `length_settle`: every outcome ends as a unit or as a failure.
-/

namespace FieldWiring

/-! ## Units -/

/-- A generated text, and the name under which it is published. -/
structure GeneratedUnit where
  hintName : String
  text : String
  kind : String
  typeName : String
  sourcePath : String
deriving DecidableEq, Repr

/-- The name of the file that a unit is written to. -/
def GeneratedUnit.fileName (u : GeneratedUnit) : String := u.hintName ++ ".cs"

/-! ## Reports about single candidates -/

/-- What is known about the making of one unit, line by line. -/
structure CandidateReport where
  typeName : String
  lines : List String := []
deriving DecidableEq, Repr

namespace CandidateReport

/-- The report with further lines. -/
def add (r : CandidateReport) (lines : List String) : CandidateReport :=
  { r with lines := r.lines ++ lines }

/-- The report with the result of a walk. -/
def addWalk (r : CandidateReport) (w : Walk) : CandidateReport :=
  r.add
    ["Found " ++ Text.natText w.fields.length ++ " fields for class " ++ r.typeName ++ ": " ++
        ", ".intercalate (w.fields.map (·.name)),
      "Classes looked at: " ++ ", ".intercalate (w.chain.map (·.name))]

/-- The report with a unit. -/
def addUnit (r : CandidateReport) (u : GeneratedUnit) : CandidateReport :=
  r.add
    ["=== " ++ u.hintName ++ " ===",
      String.ofList (Text.trimEnd (· == '\n') u.text.toList),
      "===================="]

/-- The report with a failure. -/
def addFailure (r : CandidateReport) (message : String) : CandidateReport :=
  r.add ["!!! " ++ r.typeName ++ ": " ++ message]

end CandidateReport

/-! ## Outcomes -/

/-- What became of one candidate on its own. -/
structure Outcome where
  candidate : TypeDeclaration
  result : Except FaultCause GeneratedUnit
  report : CandidateReport

/-- What is noted when a chain ends before a base type that it cannot follow. -/
def chainNotes (chain : Chain) : List Note :=
  let level := (chain.levels.getLast?.map (·.qualifiedName)).getD ""
  match chain.last with
  | .unknownBase base =>
    [⟨.debug, "hierarchy",
      "Base type " ++ base.text ++ " of " ++ level ++ " not found in corpus; stopping walk"⟩]
  | .noClass base kind =>
    [⟨.debug, "hierarchy",
      "Base type " ++ base.text ++ " of " ++ level ++ " is a " ++ kind.word ++ "; stopping walk"⟩]
  | _ => []

/-- What is noted while the chain of a candidate is walked. -/
def walkNotes (c : Corpus) (g : Generator) (R : SymbolResolver) (d : TypeDeclaration) : List Note :=
  match walkHierarchy c g R d with
  | .ok _ => chainNotes (climb R [] d)
  | .error _ => []

/-- The unit of a candidate with a text. -/
def unitOf (g : Generator) (d : TypeDeclaration) (text : String) : GeneratedUnit :=
  ⟨g.hintName d.displayNamespace d.name, text, g.kind.key, d.qualifiedName, d.unitPath⟩

/-- What becomes of a candidate. -/
def outcome (T : Templates) (c : Corpus) (g : Generator) (R : SymbolResolver)
    (d : TypeDeclaration) : Except RunError Outcome :=
  let report : CandidateReport := { typeName := d.name }
  match walkHierarchy c g R d with
  | .error f => .ok ⟨d, .error f.cause, report.addFailure f.cause.detail⟩
  | .ok w =>
    let walked := report.addWalk w
    match resolverText T g d w with
    | .ok text => .ok ⟨d, .ok (unitOf g d text), walked.addUnit (unitOf g d text)⟩
    | .error (.fault f) => .ok ⟨d, .error f.cause, walked.addFailure f.cause.detail⟩
    | .error (.run e) => .error e

/-- What becomes of all candidates of a corpus. -/
def outcomes (T : Templates) (c : Corpus) (g : Generator) (R : SymbolResolver)
    (excluded : List String) : Except RunError (List Outcome) :=
  (candidates c g excluded).mapM (outcome T c g R)

theorem outcome_candidate {T : Templates} {c : Corpus} {g : Generator} {R : SymbolResolver}
    {d : TypeDeclaration} {o : Outcome} (h : outcome T c g R d = .ok o) : o.candidate = d := by
  unfold outcome at h
  split at h
  · cases h; rfl
  · split at h <;> cases h <;> rfl

/-- There is one outcome for every candidate, in their order. -/
theorem outcomes_candidates {T : Templates} {c : Corpus} {g : Generator} {R : SymbolResolver}
    {excluded : List String} {os : List Outcome} (h : outcomes T c g R excluded = .ok os) :
    os.map (·.candidate) = candidates c g excluded := by
  have := map_of_mapM (p := (·.candidate)) (q := id) (fun _ _ => outcome_candidate) h
  simpa using this

/-! ## Settling names -/

/-- The units and failures of a run. -/
structure GenerationResult where
  units : List GeneratedUnit := []
  failures : List Failure := []
deriving DecidableEq, Repr

namespace GenerationResult

/-- Nothing failed. -/
def isOk (r : GenerationResult) : Bool := r.failures.isEmpty

/-- The results of two runs, one after the other. -/
def append (r s : GenerationResult) : GenerationResult :=
  ⟨r.units ++ s.units, r.failures ++ s.failures⟩

end GenerationResult

/-- A candidate and the file it stands in. -/
def claimant (d : TypeDeclaration) : String := d.qualifiedName ++ " (" ++ d.unitPath ++ ")"

/-- The outcome made a unit of this name. -/
def Outcome.claims (hint : String) (o : Outcome) : Bool :=
  match o.result with
  | .ok u => u.hintName = hint
  | .error _ => false

/-- The other outcomes that made a unit of the same name as the one at a place. -/
def rivals (os : List Outcome) (place : Nat) (hint : String) : List Outcome :=
  (os.zipIdx.filter fun o => o.1.claims hint && decide (o.2 ≠ place)).map (·.1)

/-- What becomes of the outcome at a place among the others: its unit, unless others share the
name. -/
def settleOne (g : Generator) (os : List Outcome) (o : Outcome) (place : Nat) :
    Except Failure GeneratedUnit :=
  match o.result with
  | .error cause => .error (.of g.kind.key o.candidate cause)
  | .ok u =>
    match rivals os place u.hintName with
    | [] => .ok u
    | others =>
      .error (.of g.kind.key o.candidate
        (.sharedHint u.hintName (others.map fun other => claimant other.candidate)))

/-- The outcomes as each of them is settled. -/
def settled (g : Generator) (os : List Outcome) : List (Except Failure GeneratedUnit) :=
  os.zipIdx.map fun o => settleOne g os o.1 o.2

/-- The values among results. -/
def values {ε α : Type} : List (Except ε α) → List α
  | [] => []
  | .ok a :: rs => a :: values rs
  | .error _ :: rs => values rs

/-- The errors among results. -/
def errors {ε α : Type} : List (Except ε α) → List ε
  | [] => []
  | .ok _ :: rs => errors rs
  | .error e :: rs => e :: errors rs

theorem length_values_errors {ε α : Type} (rs : List (Except ε α)) :
    (values rs).length + (errors rs).length = rs.length := by
  induction rs with
  | nil => rfl
  | cons r rs ih => cases r <;> simp [values, errors] <;> omega

/-- The units and failures that outcomes come to. -/
def settle (g : Generator) (os : List Outcome) : GenerationResult :=
  ⟨values (settled g os), errors (settled g os)⟩

/-- Every outcome ends as a unit or as a failure. -/
theorem length_settle (g : Generator) (os : List Outcome) :
    (settle g os).units.length + (settle g os).failures.length = os.length := by
  rw [settle, length_values_errors, settled, List.length_map, List.length_zipIdx]

/-! ## Notes -/

/-- What is noted when the candidates are known. -/
def candidateNote (g : Generator) (count : Nat) : Note :=
  ⟨.debug, "driver", "Discovered " ++ Text.natText count ++ " " ++ g.kind.key ++ " candidates"⟩

/-- What is noted about a result. -/
def resultNotes (g : Generator) (r : GenerationResult) : List Note :=
  r.failures.map (fun f => ⟨.warning, "driver", "Skipped " ++ f.describe⟩) ++
    [⟨.info, "driver", "Generated " ++ Text.natText r.units.length ++ " " ++ g.kind.key ++
      " unit(s), " ++ Text.natText r.failures.length ++ " failure(s)"⟩]

end FieldWiring
