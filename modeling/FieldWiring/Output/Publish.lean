import FieldWiring.Digest.Sha256
import FieldWiring.Files.Access
import FieldWiring.Generation
import FieldWiring.Output.Manifest

/-!
# Publishing units

Writing units to an output directory. A file that has its content already is left alone. Files that
an earlier run wrote and this one does not are removed when their kind took part in this run, and
else kept; only files that the manifest lists are ever removed.

Model of `OutputWriter.write` and `WriteReport` (specification, §2):
* `writeUnits` is the loop over the units, and `writeUnit` its step.
* `prune` is the loop over the names that only the previous manifest has, and `pruneOne` its step;
  `isStale` tests the kind, `removeFile` is `unlink`.
* `readManifest` reads what is there before, and `publishOver` is all that comes behind that.

Results:
* `isStale_iff`: which recorded files a run removes.
* `recordUnits_find?`: every published unit is recorded.
-/

namespace FieldWiring

/-- What publishing did with each file. -/
structure WriteReport where
  written : List Path := []
  unchanged : List Path := []
  removed : List Path := []
deriving DecidableEq, Repr

namespace Output

/-! ## Single files -/

/-- The record for a unit. -/
def recordOf (u : GeneratedUnit) : OutputRecord :=
  ⟨.ofPlain (Sha256.hex u.text.toUTF8), .ofString u.kind⟩

/-- The manifest of a run that publishes these units and nothing else. -/
def recordUnits (units : List GeneratedUnit) : OutputManifest :=
  units.foldl (fun m u => m.record (.ofString u.fileName) (recordOf u)) []

/-- Writes a unit unless its file has the content already; tells whether it did. A text without
encoding is refused before the file is looked at. -/
def writeUnit (here : Location) (target : Path) (u : GeneratedUnit) : FileAction Bool :=
  match Text.encode? u.text with
  | none => throw ⟨.noEncoding, target⟩
  | some payload => do
    let present ← FileAction.ask fun t => t.look here target
    let same ←
      if present.isSome then do
        let content ← FileAction.ask fun t => t.read here target
        pure (Sha256.hex content = Sha256.hex payload : Bool)
      else pure false
    if same then return false
    FileAction.change fun t => t.write here target payload
    return true

/-- Removes a file if it is there; tells whether it was. -/
def removeFile (here : Location) (target : Path) : FileAction Bool := fun t =>
  match t.remove here target with
  | .ok u => (.ok true, u)
  | .error e => if e.cause = .notFound then (.ok false, t) else (.error e, t)

/-- Removes the file of a directory that symbols name; tells where it was. -/
def removeNamed (here : Location) (dir : Path) (name : Json.Symbols) :
    FileAction (Option Path) := do
  let target := dir.joinText name.toText
  if ← removeFile here target then return some target else return none

/-! ## Whole directories -/

/-- A recorded file is stale: the run makes no such file although its kind took part. Without kinds
every kind took part. -/
def isStale (current : OutputManifest) (kinds : Option (List String))
    (x : Json.Symbols × OutputRecord) : Bool :=
  (current.find? x.1).isNone &&
    match kinds with
    | none => true
    | some ks => (ks.map Json.Symbols.ofString).contains x.2.kind

theorem isStale_iff {current : OutputManifest} {ks : List String}
    {x : Json.Symbols × OutputRecord} :
    isStale current (some ks) x = true ↔
      current.find? x.1 = none ∧ ∃ k ∈ ks, Json.Symbols.ofString k = x.2.kind := by
  simp [isStale]

/-- Deals with one file of an earlier run that this one does not make: a stale one is removed, and
another stays recorded. -/
def pruneOne (here : Location) (dir : Path) (current : OutputManifest)
    (kinds : Option (List String)) (state : OutputManifest × List Path)
    (x : Json.Symbols × OutputRecord) : FileAction (OutputManifest × List Path) := do
  if isStale current kinds x then
    match ← removeNamed here dir x.1 with
    | some path => return (state.1, state.2 ++ [path])
    | none => return state
  else return (state.1.record x.1 x.2, state.2)

/-- Deals with the files of an earlier run that this one does not make, in the order of their
names. -/
def prune (here : Location) (dir : Path) (kinds : Option (List String))
    (previous current : OutputManifest) : FileAction (OutputManifest × List Path) :=
  let left : OutputManifest := previous.filter fun x => (current.find? x.1).isNone
  left.inOrder.foldlM (pruneOne here dir current kinds) (current, [])

/-- The manifest in a directory. Without a file it is empty. A file that cannot be read is as good
as one that holds no manifest. -/
def readManifest (t : FileTree) (here : Location) (dir : Path) : Except Json.Fault OutputManifest :=
  match t.read here (dir.joinText OutputManifest.fileName) with
  | .ok content =>
    match Utf8.readText? content with
    | some text => OutputManifest.ofText text
    | none => .error .malformed
  | .error e => if e.cause = .notFound then .ok [] else .error .malformed

/-- Writes the units into their directory; tells for each whether its file changed. -/
def writeUnits (here : Location) (dir : Path) (units : List GeneratedUnit) :
    FileAction (List (Path × Bool)) :=
  units.mapM fun u => do
    let target := dir.joinText u.fileName
    return (target, ← writeUnit here target u)

/-- Publishes units over what an earlier run left. -/
def publishOver (here : Location) (dir : Path) (units : List GeneratedUnit)
    (kinds : Option (List String)) (time : String) (previous : OutputManifest) :
    FileAction WriteReport := do
  let targets ← writeUnits here dir units
  let (manifest, removed) ← prune here dir kinds previous (recordUnits units)
  FileAction.change fun t =>
    t.write here (dir.joinText OutputManifest.fileName) (manifest.text time).toUTF8
  return {
    written := (targets.filter (·.2)).map (·.1)
    unchanged := (targets.filter fun x => !x.2).map (·.1)
    removed := removed }

theorem find?_recordUnits_from (units : List GeneratedUnit) (m : OutputManifest)
    (name : Json.Symbols)
    (h : (m.find? name).isSome = true ∨ ∃ u ∈ units, Json.Symbols.ofString u.fileName = name) :
    ((units.foldl (fun m u => m.record (.ofString u.fileName) (recordOf u)) m).find? name).isSome =
      true := by
  induction units generalizing m with
  | nil => simpa using h
  | cons u units ih =>
    refine ih _ ?_
    by_cases hn : name = Json.Symbols.ofString u.fileName
    · left
      rw [hn, OutputManifest.find?_record_self]
      rfl
    · rcases h with h | ⟨v, hv, hvn⟩
      · left
        rw [OutputManifest.find?_record_of_ne _ hn]
        exact h
      · rcases List.mem_cons.1 hv with rfl | hv
        · exact absurd hvn.symm hn
        · exact .inr ⟨v, hv, hvn⟩

/-- Every published unit is recorded. -/
theorem recordUnits_find? {units : List GeneratedUnit} {u : GeneratedUnit} (h : u ∈ units) :
    ((recordUnits units).find? (.ofString u.fileName)).isSome = true :=
  find?_recordUnits_from units [] _ (.inr ⟨u, h, rfl⟩)

/-! ## Notes -/

/-- What is noted about a manifest that cannot be read. -/
def unreadableNote (dir : Path) : Note :=
  ⟨.debug, "writer",
    "Ignoring unreadable manifest " ++ (dir.joinText OutputManifest.fileName).text⟩

/-- What is noted when units are published. -/
def publishedNote (dir : Path) (r : WriteReport) : Note :=
  ⟨.info, "writer", "Output " ++ dir.text ++ ": " ++ Text.natText r.written.length ++
    " written, " ++ Text.natText r.unchanged.length ++ " unchanged, " ++
    Text.natText r.removed.length ++ " removed"⟩

end Output

end FieldWiring
