import FieldWiring.Json.Value
import FieldWiring.Listing

/-!
# Output manifests

The list of the files in an output directory that the program owns, each with the digest of its
content and the kind of generator that made it. It is kept in the directory as a JSON document. A
document of another shape or version lists nothing, and so does each record in it that is not of the
right shape. A name with a slash or backslash is passed over: it could lead out of the directory.

Model of `ManifestEntry`, of `_store_manifest` (`text`) and of `_load_manifest` (`ofText`)
(specification, §2).

Results:
* `find?_record_self`, `find?_record_of_ne`: recording a file changes no other record.
* `isOwnName_of_mem`: the names that are read lead nowhere else.
-/

namespace FieldWiring

/-- What a manifest says about a file. -/
structure OutputRecord where
  digest : Json.Symbols
  kind : Json.Symbols
deriving DecidableEq, Repr

/-- The files that the program owns, each name once. -/
abbrev OutputManifest := List (Json.Symbols × OutputRecord)

namespace OutputManifest

/-- The name of the manifest's file. -/
def fileName : String := ".resolvergen-manifest.json"

/-- The version of the format. -/
def version : Int := 2

/-! ## Records -/

/-- The manifest with a record for a file, in the place of an earlier one. -/
def record (name : Json.Symbols) (r : OutputRecord) : OutputManifest → OutputManifest
  | [] => [(name, r)]
  | (n, s) :: rest => if n = name then (name, r) :: rest else (n, s) :: record name r rest

/-- The record for a file. -/
def find? (m : OutputManifest) (name : Json.Symbols) : Option OutputRecord := m.lookup name

theorem find?_cons (n : Json.Symbols) (s : OutputRecord) (m : OutputManifest)
    (name : Json.Symbols) : find? ((n, s) :: m) name =
      if name = n then some s else m.find? name := by
  by_cases h : name = n
  · simp [find?, h]
  · simp [find?, List.lookup_cons, h, beq_false_of_ne h]

theorem find?_record_self (m : OutputManifest) (name : Json.Symbols) (r : OutputRecord) :
    (record name r m).find? name = some r := by
  induction m with
  | nil => simp [record, find?_cons]
  | cons x m ih =>
    obtain ⟨n, s⟩ := x
    by_cases h : n = name
    · simp [record, h, find?_cons]
    · simp [record, h, find?_cons, Ne.symm h, ih]

theorem find?_record_of_ne {m : OutputManifest} {name other : Json.Symbols} (r : OutputRecord)
    (h : other ≠ name) : (record name r m).find? other = m.find? other := by
  induction m with
  | nil => simp [record, find?_cons, h]
  | cons x m ih =>
    obtain ⟨n, s⟩ := x
    by_cases hn : n = name
    · simp [record, hn, find?_cons, h]
    · simp [record, hn, find?_cons, ih]

/-- The manifest with its files in the order of their names. -/
def inOrder (m : OutputManifest) : OutputManifest :=
  sortBy (fun a b => Json.Symbols.precedes a.1 b.1) m

/-! ## Writing -/

/-- A record as a JSON value. -/
def recordValue (r : OutputRecord) : Json.Value :=
  .dict [(Json.Symbols.ofString "digest", .text r.digest),
    (Json.Symbols.ofString "kind", .text r.kind)]

/-- A manifest that was updated at a time, as a JSON value. Times hold no halves. -/
def value (m : OutputManifest) (time : String) : Json.Value :=
  .dict [(Json.Symbols.ofString "files", .dict (m.inOrder.map fun x => (x.1, recordValue x.2))),
    (Json.Symbols.ofString "updated_at", .text (.ofPlain time)),
    (Json.Symbols.ofString "version", .int version)]

/-- A manifest in writing. -/
def text (m : OutputManifest) (time : String) : String :=
  String.ofList (Json.write 0 (m.value time))

/-! ## Reading -/

/-- A name that leads to a file in the directory itself. -/
def isOwnName (name : Json.Symbols) : Bool :=
  !name.contains (.char '/') && !name.contains (.char '\\')

/-- A number that is the version. -/
def isVersion : Json.Value → Bool
  | .int n => n = version
  | .float x => x.toInt? = some version
  | _ => false

/-- The record that a value states. -/
def recordOf? (v : Json.Value) : Option OutputRecord :=
  match v.member "digest", v.member "kind" with
  | some (.text digest), some (.text kind) => some ⟨digest, kind⟩
  | _, _ => none

/-- The record that a member of a document states. -/
def entryOf? (m : Json.Symbols × Json.Value) : Option (Json.Symbols × OutputRecord) :=
  if isOwnName m.1 then (recordOf? m.2).map (m.1, ·) else none

/-- The manifest that a document states. -/
def ofValue (v : Json.Value) : OutputManifest :=
  if (v.member "version").any isVersion then
    match v.member "files" with
    | some (.dict members) => members.filterMap entryOf?
    | _ => []
  else []

/-- The manifest that a JSON document states. -/
def ofText (source : String) : Except Json.Fault OutputManifest := (Json.read source).map ofValue

theorem isOwnName_of_mem {v : Json.Value} {x : Json.Symbols × OutputRecord}
    (h : x ∈ ofValue v) : isOwnName x.1 = true := by
  unfold ofValue at h
  split at h
  · split at h
    · obtain ⟨m, _, hm⟩ := List.mem_filterMap.1 h
      unfold entryOf? at hm
      split at hm
      · obtain ⟨r, _, rfl⟩ := Option.map_eq_some_iff.1 hm
        assumption
      · cases hm
    · cases h
  · cases h

end OutputManifest

end FieldWiring
