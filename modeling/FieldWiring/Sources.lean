import FieldWiring.Digest.Sha256
import FieldWiring.Listing

/-!
# Source manifests

The source files of a project with the digests of their contents, and one digest over all of them. A
manifest that lists a name of bytes that are no UTF-8 has no such digest, since the name has no
encoding.

Model of `SourceFile`, `SourceManifest` and its method `fingerprint` (specification, §2).

Results:
* `sorted_sortFiles`: sorted files are in the order of their paths.
* `fingerprintEntry_congr`: sizes and languages do not enter the fingerprint.
-/

namespace FieldWiring

/-- A source file as the scan found it; `hash` is the digest of its bytes. -/
structure SourceFile where
  path : String
  size : Nat
  language : String
  hash : String
deriving DecidableEq, Repr

/-- The source files of a project, their paths relative to `root`. -/
structure SourceManifest where
  root : String
  files : List SourceFile := []
deriving DecidableEq, Repr

/-- Files in the order of their paths. -/
def sortFiles (files : List SourceFile) : List SourceFile :=
  sortBy (fun a b => Text.precedes a.path b.path) files

theorem sorted_sortFiles (files : List SourceFile) :
    (sortFiles files).Pairwise fun f g => Text.precedes f.path g.path = true := by
  refine pairwise_sortBy (fun f g => Text.precedes_total f.path g.path) (fun f g e h k => ?_) files
  exact Text.precedes_trans h k

/-- A file as the fingerprint reads it: its path and its digest, each ended by a NUL. -/
def fingerprintEntry (f : SourceFile) : String := f.path ++ "\x00" ++ f.hash ++ "\x00"

/-- The text whose digest is the fingerprint. -/
def fingerprintText (files : List SourceFile) : String :=
  String.join ((sortFiles files).map fingerprintEntry)

/-- The bytes whose digest is the fingerprint, unless some path or digest has no encoding. -/
def SourceManifest.message (m : SourceManifest) : Option ByteArray :=
  Text.encode? (fingerprintText m.files)

/-- One digest over the paths and contents of all files, as far as they have an encoding. -/
def SourceManifest.fingerprint (m : SourceManifest) : Option String := m.message.map Sha256.hex

theorem fingerprintEntry_congr {a b : SourceFile} (hp : a.path = b.path) (hh : a.hash = b.hash) :
    fingerprintEntry a = fingerprintEntry b := by
  simp [fingerprintEntry, hp, hh]

end FieldWiring
