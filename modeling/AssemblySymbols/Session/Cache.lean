import AssemblySymbols.Disk.Action
import AssemblySymbols.Symbol.SnapshotFormat
import AssemblySymbols.Text.Utf8

/-! The cache file. A snapshot is written beside it and then moved into its place, so the file holds
either what it held or all of the snapshot. -/
namespace AssemblySymbols

inductive CacheError where
  | disk (cause : DiskError)
  /-- The file holds no snapshot. -/
  | malformed
deriving DecidableEq, Repr

/-- There is no cache yet. -/
def CacheError.isMissing (error : CacheError) : Bool := error == .disk .notFound

namespace Cache

/-- What is said of a save that failed. -/
def failureMessage (cause : DiskError) : String := "IO error: " ++ cause.message

/-- Where a snapshot is written before it takes the place of the cache. -/
def temporaryPath (path : Path) : Path := path.withFileName (path.fileName?.getD "" ++ ".tmp")

/-- The bytes of a snapshot in a file. -/
def encode (snapshot : Snapshot) : Text.Bytes := Text.encode snapshot.text.toList

def decode? (bytes : Text.Bytes) : Option Snapshot := Snapshot.read? (Text.decode bytes)

def save (path : Path) (snapshot : Snapshot) : DiskAction Unit := do
  DiskAction.makeParent path
  DiskAction.write (temporaryPath path) (encode snapshot)
  DiskAction.rename (temporaryPath path) path

def load (disk : Disk) (path : Path) : Except CacheError Snapshot :=
  match disk.read path with
  | .error cause => .error (.disk cause)
  | .ok bytes =>
    match decode? bytes with
    | some snapshot => .ok snapshot
    | none => .error .malformed

end Cache
end AssemblySymbols
