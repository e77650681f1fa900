import AssemblySymbols.Session.OnDisk

/-! Following the changes on disk. Changed paths are collected until there is a pause, and then the
index is brought in line with each of them. -/
namespace AssemblySymbols

/-- What is told about a change on disk. -/
inductive FileEvent where
  | accessed (paths : List Path)
  | changed (paths : List Path)
deriving DecidableEq, Repr

def FileEvent.changedPaths : FileEvent → List Path
  | accessed _ => []
  | changed paths => paths

/-- A name of the path is that of a directory that discovery skips. -/
def passesSkipped (path : Path) : Bool :=
  path.components.any fun
    | .name text => skippedDirectories.contains text
    | _ => false

/-- Which changed paths are of interest. Directories above the root do not count. -/
def DocumentFilter.followsPath (filter : DocumentFilter) (root path : Path) : Bool :=
  filter.acceptsPath path && !passesSkipped ((path.below? root).getD path)

/-- The changed paths of an event that are of interest. -/
def FileEvent.followedPaths (event : FileEvent) (filter : DocumentFilter) (root : Path) : List Path :=
  event.changedPaths.filter (filter.followsPath root)

structure Watch where
  session : Session
  /-- Changed paths that the index does not reflect yet. -/
  changes : List Path

namespace Watch

def start (session : Session) : Watch := ⟨session, []⟩

/-- Puts a path to the others, unless one with the same components is there. -/
def note (changes : List Path) (path : Path) : List Path :=
  if changes.any fun noted => noted.components == path.components then changes else path :: changes

def receive (watch : Watch) (event : FileEvent) : Watch :=
  let followed := event.followedPaths watch.session.filter watch.session.root
  { watch with changes := followed.foldl note watch.changes }

/-- A pause: every collected path is applied. -/
def settle (watch : Watch) : Watch :=
  { session := watch.changes.foldl (fun session path => (session.refreshPath path).1) watch.session
    changes := [] }

end Watch
end AssemblySymbols
