import AssemblySymbols.Session.Query
import AssemblySymbols.Workspace.Discovery

/-! Sessions over the files on disk, where a document is named by the path of its file. -/
namespace AssemblySymbols

namespace Disk

def opening (disk : Disk) (path : Path) : Session.Opening :=
  ⟨path, [], (disk.openDocument path).toOption⟩

end Disk

namespace Session

/-- A session with the settings of its root. `delayText?` is the delay in the environment. -/
def ofRoot (disk : Disk) (root : Path) (delayText? : Option String) : Session :=
  .start root (Settings.load disk root delayText?) disk

/-- What the scan of the workspace would open, if the patterns can be used. -/
def openings? (session : Session) : Option (List Opening) :=
  match session.disk.findFiles session.root session.settings.patterns with
  | .ok paths => some (paths.map session.disk.opening)
  | .error _ => none

def refreshPath (session : Session) (path : Path) : Session × Bool :=
  session.refresh (session.disk.opening path)

end Session
end AssemblySymbols
