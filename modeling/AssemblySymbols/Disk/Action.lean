import AssemblySymbols.Disk.Access

/-! Sequences of changes to a disk. When one fails, what the ones before it did remains. -/
namespace AssemblySymbols

abbrev DiskAction := ExceptT DiskError (StateM Disk)

namespace DiskAction

/-- One change, which happens as a whole or not at all. -/
def change (step : Disk → Except DiskError Disk) : DiskAction Unit := do
  match step (← get) with
  | .ok disk => set disk
  | .error error => throw error

def makeDirectory (path : Path) : DiskAction Unit := change (·.makeDirectory path)

def write (path : Path) (bytes : Text.Bytes) : DiskAction Unit := change (·.write path bytes)

def rename (source target : Path) : DiskAction Unit := change (·.rename source target)

/-- Makes a directory, unless it is there already. -/
def ensureDirectory (path : Path) : DiskAction Unit :=
  tryCatch (makeDirectory path) fun error => do
    if (← get).isDirectory path then pure () else throw error

/-- Makes a directory, after those above it if they are missing. `above` are their paths, nearest
first. -/
def makeDirectoriesAbove (path : Path) : List Path → DiskAction Unit
  | [] => ensureDirectory path
  | parent :: above =>
    tryCatch (ensureDirectory path) fun
      | .notFound => do
        if !parent.text.isEmpty then makeDirectoriesAbove parent above
        ensureDirectory path
      | error => throw error

/-- The paths above a path, nearest first. -/
def pathsAbove : Nat → Path → List Path
  | 0, _ => []
  | depth + 1, path =>
    match path.parent? with
    | none => []
    | some parent => parent :: pathsAbove depth parent

/-- Makes a directory together with all that lead to it. The empty path needs none. -/
def makeDirectories (path : Path) : DiskAction Unit :=
  if path.text.isEmpty then pure ()
  else makeDirectoriesAbove path (pathsAbove path.components.length path)

/-- Makes the directory that a file is to stand in. -/
def makeParent (path : Path) : DiskAction Unit :=
  match path.parent? with
  | some parent => makeDirectories parent
  | none => pure ()

end DiskAction
end AssemblySymbols
