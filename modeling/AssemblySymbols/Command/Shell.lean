import AssemblySymbols.Command.Run

/-! The disk that a command works on is read before it runs and brought up to date after it. -/
namespace AssemblySymbols.Shell

abbrev Nodes := List (Place × Node)

def placeOf (path : String) : Place := (path.splitOn "/").filter (· ≠ "")

/-- What stands at a place. Links are read with their final targets, and those that lead nowhere with
an empty one. -/
def readNode? (place : Place) : IO (Option Node) := do
  let path := (← IO.currentDir) / (Place.path place).text
  try
    match (← path.symlinkMetadata).type with
    | .dir => return some .directory
    | .file => return some (.file (← IO.FS.readBinFile path).toList)
    | .symlink =>
      let target ← try pure (toString (← IO.FS.realPath path)) catch _ => pure ""
      return some (.link target)
    | .other => return none
  catch _ => return none

def addNode (nodes : Nodes) (place : Place) : IO Nodes := do
  if (nodes.lookup place).isSome then return nodes
  match ← readNode? place with
  | some node => return (place, node) :: nodes
  | none => return nodes

/-- Reads the nodes on the way to a place, and those on the way to what links make of it. -/
def addWay (nodes : Nodes) (path : String) : IO Nodes := do
  let place := placeOf path
  let mut nodes := nodes
  for depth in List.range place.length do
    let reached := place.take (depth + 1)
    nodes ← addNode nodes reached
    if let some (.link target) := nodes.lookup reached then
      let final := placeOf target ++ place.drop (depth + 1)
      for length in List.range final.length do
        nodes ← addNode nodes (final.take (length + 1))
  return nodes

/-- Reads what stands below a directory, except in directories that discovery skips. -/
partial def addBelow (nodes : Nodes) (place : Place) : IO Nodes := do
  let mut nodes := nodes
  for entry in ← ((← IO.currentDir) / (Place.path place).text).readDir do
    let inside := place ++ [entry.fileName]
    nodes ← addNode nodes inside
    if let some .directory := nodes.lookup inside then
      if !skippedDirectories.contains entry.fileName then nodes ← addBelow nodes inside
  return nodes

/-- The files that decide in a directory what discovery passes over. -/
def ignoreFiles : List String := ["/.ignore", "/.gitignore", "/.git/info/exclude"]

/-- The way from the working directory, with the files of environment variables beside it. -/
def readHome : IO Disk := do
  let home := toString (← IO.currentDir)
  let mut nodes ← addWay [] home
  for directory in Environment.searchPath (placeOf home) do
    nodes ← addWay nodes (directory.child ".env").text
  return ⟨nodes, placeOf home⟩

/-- Adds the directory of a workspace, with the ignore files above it, the settings and the cache. -/
def addWorkspace (disk : Disk) (root : String) : IO Disk := do
  let some final ← (try pure (some (toString (← IO.FS.realPath root))) catch _ => pure none)
    | return disk
  let place := placeOf final
  let mut nodes ← addWay (← addWay disk.nodes final) (Path.join ⟨"/" ++ "/".intercalate disk.home⟩ ⟨root⟩).text
  for directory in place :: Place.above place do
    for name in ignoreFiles do
      nodes ← addWay nodes ((Place.path directory).text ++ name)
  if let some .directory := nodes.lookup place then nodes ← addBelow nodes place
  nodes ← addWay nodes (Settings.path ⟨final⟩).text
  return { disk with nodes := nodes }

/-- Adds the file at a path. -/
def addFile (disk : Disk) (path : Path) : IO Disk := do
  return { disk with nodes := ← addWay disk.nodes path.text }

/-- Brings the disk from one state to another. Files change as a whole. -/
def update (old new : Disk) : IO Unit := do
  let here ← IO.currentDir
  for (place, node) in new.nodes do
    unless old.nodes.lookup place = some node do
      let path := here / (Place.path place).text
      match node with
      | .directory => IO.FS.createDirAll path
      | .file bytes =>
        let beside := here / ((Place.path place).text ++ ".new")
        IO.FS.writeBinFile beside ⟨bytes.toArray⟩
        IO.FS.rename beside path
      | .link _ => pure ()
  for (place, node) in old.nodes do
    if (new.nodes.lookup place).isNone then
      if let .file _ := node then IO.FS.removeFile (here / (Place.path place).text)

/-- The places at which two states of the disk differ. -/
def differences (old new : Disk) : List Path :=
  let changed := new.nodes.filter fun (place, node) => old.nodes.lookup place ≠ some node
  let removed := old.nodes.filter fun (place, _) => (new.nodes.lookup place).isNone
  (changed ++ removed).map fun (place, _) => Place.path place

end AssemblySymbols.Shell
