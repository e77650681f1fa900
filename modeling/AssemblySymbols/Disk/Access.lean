import AssemblySymbols.Disk.Tree

/-! Reading and changing a disk. A change that fails leaves the disk as it is. -/
namespace AssemblySymbols.Disk

/-- What a path leads to through all links. -/
def find? (disk : Disk) (path : Path) : Except DiskError (Place × Node) := do
  match ← disk.resolve true path with
  | .present place node => pure (place, node)
  | .absent _ _ => throw .notFound

def pathExists (disk : Disk) (path : Path) : Bool := (disk.find? path).isOk

def isDirectory (disk : Disk) (path : Path) : Bool :=
  match disk.find? path with
  | .ok (_, .directory) => true
  | _ => false

def read (disk : Disk) (path : Path) : Except DiskError Text.Bytes := do
  match ← disk.find? path with
  | (_, .file bytes) => pure bytes
  | _ => throw .isADirectory

/-- Gives a file new contents, creating it if its directory exists. -/
def write (disk : Disk) (path : Path) (bytes : Text.Bytes) : Except DiskError Disk := do
  match ← disk.resolve true path with
  | .present place (.file _) | .absent place false => pure (disk.put place (.file bytes))
  | _ => throw .isADirectory

def makeDirectory (disk : Disk) (path : Path) : Except DiskError Disk := do
  match ← disk.resolve false path with
  | .absent place _ => pure (disk.put place .directory)
  | .present _ _ => throw .alreadyExists

/-- The last piece of a path is a name. -/
def endsInName (path : Path) : Bool :=
  match (Path.splitSlashes path.text.toList).reverse.dropWhile (· = []) with
  | [] => false
  | last :: _ => last ≠ ['.'] && last ≠ ['.', '.']

def endsInSlash (path : Path) : Bool := path.text.toList.getLast? = some '/'

/-- Puts a node and what is below it at another place. -/
def move (disk : Disk) (source target : Place) : Disk :=
  let moved := (disk.subtree source).map fun (place, node) =>
    (target ++ place.drop source.length, node)
  let rest := disk.nodes.filter fun entry => !source.isPrefixOf entry.1 && entry.1 ≠ target
  { disk with nodes := rest ++ moved }

/-- Renames a node. What stands at the target gives way, if it is of the same sort and, being a
directory, empty. -/
def rename (disk : Disk) (source target : Path) : Except DiskError Disk := do
  let .present sourcePlace node ← disk.resolve false source | throw .notFound
  let destination ← disk.resolve false target
  if !endsInName source || !endsInName target then throw .busy
  if node ≠ .directory && (endsInSlash source || endsInSlash target) then throw .notADirectory
  match destination with
  | .absent place _ =>
    if sourcePlace.isPrefixOf place then throw .invalidArgument
    pure (disk.move sourcePlace place)
  | .present place old =>
    if place = sourcePlace then return disk
    if sourcePlace.isPrefixOf place then throw .invalidArgument
    match node, old with
    | .directory, .directory =>
      if (disk.subtree place).length ≤ 1 then pure (disk.move sourcePlace place) else throw .notEmpty
    | .directory, _ => throw .notADirectory
    | _, .directory => throw .isADirectory
    | _, _ => pure (disk.move sourcePlace place)

/-- Removes a node with everything below it; a link is removed itself. -/
def remove (disk : Disk) (path : Path) : Except DiskError Disk := do
  match ← disk.resolve false path with
  | .present place _ =>
    pure { disk with nodes := disk.nodes.filter fun entry => !place.isPrefixOf entry.1 }
  | .absent _ _ => throw .notFound

def makeLink (disk : Disk) (path : Path) (target : String) : Except DiskError Disk := do
  match ← disk.resolve false path with
  | .absent place false => pure (disk.put place (.link target))
  | .absent _ true => throw .notFound
  | .present _ _ => throw .alreadyExists

/-- The absolute path of an existing node without links and fillers. -/
def canonicalPath (disk : Disk) (path : Path) : Except DiskError Path := do
  let (place, _) ← disk.find? path
  pure ⟨"/" ++ "/".intercalate place⟩

end AssemblySymbols.Disk
