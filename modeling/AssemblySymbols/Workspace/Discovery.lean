import AssemblySymbols.Disk.Access
import AssemblySymbols.Glob
import AssemblySymbols.Ignore.Rules
import AssemblySymbols.Text.Utf8
import AssemblySymbols.Workspace.Document

/-! The files of a workspace on disk. Discovery passes over links, directories of tools and whatever
ignore files leave out. -/
namespace AssemblySymbols

/-- Names of directories that hold no sources of their own. -/
def skippedDirectories : List String :=
  ["node_modules", "vendor", "dist", "build", ".git", ".svn", ".asmdex", "target"]

namespace Place

/-- The places above a place, nearest first. -/
def above (place : Place) : List Place :=
  (List.range place.length).reverse.map fun depth => place.take depth

def path (place : Place) : Path := ⟨"/" ++ "/".intercalate place⟩

/-- The names that lead from a directory to a place below it. -/
def namesBelow (directory place : Place) : List String := place.drop directory.length

end Place

/-- The order of paths name by name, in which a directory comes before what is in it. -/
def Place.comesBefore : List String → List String → Bool
  | [], _ => true
  | _ :: _, [] => false
  | name :: rest, name' :: rest' => if name = name' then comesBefore rest rest' else name < name'

/-- The text of a relative path, slashes in place of backslashes. -/
def relativeText (names : List String) : String :=
  ("/".intercalate names).map fun c => if c = '\\' then '/' else c

namespace Disk

/-- The rules in an ignore file. A file that cannot be read has none. -/
def ignoreRules (disk : Disk) (path : Path) : IgnoreRules :=
  match disk.read path with
  | .ok bytes => .ofSymbols (Text.decode bytes)
  | .error _ => []

/-- A directory is the top of a repository. -/
def isRepository (disk : Disk) (directory : Place) : Bool :=
  disk.pathExists ((Place.path directory).child ".git")

/-- The first line of a file, if it is text. -/
def firstLine? (disk : Disk) (path : Path) : Option String :=
  match disk.read path with
  | .ok bytes => (IgnoreRules.readableLines (Text.decode bytes)).head?.map String.ofList
  | .error _ => none

/-- The directory with the data of a repository. A file in its stead names another one, and that one
may name the directory that several share. -/
def repositoryData? (disk : Disk) (directory : Place) : Option Path :=
  let data := (Place.path directory).child ".git"
  match disk.find? data with
  | .ok (_, .file _) => do
    let line ← disk.firstLine? data
    if "gitdir: ".toList.isPrefixOf line.toList then
      let named : Path := ⟨String.ofList (line.toList.drop 8)⟩
      let shared ← disk.firstLine? (named.child "commondir")
      if shared.toList.head? = some '.' then some (named.child shared) else some ⟨shared⟩
    else none
  | _ => some data

def exclusions (disk : Disk) (directory : Place) : IgnoreRules :=
  match disk.repositoryData? directory with
  | some data => disk.ignoreRules ((data.child "info").child "exclude")
  | none => []

/-- The directories above a place up to the top of the repository, if they are in one. -/
def repositoryLevels (disk : Disk) (directories : List Place) : List Place :=
  match directories.span fun directory => !disk.isRepository directory with
  | (_, []) => []
  | (inside, top :: _) => inside ++ [top]

/-- The verdict of the ignore files above a place. Files for every tool come before those of the
repository, and these before its exclusions; of files of one sort the nearest decides. The exclusions that
a user keeps for all repositories, which would come last, are left out: there are taken to be none. -/
def ignoreVerdict? (disk : Disk) (place : Place) (isDirectory : Bool) : Option IgnoreVerdict :=
  let directories := Place.above place
  let levels := disk.repositoryLevels directories
  let verdictOf (rulesOf : Place → IgnoreRules) (directory : Place) : Option IgnoreVerdict :=
    (rulesOf directory).verdict? ("/".intercalate (Place.namesBelow directory place)) isDirectory
  let fileIn (name : String) (directory : Place) : IgnoreRules :=
    disk.ignoreRules ((Place.path directory).child name)
  (directories.findSome? (verdictOf (fileIn ".ignore"))).or
    ((levels.findSome? (verdictOf (fileIn ".gitignore"))).or
      (levels.findSome? (verdictOf disk.exclusions)))

def isIgnored (disk : Disk) (place : Place) (isDirectory : Bool) : Bool :=
  disk.ignoreVerdict? place isDirectory == some .ignored

/-- Discovery enters a directory. -/
def entersDirectory (disk : Disk) (directory : Place) : Bool :=
  !(directory.getLast?.any skippedDirectories.contains) && !disk.isIgnored directory true

/-- Discovery comes to a file below its root. -/
def reaches (disk : Disk) (root : Place) (names : List String) : Bool :=
  (List.range names.length).all (fun depth =>
    depth = 0 || disk.entersDirectory (root ++ names.take depth)) &&
  !disk.isIgnored (root ++ names) false

/-- The files below a place, by the names that lead to them. -/
def filesBelow (disk : Disk) (root : Place) : List (List String) :=
  (disk.subtree root).filterMap fun (place, node) =>
    match node with
    | .file _ => some (Place.namesBelow root place)
    | _ => none

/-- The files that discovery finds, by the names that lead to them from the root, in ascending order
name by name. A root that is a file is found itself. -/
def discover (disk : Disk) (root : Path) (patterns : List Glob) : List (List String) :=
  let accepted (names : List String) : Bool := patterns.any (·.accepts (relativeText names))
  match disk.find? root with
  | .ok (place, .directory) =>
    ((disk.filesBelow place).filter fun names => disk.reaches place names && accepted names).mergeSort
      Place.comesBefore
  | .ok _ => [[]].filter accepted
  | .error _ => []

/-- Paths of the files below a root that match one of the patterns. Slashes at the head of a pattern
have no meaning. -/
def findFiles (disk : Disk) (root : Path) (patterns : List String) :
    Except Glob.SyntaxError (List Path) := do
  let globs ← patterns.mapM fun text => Glob.parse (String.ofList (text.toList.dropWhile (· == '/')))
  pure ((disk.discover root globs).map (List.foldl Path.child root))

/-- Reads a file as a document in no known language. Bytes that are no text are replaced. -/
def openDocument (disk : Disk) (path : Path) : Except DiskError Document := do
  let bytes ← disk.read path
  pure ⟨path.text, none, String.ofList (Text.decodeLossy bytes)⟩

end Disk

/-- What is said of patterns that cannot be used. -/
def patternErrorMessage (error : Glob.SyntaxError) : String :=
  "Invalid glob pattern: " ++ error.message

end AssemblySymbols
