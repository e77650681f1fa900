import AssemblySymbols.Disk.Error
import AssemblySymbols.Path
import AssemblySymbols.Text.Utf8

/-! A disk as a table of what stands at each place, and the way from a path to a place. -/
namespace AssemblySymbols

inductive Node where
  | directory
  | file (bytes : Text.Bytes)
  | link (target : String)
deriving DecidableEq, Repr, Inhabited

/-- The names that lead from the root of the disk to a place, links resolved. Names are texts, so there are
none of bytes that spell no text. -/
abbrev Place := List String

/-- No two places share a file: what is written at one of them is seen at another only through a link that
leads from there to it. -/
structure Disk where
  nodes : List (Place × Node)
  /-- Where relative paths start. -/
  home : Place
deriving Inhabited

namespace Disk

def empty : Disk := ⟨[], []⟩

/-- What stands at a place. The root is always a directory. -/
def node? (disk : Disk) : Place → Option Node
  | [] => some .directory
  | place => disk.nodes.lookup place

def erase (disk : Disk) (place : Place) : Disk :=
  { disk with nodes := disk.nodes.filter (·.1 ≠ place) }

def put (disk : Disk) (place : Place) (node : Node) : Disk :=
  { disk with nodes := (disk.nodes.filter (·.1 ≠ place)) ++ [(place, node)] }

/-- Everything at and below a place. -/
def subtree (disk : Disk) (place : Place) : List (Place × Node) :=
  disk.nodes.filter fun entry => place.isPrefixOf entry.1

/-- Where a path leads: to a node, or to a free place in a directory. -/
inductive Destination where
  | present (place : Place) (node : Node)
  /-- `slashed` paths end in a slash and can only be given to a directory. -/
  | absent (place : Place) (slashed : Bool)

/-- How far pieces of a path lead without following a link. -/
inductive Progress where
  | arrived (destination : Destination)
  | failed (error : DiskError)
  /-- A link in the directory `source`, with the pieces that remain behind it. -/
  | link (source : Place) (target : String) (rest : List (List Char))

/-- Longer names are refused, counted in bytes. -/
def nameLimit : Nat := 255

/-- Longer paths are refused, counted in bytes. -/
def pathLimit : Nat := 4095

/-- No path may lead through more links. -/
def linkLimit : Nat := 40

/-- Walks from a directory along pieces of a path. A link at the very end is followed on demand. -/
def advance (disk : Disk) (followLast : Bool) (here : Place) : List (List Char) → Progress
  | [] => .arrived (.present here .directory)
  | piece :: rest =>
    if Path.isFiller piece then advance disk followLast here rest
    else if piece = ['.', '.'] then advance disk followLast here.dropLast rest
    else
      let name := String.ofList piece
      if nameLimit < name.utf8ByteSize then .failed .nameTooLong
      else match disk.node? (here ++ [name]) with
        | none =>
          if rest.all (· = []) then .arrived (.absent (here ++ [name]) (rest ≠ [])) else .failed .notFound
        | some .directory => advance disk followLast (here ++ [name]) rest
        | some (.file bytes) =>
          if rest = [] then .arrived (.present (here ++ [name]) (.file bytes)) else .failed .notADirectory
        | some (.link target) =>
          if rest = [] && !followLast then .arrived (.present (here ++ [name]) (.link target))
          else .link here target rest

/-- Where a text of pieces starts. -/
def startOf (here : Place) (text : List Char) : Place :=
  if text.head? = some '/' then [] else here

/-- Walks along pieces with the given number of links to spare. -/
def walk (disk : Disk) (followLast : Bool) :
    Nat → Place → List (List Char) → Except DiskError Destination
  | links, here, pieces =>
    match disk.advance followLast here pieces, links with
    | .arrived destination, _ => .ok destination
    | .failed error, _ => .error error
    | .link _ _ _, 0 => .error .linkLoop
    | .link source target rest, links + 1 =>
      if target.isEmpty then .error .notFound
      else walk disk followLast links (startOf source target.toList)
        (Path.splitSlashes target.toList ++ rest)

/-- Where a path leads. -/
def resolve (disk : Disk) (followLast : Bool) (path : Path) : Except DiskError Destination :=
  let text := path.text.toList
  if text.contains '\x00' then .error .nulInName
  else if text.isEmpty then .error .notFound
  else if pathLimit < path.text.utf8ByteSize then .error .nameTooLong
  else disk.walk followLast linkLimit (startOf disk.home text) (Path.splitSlashes text)

end Disk
end AssemblySymbols
