/-! Paths as texts. What a path names is given by its components; how it is spelled is kept, since
spellings are shown and used as names of documents. -/
namespace AssemblySymbols

structure Path where
  text : String
deriving DecidableEq, Repr, Inhabited

namespace Path

inductive Component where
  /-- The slash at the head of an absolute path. -/
  | root
  /-- The dot at the head of a relative path. -/
  | here
  | parent
  | name (text : String)
deriving DecidableEq, Repr

/-- The pieces of a text between its slashes. -/
def splitSlashes : List Char → List (List Char)
  | [] => [[]]
  | '/' :: rest => [] :: splitSlashes rest
  | c :: rest =>
    match splitSlashes rest with
    | [] => [[c]]
    | piece :: pieces => (c :: piece) :: pieces

def joinSlashes : List (List Char) → List Char
  | [] => []
  | [piece] => piece
  | piece :: rest => piece ++ '/' :: joinSlashes rest

/-- A piece that names nothing: between two slashes, or a dot. -/
def isFiller (piece : List Char) : Bool := piece == [] || piece == ['.']

/-- A path cut into the component at its head that is no name, and the pieces behind it. -/
structure Cut where
  head : Option Component
  pieces : List (List Char)

def cut (path : Path) : Cut :=
  match splitSlashes path.text.toList with
  | [] :: pieces => if pieces.isEmpty then ⟨none, []⟩ else ⟨some .root, pieces⟩
  | ['.'] :: pieces => ⟨some .here, pieces⟩
  | pieces => ⟨none, pieces⟩

namespace Cut

def text (cut : Cut) : List Char :=
  match cut.head with
  | some .root => '/' :: joinSlashes cut.pieces
  | some .here => joinSlashes (['.'] :: cut.pieces)
  | _ => joinSlashes cut.pieces

def path (cut : Cut) : Path := ⟨String.ofList cut.text⟩

/-- Without the fillers behind the last name. -/
def trimEnd (cut : Cut) : Cut :=
  { cut with pieces := (cut.pieces.reverse.dropWhile isFiller).reverse }

end Cut

def isAbsolute (path : Path) : Bool := path.text.toList.head? == some '/'

def componentOf (piece : List Char) : Component :=
  if piece = ['.', '.'] then .parent else .name (String.ofList piece)

def components (path : Path) : List Component :=
  path.cut.head.toList ++ (path.cut.pieces.filter fun piece => !isFiller piece).map componentOf

/-- What `relative` means when it starts from `base`. -/
def join (base relative : Path) : Path :=
  if relative.isAbsolute || base.text.isEmpty then relative
  else if base.text.toList.getLast? = some '/' then ⟨base.text ++ relative.text⟩
  else ⟨base.text ++ "/" ++ relative.text⟩

def child (base : Path) (name : String) : Path := base.join ⟨name⟩

/-- The path without its last component. -/
def parent? (path : Path) : Option Path :=
  match path.components.getLast? with
  | none | some .root => none
  | some .here => some ⟨""⟩
  | some _ =>
    let trimmed := path.cut.trimEnd
    some ({ trimmed with pieces := trimmed.pieces.dropLast } : Cut).trimEnd.path

def fileName? (path : Path) : Option String :=
  match path.components.getLast? with
  | some (.name text) => some text
  | _ => none

/-- The path with another last name, or with one more if it does not end in a name. -/
def withFileName (path : Path) (name : String) : Path :=
  match path.fileName?, path.parent? with
  | some _, some parent => parent.child name
  | _, _ => path.child name

/-- The part of the file name behind its last dot, unless that dot is its first character. -/
def extension? (path : Path) : Option String := do
  let name := (← path.fileName?).toList.reverse
  match name.dropWhile (· != '.') with
  | [] | ['.'] => none
  | _ => some (String.ofList (name.takeWhile (· != '.')).reverse)

/-- The pieces behind the first names of a path, fillers not counted. -/
def dropNames : Nat → List (List Char) → List (List Char)
  | 0, pieces => pieces
  | _ + 1, [] => []
  | count + 1, piece :: rest =>
    if isFiller piece then dropNames (count + 1) rest else dropNames count rest

/-- The rest of a path behind all components of `base`, spelled as in the path. -/
def below? (path base : Path) : Option Path :=
  if base.components.isPrefixOf path.components then
    match base.components.length with
    | 0 => some path.cut.trimEnd.path
    | count =>
      let pieces := dropNames (count - path.cut.head.toList.length) path.cut.pieces
      some (⟨none, pieces.dropWhile isFiller⟩ : Cut).trimEnd.path
  else none

/-- The path of a file relative to `base` as it is shown and matched, with slashes in place of
backslashes. -/
def relativeTo? (path base : Path) : Option String :=
  (path.below? base).map fun rest => rest.text.map fun c => if c = '\\' then '/' else c

end Path
end AssemblySymbols
