import AssemblySymbols.Disk.Access
import AssemblySymbols.Text.Blank
import AssemblySymbols.Text.Utf8
import AssemblySymbols.Text.Word

/-! Environment variables, and the file that adds to them. The file is that of the working directory or
of the nearest directory above it; it replaces no variable, and is read up to its first fault. -/
namespace AssemblySymbols

/-- Variables with their values. -/
abbrev Environment := List (String × String)

namespace Environment

def get? (environment : Environment) (name : String) : Option String := environment.lookup name

/-- Sets a variable that is not set yet. -/
def add (environment : Environment) (name value : String) : Environment :=
  if (environment.get? name).isSome then environment else environment ++ [(name, value)]

/-- How far the end of a line is from ending a definition. -/
inductive LineState where
  | plain
  | escape
  | blank
  | single
  | singleEscape
  | double
  | doubleEscape
  /-- The rest of the line is a comment. -/
  | comment
deriving DecidableEq, Repr

/-- The state after a character. A quote may go on over several lines, and so may blanks. -/
def LineState.after (state : LineState) (c : Char) : LineState :=
  match state with
  | comment => comment
  | escape => plain
  | doubleEscape => double
  | singleEscape => single
  | double => if c = '\\' then doubleEscape else if c = '"' then plain else double
  | single => if c = '\\' then singleEscape else if c = '\'' then plain else single
  | blank =>
    if c = '#' then comment else if c = '\\' then escape else if c = '"' then double
    else if c = '\'' then single else plain
  | plain =>
    if Text.isBlank c && c != '\n' && c != '\r' then blank
    else if c = '\\' then escape else if c = '"' then double else if c = '\'' then single
    else plain

/-- The lines of a file with their line feeds, up to the first that is no text. `line` are the
characters read of the present one, last first. -/
def rawLines (line : List Char) : List (Option Char) → List (List Char)
  | [] => if line.isEmpty then [] else [line.reverse]
  | none :: _ => []
  | some '\n' :: rest => ('\n' :: line).reverse :: rawLines [] rest
  | some c :: rest => rawLines (c :: line) rest

/-- The part of a line in front of its comment, from a state on, and the state at its end. -/
def scanLine (state : LineState) : List Char → List Char × LineState
  | [] => ([], state)
  | c :: rest =>
    match state.after c with
    | .comment => ([], .comment)
    | next =>
      let (kept, last) := scanLine next rest
      (c :: kept, last)

def dropLineEnd (text : List Char) : List Char :=
  match text.reverse with
  | '\n' :: '\r' :: rest | '\n' :: rest => rest.reverse
  | _ => text

/-- The texts of the definitions in a file, comments removed, up to one that does not end. `text` and
`state` are those of a definition that has begun. -/
def definitionTexts (text : List Char) (state : LineState) : List (List Char) → List (List Char)
  | [] => []
  | line :: rest =>
    if (Text.trimStart (text ++ line)).head? = some '#' then definitionTexts [] .plain rest
    else
      let (kept, last) := scanLine state line
      match last with
      | .plain => dropLineEnd (text ++ kept) :: definitionTexts [] .plain rest
      | .comment => (text ++ kept) :: definitionTexts [] .plain rest
      | _ => definitionTexts (text ++ line) last rest

/-- The reading of a value. -/
inductive ValueState where
  | plain
  | escape (quoted : Bool)
  | single
  | double
  /-- Behind the value only blanks and a comment may follow. -/
  | ended
  /-- The name of a variable, last character first. -/
  | variable (quoted : Bool) (name : List Char)
  /-- The name of a variable in braces, last character first. -/
  | braces (quoted : Bool) (name : List Char)

def quotedState (quoted : Bool) : ValueState := if quoted then .double else .plain

/-- Reads a value. `output` is what has been read of it, last character first, and `valueOf` gives the
values of variables. -/
def readValue (valueOf : String → List Char) (state : ValueState) (output : List Char) :
    List Char → Option (List Char)
  | [] =>
    match state with
    | .plain | .ended | .escape false => some output.reverse
    | .variable false name => some (output.reverse ++ valueOf (String.ofList name.reverse))
    | _ => none
  | c :: rest =>
    match state with
    | .ended =>
      if c = ' ' || c = '\t' then readValue valueOf .ended output rest
      else if c = '#' then some output.reverse
      else none
    | .escape quoted =>
      if c = 'n' then readValue valueOf (quotedState quoted) ('\n' :: output) rest
      else if c = '\\' || c = '\'' || c = '"' || c = '$' || c = ' ' then
        readValue valueOf (quotedState quoted) (c :: output) rest
      else none
    | .single =>
      if c = '\'' then readValue valueOf .plain output rest
      else readValue valueOf .single (c :: output) rest
    | .variable quoted name =>
      if Text.isAlphanumeric c then readValue valueOf (.variable quoted (c :: name)) output rest
      else if c = '{' && name.isEmpty then readValue valueOf (.braces quoted []) output rest
      else
        let output := (valueOf (String.ofList name.reverse)).reverse ++ output
        if c = '$' then readValue valueOf (.variable quoted []) output rest
        else readValue valueOf (quotedState quoted) (c :: output) rest
    | .braces quoted name =>
      if c = '}' then
        readValue valueOf (quotedState quoted)
          ((valueOf (String.ofList name.reverse)).reverse ++ output) rest
      else readValue valueOf (.braces quoted (c :: name)) output rest
    | .double =>
      if c = '$' then readValue valueOf (.variable true []) output rest
      else if c = '"' then readValue valueOf .plain output rest
      else if c = '\\' then readValue valueOf (.escape true) output rest
      else readValue valueOf .double (c :: output) rest
    | .plain =>
      if c = '$' then readValue valueOf (.variable false []) output rest
      else if c = '\'' then readValue valueOf .single output rest
      else if c = '"' then readValue valueOf .double output rest
      else if c = '\\' then readValue valueOf (.escape false) output rest
      else if c = ' ' || c = '\t' then readValue valueOf .ended output rest
      else readValue valueOf .plain (c :: output) rest

def isKeyStart (c : Char) : Bool := c.isAlpha || c == '_'

def isKeyChar (c : Char) : Bool := c.isAlphanum || c == '_' || c == '.'

def takeKey? (text : List Char) : Option (List Char × List Char) :=
  if text.head?.any isKeyStart then some (text.takeWhile isKeyChar, text.dropWhile isKeyChar) else none

def takeEquals? (text : List Char) : Option (List Char) :=
  match Text.trimStart text with
  | '=' :: rest => some rest
  | _ => none

/-- The key of a definition, which may follow the word `export`, and the text of its value. -/
def splitDefinition? (text : List Char) : Option (String × List Char) := do
  let (key, rest) ← takeKey? text
  match takeEquals? rest with
  | some value => pure (String.ofList key, Text.trimStart value)
  | none =>
    if key = "export".toList then
      let (key, rest) ← takeKey? (Text.trimStart rest)
      let value ← takeEquals? rest
      pure (String.ofList key, Text.trimStart value)
    else none

/-- What a text in the file says: nothing, a definition, or something faulty. -/
inductive Definition where
  | nothing
  | assign (key : String) (value : List Char)
  | faulty

def readDefinition (valueOf : String → List Char) (text : List Char) : Definition :=
  match Text.trimStart (Text.trimEnd text) with
  | [] | '#' :: _ => .nothing
  | text =>
    match splitDefinition? text with
    | none => .faulty
    | some (key, []) | some (key, '#' :: _) => .assign key []
    | some (key, value) =>
      match readValue valueOf .plain [] value with
      | none => .faulty
      | some value => .assign key value

/-- Adds the definitions of a file one after another, up to the first fault. A variable in a value is
that of the environment or, if that has none, of `defined`, the definitions before. -/
def addDefinitions (environment : Environment) (defined : List (String × List Char)) :
    List (List Char) → Environment
  | [] => environment
  | text :: rest =>
    let valueOf (name : String) : List Char :=
      match environment.get? name with
      | some value => value.toList
      | none => (defined.lookup name).getD []
    match readDefinition valueOf text with
    | .nothing => environment.addDefinitions defined rest
    | .faulty => environment
    | .assign key value =>
      (environment.add key (String.ofList value)).addDefinitions ((key, value) :: defined) rest

/-- Adds what the bytes of a file define. -/
def addFile (environment : Environment) (bytes : Text.Bytes) : Environment :=
  let symbols := match Text.decode bytes with
    | some '\uFEFF' :: rest => rest
    | symbols => symbols
  environment.addDefinitions [] (definitionTexts [] .plain (rawLines [] symbols))

/-- The nearest file of that name in directories, the first of them first. The search ends at one that
cannot be looked into. -/
def nearestFile? (disk : Disk) (name : String) : List Path → Option Path
  | [] => none
  | directory :: above =>
    match disk.find? (directory.child name) with
    | .ok (_, .file _) => some (directory.child name)
    | .ok _ | .error .notFound => nearestFile? disk name above
    | .error _ => none

/-- The paths of a place and of the places above it. -/
def searchPath (place : Place) : List Path :=
  (List.range (place.length + 1)).reverse.map fun depth => ⟨"/" ++ "/".intercalate (place.take depth)⟩

/-- Adds the variables of the environment file, if there is one. -/
def addWorkingFile (environment : Environment) (disk : Disk) : Environment :=
  match nearestFile? disk ".env" (searchPath disk.home) with
  | none => environment
  | some path =>
    match disk.read path with
    | .ok bytes => environment.addFile bytes
    | .error _ => environment

end Environment
end AssemblySymbols
