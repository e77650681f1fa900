import AssemblySymbols.Source.Span
import AssemblySymbols.Text.Lines

/-! Identifiers, and the one that a cursor stands on. The same characters make a name wherever it is
defined or used, so what a line defines can be picked up from any of its uses. -/
namespace AssemblySymbols

def isIdentifierStart (c : Char) : Bool :=
  c.isAlpha || c == '.' || c == '?' || c == '_' || c == '$'

def isIdentifierChar (c : Char) : Bool := isIdentifierStart c || c.isDigit || c == '#'

/-- The longest identifier at the head of a text, and what follows it. -/
def takeIdentifier? : List Char → Option (List Char × List Char)
  | [] => none
  | c :: rest =>
    if isIdentifierStart c then
      some (c :: rest.takeWhile isIdentifierChar, rest.dropWhile isIdentifierChar)
    else none

/-- An identifier as it occurs in a line, in UTF-16 columns. -/
structure Identifier where
  name : String
  start : UInt32
  stop : UInt32
deriving DecidableEq, Repr

def Identifier.span (identifier : Identifier) (line : UInt32) : Span :=
  ⟨⟨line, identifier.start⟩, ⟨line, identifier.stop⟩⟩

/-- Cuts a line at the last of its places, the start of each character and the end of the line, whose
column is not beyond `column`. The columns are added up in 32 bits and start over on a line of so many
units. `before` holds the characters passed, nearest first, `start` is the column reached with them, and
`best` is the last cut so far. -/
def cutAtColumn (column start : UInt32) (before : List Char) (best : List Char × List Char) :
    List Char → List Char × List Char
  | [] => if start ≤ column then (before, []) else best
  | c :: rest =>
    cutAtColumn column (start + (Text.utf16Units c).toUInt32) (c :: before)
      (if start ≤ column then (before, c :: rest) else best) rest

/-- The identifier that covers a column or ends right at it. -/
def identifierAt? (line : List Char) (column : UInt32) : Option Identifier :=
  let (before, after) := cutAtColumn column 0 [] ([], line) line
  let left := (before.takeWhile isIdentifierChar).reverse
  let name := left ++ after.takeWhile isIdentifierChar
  match name with
  | [] => none
  | first :: _ =>
    if isIdentifierStart first then
      let start := Text.utf16Length (before.dropWhile isIdentifierChar)
      some ⟨String.ofList name, start.toUInt32, (start + Text.utf16Length name).toUInt32⟩
    else none

/-- The line of that number, if the text has so many. -/
def lineText? (text : List Char) (line : UInt32) : Option (List Char) :=
  (Text.lines text)[line.toNat]?

end AssemblySymbols
