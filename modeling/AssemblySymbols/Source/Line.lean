import AssemblySymbols.Source.Identifier
import AssemblySymbols.Symbol.Class
import AssemblySymbols.Text.Blank
import AssemblySymbols.Text.Word

/-! What one line of assembly defines. A name followed by a colon is a label and nothing else; any
other line is held against every other construct, so a line may define two names. -/
namespace AssemblySymbols

/-- The form by which a line defines a name. -/
inductive Construct where
  /-- A name followed by one or two colons. -/
  | labelColon
  /-- A name followed by a data or reservation keyword. -/
  | dataDeclaration
  /-- A name after the keyword for labels. -/
  | labelKeyword
  /-- A name after the keyword for elements. -/
  | elementKeyword
  /-- A name after the keyword for text substitution. -/
  | defineKeyword
  /-- A name followed by the keyword for equates. -/
  | equate
  /-- A name after the keyword for macro instructions. -/
  | macroKeyword
  /-- A name followed by an assignment operator that is not glued to it as a colon. -/
  | assignment
  /-- A name after the keyword for loading values. -/
  | loadKeyword
deriving DecidableEq, Repr

namespace Construct

/-- Colons, data declarations and the label keyword make labels, all else makes values. -/
def kind : Construct → Kind
  | labelColon | dataDeclaration | labelKeyword => .label
  | elementKeyword | defineKeyword | equate | macroKeyword | assignment | loadKeyword => .value

/-- The keywords that a construct is recognized by, in lower case. -/
def keywords : Construct → List String
  | dataDeclaration =>
    ["db", "dw", "dd", "dq", "dt", "dp", "ddq", "dqq", "ddqq", "rb", "rw", "rd", "rq", "rt", "rp",
      "rdq", "rqq", "rdqq", "emit", "file"]
  | labelKeyword => ["label"]
  | elementKeyword => ["element"]
  | defineKeyword => ["define", "redefine"]
  | equate => ["equ", "reequ"]
  | macroKeyword => ["macro"]
  | loadKeyword => ["load"]
  | labelColon | assignment => []

/-- The constructs without a colon, in the order in which a line lists them. -/
def withoutColon : List Construct :=
  [dataDeclaration, labelKeyword, elementKeyword, defineKeyword, equate, macroKeyword, assignment,
    loadKeyword]

end Construct

/-- A line cut into the text before a name, the name and the text after it. -/
structure Occurrence where
  before : List Char
  name : List Char
  after : List Char
deriving DecidableEq, Repr

/-- A name defined on a line, with its stretch in UTF-8 bytes. -/
structure LineDefinition where
  name : String
  construct : Construct
  start : Nat
  stop : Nat
deriving DecidableEq, Repr

def LineDefinition.kind (definition : LineDefinition) : Kind := definition.construct.kind

/-- The rest of a text after a keyword written in any mixture of cases. -/
def dropKeyword? : List Char → List Char → Option (List Char)
  | [], text => some text
  | _ :: _, [] => none
  | k :: keyword, c :: text => if c.toLower = k then dropKeyword? keyword text else none

/-- A keyword of the list stands at the head of the text and is a whole word. -/
def startsWithWord (keywords : List String) (text : List Char) : Bool :=
  keywords.any fun keyword =>
    match dropKeyword? keyword.toList text with
    | some rest => Text.atWordEnd rest
    | none => false

/-- The text at the head of which an assignment operator stands. -/
def startsWithAssignment : List Char → Bool
  | ':' :: '=' :: _ => true
  | '=' :: _ => true
  | _ => false

/-- White space, of which there must be some, and then one of the keywords as a whole word. -/
def startsWithKeyword (keywords : List String) (text : List Char) : Bool :=
  !(text.takeWhile Text.isBlank).isEmpty && startsWithWord keywords (text.dropWhile Text.isBlank)

/-- The first word of a line, if it is an identifier. -/
def leadingName? (line : List Char) : Option Occurrence :=
  (takeIdentifier? (line.dropWhile Text.isBlank)).map fun (name, after) =>
    ⟨line.takeWhile Text.isBlank, name, after⟩

/-- The identifier that follows a keyword at the head of a line, with white space in between. -/
def nameAfterKeyword? (keyword : String) (line : List Char) : Option Occurrence := do
  let word := line.dropWhile Text.isBlank
  let rest ← dropKeyword? keyword.toList word
  let gap := rest.takeWhile Text.isBlank
  let (name, after) ← takeIdentifier? (rest.dropWhile Text.isBlank)
  if gap = [] then none
  else some ⟨line.takeWhile Text.isBlank ++ word.take keyword.length ++ gap, name, after⟩

/-- Where a line defines a name by the construct. -/
def Construct.find? (construct : Construct) (line : List Char) : Option Occurrence :=
  match construct with
  | .labelColon => (leadingName? line).filter fun found => found.after.head? == some ':'
  | .dataDeclaration | .equate => (leadingName? line).filter fun found =>
    startsWithKeyword construct.keywords found.after
  | .assignment => (leadingName? line).filter fun found =>
    startsWithAssignment (found.after.dropWhile Text.isBlank)
  | .labelKeyword | .elementKeyword | .defineKeyword | .macroKeyword | .loadKeyword =>
    construct.keywords.findSome? (nameAfterKeyword? · line)

def Construct.define? (construct : Construct) (line : List Char) : Option LineDefinition :=
  (construct.find? line).map fun found =>
    let start := Text.utf8Length found.before
    ⟨String.ofList found.name, construct, start, start + Text.utf8Length found.name⟩

/-- The line up to its first semicolon. -/
def stripComment (line : List Char) : List Char := line.takeWhile (· != ';')

/-- The definitions on a line without its comment. -/
def classifyLine (line : List Char) : List LineDefinition :=
  if Text.isBlankText line then []
  else match Construct.labelColon.define? line with
    | some label => [label]
    | none => Construct.withoutColon.filterMap (·.define? line)

end AssemblySymbols
