import AssemblySymbols.Json.Basic

/-! Written JSON. The compact form has no space at all, the indented one a line for every item and
field. Quotes, backslashes and controls are escaped, and everything else is written as it is. -/
namespace AssemblySymbols.Json

def hexDigit (n : Nat) : Char := if n < 10 then Char.ofNat (48 + n) else Char.ofNat (87 + n)

def escapeChar (c : Char) : List Char :=
  match c with
  | '"' => ['\\', '"']
  | '\\' => ['\\', '\\']
  | '\x08' => ['\\', 'b']
  | '\x0c' => ['\\', 'f']
  | '\n' => ['\\', 'n']
  | '\r' => ['\\', 'r']
  | '\t' => ['\\', 't']
  | c =>
    if c.toNat < 0x20 then ['\\', 'u', '0', '0', hexDigit (c.toNat / 16), hexDigit (c.toNat % 16)]
    else [c]

def writeText (text : List Char) : List Char := '"' :: text.flatMap escapeChar ++ ['"']

/-- A string as it is written. What is no text is written as the empty text. -/
def writeString (text : Option String) : List Char := writeText (text.getD "").toList

def separate (separator : List Char) : List (List Char) → List Char
  | [] => []
  | [part] => part
  | part :: rest => part ++ separator ++ separate separator rest

def writeScalar : Json → List Char
  | null => "null".toList
  | bool true => "true".toList
  | bool false => "false".toList
  | number digits => digits
  | string text => writeString text
  | array _ | object _ => []

/-- The spelling of arrays and objects at a depth of nesting. -/
structure Layout where
  /-- What follows the opening bracket, and a comma. -/
  lineBreak : Nat → List Char
  /-- What stands between a name and its value. -/
  colon : List Char

namespace Layout

def compact : Layout := ⟨fun _ => [], [':']⟩

/-- Two spaces for each level. -/
def indented : Layout := ⟨fun depth => '\n' :: List.replicate (2 * depth) ' ', [':', ' ']⟩

/-- Parts between brackets, which stand close together if there are no parts. -/
def enclose (layout : Layout) (depth : Nat) (opening closing : Char) (parts : List (List Char)) :
    List Char :=
  if parts.isEmpty then [opening, closing]
  else opening :: layout.lineBreak (depth + 1) ++
    separate (',' :: layout.lineBreak (depth + 1)) parts ++ layout.lineBreak depth ++ [closing]

mutual

def write (layout : Layout) (depth : Nat) : Json → List Char
  | array items => layout.enclose depth '[' ']' (writeItems layout (depth + 1) items)
  | object fields => layout.enclose depth '{' '}' (writeFields layout (depth + 1) fields)
  | scalar => writeScalar scalar

def writeItems (layout : Layout) (depth : Nat) : List Json → List (List Char)
  | [] => []
  | item :: rest => layout.write depth item :: writeItems layout depth rest

def writeFields (layout : Layout) (depth : Nat) : List (Option String × Json) → List (List Char)
  | [] => []
  | (name, value) :: rest =>
    (writeString name ++ layout.colon ++ layout.write depth value) ::
      writeFields layout depth rest

end

end Layout

def compact (value : Json) : String := String.ofList (Layout.compact.write 0 value)

def indented (value : Json) : String := String.ofList (Layout.indented.write 0 value)

end AssemblySymbols.Json
