/-! JSON values. Numbers keep their digits as written, and a string or a name that is no text, having
an unpaired surrogate or undecodable bytes, is kept apart as `none`. -/
namespace AssemblySymbols

inductive Json where
  | null
  | bool (value : Bool)
  | number (digits : List Char)
  | string (text : Option String)
  | array (items : List Json)
  | object (fields : List (Option String × Json))
deriving Inhabited

namespace Json

def ofText (text : String) : Json := .string (some text)

def ofNat (n : Nat) : Json := .number (toString n).toList

def ofFields (fields : List (String × Json)) : Json :=
  .object (fields.map fun (name, value) => (some name, value))

def ofTexts (texts : List String) : Json := .array (texts.map ofText)

/-- The natural number that digits write, if they hold neither sign, point nor exponent. -/
def digitsValue? (digits : List Char) : Option Nat :=
  if digits.isEmpty || !digits.all Char.isDigit then none
  else some (digits.foldl (fun n c => n * 10 + (c.toNat - 48)) 0)

/-- A natural number below a bound. -/
def natBelow? (bound : Nat) : Json → Option Nat
  | .number digits => (digitsValue? digits).filter (· < bound)
  | _ => none

def text? : Json → Option String
  | .string text => text
  | _ => none

def items? : Json → Option (List Json)
  | .array items => some items
  | _ => none

def texts? (value : Json) : Option (List String) := value.items?.bind (·.mapM text?)

/-- The fields of an object all of whose names are texts. -/
def fields? : Json → Option (List (String × Json))
  | .object fields => fields.mapM fun (name, value) => name.map (·, value)
  | _ => none

/-- The fields of a record with the given field names. A record is written as an object, in which
each of the names occurs at most once and others are passed over, or as the array of its leading
fields in order. -/
def recordFields? (names : List String) : Json → Option (List (String × Json))
  | .array items => if items.length ≤ names.length then some (names.zip items) else none
  | .object fields => do
    let known := (← (Json.object fields).fields?).filter fun field => names.contains field.1
    if (known.map (·.1)).eraseDups.length = known.length then some known else none
  | _ => none

end Json
end AssemblySymbols
