import AssemblySymbols.Json.Token

/-! JSON values read from their words. The arrays and objects that are not finished are kept on an
explicit stack, so nesting has no limit. -/
namespace AssemblySymbols.Json

/-- An array or object inside of which the next value stands, with what it holds so far, last first. -/
inductive Outer where
  | array (before : List Json)
  | object (before : List (Option String × Json)) (name : Option String)

/-- What has to come next. -/
inductive Stage where
  | value (outer : List Outer)
  /-- The first item of an array, or its end. -/
  | firstItem (outer : List Outer)
  /-- The first name of an object, or its end. -/
  | firstName (outer : List Outer)
  | name (before : List (Option String × Json)) (outer : List Outer)
  | colon (before : List (Option String × Json)) (name : Option String) (outer : List Outer)
  /-- A separator or an end behind a value, or nothing if that value is the whole. -/
  | after (value : Json) (outer : List Outer)

namespace Stage

/-- Reads a word where a value has to start. -/
def startValue? (outer : List Outer) : Token → Option Stage
  | .null => some (.after .null outer)
  | .bool truth => some (.after (.bool truth) outer)
  | .number digits => some (.after (.number digits) outer)
  | .string text => some (.after (.string text) outer)
  | .openArray => some (.firstItem outer)
  | .openObject => some (.firstName outer)
  | _ => none

/-- Reads one word. -/
def step? : Stage → Token → Option Stage
  | value outer, word => startValue? outer word
  | firstItem outer, .closeArray => some (.after (.array []) outer)
  | firstItem outer, word => startValue? (.array [] :: outer) word
  | firstName outer, .closeObject => some (.after (.object []) outer)
  | firstName outer, .string text => some (.colon [] text outer)
  | name before outer, .string text => some (.colon before text outer)
  | colon before text outer, .colon => some (.value (.object before text :: outer))
  | after last (.array before :: outer), .comma => some (.value (.array (last :: before) :: outer))
  | after last (.array before :: outer), .closeArray =>
    some (.after (.array (last :: before).reverse) outer)
  | after last (.object before text :: outer), .comma => some (.name ((text, last) :: before) outer)
  | after last (.object before text :: outer), .closeObject =>
    some (.after (.object ((text, last) :: before).reverse) outer)
  | _, _ => none

/-- The value that has been read, if it is complete. -/
def result? : Stage → Option Json
  | after whole [] => some whole
  | _ => none

end Stage

def ofTokens? (tokens : List Token) : Option Json :=
  (tokens.foldlM Stage.step? (.value [])).bind Stage.result?

/-- The value that a text writes with nothing but space around it. -/
def parse? (symbols : List Token.Symbol) : Option Json :=
  (Token.ofSymbols? symbols).bind ofTokens?

def ofText? (text : String) : Option Json := parse? (text.toList.map some)

end AssemblySymbols.Json
