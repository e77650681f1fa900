import AssemblySymbols.Symbol.Class
import AssemblySymbols.Text.Blank
import AssemblySymbols.Text.Lowercase

/-! Names and their marker. A question mark at the end makes a name case-insensitive; it is not part
of the name, unless the name is nothing else. -/
namespace AssemblySymbols

/-- A name freed of surrounding white space and of its marker. -/
structure Name where
  base : String
  marked : Bool
deriving DecidableEq, Repr

namespace Name

/-- The key under which every spelling of a case-insensitive name is kept. -/
def insensitiveKey (base : String) : String := String.ofList (Text.lowercase base.toList)

/-- Splits the marker off a trimmed text. -/
def split? (text : List Char) : Option Name :=
  match text with
  | [] => none
  | _ :: tail =>
    if text.getLast? = some '?' ∧ tail ≠ [] then some ⟨String.ofList text.dropLast, true⟩
    else some ⟨String.ofList text, false⟩

/-- The name that a text writes, if it is not blank. -/
def parse? (raw : String) : Option Name := split? (Text.trim raw.toList)

def policy (name : Name) : CasePolicy := if name.marked then .insensitive else .sensitive

/-- The key of a defined name in the bucket of its policy. -/
def key (name : Name) : String := if name.marked then insensitiveKey name.base else name.base

end Name
end AssemblySymbols
