import AssemblySymbols.KeyMap
import AssemblySymbols.Source.Line
import AssemblySymbols.Source.Name

/-! The definitions of one document: for each class the names it defines, each with its spans in the
order of the text. -/
namespace AssemblySymbols

abbrev Bucket := KeyMap (List Span)

structure SymbolTable where
  buckets : ByClass Bucket
deriving DecidableEq

namespace SymbolTable

def empty : SymbolTable := ⟨.replicate ∅⟩

instance : Inhabited SymbolTable := ⟨empty⟩

/-- Puts a span at the end of the list under a key. -/
def push (table : SymbolTable) (part : SymbolClass) (key : String) (span : Span) : SymbolTable :=
  ⟨table.buckets.modify part (·.alter key fun spans => some (spans.getD [] ++ [span]))⟩

/-- Records a definition. A blank name defines nothing. -/
def add (table : SymbolTable) (kind : Kind) (rawName : String) (span : Span) : SymbolTable :=
  match Name.parse? rawName with
  | none => table
  | some name => table.push ⟨kind, name.policy⟩ name.key span

def bucketCount (bucket : Bucket) : Nat :=
  bucket.entries.foldr (fun entry count => entry.2.length + count) 0

def definitionCount (table : SymbolTable) : Nat :=
  table.buckets.toList.foldr (fun bucket count => bucketCount bucket + count) 0

def isEmpty (table : SymbolTable) : Bool := table.buckets.toList.all KeyMap.isEmpty

/-- Records what a line defines outside of its comment. -/
def scanLine (table : SymbolTable) (number : UInt32) (line : List Char) : SymbolTable :=
  let code := stripComment line
  (classifyLine code).foldl (fun table definition =>
    table.add definition.kind definition.name
      (.onLine number code definition.start definition.stop)) table

def scanLines (table : SymbolTable) (lines : List (List Char × Nat)) : SymbolTable :=
  lines.foldl (fun table (line, number) => table.scanLine number.toUInt32 line) table

/-- The table of a whole text. -/
def ofText (text : String) : SymbolTable := scanLines empty (Text.lines text.toList).zipIdx

/-- Scans lines as long as nobody has cancelled; `cancelled n` is what the look before line `n`
finds. -/
def scanLinesUnless? (cancelled : Nat → Bool) (table : SymbolTable) :
    List (List Char × Nat) → Option SymbolTable
  | [] => some table
  | (line, number) :: rest =>
    if cancelled number then none
    else scanLinesUnless? cancelled (table.scanLine number.toUInt32 line) rest

/-- The table of a whole text, if no look at the cancellation before one of its lines stops it. -/
def ofTextUnless? (cancelled : Nat → Bool) (text : String) : Option SymbolTable :=
  scanLinesUnless? cancelled empty (Text.lines text.toList).zipIdx

end SymbolTable
end AssemblySymbols
