import AssemblySymbols.Text.Utf16

/-! Places in a document: lines from zero, columns in UTF-16 code units, both 32 bits wide. -/
namespace AssemblySymbols

structure Position where
  line : UInt32
  character : UInt32
deriving DecidableEq, Repr, Inhabited

/-- A half-open stretch of a document. -/
structure Span where
  start : Position
  stop : Position
deriving DecidableEq, Repr, Inhabited

/-- The stretch between two byte offsets of the text of one line. -/
def Span.onLine (line : UInt32) (text : List Char) (start stop : Nat) : Span :=
  ⟨⟨line, Text.utf16Column text start⟩, ⟨line, Text.utf16Column text stop⟩⟩

end AssemblySymbols
