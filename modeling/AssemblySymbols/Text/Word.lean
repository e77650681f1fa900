import AssemblySymbols.Text.AlphabeticRanges
import AssemblySymbols.Text.MarkRanges
import AssemblySymbols.Text.NumberRanges

/-! Word characters: letters, marks, decimal digits, connecting punctuation and joiners. A word
ends before any other character and at the end of the text. -/
namespace AssemblySymbols.Text

def inRanges (ranges : List (Nat × Nat)) (n : Nat) : Bool :=
  ranges.any fun range => range.1 ≤ n && n ≤ range.2

/-- Connecting punctuation beyond the underscore. -/
def isConnector (n : Nat) : Bool :=
  (0x203F ≤ n && n ≤ 0x2040) || n == 0x2054 || (0xFE33 ≤ n && n ≤ 0xFE34) ||
    (0xFE4D ≤ n && n ≤ 0xFE4F) || n == 0xFF3F

def isWord (c : Char) : Bool :=
  let n := c.toNat
  if n < 0x80 then c.isAlphanum || c == '_'
  else inRanges alphabeticRanges n || inRanges markRanges n || inRanges decimalRanges n ||
    isConnector n || n == 0x200C || n == 0x200D

/-- Letters and numbers of every kind, without marks and punctuation. -/
def isAlphanumeric (c : Char) : Bool :=
  let n := c.toNat
  if n < 0x80 then c.isAlphanum
  else inRanges alphabeticRanges n || inRanges decimalRanges n || inRanges otherNumberRanges n

/-- No word character comes next. -/
def atWordEnd : List Char → Bool
  | [] => true
  | c :: _ => !isWord c

end AssemblySymbols.Text
