import AssemblySymbols.Text.PrintableRanges
import AssemblySymbols.Text.Word

/-! Text between quotes in which everything that cannot be seen is written by its code point. -/
namespace AssemblySymbols.Text

/-- The character shows by itself, neither as a blank nor as a part of its neighbour. -/
def isVisible (c : Char) : Bool :=
  let n := c.toNat
  if n < 0x7F then 0x20 ≤ n
  else n ≠ 0x7F && !inRanges unprintableRanges n && !inRanges graphemeExtendRanges n

def quoteChar (c : Char) : List Char :=
  match c with
  | '\x00' => ['\\', '0']
  | '\t' => ['\\', 't']
  | '\n' => ['\\', 'n']
  | '\r' => ['\\', 'r']
  | '"' => ['\\', '"']
  | '\\' => ['\\', '\\']
  | c =>
    if isVisible c then [c]
    else ['\\', 'u', '\x7b'] ++ Nat.toDigits 16 c.toNat ++ ['\x7d']

def quote (text : List Char) : List Char := '"' :: text.flatMap quoteChar ++ ['"']

end AssemblySymbols.Text
