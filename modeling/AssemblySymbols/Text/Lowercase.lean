import AssemblySymbols.Text.Word
import AssemblySymbols.Text.CaseRanges
import AssemblySymbols.Text.LowercaseRuns

/-! Lower-casing of the Unicode standard: each character by its mapping, and the capital sigma by
its place in the word. -/
namespace AssemblySymbols.Text

def isCased (c : Char) : Bool :=
  let n := c.toNat
  if n < 0x80 then c.isAlpha else inRanges casedRanges n

def isCaseIgnorable (c : Char) : Bool :=
  let n := c.toNat
  if n < 0x80 then c == '\'' || c == '.' || c == ':' || c == '^' || c == '`'
  else inRanges caseIgnorableRanges n

/-- The nearest character that is not case-ignorable is cased. -/
def meetsCased (text : List Char) : Bool :=
  match text.dropWhile isCaseIgnorable with
  | [] => false
  | c :: _ => isCased c

/-- The shift that the run of a character gives, and zero outside of all runs. -/
def lowercaseShift (n : Nat) : Int :=
  match lowercaseRuns.find? fun (first, last, step, _) =>
      first ≤ n && n ≤ last && (n - first) % step == 0 with
  | some (_, _, _, shift) => shift
  | none => 0

/-- The mapping of one character that does not depend on its neighbours. -/
def lowerChar (c : Char) : List Char :=
  let n := c.toNat
  if n < 0x80 then [c.toLower]
  else if n == 0x130 then ['i', '\u0307']
  else [Char.ofNat (n + lowercaseShift n).toNat]

/-- Lower-cases `text`, of which `before` are the characters already passed, nearest first. A
capital sigma that ends a word becomes the final form. -/
def lowercaseAfter (before : List Char) : List Char → List Char
  | [] => []
  | c :: rest =>
    let lowered :=
      if c == 'Σ' then [if meetsCased before && !meetsCased rest then 'ς' else 'σ']
      else lowerChar c
    lowered ++ lowercaseAfter (c :: before) rest

def lowercase (text : List Char) : List Char := lowercaseAfter [] text

/-- Lower-casing of the ASCII letters alone. -/
def asciiLowercase (text : List Char) : List Char := text.map Char.toLower

end AssemblySymbols.Text
