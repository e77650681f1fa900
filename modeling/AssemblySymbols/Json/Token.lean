import AssemblySymbols.Json.Basic

/-! The words of JSON text: brackets, separators, literals, numbers and strings. -/
namespace AssemblySymbols.Json

inductive Token where
  | openArray
  | closeArray
  | openObject
  | closeObject
  | comma
  | colon
  | null
  | bool (value : Bool)
  | number (digits : List Char)
  | string (text : Option String)
deriving DecidableEq, Repr

namespace Token

/-- A character of a file, or a piece of it that is none. -/
abbrev Symbol := Option Char

def isSpace (c : Char) : Bool := c == ' ' || c == '\t' || c == '\n' || c == '\r'

def hexValue? (c : Char) : Option Nat :=
  if '0' ≤ c && c ≤ '9' then some (c.toNat - 48)
  else if 'a' ≤ c && c ≤ 'f' then some (c.toNat - 87)
  else if 'A' ≤ c && c ≤ 'F' then some (c.toNat - 55)
  else none

/-- A unit of a string: a character, half of a surrogate pair, or undecodable bytes. -/
inductive Piece where
  | char (c : Char)
  | surrogate (unit : Nat)
  | broken
deriving DecidableEq, Repr

/-- The character that a letter stands for after a backslash. -/
def shortEscape? (c : Char) : Option Char :=
  match c with
  | '"' => some '"'
  | '\\' => some '\\'
  | '/' => some '/'
  | 'b' => some '\x08'
  | 'f' => some '\x0c'
  | 'n' => some '\n'
  | 'r' => some '\r'
  | 't' => some '\t'
  | _ => none

def pieceOfUnit (unit : Nat) : Piece :=
  if 0xD800 ≤ unit && unit ≤ 0xDFFF then .surrogate unit else .char (Char.ofNat unit)

/-- The character of a surrogate pair. -/
def joinSurrogates (high low : Nat) : Char :=
  Char.ofNat (0x10000 + (high - 0xD800) * 0x400 + (low - 0xDC00))

/-- The text of the pieces, if each high half is followed by a low one and there is nothing else that
is no character. -/
def textOfPieces? : List Piece → Option (List Char)
  | [] => some []
  | .char c :: rest => (textOfPieces? rest).map (c :: ·)
  | .surrogate high :: .surrogate low :: rest =>
    if high < 0xDC00 && 0xDC00 ≤ low then (textOfPieces? rest).map (joinSurrogates high low :: ·)
    else none
  | _ => none

/-- Reads a string behind its opening quote, up to and with the closing one. -/
def scanString? : List Symbol → Option (List Piece × List Symbol)
  | [] => none
  | some '"' :: rest => some ([], rest)
  | some '\\' :: some 'u' :: some a :: some b :: some c :: some d :: rest => do
    let unit := (((← hexValue? a) * 16 + (← hexValue? b)) * 16 + (← hexValue? c)) * 16 + (← hexValue? d)
    let (pieces, rest) ← scanString? rest
    pure (pieceOfUnit unit :: pieces, rest)
  | some '\\' :: some c :: rest => do
    let c ← shortEscape? c
    let (pieces, rest) ← scanString? rest
    pure (.char c :: pieces, rest)
  | some c :: rest =>
    if c.toNat < 0x20 || c == '\\' then none
    else (scanString? rest).map fun (pieces, rest) => (.char c :: pieces, rest)
  | none :: rest => (scanString? rest).map fun (pieces, rest) => (.broken :: pieces, rest)

def isDigitSymbol : Symbol → Bool
  | some c => c.isDigit
  | none => false

def digitsOf (symbols : List Symbol) : List Char := (symbols.takeWhile isDigitSymbol).filterMap id

/-- One digit or more at the head, and the rest. -/
def scanDigits? (symbols : List Symbol) : Option (List Char × List Symbol) :=
  match digitsOf symbols with
  | [] => none
  | digits => some (digits, symbols.dropWhile isDigitSymbol)

/-- The whole part of a number has no superfluous zeros in front. -/
def scanWhole? : List Symbol → Option (List Char × List Symbol)
  | some '0' :: rest => some (['0'], rest)
  | symbols => scanDigits? symbols

def scanFraction? : List Symbol → Option (List Char × List Symbol)
  | some '.' :: rest => (scanDigits? rest).map fun (digits, rest) => ('.' :: digits, rest)
  | symbols => some ([], symbols)

def scanSign : List Symbol → List Char × List Symbol
  | some '+' :: rest => (['+'], rest)
  | some '-' :: rest => (['-'], rest)
  | symbols => ([], symbols)

def scanExponent? : List Symbol → Option (List Char × List Symbol)
  | some 'e' :: rest | some 'E' :: rest => do
    let (sign, rest) := scanSign rest
    let (digits, rest) ← scanDigits? rest
    pure ('e' :: sign ++ digits, rest)
  | symbols => some ([], symbols)

/-- Reads a number: sign, whole part, fraction and exponent, the first and the last two if present. -/
def scanNumber? (symbols : List Symbol) : Option (List Char × List Symbol) := do
  let (sign, rest) := match symbols with
    | some '-' :: rest => (['-'], rest)
    | _ => ([], symbols)
  let (whole, rest) ← scanWhole? rest
  let (fraction, rest) ← scanFraction? rest
  let (exponent, rest) ← scanExponent? rest
  pure (sign ++ whole ++ fraction ++ exponent, rest)

/-- Reads one word at the head of a text that is neither empty nor starts with a space. -/
def scan? : List Symbol → Option (Token × List Symbol)
  | some '[' :: rest => some (openArray, rest)
  | some ']' :: rest => some (closeArray, rest)
  | some '{' :: rest => some (openObject, rest)
  | some '}' :: rest => some (closeObject, rest)
  | some ',' :: rest => some (comma, rest)
  | some ':' :: rest => some (colon, rest)
  | some 'n' :: some 'u' :: some 'l' :: some 'l' :: rest => some (null, rest)
  | some 't' :: some 'r' :: some 'u' :: some 'e' :: rest => some (bool true, rest)
  | some 'f' :: some 'a' :: some 'l' :: some 's' :: some 'e' :: rest => some (bool false, rest)
  | some '"' :: rest =>
    (scanString? rest).map fun (pieces, rest) =>
      (string ((textOfPieces? pieces).map String.ofList), rest)
  | symbols => (scanNumber? symbols).map fun (digits, rest) => (number digits, rest)

/-- Reads all words. The fuel is the length of the text, which every word shortens. -/
def scanAll? : Nat → List Symbol → Option (List Token)
  | _, [] => some []
  | 0, _ :: _ => none
  | fuel + 1, symbol :: rest =>
    if symbol.any isSpace then scanAll? fuel rest
    else do
      let (token, rest) ← scan? (symbol :: rest)
      (scanAll? fuel rest).map (token :: ·)

def ofSymbols? (symbols : List Symbol) : Option (List Token) := scanAll? symbols.length symbols

end Token
end AssemblySymbols.Json
