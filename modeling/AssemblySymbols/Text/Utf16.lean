/-! Columns counted in UTF-16 code units. -/
namespace AssemblySymbols.Text

/-- One unit for the basic plane, a pair beyond it. -/
def utf16Units (c : Char) : Nat := if c.toNat < 0x10000 then 1 else 2

def utf16Length : List Char → Nat
  | [] => 0
  | c :: rest => utf16Units c + utf16Length rest

def utf8Length : List Char → Nat
  | [] => 0
  | c :: rest => c.utf8Size + utf8Length rest

/-- The part of a text before a byte offset, if a character starts or the text ends there. -/
def takeBytes : List Char → Nat → Option (List Char)
  | _, 0 => some []
  | [], _ + 1 => none
  | c :: rest, offset =>
    if c.utf8Size ≤ offset then (takeBytes rest (offset - c.utf8Size)).map (c :: ·) else none

/-- Column of a byte offset, wrapped to 32 bits. Offsets past the end count as the end, and an
offset inside a character as the start of the line. -/
def utf16Column (text : List Char) (offset : Nat) : UInt32 :=
  match takeBytes text (min offset (utf8Length text)) with
  | some before => (utf16Length before).toUInt32
  | none => 0

end AssemblySymbols.Text
