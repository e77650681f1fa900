/-! Bytes read as UTF-8. Bytes that are no character are kept apart from those that are: each
longest piece that starts a character without completing it, and each byte that can start none,
counts once. -/
namespace AssemblySymbols.Text

abbrev Bytes := List UInt8

/-- The bytes of a text. -/
def encode (text : List Char) : Bytes := text.flatMap String.utf8EncodeChar

/-- The bytes that may follow a lead byte, and how many bytes come after that one. -/
def continuation (lead : Nat) : Option (Nat × Nat × Nat) :=
  if 0xC2 ≤ lead && lead ≤ 0xDF then some (0x80, 0xBF, 0)
  else if lead == 0xE0 then some (0xA0, 0xBF, 1)
  else if lead == 0xED then some (0x80, 0x9F, 1)
  else if 0xE1 ≤ lead && lead ≤ 0xEF then some (0x80, 0xBF, 1)
  else if lead == 0xF0 then some (0x90, 0xBF, 2)
  else if 0xF1 ≤ lead && lead ≤ 0xF3 then some (0x80, 0xBF, 2)
  else if lead == 0xF4 then some (0x80, 0x8F, 2)
  else none

/-- The bits that a lead byte contributes. -/
def leadBits (lead : Nat) : Nat :=
  if lead < 0xE0 then lead - 0xC0 else if lead < 0xF0 then lead - 0xE0 else lead - 0xF0

/-- A character of which `code` has been read: the next byte must lie between `low` and `high`,
and `more` bytes follow it. -/
structure Partial where
  code : Nat
  low : Nat
  high : Nat
  more : Nat

/-- Reads bytes, `none` standing for a piece that is no character. -/
def decodeFrom : Option Partial → List UInt8 → List (Option Char)
  | none, [] => []
  | some _, [] => [none]
  | none, byte :: rest => start byte.toNat rest
  | some piece, byte :: rest =>
    if piece.low ≤ byte.toNat && byte.toNat ≤ piece.high then
      let code := piece.code * 64 + (byte.toNat - 0x80)
      match piece.more with
      | 0 => some (Char.ofNat code) :: decodeFrom none rest
      | more + 1 => decodeFrom (some ⟨code, 0x80, 0xBF, more⟩) rest
    else none :: start byte.toNat rest
where
  /-- Reads a byte where a character may start. -/
  start (byte : Nat) (rest : List UInt8) : List (Option Char) :=
    if byte < 0x80 then some (Char.ofNat byte) :: decodeFrom none rest
    else match continuation byte with
      | some (low, high, more) => decodeFrom (some ⟨leadBits byte, low, high, more⟩) rest
      | none => none :: decodeFrom none rest

def decode (bytes : Bytes) : List (Option Char) := decodeFrom none bytes

/-- The text of a file, U+FFFD in place of each piece that is no character. -/
def decodeLossy (bytes : Bytes) : List Char := (decode bytes).map (·.getD '\uFFFD')

end AssemblySymbols.Text
