import AssemblySymbols.Text.Utf8
import Mathlib.Tactic.SplitIfs

/-! Texts survive their encoding: bytes that encode characters are read as these characters, byte by
byte along the pattern that each lead byte announces. -/
namespace AssemblySymbols.Text

theorem continuation_two (lead : Nat) (between : 0xC2 ≤ lead ∧ lead ≤ 0xDF) :
    continuation lead = some (0x80, 0xBF, 0) := by
  rw [continuation, if_pos (by simpa using between)]

theorem continuation_three (lead : Nat) (between : 0xE0 ≤ lead ∧ lead ≤ 0xEF) :
    continuation lead =
      some (if lead = 0xE0 then 0xA0 else 0x80, if lead = 0xED then 0x9F else 0xBF, 1) := by
  grind [continuation]

theorem continuation_four (lead : Nat) (between : 0xF0 ≤ lead ∧ lead ≤ 0xF4) :
    continuation lead =
      some (if lead = 0xF0 then 0x90 else 0x80, if lead = 0xF4 then 0x8F else 0xBF, 2) := by
  grind [continuation]

theorem decodeFrom_lead {byte : Nat} (bound : byte < 256) {low high more : Nat}
    (announced : continuation byte = some (low, high, more)) (above : 0x80 ≤ byte) (rest : Bytes) :
    decodeFrom none (.ofNat byte :: rest) = decodeFrom (some ⟨leadBits byte, low, high, more⟩) rest := by
  rw [decodeFrom, decodeFrom.start, UInt8.toNat_ofNat_of_lt' bound, if_neg (by omega), announced]

theorem decodeFrom_inner {byte code low high more : Nat} (between : low ≤ byte ∧ byte ≤ high)
    (bound : byte < 256) (rest : Bytes) :
    decodeFrom (some ⟨code, low, high, more + 1⟩) (.ofNat byte :: rest) =
      decodeFrom (some ⟨code * 64 + (byte - 0x80), 0x80, 0xBF, more⟩) rest := by
  rw [decodeFrom, UInt8.toNat_ofNat_of_lt' bound, if_pos (by simpa using between)]

theorem decodeFrom_last {byte code low high : Nat} (between : low ≤ byte ∧ byte ≤ high)
    (bound : byte < 256) (rest : Bytes) :
    decodeFrom (some ⟨code, low, high, 0⟩) (.ofNat byte :: rest) =
      some (Char.ofNat (code * 64 + (byte - 0x80))) :: decodeFrom none rest := by
  rw [decodeFrom, UInt8.toNat_ofNat_of_lt' bound, if_pos (by simpa using between)]

theorem decodeFrom_encodeChar (c : Char) (rest : Bytes) :
    decodeFrom none (String.utf8EncodeChar c ++ rest) = some c :: decodeFrom none rest := by
  have scalar : c.toNat < 0xD800 ∨ 0xDFFF < c.toNat ∧ c.toNat < 0x110000 := c.valid
  have whole {code : Nat} (same : code = c.toNat) : some (Char.ofNat code) = some c := by
    rw [same, Char.ofNat_toNat]
  unfold String.utf8EncodeChar
  have value : c.val.toNat = c.toNat := rfl
  simp only [value]
  generalize c.toNat = v at scalar whole
  split
  · next one =>
    rw [List.singleton_append, decodeFrom, decodeFrom.start,
      UInt8.toNat_ofNat_of_lt' (show v < 256 by omega), if_pos (by omega), whole rfl]
  split
  · next two =>
    have announced := continuation_two (v / 64 % 0x20 + 0xc0) (by omega)
    rw [List.cons_append, List.cons_append, List.nil_append,
      decodeFrom_lead (by omega) announced (by omega), decodeFrom_last (by omega) (by omega), whole]
    rw [leadBits, if_pos (by omega)]
    omega
  split
  · next three =>
    -- after ED the second byte stops short of the surrogates, which are no characters
    have announced := continuation_three (v / 4096 % 0x10 + 0xe0) (by omega)
    rw [List.cons_append, List.cons_append, List.cons_append, List.nil_append,
      decodeFrom_lead (by omega) announced (by omega),
      decodeFrom_inner (by split_ifs <;> omega) (by omega),
      decodeFrom_last (by omega) (by omega), whole]
    rw [leadBits, if_neg (by omega), if_pos (by omega)]
    omega
  · next four =>
    have announced := continuation_four (v / 262144 % 0x08 + 0xf0) (by omega)
    rw [List.cons_append, List.cons_append, List.cons_append, List.cons_append, List.nil_append,
      decodeFrom_lead (by omega) announced (by omega),
      decodeFrom_inner (by split_ifs <;> omega) (by omega),
      decodeFrom_inner (by omega) (by omega), decodeFrom_last (by omega) (by omega), whole]
    rw [leadBits, if_neg (by omega), if_neg (by omega)]
    omega

/-- What has been encoded is read as it was. -/
theorem decode_encode (text : List Char) : decode (encode text) = text.map some := by
  unfold decode encode
  induction text with
  | nil => rw [List.flatMap_nil, decodeFrom, List.map_nil]
  | cons c rest ih => rw [List.flatMap_cons, decodeFrom_encodeChar, ih, List.map_cons]

theorem decodeLossy_encode (text : List Char) : decodeLossy (encode text) = text := by
  rw [decodeLossy, decode_encode, List.map_map]
  exact List.map_id text

end AssemblySymbols.Text
