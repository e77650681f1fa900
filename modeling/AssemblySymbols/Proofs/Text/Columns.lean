import AssemblySymbols.Text.Utf16
import AssemblySymbols.Text.Utf8

/-! A column is the length of what stands before it, in bytes and in UTF-16 units alike, so the ends of
a piece of a line are the same place in both counts. -/
namespace AssemblySymbols.Text

theorem utf8Length_append (text more : List Char) :
    utf8Length (text ++ more) = utf8Length text + utf8Length more := by
  induction text with
  | nil => exact (Nat.zero_add _).symm
  | cons c rest ih => rw [List.cons_append, utf8Length, utf8Length, ih, Nat.add_assoc]

theorem utf8Length_pos {text : List Char} (solid : text ≠ []) : 0 < utf8Length text := by
  obtain ⟨first, rest, rfl⟩ := List.exists_cons_of_ne_nil solid
  exact Nat.add_pos_left first.utf8Size_pos _

/-- The bytes of a text are as many as its encoding has. -/
theorem length_encode (text : List Char) : (encode text).length = utf8Length text := by
  induction text with
  | nil => rfl
  | cons c rest ih =>
    rw [encode, List.flatMap_cons, List.length_append, String.length_utf8EncodeChar, utf8Length, ← ih]
    rfl

theorem utf16Length_append (text more : List Char) :
    utf16Length (text ++ more) = utf16Length text + utf16Length more := by
  induction text with
  | nil => exact (Nat.zero_add _).symm
  | cons c rest ih => rw [List.cons_append, utf16Length, utf16Length, ih, Nat.add_assoc]

theorem utf16Length_reverse (text : List Char) : utf16Length text.reverse = utf16Length text := by
  induction text with
  | nil => rfl
  | cons c rest ih =>
    rw [List.reverse_cons, utf16Length_append, ih, utf16Length, utf16Length, utf16Length]
    omega

/-- Columns of 32 bits add up as well, over the end of their range. -/
theorem toUInt32_utf16Length_append (text more : List Char) :
    (utf16Length (text ++ more)).toUInt32 =
      (utf16Length text).toUInt32 + (utf16Length more).toUInt32 := by
  rw [utf16Length_append]
  exact UInt32.ofNat_add ..

theorem toUInt32_utf16Length_nil : (utf16Length []).toUInt32 = 0 :=
  rfl

theorem toUInt32_utf16Length_cons (c : Char) (rest : List Char) :
    (utf16Length (c :: rest)).toUInt32 =
      (utf16Units c).toUInt32 + (utf16Length rest).toUInt32 :=
  UInt32.ofNat_add ..

theorem toNat_utf16Length {front line : List Char} (begins : front <+: line)
    (short : utf16Length line < UInt32.size) :
    (utf16Length front).toUInt32.toNat = utf16Length front := by
  obtain ⟨rest, rfl⟩ := begins
  rw [utf16Length_append] at short
  exact UInt32.toNat_ofNat_of_lt' (Nat.lt_of_le_of_lt (Nat.le_add_right ..) short)

theorem utf16Units_pos (c : Char) : 0 < utf16Units c := by
  unfold utf16Units
  split <;> decide

theorem utf16Length_pos {text : List Char} (solid : text ≠ []) : 0 < utf16Length text := by
  obtain ⟨first, rest, rfl⟩ := List.exists_cons_of_ne_nil solid
  exact Nat.add_pos_left (utf16Units_pos first) _

theorem utf16Length_replicate (count : Nat) (c : Char) :
    utf16Length (List.replicate count c) = count * utf16Units c := by
  induction count with
  | zero => rw [Nat.zero_mul, List.replicate_zero, utf16Length]
  | succ count ih => rw [List.replicate_succ, utf16Length, ih, Nat.succ_mul, Nat.add_comm]

theorem takeBytes_append (before rest : List Char) :
    takeBytes (before ++ rest) (utf8Length before) = some before := by
  induction before with
  | nil => simp only [utf8Length, takeBytes]
  | cons c before ih =>
    have first := c.utf8Size_pos
    rw [List.cons_append, utf8Length, takeBytes, if_pos (Nat.le_add_right ..),
      Nat.add_sub_cancel_left, ih, Option.map_some]
    omega

theorem utf16Column_append (before rest : List Char) :
    utf16Column (before ++ rest) (utf8Length before) = (utf16Length before).toUInt32 := by
  have inside : min (utf8Length before) (utf8Length (before ++ rest)) = utf8Length before := by
    rw [utf8Length_append]
    omega
  rw [utf16Column, inside, takeBytes_append]

end AssemblySymbols.Text
