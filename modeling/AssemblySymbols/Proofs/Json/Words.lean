import AssemblySymbols.Json.Token
import AssemblySymbols.Json.Writer
import Mathlib.Data.List.TakeWhile

/-! Strings and natural numbers as they are written, read again word by word. A string ends with its
own quote, a number only before a symbol that cannot continue it. -/
namespace AssemblySymbols.Json

theorem hexValue?_hexDigit (n : Nat) (small : n < 16) : Token.hexValue? (hexDigit n) = some n := by
  revert n
  decide

namespace Token

theorem scanString?_raw {c : Char} (plain : c ≠ '"') (solid : c ≠ '\\') (printed : 0x20 ≤ c.toNat)
    (rest : List Symbol) :
    scanString? (some c :: rest) = (scanString? rest).map fun (pieces, rest) => (.char c :: pieces, rest) := by
  have kept : (decide (c.toNat < 0x20) || c == '\\') = false := by
    simpa [solid] using printed
  rw [scanString?]
  · rw [kept, if_neg Bool.false_ne_true]
  · exact plain
  · exact fun _ _ _ _ _ _ same => solid same
  · exact fun _ _ _ same => solid same

/-- What stands for a character is read as this character and nothing more. -/
theorem scanString?_escapeChar (c : Char) (rest : List Symbol) :
    scanString? ((escapeChar c).map some ++ rest) =
      (scanString? rest).map fun (pieces, rest) => (.char c :: pieces, rest) := by
  have short (letter : Char) (escape : shortEscape? letter = some c) (other : letter ≠ 'u') :
      scanString? (some '\\' :: some letter :: rest) =
        (scanString? rest).map fun (pieces, rest) => (.char c :: pieces, rest) := by
    rw [scanString?]
    · rw [escape]
      cases scanString? rest <;> rfl
    · exact fun _ _ _ _ _ _ same => other same
  unfold escapeChar
  split
  · exact short '"' rfl (by decide)
  · exact short '\\' rfl (by decide)
  · exact short 'b' rfl (by decide)
  · exact short 'f' rfl (by decide)
  · exact short 'n' rfl (by decide)
  · exact short 'r' rfl (by decide)
  · exact short 't' rfl (by decide)
  · next notQuote notBackslash _ _ _ _ _ =>
    split
    · next control =>
      have high := hexValue?_hexDigit (c.toNat / 16) (by omega)
      have low := hexValue?_hexDigit (c.toNat % 16) (by omega)
      have zero : hexValue? '0' = some 0 := by decide
      have unit : ((0 * 16 + 0) * 16 + c.toNat / 16) * 16 + c.toNat % 16 = c.toNat := by omega
      have piece : pieceOfUnit c.toNat = .char c := by
        rw [pieceOfUnit, Char.ofNat_toNat, if_neg]
        simp only [Bool.and_eq_true, decide_eq_true_eq]
        omega
      simp only [List.map_cons, List.map_nil, List.cons_append, List.nil_append, scanString?, zero, high,
        low, Option.bind_eq_bind, Option.bind_some, unit, piece]
      cases scanString? rest <;> rfl
    · next printed => exact scanString?_raw notQuote notBackslash (by omega) rest

theorem scanString?_text (text : List Char) (rest : List Symbol) :
    scanString? ((text.flatMap escapeChar ++ ['"']).map some ++ rest) =
      some (text.map .char, rest) := by
  induction text with
  | nil => rw [List.flatMap_nil, List.nil_append, List.map_cons, List.map_nil, List.singleton_append,
      scanString?, List.map_nil]
  | cons c later ih =>
    rw [List.flatMap_cons, List.append_assoc, List.map_append, List.append_assoc,
      scanString?_escapeChar, ih]
    rfl

theorem textOfPieces?_chars (text : List Char) : textOfPieces? (text.map .char) = some text := by
  induction text with
  | nil => rfl
  | cons c later ih => rw [List.map_cons, textOfPieces?, ih, Option.map_some]

theorem scan?_writeText (text : String) (rest : List Symbol) :
    scan? ((writeText text.toList).map some ++ rest) = some (.string (some text), rest) := by
  have body := scanString?_text text.toList rest
  rw [writeText, List.cons_append, List.map_cons, List.cons_append, scan?, body, Option.map_some]
  dsimp only
  rw [textOfPieces?_chars, Option.map_some, String.ofList_toList]

/-- The symbol cannot belong to the number in front of it. -/
def Ends (rest : List Symbol) : Prop :=
  ∀ c, rest.head? = some (some c) → c.isDigit = false ∧ c ≠ '.' ∧ c ≠ 'e' ∧ c ≠ 'E'

theorem ends_cons {c : Char} (ending : c.isDigit = false ∧ c ≠ '.' ∧ c ≠ 'e' ∧ c ≠ 'E')
    (rest : List Symbol) : Ends (some c :: rest) := by
  intro other same
  cases Option.some.inj (Option.some.inj same)
  exact ending

theorem isDigitSymbol_of_ends {rest : List Symbol} (ends : Ends rest) {symbol : Symbol}
    (first : rest.head? = some symbol) : isDigitSymbol symbol = false := by
  cases symbol with
  | none => rfl
  | some c => exact (ends c first).1

variable {digits : List Char} {rest : List Symbol}

theorem takeWhile_digits (all : ∀ c ∈ digits, c.isDigit = true) (ends : Ends rest) :
    (digits.map some ++ rest).takeWhile isDigitSymbol = digits.map some := by
  have inside : ∀ symbol ∈ digits.map some, isDigitSymbol symbol = true := by
    intro symbol member
    obtain ⟨c, found, rfl⟩ := List.mem_map.mp member
    exact all c found
  rw [List.takeWhile_append_of_pos inside]
  cases rest with
  | nil => rw [List.takeWhile_nil, List.append_nil]
  | cons symbol later =>
    rw [List.takeWhile_cons_of_neg (by simp [isDigitSymbol_of_ends ends rfl]), List.append_nil]

theorem dropWhile_digits (all : ∀ c ∈ digits, c.isDigit = true) (ends : Ends rest) :
    (digits.map some ++ rest).dropWhile isDigitSymbol = rest := by
  have split := List.takeWhile_append_dropWhile (p := isDigitSymbol) (l := digits.map some ++ rest)
  rw [takeWhile_digits all ends] at split
  exact List.append_cancel_left split

theorem scanDigits?_digits (all : ∀ c ∈ digits, c.isDigit = true) (some_digit : digits ≠ [])
    (ends : Ends rest) : scanDigits? (digits.map some ++ rest) = some (digits, rest) := by
  have taken : digitsOf (digits.map some ++ rest) = digits := by
    rw [digitsOf, takeWhile_digits all ends, List.filterMap_map]
    exact List.filterMap_some
  rw [scanDigits?, taken, dropWhile_digits all ends]
  cases digits with
  | nil => exact absurd rfl some_digit
  | cons c later => rfl

theorem scanFraction?_of_ends (ends : Ends rest) : scanFraction? rest = some ([], rest) := by
  rw [scanFraction?]
  rintro later rfl
  exact (ends '.' rfl).2.1 rfl

theorem scanExponent?_of_ends (ends : Ends rest) : scanExponent? rest = some ([], rest) := by
  rw [scanExponent?]
  · rintro later rfl
    exact (ends 'e' rfl).2.2.1 rfl
  · rintro later rfl
    exact (ends 'E' rfl).2.2.2 rfl

end Token

theorem toString_toList (n : Nat) : (toString n).toList = Nat.toDigits 10 n := by
  rw [Nat.toString_eq_ofList_toDigits, String.toList_ofList]

theorem isDigit_of_mem_toDigits {n : Nat} {c : Char} (member : c ∈ Nat.toDigits 10 n) :
    c.isDigit = true :=
  Nat.isDigit_of_mem_toDigits (by decide) (by decide) member

/-- No number but zero starts with a zero. -/
theorem toDigits_zero_cons {n : Nat} {later : List Char} (first : Nat.toDigits 10 n = '0' :: later) :
    later = [] := by
  induction n using Nat.strongRecOn generalizing later with
  | ind n ih =>
    by_cases small : n < 10
    · rw [Nat.toDigits_of_lt_base small] at first
      exact (List.cons.inj first).2.symm
    · rw [Nat.toDigits_of_base_le (by decide) (by omega)] at first
      cases front : Nat.toDigits 10 (n / 10) with
      | nil => exact absurd front Nat.toDigits_ne_nil
      | cons c before =>
        rw [front] at first
        have zero : c = '0' := (List.cons.inj first).1
        subst zero
        -- the digits in front are those of a smaller number, so this one is zero
        have alone : before = [] := ih (n / 10) (by omega) front
        have value : Nat.ofDigitChars 10 (Nat.toDigits 10 (n / 10)) 0 = n / 10 :=
          Nat.ofDigitChars_ten_toDigits
        rw [front, alone] at value
        have none : n / 10 = 0 := value.symm
        omega

theorem Token.scanWhole?_toDigits (n : Nat) {rest : List Token.Symbol} (ends : Token.Ends rest) :
    Token.scanWhole? ((Nat.toDigits 10 n).map some ++ rest) = some (Nat.toDigits 10 n, rest) := by
  have all : ∀ c ∈ Nat.toDigits 10 n, c.isDigit = true := fun c => isDigit_of_mem_toDigits
  cases digits : Nat.toDigits 10 n with
  | nil => exact absurd digits Nat.toDigits_ne_nil
  | cons c later =>
    by_cases zero : c = '0'
    · subst zero
      rw [toDigits_zero_cons digits]
      rfl
    · rw [← digits, Token.scanWhole?, Token.scanDigits?_digits all Nat.toDigits_ne_nil ends]
      intro after same
      rw [digits] at same
      exact zero (Option.some.inj (List.cons.inj same).1)

theorem Token.scanNumber?_toString (n : Nat) {rest : List Token.Symbol} (ends : Token.Ends rest) :
    Token.scanNumber? ((toString n).toList.map some ++ rest) = some ((toString n).toList, rest) := by
  rw [toString_toList]
  have unsigned : ∀ after, (Nat.toDigits 10 n).map some ++ rest ≠ some '-' :: after := by
    intro after same
    cases digits : Nat.toDigits 10 n with
    | nil => exact Nat.toDigits_ne_nil digits
    | cons c later =>
      rw [digits] at same
      have minus : c = '-' := Option.some.inj (List.cons.inj same).1
      have digit : c.isDigit = true := isDigit_of_mem_toDigits (digits ▸ List.mem_cons_self)
      rw [minus] at digit
      exact absurd digit (by decide)
  rw [Token.scanNumber?]
  · simp [Token.scanWhole?_toDigits n ends, Token.scanFraction?_of_ends ends,
      Token.scanExponent?_of_ends ends]
  · exact unsigned

theorem digitsValue?_toString (n : Nat) : digitsValue? (toString n).toList = some n := by
  rw [toString_toList, digitsValue?, if_neg]
  · have value : Nat.ofDigitChars 10 (Nat.toDigits 10 n) 0 = n := Nat.ofDigitChars_ten_toDigits
    rw [Nat.ofDigitChars_eq_foldl] at value
    simp only [Nat.mul_comm] at value
    exact congrArg some value
  · have all : (Nat.toDigits 10 n).all Char.isDigit = true :=
      List.all_eq_true.mpr fun c => isDigit_of_mem_toDigits
    simp [all, Nat.toDigits_ne_nil]

theorem natBelow?_ofNat {n bound : Nat} (below : n < bound) : natBelow? bound (ofNat n) = some n := by
  rw [ofNat, natBelow?, digitsValue?_toString]
  simp [Option.filter, below]

end AssemblySymbols.Json
