import AssemblySymbols.Source.Line
import AssemblySymbols.Source.Name
import Mathlib.Data.List.TakeWhile

/-! The names that lines define are identifiers. Nothing is trimmed off them, so the marker alone
decides how they are kept. -/
namespace AssemblySymbols

/-- The text is an identifier as a whole. -/
def IsIdentifier (text : List Char) : Prop :=
  ∃ first rest, text = first :: rest ∧ isIdentifierStart first = true ∧
    ∀ c ∈ rest, isIdentifierChar c = true

theorem isIdentifierChar_of_start {c : Char} (start : isIdentifierStart c = true) :
    isIdentifierChar c = true := by
  simp only [isIdentifierChar, start, Bool.true_or]

theorem IsIdentifier.all {text : List Char} (identifier : IsIdentifier text) :
    ∀ c ∈ text, isIdentifierChar c = true := by
  obtain ⟨first, rest, rfl, start, others⟩ := identifier
  intro c member
  rcases List.mem_cons.mp member with rfl | later
  · exact isIdentifierChar_of_start start
  · exact others c later

theorem IsIdentifier.ne_nil {text : List Char} (identifier : IsIdentifier text) : text ≠ [] := by
  obtain ⟨first, rest, rfl, _⟩ := identifier
  exact List.cons_ne_nil first rest

theorem isIdentifier_of_take {text name after : List Char}
    (taken : takeIdentifier? text = some (name, after)) : IsIdentifier name := by
  cases text with
  | nil => contradiction
  | cons c rest =>
    simp only [takeIdentifier?] at taken
    split at taken
    · next start =>
      cases taken
      exact ⟨c, _, rfl, start, fun _ member => List.mem_takeWhile_imp member⟩
    · contradiction

theorem isIdentifier_of_leading {line : List Char} {found : Occurrence}
    (leading : leadingName? line = some found) : IsIdentifier found.name := by
  obtain ⟨⟨name, after⟩, taken, rfl⟩ := Option.map_eq_some_iff.mp leading
  exact isIdentifier_of_take taken

theorem isIdentifier_of_keyword {keyword : String} {line : List Char} {found : Occurrence}
    (behind : nameAfterKeyword? keyword line = some found) : IsIdentifier found.name := by
  simp only [nameAfterKeyword?, Option.bind_eq_bind, Option.bind_eq_some_iff] at behind
  obtain ⟨rest, _, ⟨name, after⟩, taken, cut⟩ := behind
  split at cut
  · contradiction
  · cases cut
    exact isIdentifier_of_take taken

theorem Construct.isIdentifier_of_find {construct : Construct} {line : List Char} {found : Occurrence}
    (read : construct.find? line = some found) : IsIdentifier found.name := by
  cases construct with
  | labelColon | dataDeclaration | equate | assignment =>
    exact isIdentifier_of_leading (Option.filter_eq_some_iff.mp read).1
  | labelKeyword | elementKeyword | defineKeyword | macroKeyword | loadKeyword =>
    obtain ⟨keyword, _, behind⟩ := List.exists_of_findSome?_eq_some read
    exact isIdentifier_of_keyword behind

theorem exists_define_of_classify {line : List Char} {definition : LineDefinition}
    (member : definition ∈ classifyLine line) :
    ∃ construct : Construct, construct.define? line = some definition := by
  unfold classifyLine at member
  split at member
  · contradiction
  · split at member
    · next label defined =>
      rw [List.mem_singleton.mp member]
      exact ⟨.labelColon, defined⟩
    · obtain ⟨construct, _, defined⟩ := List.mem_filterMap.mp member
      exact ⟨construct, defined⟩

theorem isIdentifier_of_classify {line : List Char} {definition : LineDefinition}
    (member : definition ∈ classifyLine line) : IsIdentifier definition.name.toList := by
  obtain ⟨construct, defined⟩ := exists_define_of_classify member
  obtain ⟨found, read, rfl⟩ := Option.map_eq_some_iff.mp defined
  simpa only [String.toList_ofList] using construct.isIdentifier_of_find read

theorem isIdentifierChar_bounds {c : Char} (inside : isIdentifierChar c = true) :
    33 ≤ c.toNat ∧ c.toNat ≤ 126 := by
  simp only [isIdentifierChar, isIdentifierStart, Bool.or_eq_true, beq_iff_eq] at inside
  rcases inside with ((((((letter | rfl) | rfl) | rfl) | rfl) | digit) | rfl)
  · rcases Bool.or_eq_true_iff.mp letter with upper | lower
    · obtain ⟨above, below⟩ := of_decide_eq_true upper
      have low : 65 ≤ c.toNat := UInt32.le_iff_toNat_le.mp above
      have high : c.toNat ≤ 90 := UInt32.le_iff_toNat_le.mp below
      omega
    · obtain ⟨above, below⟩ := Bool.and_eq_true_iff.mp lower
      have low : 97 ≤ c.toNat := UInt32.le_iff_toNat_le.mp (of_decide_eq_true above)
      have high : c.toNat ≤ 122 := UInt32.le_iff_toNat_le.mp (of_decide_eq_true below)
      omega
  · decide
  · decide
  · decide
  · decide
  · have bounds : 48 ≤ c.toNat ∧ c.toNat ≤ 57 := Char.isDigit_iff_toNat.mp digit
    omega
  · decide

/-- Identifiers are of printable ASCII characters, and white space is not. -/
theorem isBlank_of_isIdentifierChar {c : Char} (inside : isIdentifierChar c = true) :
    Text.isBlank c = false := by
  obtain ⟨low, high⟩ := isIdentifierChar_bounds inside
  simp only [Text.isBlank, Bool.or_eq_false_iff, Bool.and_eq_false_iff, decide_eq_false_iff_not,
    beq_eq_false_iff_ne]
  omega

/-- Below 128 the lower case is that of ASCII, and no character depends on its place in the word. -/
theorem Text.lowercase_ascii {text : List Char} (ascii : ∀ c ∈ text, c.toNat < 0x80) :
    lowercase text = asciiLowercase text := by
  suffices general : ∀ before, lowercaseAfter before text = asciiLowercase text from general []
  induction text with
  | nil => exact fun _ => rfl
  | cons c rest ih =>
    obtain ⟨first, others⟩ := List.forall_mem_cons.mp ascii
    intro before
    have plain : c ≠ 'Σ' := by
      rintro rfl
      exact absurd first (by decide)
    rw [lowercaseAfter, ih others, beq_eq_false_iff_ne.mpr plain, if_neg Bool.false_ne_true, lowerChar,
      if_pos first]
    rfl

theorem Text.trim_eq_self {text : List Char} (solid : ∀ c ∈ text, isBlank c = false) :
    trim text = text := by
  have same {word : List Char} (solid : ∀ c ∈ word, isBlank c = false) :
      word.dropWhile isBlank = word := by
    rw [List.dropWhile_eq_self_iff]
    intro bound blank
    rw [solid _ (List.getElem_mem bound)] at blank
    contradiction
  have backwards : ∀ c ∈ text.reverse, isBlank c = false :=
    fun c member => solid c (List.mem_reverse.mp member)
  rw [trim, trimStart, same solid, trimEnd, same backwards, List.reverse_reverse]

end AssemblySymbols
