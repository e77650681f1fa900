import AssemblySymbols.Proofs.Source.Occurrences

/-! The grammar of definitions, and that lines are read by it: a line defines what some way of putting it
together from blanks, keywords and a name says, in every way in which it can be put together. -/
namespace AssemblySymbols

namespace Text

/-- A word begins or ends between the two texts: there is a word character on one side only. -/
def WordBoundary (left right : List Char) : Prop := left.getLast?.any isWord ≠ right.head?.any isWord

/-- The word is the keyword in some mixture of cases. -/
def Spells (word : List Char) (keyword : String) : Prop := word.map Char.toLower = keyword.toList

end Text

/-- What a directive reserves or fills: a byte, a word, and so on. -/
def unitSizes : List String := ["b", "w", "d", "q", "t", "p", "dq", "qq", "dqq"]

namespace Construct

/-- The keywords that follow the name. -/
def trailing : Construct → List String
  | dataDeclaration => unitSizes.map ("d" ++ ·) ++ unitSizes.map ("r" ++ ·) ++ ["emit", "file"]
  | equate => ["equ", "reequ"]
  | _ => []

/-- The keywords that the name follows. -/
def leading : Construct → List String
  | labelKeyword => ["label"]
  | elementKeyword => ["element"]
  | defineKeyword => ["define", "redefine"]
  | macroKeyword => ["macro"]
  | loadKeyword => ["load"]
  | _ => []

/-- The ways in which a line that defines a name can be put together. -/
inductive Derives : Construct → Occurrence → Prop where
  | colon {before name rest : List Char} (blank : ∀ c ∈ before, Text.isBlank c)
      (identifier : IsIdentifier name) : Derives labelColon ⟨before, name, ':' :: rest⟩
  | behind {construct : Construct} {keyword : String} {before name gap word rest : List Char}
      (listed : keyword ∈ construct.trailing) (blank : ∀ c ∈ before, Text.isBlank c)
      (identifier : IsIdentifier name) (apart : gap ≠ []) (gapBlank : ∀ c ∈ gap, Text.isBlank c)
      (spelled : Text.Spells word keyword) (boundary : Text.WordBoundary word rest) :
      Derives construct ⟨before, name, gap ++ (word ++ rest)⟩
  | assigned {operator : String} {before name gap rest : List Char}
      (listed : operator ∈ [":=", "=:", "="]) (blank : ∀ c ∈ before, Text.isBlank c)
      (identifier : IsIdentifier name) (gapBlank : ∀ c ∈ gap, Text.isBlank c) :
      Derives assignment ⟨before, name, gap ++ (operator.toList ++ rest)⟩
  | ahead {construct : Construct} {keyword : String} {before word gap name rest : List Char}
      (listed : keyword ∈ construct.leading) (blank : ∀ c ∈ before, Text.isBlank c)
      (spelled : Text.Spells word keyword) (apart : gap ≠ []) (gapBlank : ∀ c ∈ gap, Text.isBlank c)
      (identifier : IsIdentifier name)
      (longest : ∀ longer, IsIdentifier longer → longer <+: name ++ rest → longer.length ≤ name.length) :
      Derives construct ⟨before ++ word ++ gap, name, rest⟩

end Construct

namespace Occurrence

def text (found : Occurrence) : List Char := found.before ++ found.name ++ found.after

/-- The definition that stands there, measured in bytes. -/
def definition (found : Occurrence) (construct : Construct) : LineDefinition where
  name := String.ofList found.name
  construct := construct
  start := (Text.encode found.before).length
  stop := (Text.encode (found.before ++ found.name)).length

/-- The name is the first word on its line, and all of that word. -/
structure First (found : Occurrence) : Prop where
  blank : ∀ c ∈ found.before, Text.isBlank c = true
  identifier : IsIdentifier found.name
  ends : ∀ c, found.after.head? = some c → isIdentifierChar c = false

end Occurrence

/-! Blanks, identifiers and keywords at the head of a text. -/

theorem IsIdentifier.not_blank {text : List Char} (identifier : IsIdentifier text)
    (rest : List Char) : ∀ c, (text ++ rest).head? = some c → Text.isBlank c = false := by
  obtain ⟨first, others, rfl, start, _⟩ := identifier
  rintro c ⟨⟩
  exact isBlank_of_isIdentifierChar (isIdentifierChar_of_start start)

theorem takeIdentifier?_complete {name rest : List Char} (identifier : IsIdentifier name)
    (ends : ∀ c, rest.head? = some c → isIdentifierChar c = false) :
    takeIdentifier? (name ++ rest) = some (name, rest) := by
  obtain ⟨first, others, rfl, start, inside⟩ := identifier
  obtain ⟨taken, dropped⟩ := takeWhile_boundary inside ends
  rw [List.cons_append, takeIdentifier?, if_pos start, taken, dropped]

/-- An identifier is the longest at its place if no identifier character follows. -/
theorem IsIdentifier.longest_iff {name rest : List Char} (identifier : IsIdentifier name) :
    (∀ longer, IsIdentifier longer → longer <+: name ++ rest → longer.length ≤ name.length) ↔
      ∀ c, rest.head? = some c → isIdentifierChar c = false := by
  constructor
  · intro longest c next
    by_contra inside
    obtain ⟨others, rfl⟩ := List.head?_eq_some_iff.mp next
    obtain ⟨first, tail, rfl, start, characters⟩ := identifier
    have further : IsIdentifier (first :: (tail ++ [c])) := by
      refine ⟨first, tail ++ [c], rfl, start, fun d member => ?_⟩
      rcases List.mem_append.mp member with old | new
      · exact characters d old
      · exact List.mem_singleton.mp new ▸ Bool.not_eq_false _ ▸ inside
    have bound := longest _ further ⟨others, by simp⟩
    rw [← List.cons_append, List.length_append] at bound
    exact Nat.not_succ_le_self _ bound
  · intro ends longer identifier' starts
    obtain ⟨taken, -⟩ := takeWhile_boundary identifier.all ends
    obtain ⟨rest', cut⟩ := starts
    have inside : longer <+: (name ++ rest).takeWhile isIdentifierChar := by
      rw [← cut, List.takeWhile_append_of_pos identifier'.all]
      exact List.prefix_append _ _
    rw [taken] at inside
    exact inside.length_le

theorem dropKeyword?_eq_some_iff {keyword text rest : List Char} :
    dropKeyword? keyword text = some rest ↔
      ∃ word, text = word ++ rest ∧ word.map Char.toLower = keyword := by
  induction keyword generalizing text with
  | nil => simp [dropKeyword?]
  | cons k keyword ih =>
    cases text with
    | nil => simp [dropKeyword?]
    | cons c text =>
      rw [dropKeyword?]
      constructor
      · intro dropped
        split at dropped
        · next same =>
          obtain ⟨word, cut, spelled⟩ := ih.mp dropped
          exact ⟨c :: word, by rw [cut, List.cons_append], by rw [List.map_cons, same, spelled]⟩
        · contradiction
      · rintro ⟨word, cut, spelled⟩
        cases word with
        | nil => contradiction
        | cons d word =>
          obtain ⟨head, tail⟩ := List.cons_eq_cons.mp cut
          obtain ⟨same, others⟩ := List.cons_eq_cons.mp spelled
          rw [if_pos (head ▸ same)]
          exact ih.mpr ⟨word, tail, others⟩

theorem leadingName?_eq_some_iff {line : List Char} {found : Occurrence} :
    leadingName? line = some found ↔ line = found.text ∧ found.First := by
  constructor
  · intro leading
    have isolated := isolated_of_leading leading
    refine ⟨isolated.cut, ?_, isolated.identifier, isolated.ends⟩
    obtain ⟨⟨name, after⟩, -, rfl⟩ := Option.map_eq_some_iff.mp leading
    exact fun c member => List.mem_takeWhile_imp member
  · rintro ⟨rfl, first⟩
    obtain ⟨before, name, after⟩ := found
    obtain ⟨taken, dropped⟩ := takeWhile_boundary first.blank
      (first.identifier.not_blank after)
    rw [leadingName?, Occurrence.text, List.append_assoc, taken, dropped,
      takeIdentifier?_complete first.identifier first.ends]
    rfl

/-! Keywords consist of small letters, so their spellings are words without blanks. -/

theorem isAlpha_of_toLower {c : Char} (lower : c.toLower.isLower = true) : c.isAlpha = true := by
  unfold Char.toLower at lower
  split at lower
  · next upper => exact Bool.or_eq_true_iff.mpr (Or.inl (decide_eq_true upper))
  · exact Bool.or_eq_true_iff.mpr (Or.inr lower)

theorem Text.isWord_of_isAlpha {c : Char} (letter : c.isAlpha = true) : isWord c = true := by
  have inside : isIdentifierChar c = true := by simp [isIdentifierChar, isIdentifierStart, letter]
  have small : c.toNat < 0x80 := by
    have bounds := isIdentifierChar_bounds inside
    omega
  simp [isWord, small, Char.isAlphanum, letter]

theorem Construct.letters {construct : Construct} {keyword : String}
    (listed : keyword ∈ construct.keywords) :
    keyword.toList ≠ [] ∧ ∀ c ∈ keyword.toList, c.isLower = true := by
  have all : ∀ keyword ∈ construct.keywords,
      keyword.toList ≠ [] ∧ keyword.toList.all Char.isLower = true := by
    cases construct <;> decide
  obtain ⟨solid, small⟩ := all keyword listed
  exact ⟨solid, List.all_eq_true.mp small⟩

namespace Text.Spells
variable {construct : Construct} {keyword : String} {word : List Char}

theorem letters (spelled : Spells word keyword) (listed : keyword ∈ construct.keywords) :
    ∀ c ∈ word, c.isAlpha = true := by
  intro c member
  have lowered : c.toLower ∈ keyword.toList := spelled ▸ List.mem_map_of_mem member
  exact isAlpha_of_toLower ((Construct.letters listed).2 _ lowered)

theorem ne_nil (spelled : Spells word keyword) (listed : keyword ∈ construct.keywords) :
    word ≠ [] := by
  rintro rfl
  exact (Construct.letters listed).1 spelled.symm

theorem not_blank (spelled : Spells word keyword) (listed : keyword ∈ construct.keywords)
    (rest : List Char) : ∀ c, (word ++ rest).head? = some c → isBlank c = false := by
  obtain ⟨first, others, rfl⟩ := List.exists_cons_of_ne_nil (spelled.ne_nil listed)
  have letter := spelled.letters listed first List.mem_cons_self
  rintro c ⟨⟩
  exact isBlank_of_isIdentifierChar (by simp [isIdentifierChar, isIdentifierStart, letter])

/-- A keyword is a whole word if a word ends with it. -/
theorem wordBoundary_iff (spelled : Spells word keyword) (listed : keyword ∈ construct.keywords)
    {rest : List Char} : WordBoundary word rest ↔ atWordEnd rest = true := by
  obtain ⟨last, ends⟩ := Option.ne_none_iff_exists'.mp
    (mt List.getLast?_eq_none_iff.mp (spelled.ne_nil listed))
  have letter := spelled.letters listed last (List.mem_of_getLast? ends)
  rw [WordBoundary, ends, Option.any_some, isWord_of_isAlpha letter]
  cases rest with
  | nil => simp [atWordEnd]
  | cons c rest => simp [atWordEnd]

end Text.Spells

theorem startsWithKeyword_iff {construct : Construct} {text : List Char} :
    startsWithKeyword construct.keywords text = true ↔
      ∃ keyword ∈ construct.keywords, ∃ gap word rest, text = gap ++ (word ++ rest) ∧ gap ≠ [] ∧
        (∀ c ∈ gap, Text.isBlank c = true) ∧ Text.Spells word keyword ∧
        Text.WordBoundary word rest := by
  unfold startsWithKeyword startsWithWord
  rw [Bool.and_eq_true, List.any_eq_true]
  constructor
  · rintro ⟨gapped, keyword, listed, whole⟩
    split at whole
    · next rest dropped =>
      obtain ⟨word, cut, spelled⟩ := dropKeyword?_eq_some_iff.mp dropped
      refine ⟨keyword, listed, text.takeWhile Text.isBlank, word, rest, ?_, by simpa using gapped,
        fun c member => List.mem_takeWhile_imp member, spelled,
        (Text.Spells.wordBoundary_iff spelled listed).mpr whole⟩
      rw [← cut, List.takeWhile_append_dropWhile]
    · contradiction
  · rintro ⟨keyword, listed, gap, word, rest, rfl, apart, blank, spelled, boundary⟩
    obtain ⟨taken, dropped⟩ := takeWhile_boundary blank (spelled.not_blank listed rest)
    have read : dropKeyword? keyword.toList (word ++ rest) = some rest :=
      dropKeyword?_eq_some_iff.mpr ⟨word, rfl, spelled⟩
    rw [taken, dropped]
    refine ⟨by simpa using apart, keyword, listed, ?_⟩
    rw [read]
    exact (spelled.wordBoundary_iff listed).mp boundary

theorem startsWithAssignment_iff {text : List Char} :
    startsWithAssignment text = true ↔
      ∃ operator ∈ [":=", "=:", "="], ∃ rest, text = operator.toList ++ rest := by
  constructor
  · intro starts
    unfold startsWithAssignment at starts
    split at starts
    · exact ⟨":=", by simp, _, rfl⟩
    · exact ⟨"=", by simp, _, rfl⟩
    · contradiction
  · rintro ⟨operator, listed, rest, rfl⟩
    simp only [List.mem_cons, List.not_mem_nil, or_false] at listed
    rcases listed with rfl | rfl | rfl <;> rfl

theorem nameAfterKeyword?_eq_some_iff {construct : Construct} {keyword : String} {line : List Char}
    {found : Occurrence} (listed : keyword ∈ construct.keywords) :
    nameAfterKeyword? keyword line = some found ↔
      ∃ before word gap, found.before = before ++ word ++ gap ∧ line = found.text ∧
        (∀ c ∈ before, Text.isBlank c = true) ∧ Text.Spells word keyword ∧ gap ≠ [] ∧
        (∀ c ∈ gap, Text.isBlank c = true) ∧ IsIdentifier found.name ∧
        ∀ c, found.after.head? = some c → isIdentifierChar c = false := by
  constructor
  · intro behind
    have isolated := isolated_of_keyword behind
    simp only [nameAfterKeyword?, Option.bind_eq_bind, Option.bind_eq_some_iff] at behind
    obtain ⟨rest, dropped, ⟨name, after⟩, -, cut⟩ := behind
    obtain ⟨word, split, spelled⟩ := dropKeyword?_eq_some_iff.mp dropped
    have size : word.length = keyword.length := by
      rw [← String.length_toList, ← spelled, List.length_map]
    split at cut
    · contradiction
    · next apart =>
      cases cut
      refine ⟨line.takeWhile Text.isBlank, word, rest.takeWhile Text.isBlank, ?_, isolated.cut,
        fun c member => List.mem_takeWhile_imp member, spelled, apart,
        fun c member => List.mem_takeWhile_imp member, isolated.identifier, isolated.ends⟩
      rw [split, ← size, List.take_left]
  · obtain ⟨_, name, after⟩ := found
    rintro ⟨before, word, gap, rfl, rfl, blank, spelled, apart, gapBlank, identifier, ends⟩
    have line : Occurrence.text ⟨before ++ word ++ gap, name, after⟩ =
        before ++ (word ++ (gap ++ (name ++ after))) := by
      simp only [Occurrence.text, List.append_assoc]
    obtain ⟨taken, dropped⟩ := takeWhile_boundary blank
      (spelled.not_blank listed (gap ++ (name ++ after)))
    obtain ⟨gapTaken, gapDropped⟩ := takeWhile_boundary gapBlank
      (identifier.not_blank after)
    have read : dropKeyword? keyword.toList (word ++ (gap ++ (name ++ after))) =
        some (gap ++ (name ++ after)) := dropKeyword?_eq_some_iff.mpr ⟨word, rfl, spelled⟩
    have size : word.length = keyword.length := by
      rw [← String.length_toList, ← spelled, List.length_map]
    rw [nameAfterKeyword?, line, taken, dropped, read]
    simp only [Option.bind_eq_bind, Option.bind_some, gapTaken, gapDropped,
      takeIdentifier?_complete identifier ends, if_neg apart, ← size, List.take_left]

/-- The letters that come first on a line, in lower case. -/
def headWord (line : List Char) : List Char :=
  ((line.dropWhile Text.isBlank).takeWhile Char.isAlpha).map Char.toLower

theorem not_isAlpha_of_not_identifierChar {c : Char} (outside : isIdentifierChar c = false) :
    c.isAlpha = false := by
  simp only [isIdentifierChar, isIdentifierStart, Bool.or_eq_false_iff] at outside
  exact outside.1.1.1.1.1.1

theorem headWord_eq {construct : Construct} {keyword : String} {before word rest : List Char}
    (listed : keyword ∈ construct.keywords) (blank : ∀ c ∈ before, Text.isBlank c = true)
    (spelled : Text.Spells word keyword) (stops : ∀ c, rest.head? = some c → c.isAlpha = false) :
    headWord (before ++ (word ++ rest)) = keyword.toList := by
  rw [headWord, (takeWhile_boundary blank (spelled.not_blank listed rest)).2,
    (takeWhile_boundary (spelled.letters listed) stops).1]
  exact spelled

/-- A name that follows a keyword tells it: the keyword comes first on the line. -/
theorem headWord_of_keyword {construct : Construct} {keyword : String} {line : List Char}
    {found : Occurrence} (listed : keyword ∈ construct.keywords)
    (read : nameAfterKeyword? keyword line = some found) : headWord line = keyword.toList := by
  obtain ⟨before, word, gap, front, rfl, blank, spelled, apart, gapBlank, -⟩ :=
    (nameAfterKeyword?_eq_some_iff listed).mp read
  obtain ⟨space, spaces, rfl⟩ := List.exists_cons_of_ne_nil apart
  have line : found.text =
      before ++ (word ++ (space :: spaces ++ (found.name ++ found.after))) := by
    rw [Occurrence.text, front]
    simp only [List.append_assoc]
  rw [line]
  refine headWord_eq listed blank spelled ?_
  rintro c ⟨⟩
  exact not_isAlpha_of_not_identifierChar
    (not_identifierChar_of_blank (gapBlank space List.mem_cons_self))

/-- The word at the head of a line is spelled in one way, so it is at most one keyword. -/
theorem keyword_unique {construct : Construct} {keyword other : String} {line : List Char}
    {found found' : Occurrence} (listed : keyword ∈ construct.keywords)
    (listed' : other ∈ construct.keywords) (read : nameAfterKeyword? keyword line = some found)
    (read' : nameAfterKeyword? other line = some found') : keyword = other :=
  String.toList_injective ((headWord_of_keyword listed read).symm.trans (headWord_of_keyword listed' read'))

theorem findSome?_keywords {construct : Construct} {line : List Char} {found : Occurrence} :
    construct.keywords.findSome? (nameAfterKeyword? · line) = some found ↔
      ∃ keyword ∈ construct.keywords, nameAfterKeyword? keyword line = some found := by
  constructor
  · exact List.exists_of_findSome?_eq_some
  · rintro ⟨keyword, listed, read⟩
    cases first : construct.keywords.findSome? (nameAfterKeyword? · line) with
    | none =>
      rw [List.findSome?_eq_none_iff.mp first keyword listed] at read
      contradiction
    | some found' =>
      obtain ⟨other, listed', read'⟩ := List.exists_of_findSome?_eq_some first
      cases keyword_unique listed listed' read read'
      exact read'.symm.trans read

namespace Construct
variable {construct : Construct} {line : List Char} {found : Occurrence}

/-! Each way of putting a line together is one that the constructs look for. -/

theorem derives_labelColon_iff :
    Derives labelColon found ↔ found.First ∧ (found.after.head? == some ':') = true := by
  constructor
  · intro derives
    cases derives with
    | colon blank identifier =>
      refine ⟨⟨blank, identifier, ?_⟩, rfl⟩
      rintro c ⟨⟩
      decide
    | behind listed | ahead listed => exact absurd listed List.not_mem_nil
  · rintro ⟨first, colon⟩
    obtain ⟨before, name, after⟩ := found
    obtain ⟨rest, rfl⟩ := List.head?_eq_some_iff.mp (beq_iff_eq.mp colon)
    exact .colon first.blank first.identifier

theorem derives_behind_iff (same : construct.trailing = construct.keywords)
    (some : construct.keywords ≠ []) :
    construct.Derives found ↔
      found.First ∧ startsWithKeyword construct.keywords found.after = true := by
  rw [startsWithKeyword_iff]
  constructor
  · intro derives
    cases derives with
    | colon | assigned => exact absurd rfl some
    | @behind _ keyword before name gap word rest listed blank identifier apart gapBlank spelled
        boundary =>
      refine ⟨⟨blank, identifier, fun c next => ?_⟩, keyword, same ▸ listed, gap, word, rest, rfl,
        apart, gapBlank, spelled, boundary⟩
      obtain ⟨space, spaces, rfl⟩ := List.exists_cons_of_ne_nil apart
      cases next
      exact not_identifierChar_of_blank (gapBlank c List.mem_cons_self)
    | ahead listed => cases construct <;> simp_all [leading, trailing, keywords]
  · rintro ⟨first, keyword, listed, gap, word, rest, after, apart, gapBlank, spelled, boundary⟩
    obtain ⟨before, name, _⟩ := found
    cases after
    exact .behind (same.symm ▸ listed) first.blank first.identifier apart gapBlank spelled boundary

theorem derives_assignment_iff :
    Derives assignment found ↔
      found.First ∧ startsWithAssignment (found.after.dropWhile Text.isBlank) = true := by
  rw [startsWithAssignment_iff]
  have begins : ∀ operator ∈ [":=", "=:", "="], ∃ c rest, operator.toList = c :: rest ∧
      Text.isBlank c = false ∧ isIdentifierChar c = false := by
    intro operator listed
    simp only [List.mem_cons, List.not_mem_nil, or_false] at listed
    rcases listed with rfl | rfl | rfl <;> exact ⟨_, _, rfl, by decide⟩
  constructor
  · intro derives
    cases derives with
    | @assigned operator before name gap rest listed blank identifier gapBlank =>
      obtain ⟨c, others, spelled, solid, outside⟩ := begins operator listed
      refine ⟨⟨blank, identifier, fun d next => ?_⟩, operator, listed, rest, ?_⟩
      · cases gap with
        | nil =>
          rw [spelled] at next
          cases next
          exact outside
        | cons space spaces =>
          cases next
          exact not_identifierChar_of_blank (gapBlank d List.mem_cons_self)
      · refine (takeWhile_boundary gapBlank ?_).2
        rw [spelled]
        rintro d ⟨⟩
        exact solid
    | behind listed | ahead listed => exact absurd listed List.not_mem_nil
  · rintro ⟨first, operator, listed, rest, starts⟩
    obtain ⟨before, name, after⟩ := found
    have cut : after = after.takeWhile Text.isBlank ++ (operator.toList ++ rest) := by
      rw [← starts, List.takeWhile_append_dropWhile]
    rw [cut]
    exact .assigned listed first.blank first.identifier fun c member => List.mem_takeWhile_imp member

theorem derives_ahead_iff (same : construct.leading = construct.keywords)
    (some : construct.keywords ≠ []) :
    construct.Derives found ↔
      ∃ keyword ∈ construct.keywords, nameAfterKeyword? keyword found.text = .some found := by
  constructor
  · intro derives
    cases derives with
    | colon | assigned => exact absurd rfl some
    | behind listed => cases construct <;> simp_all [leading, trailing, keywords]
    | @ahead _ keyword before word gap name rest listed blank spelled apart gapBlank identifier longest =>
      exact ⟨keyword, same ▸ listed, (nameAfterKeyword?_eq_some_iff (same ▸ listed)).mpr
        ⟨before, word, gap, rfl, rfl, blank, spelled, apart, gapBlank, identifier,
          identifier.longest_iff.mp longest⟩⟩
  · rintro ⟨keyword, listed, read⟩
    obtain ⟨before, word, gap, front, -, blank, spelled, apart, gapBlank, identifier, ends⟩ :=
      (nameAfterKeyword?_eq_some_iff listed).mp read
    obtain ⟨_, name, after⟩ := found
    cases front
    exact .ahead (same.symm ▸ listed) blank spelled apart gapBlank identifier
      (identifier.longest_iff.mpr ends)

/-- A construct is found on a line in the one way in which the line can be put together by it. -/
theorem find?_eq_some_iff :
    construct.find? line = some found ↔ line = found.text ∧ construct.Derives found := by
  cases construct with
  | labelColon =>
    rw [find?, Option.filter_eq_some_iff, leadingName?_eq_some_iff, derives_labelColon_iff, and_assoc]
  | dataDeclaration | equate =>
    rw [find?, Option.filter_eq_some_iff, leadingName?_eq_some_iff, and_assoc]
    exact and_congr_right fun _ => (derives_behind_iff rfl (by decide)).symm
  | assignment =>
    rw [find?, Option.filter_eq_some_iff, leadingName?_eq_some_iff, derives_assignment_iff, and_assoc]
  | labelKeyword | elementKeyword | defineKeyword | macroKeyword | loadKeyword =>
    rw [find?, findSome?_keywords]
    constructor
    · rintro ⟨keyword, listed, read⟩
      have cut : line = found.text := (isolated_of_keyword read).cut
      subst cut
      exact ⟨rfl, (derives_ahead_iff rfl (by decide)).mpr ⟨keyword, listed, read⟩⟩
    · rintro ⟨rfl, derived⟩
      exact (derives_ahead_iff rfl (by decide)).mp derived

theorem define?_eq_some_iff {definition : LineDefinition} :
    construct.define? line = some definition ↔
      ∃ found : Occurrence, line = found.text ∧ construct.Derives found ∧
        definition = found.definition construct := by
  have measured (found : Occurrence) : found.definition construct =
      ⟨String.ofList found.name, construct, Text.utf8Length found.before,
        Text.utf8Length found.before + Text.utf8Length found.name⟩ := by
    rw [Occurrence.definition, Text.length_encode, Text.length_encode, Text.utf8Length_append]
  rw [define?, Option.map_eq_some_iff]
  constructor
  · rintro ⟨found, read, rfl⟩
    obtain ⟨cut, derives⟩ := find?_eq_some_iff.mp read
    exact ⟨found, cut, derives, (measured found).symm⟩
  · rintro ⟨found, cut, derives, rfl⟩
    exact ⟨found, find?_eq_some_iff.mpr ⟨cut, derives⟩, (measured found).symm⟩

theorem construct_of_define {definition : LineDefinition}
    (defined : construct.define? line = some definition) : definition.construct = construct := by
  obtain ⟨found, -, -, rfl⟩ := define?_eq_some_iff.mp defined
  rfl

/-- Constructs that are held against a line give definitions of their own, in their order. -/
theorem map_construct_filterMap (constructs : List Construct) :
    (constructs.filterMap (·.define? line)).map (·.construct) =
      constructs.filter fun construct => (construct.define? line).isSome := by
  rw [List.map_filterMap, ← List.filterMap_eq_filter]
  congr 1
  funext construct
  cases defined : construct.define? line with
  | none => simp [Option.guard, defined]
  | some definition => simp [Option.guard, defined, construct_of_define defined]

theorem mem_withoutColon : construct ∈ withoutColon ↔ construct ≠ .labelColon := by
  cases construct <;> decide

theorem Derives.identifier (derives : construct.Derives found) : IsIdentifier found.name := by
  cases derives with
  | colon | behind | assigned | ahead => assumption

end Construct

variable {line : List Char}

/-- White space alone defines nothing, since it has no place for a name. -/
theorem define?_eq_none_of_blank (blank : Text.isBlankText line = true) (construct : Construct) :
    construct.define? line = none := by
  cases defined : construct.define? line with
  | none => rfl
  | some definition =>
    obtain ⟨found, rfl, derives, -⟩ := Construct.define?_eq_some_iff.mp defined
    obtain ⟨first, rest, name, start, -⟩ := derives.identifier
    have member : first ∈ found.text := by simp [Occurrence.text, name]
    have solid := isBlank_of_isIdentifierChar (isIdentifierChar_of_start start)
    rw [List.all_eq_true.mp blank first member] at solid
    contradiction

/-- A line with a colon behind its first name defines this label alone. -/
theorem classifyLine_of_label {definition : LineDefinition}
    (label : Construct.labelColon.define? line = some definition) : classifyLine line = [definition] := by
  have solid : ¬ Text.isBlankText line = true := fun blank =>
    Option.some_ne_none definition (label.symm.trans (define?_eq_none_of_blank blank _))
  rw [classifyLine, if_neg solid, label]

/-- A line without a colon behind its first name is held against all other constructs. -/
theorem classifyLine_of_no_label (none : Construct.labelColon.define? line = none) :
    classifyLine line = Construct.withoutColon.filterMap (·.define? line) := by
  rw [classifyLine, none]
  split
  · next blank =>
    refine (List.filterMap_eq_nil_iff.mpr fun construct _ => ?_).symm
    exact define?_eq_none_of_blank blank construct
  · rfl

/-- What a line defines is what its derivations say. A line of white space defines nothing. One on which a
colon follows the first name defines this label and nothing else. On any other line each construct that
derives it defines one name, the constructs in their order. -/
theorem classifyLine_derives (line : List Char) :
    ((∀ c ∈ line, Text.isBlank c = true) → classifyLine line = []) ∧
    (∀ definition : LineDefinition,
      (classifyLine line = [definition] ∧ definition.construct = .labelColon) ↔
        ∃ found : Occurrence, line = found.text ∧ Construct.labelColon.Derives found ∧
          definition = found.definition .labelColon) ∧
    ((¬ ∃ found : Occurrence, line = found.text ∧ Construct.labelColon.Derives found) →
      ((classifyLine line).map (·.construct)).Sublist
        [.dataDeclaration, .labelKeyword, .elementKeyword, .defineKeyword, .equate, .macroKeyword,
          .assignment, .loadKeyword] ∧
      ∀ definition : LineDefinition, definition ∈ classifyLine line ↔
        ∃ (construct : Construct) (found : Occurrence), line = found.text ∧
          construct.Derives found ∧ definition = found.definition construct) := by
  refine ⟨fun blank => ?_, fun definition => ⟨?_, ?_⟩, fun noLabel => ?_⟩
  · have blank : Text.isBlankText line = true := List.all_eq_true.mpr blank
    rw [classifyLine, if_pos blank]
  · rintro ⟨single, colon⟩
    apply Construct.define?_eq_some_iff.mp
    cases label : Construct.labelColon.define? line with
    | some other =>
      rw [classifyLine_of_label label] at single
      exact congrArg some (List.cons_eq_cons.mp single).1
    | none =>
      have member : definition ∈ classifyLine line := single ▸ List.mem_cons_self
      rw [classifyLine_of_no_label label] at member
      obtain ⟨construct, listed, defined⟩ := List.mem_filterMap.mp member
      rw [← Construct.construct_of_define defined, colon] at listed
      exact absurd rfl (Construct.mem_withoutColon.mp listed)
  · intro derived
    have label := Construct.define?_eq_some_iff.mpr derived
    exact ⟨classifyLine_of_label label, Construct.construct_of_define label⟩
  · have none : Construct.labelColon.define? line = none := by
      refine Option.eq_none_iff_forall_ne_some.mpr fun definition label => noLabel ?_
      obtain ⟨found, cut, derives, -⟩ := Construct.define?_eq_some_iff.mp label
      exact ⟨found, cut, derives⟩
    rw [classifyLine_of_no_label none]
    constructor
    · rw [Construct.map_construct_filterMap]
      exact List.filter_sublist
    · intro definition
      rw [List.mem_filterMap]
      constructor
      · rintro ⟨construct, -, defined⟩
        exact ⟨construct, Construct.define?_eq_some_iff.mp defined⟩
      · rintro ⟨construct, derived⟩
        have defined := Construct.define?_eq_some_iff.mpr derived
        refine ⟨construct, Construct.mem_withoutColon.mpr ?_, defined⟩
        rintro rfl
        exact absurd (none.symm.trans defined) (Option.some_ne_none definition).symm

/-- A keyword may be a name, so two constructs find a definition on this line. On white space none does. -/
theorem classifyLine_derives_keyword :
    let line := "label dw 1".toList
    ((∀ c ∈ [' ', '\t', '\u2003'], Text.isBlank c = true) ∧ classifyLine [' ', '\t', '\u2003'] = []) ∧
    (¬ ∃ found : Occurrence, line = found.text ∧ Construct.labelColon.Derives found) ∧
    (∃ found : Occurrence, line = found.text ∧ Construct.dataDeclaration.Derives found ∧
      found.definition .dataDeclaration = ⟨"label", .dataDeclaration, 0, 5⟩) ∧
    ∃ found : Occurrence, line = found.text ∧ Construct.labelKeyword.Derives found ∧
      found.definition .labelKeyword = ⟨"dw", .labelKeyword, 6, 8⟩ := by
  intro line
  have blank : ∀ c ∈ [' ', '\t', '\u2003'], Text.isBlank c = true :=
    List.all_eq_true.mp (by decide +kernel)
  have both : classifyLine line =
      [⟨"label", .dataDeclaration, 0, 5⟩, ⟨"dw", .labelKeyword, 6, 8⟩] := by
    decide +kernel
  obtain ⟨-, single, listed⟩ := classifyLine_derives line
  have noLabel : ¬ ∃ found : Occurrence, line = found.text ∧ Construct.labelColon.Derives found := by
    rintro ⟨found, cut, derives⟩
    have alone := ((single (found.definition .labelColon)).mpr ⟨found, cut, derives, rfl⟩).1
    rw [both] at alone
    exact absurd (congrArg List.length alone) (by simp)
  obtain ⟨-, member⟩ := listed noLabel
  have derived (construct : Construct) (definition : LineDefinition)
      (found : definition ∈ classifyLine line) (own : definition.construct = construct) :
      ∃ found : Occurrence, line = found.text ∧ construct.Derives found ∧
        found.definition construct = definition := by
    obtain ⟨other, occurrence, cut, derives, rfl⟩ := (member definition).mp found
    cases own
    exact ⟨occurrence, cut, derives, rfl⟩
  refine ⟨⟨blank, (classifyLine_derives _).1 blank⟩, noLabel, derived _ _ ?_ rfl, derived _ _ ?_ rfl⟩
  · rw [both]
    exact List.mem_cons_self
  · rw [both]
    exact List.mem_cons_of_mem _ List.mem_cons_self

end AssemblySymbols
