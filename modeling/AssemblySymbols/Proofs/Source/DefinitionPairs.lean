import AssemblySymbols.Proofs.Source.LinePairs
import Mathlib

/-! How many names a line defines: at most two. There are two if the first word of the line is a keyword,
which one construct takes for a name, and an identifier follows it, which another construct takes for the
name that the keyword announces. -/
namespace AssemblySymbols

/-- The letters at the head of a text, in lower case. -/
def headLetters (text : List Char) : List Char := (text.takeWhile Char.isAlpha).map Char.toLower

theorem headLetters_append {word rest : List Char}
    (stops : ∀ c, rest.head? = some c → c.isAlpha = false) :
    headLetters (word ++ rest) = headLetters word := by
  rw [headLetters, takeWhile_append_of_stop stops, headLetters]

theorem headLetters_asciiLowercase (text : List Char) :
    headLetters (Text.asciiLowercase text) = headLetters text := by
  have letters : Char.isAlpha ∘ Char.toLower = Char.isAlpha := funext Char.isAlpha_toLower_eq_isAlpha
  have twice : Char.toLower ∘ Char.toLower = Char.toLower := funext Char.toLower_toLower_eq_toLower
  rw [headLetters, Text.asciiLowercase, List.takeWhile_map, letters, List.map_map, twice, headLetters]

theorem headLetters_withoutMarker (name : List Char) : headLetters (withoutMarker name) = headLetters name := by
  unfold withoutMarker
  split
  · next marked =>
    have last : name.getLast? = some '?' := beq_iff_eq.mp (Bool.and_eq_true_iff.mp marked).1
    have cut : name = name.dropLast ++ ['?'] := (List.dropLast_append_getLast? '?' last).symm
    conv_rhs => rw [cut]
    refine (headLetters_append ?_).symm
    rintro c ⟨⟩
    decide
  · rfl

/-- The marker and the case of its letters do not tell how a name begins. -/
theorem headLetters_key {raw : String} (identifier : IsIdentifier raw.toList) {name : Name}
    (parsed : Name.parse? raw = some name) : headLetters name.key.toList = headLetters raw.toList := by
  rw [Name.parse?_of_isIdentifier identifier] at parsed
  cases parsed
  have ascii : ∀ c ∈ withoutMarker raw.toList, c.toNat < 0x80 := by
    intro c member
    have inside : c ∈ raw.toList := by
      unfold withoutMarker at member
      split at member
      · exact List.mem_of_mem_dropLast member
      · exact member
    have bounds := isIdentifierChar_bounds (identifier.all c inside)
    omega
  unfold Name.key
  split
  · rw [Name.insensitiveKey, String.toList_ofList, String.toList_ofList, Text.lowercase_ascii ascii,
      headLetters_asciiLowercase, headLetters_withoutMarker]
  · rw [String.toList_ofList, headLetters_withoutMarker]

/-- Two definitions of a line. Its first word is a keyword, which announces the identifier behind it as a
name. The word is a name as well, since the identifier begins with a keyword that follows a name. -/
structure LineDefinition.Couple (line : List Char) (named announced : LineDefinition) : Prop where
  behind : named.construct ∈ [Construct.dataDeclaration, .equate]
  ahead : announced.construct ∈
    [Construct.labelKeyword, .elementKeyword, .defineKeyword, .macroKeyword, .loadKeyword]
  words : ∃ first found : Occurrence, ∃ gap, line = first.text ∧ line = found.text ∧ first.First ∧
    gap ≠ [] ∧ (∀ c ∈ gap, Text.isBlank c = true) ∧ found.before = first.before ++ first.name ++ gap ∧
    IsIdentifier found.name ∧ (∀ c, found.after.head? = some c → isIdentifierChar c = false) ∧
    (∃ keyword ∈ announced.construct.leading, Text.Spells first.name keyword) ∧
    (∃ keyword ∈ named.construct.trailing, ∃ word rest, found.name ++ found.after = word ++ rest ∧
      Text.Spells word keyword ∧ Text.WordBoundary word rest) ∧
    named = first.definition named.construct ∧ announced = found.definition announced.construct
  spans : named.start < named.stop ∧ named.stop < announced.start ∧ announced.start < announced.stop
  keys : ∃ name other, Name.parse? named.name = some name ∧ Name.parse? announced.name = some other ∧
    name.key ≠ other.key

theorem Occurrence.after_of_before {first found : Occurrence} {gap : List Char}
    (same : first.text = found.text) (front : found.before = first.before ++ first.name ++ gap) :
    first.after = gap ++ (found.name ++ found.after) := by
  rw [text, text, front, List.append_assoc _ found.name, List.append_assoc _ gap] at same
  exact List.append_cancel_left same

namespace Construct.Shares
variable {construct other : Construct} {first found : Occurrence}

/-- Between the keyword and the name there is white space and nothing else. -/
theorem gap (shares : Shares construct other first found) :
    ∃ gap, gap ≠ [] ∧ (∀ c ∈ gap, Text.isBlank c = true) ∧
      found.before = first.before ++ first.name ++ gap := by
  have directs := shares.directs
  obtain ⟨gap, front⟩ := directs.precedes
  have after := Occurrence.after_of_before directs.same front.symm
  have blanks : gap = first.after.takeWhile Text.isBlank := by
    have cut := List.takeWhile_append_dropWhile (p := Text.isBlank) (l := first.after)
    rw [directs.follows] at cut
    exact List.append_cancel_right (after.symm.trans cut.symm)
  refine ⟨gap, ?_, fun c member => List.mem_takeWhile_imp (blanks ▸ member), front.symm⟩
  rintro rfl
  obtain ⟨c, rest, name, start, -⟩ := directs.identifier
  have outside := directs.leads.ends c (by rw [after, name]; rfl)
  rw [isIdentifierChar_of_start start] at outside
  contradiction

theorem behind_mem (shares : Shares construct other first found) :
    construct ∈ [dataDeclaration, equate] := by
  have starts := shares.directs.starts shares.follows
  have behind := shares.behind
  cases construct with
  | dataDeclaration | equate => decide
  | labelColon | assignment =>
    obtain ⟨keyword, listed, -⟩ := startsWithKeyword_iff.mp starts
    exact absurd listed List.not_mem_nil
  | labelKeyword | elementKeyword | defineKeyword | macroKeyword | loadKeyword => contradiction

theorem ahead_mem (shares : Shares construct other first found) :
    other ∈ [labelKeyword, elementKeyword, defineKeyword, macroKeyword, loadKeyword] := by
  obtain ⟨keyword, listed, -⟩ := shares.directs.keyword
  have ahead := shares.ahead
  cases other with
  | labelKeyword | elementKeyword | defineKeyword | macroKeyword | loadKeyword => decide
  | dataDeclaration | equate => contradiction
  | labelColon | assignment => exact absurd listed List.not_mem_nil

/-- The keys begin with the two keywords, the one before and the one behind the gap. -/
theorem keys (shares : Shares construct other first found) {name name' : Name}
    (parsed : Name.parse? (String.ofList first.name) = some name)
    (parsed' : Name.parse? (String.ofList found.name) = some name') : name.key ≠ name'.key := by
  intro same
  have directs := shares.directs
  obtain ⟨keyword, listed, spelled⟩ := directs.keyword
  obtain ⟨keyword', listed', word⟩ := headWord_of_startsWithKeyword (directs.starts shares.follows)
  have key : headLetters name.key.toList = keyword.toList := by
    have letters : first.name.takeWhile Char.isAlpha = first.name :=
      List.takeWhile_eq_self_iff.mpr (spelled.letters listed)
    rw [headLetters_key (by simpa using directs.leads.identifier) parsed, String.toList_ofList, headLetters,
      letters]
    exact spelled
  have key' : headLetters name'.key.toList = keyword'.toList := by
    rw [headLetters_key (by simpa using directs.identifier) parsed', String.toList_ofList, ← word, headWord,
      directs.follows]
    exact (headLetters_append fun c next => not_isAlpha_of_not_identifierChar (directs.ends c next)).symm
  cases String.toList_injective (key.symm.trans ((congrArg _ (congrArg _ same)).trans key'))
  cases eq_of_keyword listed listed'
  rw [← shares.ahead, shares.behind] at listed
  exact absurd listed List.not_mem_nil

/-- The name behind the gap begins with the keyword by which the first word is a name. -/
theorem directive (shares : Shares construct other first found) :
    ∃ keyword ∈ construct.trailing, ∃ word rest, found.name ++ found.after = word ++ rest ∧
      Text.Spells word keyword ∧ Text.WordBoundary word rest := by
  obtain ⟨keyword, listed, gap, word, rest, after, -, blank, spelled, boundary⟩ :=
    startsWithKeyword_iff.mp (shares.directs.starts shares.follows)
  refine ⟨keyword, ?_, word, rest, ?_, spelled, boundary⟩
  · rcases List.mem_pair.mp shares.behind_mem with rfl | rfl
    · exact listed
    · exact listed
  · rw [← shares.directs.follows, after, (takeWhile_boundary blank (spelled.not_blank listed rest)).2]

theorem couple (shares : Shares construct other first found) :
    (first.definition construct).Couple first.text (found.definition other) := by
  have directs := shares.directs
  obtain ⟨gap, apart, blank, front⟩ := shares.gap
  obtain ⟨keyword, listed, spelled⟩ := directs.keyword
  refine ⟨shares.behind_mem, shares.ahead_mem, ?_, ?_, ?_⟩
  · exact ⟨first, found, gap, rfl, directs.same, directs.leads, apart, blank, front, directs.identifier,
      directs.ends, ⟨keyword, shares.ahead ▸ listed, spelled⟩, shares.directive, rfl, rfl⟩
  · have word := Text.utf8Length_pos directs.leads.identifier.ne_nil
    have name := Text.utf8Length_pos directs.identifier.ne_nil
    have between := Text.utf8Length_pos apart
    simp only [Occurrence.definition, Text.length_encode, front, Text.utf8Length_append]
    omega
  · have identifier : IsIdentifier (String.ofList first.name).toList := by
      simpa using directs.leads.identifier
    have identifier' : IsIdentifier (String.ofList found.name).toList := by
      simpa using directs.identifier
    have parsed := Name.parse?_of_isIdentifier identifier
    have parsed' := Name.parse?_of_isIdentifier identifier'
    exact ⟨_, _, parsed, parsed', shares.keys parsed parsed'⟩

end Construct.Shares

namespace LineDefinition
variable {line : List Char} {definition other : LineDefinition}

/-- One of the two definitions announces the other. -/
def Coupled (line : List Char) (definition other : LineDefinition) : Prop :=
  definition.Couple line other ∨ other.Couple line definition

theorem Couple.no_label (couple : definition.Couple line other) :
    Construct.labelColon.define? line = none := by
  obtain ⟨first, found, gap, rfl, same, leads, apart, blank, front, -⟩ := couple.words
  rw [Option.eq_none_iff_forall_ne_some]
  intro label defined
  obtain ⟨labelled, cut, derives, -⟩ := Construct.define?_eq_some_iff.mp defined
  obtain ⟨leads', colon⟩ := Construct.derives_labelColon_iff.mp derives
  cases leads.unique leads' cut
  obtain ⟨space, spaces, rfl⟩ := List.exists_cons_of_ne_nil apart
  rw [Occurrence.after_of_before same front] at colon
  have solid : space = ':' := Option.some.inj (beq_iff_eq.mp colon)
  exact absurd (blank space List.mem_cons_self) (by rw [solid]; decide)

/-- A line of this form defines both names. -/
theorem Couple.mem_classifyLine (couple : definition.Couple line other) :
    definition ∈ classifyLine line ∧ other ∈ classifyLine line := by
  have listed : ∀ construct ∈ [Construct.dataDeclaration, .equate], construct ∈ Construct.withoutColon := by
    decide
  have listed' : ∀ construct ∈ [Construct.labelKeyword, .elementKeyword, .defineKeyword, .macroKeyword,
      .loadKeyword], construct ∈ Construct.withoutColon := by
    decide
  rw [classifyLine_of_no_label couple.no_label, List.mem_filterMap, List.mem_filterMap]
  obtain ⟨first, found, gap, cut, cut', leads, apart, blank, front, identifier, ends,
    ⟨keyword, leading, spelled⟩, ⟨keyword', trailing, word, rest, head, spelled', boundary⟩,
    named, announced⟩ := couple.words
  have after := Occurrence.after_of_before (cut.symm.trans cut') front
  have derives : definition.construct.Derives first := by
    obtain ⟨before, name, _⟩ := first
    cases after.trans (congrArg (gap ++ ·) head)
    exact .behind trailing leads.blank leads.identifier apart blank spelled' boundary
  have derives' : other.construct.Derives found := by
    obtain ⟨_, name, rest⟩ := found
    cases front
    exact .ahead leading leads.blank spelled apart blank identifier (identifier.longest_iff.mpr ends)
  exact ⟨⟨_, listed _ couple.behind, Construct.define?_eq_some_iff.mpr ⟨first, cut, derives, named⟩⟩,
    ⟨_, listed' _ couple.ahead, Construct.define?_eq_some_iff.mpr ⟨found, cut', derives', announced⟩⟩⟩

/-- Only one of the two has its keyword behind the name. -/
theorem Couple.sides_ne (couple : definition.Couple line other) :
    decide (definition.construct ∈ [Construct.dataDeclaration, .equate]) ≠
      decide (other.construct ∈ [Construct.dataDeclaration, .equate]) := by
  have apart : ∀ construct ∈ [Construct.labelKeyword, .elementKeyword, .defineKeyword, .macroKeyword,
      .loadKeyword], construct ∉ [Construct.dataDeclaration, .equate] := by
    decide
  rw [decide_eq_true couple.behind, decide_eq_false (apart _ couple.ahead)]
  decide

theorem Coupled.sides_ne (coupled : Coupled line definition other) :
    decide (definition.construct ∈ [Construct.dataDeclaration, .equate]) ≠
      decide (other.construct ∈ [Construct.dataDeclaration, .equate]) := by
  rcases coupled with couple | couple
  · exact couple.sides_ne
  · exact couple.sides_ne.symm

theorem Coupled.construct_ne (coupled : Coupled line definition other) {construct : Construct}
    (alone : construct ∈ [Construct.labelColon, .assignment]) :
    definition.construct ≠ construct ∧ other.construct ≠ construct := by
  have apart : ∀ construct ∈ [Construct.labelColon, .assignment],
      construct ∉ [Construct.dataDeclaration, .equate] ∧ construct ∉ [Construct.labelKeyword,
        .elementKeyword, .defineKeyword, .macroKeyword, .loadKeyword] := by
    decide
  obtain ⟨behind, ahead⟩ := apart construct alone
  rcases coupled with couple | couple
  · exact ⟨fun same => behind (same ▸ couple.behind), fun same => ahead (same ▸ couple.ahead)⟩
  · exact ⟨fun same => ahead (same ▸ couple.ahead), fun same => behind (same ▸ couple.behind)⟩

end LineDefinition

theorem classifyLine_coupled (line : List Char) :
    (classifyLine line).Pairwise (LineDefinition.Coupled line) := by
  refine classifyLine_pairwise line fun {construct other _ _} defined defined' plain plain' different => ?_
  obtain ⟨found, rfl, derives, rfl⟩ := Construct.define?_eq_some_iff.mp defined
  obtain ⟨found', same, derives', rfl⟩ := Construct.define?_eq_some_iff.mp defined'
  rcases derives.shares derives' same plain plain' different with shares | shares
  · exact .inl shares.couple
  · exact .inr (same ▸ shares.couple)

theorem length_classifyLine_le (line : List Char) : (classifyLine line).length ≤ 2 := by
  have sides : ((classifyLine line).map fun definition =>
      decide (definition.construct ∈ [Construct.dataDeclaration, .equate])).Nodup :=
    List.pairwise_map.mpr ((classifyLine_coupled line).imp LineDefinition.Coupled.sides_ne)
  simpa using sides.length_le_card

theorem coupled_of_classifyLine {line : List Char} {definition other : LineDefinition}
    (both : classifyLine line = [definition, other]) : LineDefinition.Coupled line definition other := by
  have coupled := classifyLine_coupled line
  rw [both] at coupled
  exact List.rel_of_pairwise_cons coupled List.mem_cons_self

theorem length_classifyLine_eq_two_iff {line : List Char} :
    (classifyLine line).length = 2 ↔
      ∃ named announced : LineDefinition, named.Couple line announced := by
  constructor
  · intro two
    obtain ⟨definition, other, both⟩ := List.length_eq_two.mp two
    rcases coupled_of_classifyLine both with couple | couple
    · exact ⟨definition, other, couple⟩
    · exact ⟨other, definition, couple⟩
  · rintro ⟨named, announced, couple⟩
    obtain ⟨member, member'⟩ := couple.mem_classifyLine
    refine Nat.le_antisymm (length_classifyLine_le line) (Nat.lt_of_not_le fun few => ?_)
    have same : named = announced := by
      match classifyLine line, few, member, member' with
      | [single], _, member, member' =>
        exact (List.mem_singleton.mp member).trans (List.mem_singleton.mp member').symm
    exact couple.sides_ne (by rw [same])

/-- A line defines at most two names. It defines two exactly if a keyword and a name that it announces
come first on the line and the keyword is a name itself by what follows. Labels with a colon and
assignments are alone on their line. -/
theorem classifyLine_at_most_two (line : List Char) :
    (classifyLine line).length ≤ 2 ∧
    (∀ definition other, classifyLine line = [definition, other] →
      definition.Couple line other ∨ other.Couple line definition) ∧
    ((classifyLine line).length = 2 ↔
      ∃ named announced : LineDefinition, named.Couple line announced) ∧
    ∀ definition ∈ classifyLine line,
      definition.construct ∈ [Construct.labelColon, .assignment] → classifyLine line = [definition] := by
  have few := length_classifyLine_le line
  refine ⟨few, fun _ _ => coupled_of_classifyLine, length_classifyLine_eq_two_iff,
    fun definition member alone => ?_⟩
  match defined : classifyLine line, few, member with
  | [single], _, member => rw [List.mem_singleton.mp member]
  | [first, second], _, member =>
    have apart := (coupled_of_classifyLine defined).construct_ne alone
    rcases List.mem_pair.mp member with rfl | rfl
    · exact absurd rfl apart.1
    · exact absurd rfl apart.2

/-- A keyword in capitals, a wide space, and a marked name that goes on behind the directive that it
begins with. -/
theorem classifyLine_at_most_two_marked :
    let line := "  LABEL\u3000dw#x? 1".toList
    let label : LineDefinition := ⟨"LABEL", .dataDeclaration, 2, 7⟩
    let word : LineDefinition := ⟨"dw#x?", .labelKeyword, 10, 15⟩
    classifyLine line = [label, word] ∧ (label.Couple line word ∨ word.Couple line label) := by
  intro line label word
  have both : classifyLine line = [label, word] := by decide +kernel
  exact ⟨both, (classifyLine_at_most_two line).2.1 label word both⟩

end AssemblySymbols
