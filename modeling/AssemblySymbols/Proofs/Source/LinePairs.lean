import AssemblySymbols.Proofs.Source.Grammar
import AssemblySymbols.Proofs.Symbol.Search
import Mathlib.Data.List.Nodup
import Mathlib.Data.List.Pairwise

/-! Two names on one line. They are a keyword that a directive follows, and the name that follows this
keyword, as in `define equ 5`. The one ends before the other begins, and they are different names, since
what comes first on the line after the keyword is no other keyword of the same sort. -/
namespace AssemblySymbols

namespace Construct

/-- No keyword belongs to two constructs. -/
theorem nodup_keywords : (withoutColon.flatMap keywords).Nodup := by
  decide +kernel

theorem eq_of_keyword {construct other : Construct} {keyword : String}
    (listed : keyword ∈ construct.keywords) (listed' : keyword ∈ other.keywords) : construct = other := by
  by_contra different
  have among {construct : Construct} (listed : keyword ∈ construct.keywords) :
      construct ∈ withoutColon := by
    cases construct <;> first | decide | contradiction
  have symmetric : Std.Symm (Function.onFun List.Disjoint keywords) := ⟨fun _ _ => List.disjoint_symm⟩
  have apart := (List.nodup_flatMap.mp nodup_keywords).2.forall (among listed) (among listed') different
  exact apart listed listed'

end Construct

theorem Text.Spells.isIdentifier {construct : Construct} {keyword : String} {word : List Char}
    (spelled : Spells word keyword) (listed : keyword ∈ construct.keywords) : IsIdentifier word := by
  obtain ⟨first, rest, rfl⟩ := List.exists_cons_of_ne_nil (spelled.ne_nil listed)
  have letter : ∀ c ∈ first :: rest, isIdentifierStart c = true := fun c member => by
    simp [isIdentifierStart, spelled.letters listed c member]
  exact ⟨first, rest, rfl, letter first List.mem_cons_self,
    fun c member => isIdentifierChar_of_start (letter c (List.mem_cons_of_mem _ member))⟩

namespace Occurrence
variable {found other : Occurrence}

/-- The name ends before the other one begins. -/
def Precedes (found other : Occurrence) : Prop := found.before ++ found.name <+: other.before

/-- There is one first word on a line. -/
theorem First.unique (first : found.First) (first' : other.First) (same : found.text = other.text) :
    found = other :=
  Option.some.inj ((leadingName?_eq_some_iff.mpr ⟨rfl, first⟩).symm.trans
    (leadingName?_eq_some_iff.mpr ⟨same, first'⟩))

end Occurrence

theorem not_startsWithAssignment {name : List Char} (identifier : IsIdentifier name) (rest : List Char) :
    startsWithAssignment (name ++ rest) = false := by
  obtain ⟨first, others, rfl, start, -⟩ := identifier
  rw [List.cons_append]
  unfold startsWithAssignment
  split
  · next cut =>
    cases (List.cons_eq_cons.mp cut).1
    contradiction
  · next cut =>
    cases (List.cons_eq_cons.mp cut).1
    contradiction
  · rfl

/-- An assignment operator has no letters. -/
theorem headWord_of_assignment {text : List Char}
    (assigns : startsWithAssignment (text.dropWhile Text.isBlank) = true) : headWord text = [] := by
  obtain ⟨operator, listed, rest, cut⟩ := startsWithAssignment_iff.mp assigns
  rw [headWord, cut]
  simp only [List.mem_cons, List.not_mem_nil, or_false] at listed
  rcases listed with rfl | rfl | rfl <;> rfl

theorem headWord_of_startsWithKeyword {construct : Construct} {text : List Char}
    (starts : startsWithKeyword construct.keywords text = true) :
    ∃ keyword ∈ construct.keywords, headWord text = keyword.toList := by
  obtain ⟨keyword, listed, gap, word, rest, rfl, -, blank, spelled, boundary⟩ :=
    startsWithKeyword_iff.mp starts
  refine ⟨keyword, listed, headWord_eq listed blank spelled fun c next => ?_⟩
  obtain ⟨others, rfl⟩ := List.head?_eq_some_iff.mp next
  have ended : Text.isWord c = false := by
    simpa [Text.atWordEnd] using (spelled.wordBoundary_iff listed).mp boundary
  by_contra letter
  rw [Text.isWord_of_isAlpha (Bool.not_eq_false _ ▸ letter)] at ended
  contradiction

theorem isMarked_of_letters {name : List Char} (letters : ∀ c ∈ name, c.isAlpha = true) :
    isMarked name = false := by
  have unmarked : name.getLast? ≠ some '?' := by
    intro last
    have letter := letters '?' (List.mem_of_getLast? last)
    contradiction
  rw [isMarked, beq_eq_false_iff_ne.mpr unmarked, Bool.false_and]

namespace Construct
variable {construct other : Construct} {found found' : Occurrence}

/-- What follows a first name for the construct to find it. -/
def Follows (construct : Construct) (text : List Char) : Prop :=
  startsWithKeyword construct.keywords text = true ∨
    construct = assignment ∧ startsWithAssignment (text.dropWhile Text.isBlank) = true

theorem Follows.unique {text : List Char} (follows : construct.Follows text)
    (follows' : other.Follows text) : construct = other := by
  have apart {construct : Construct} (starts : startsWithKeyword construct.keywords text = true)
      (assigns : startsWithAssignment (text.dropWhile Text.isBlank) = true) : False := by
    obtain ⟨keyword, listed, word⟩ := headWord_of_startsWithKeyword starts
    exact (letters listed).1 (word.symm.trans (headWord_of_assignment assigns))
  rcases follows with starts | ⟨rfl, assigns⟩ <;> rcases follows' with starts' | ⟨rfl, assigns'⟩
  · obtain ⟨keyword, listed, word⟩ := headWord_of_startsWithKeyword starts
    obtain ⟨keyword', listed', word'⟩ := headWord_of_startsWithKeyword starts'
    cases String.toList_injective (word.symm.trans word')
    exact eq_of_keyword listed listed'
  · exact (apart starts assigns').elim
  · exact (apart starts' assigns).elim
  · rfl

/-- The line begins with a keyword of the construct, and the name follows it. -/
structure Directs (construct : Construct) (first found : Occurrence) : Prop where
  leads : first.First
  same : first.text = found.text
  keyword : ∃ keyword ∈ construct.keywords, Text.Spells first.name keyword
  precedes : first.Precedes found
  follows : first.after.dropWhile Text.isBlank = found.name ++ found.after
  identifier : IsIdentifier found.name
  ends : ∀ c, found.after.head? = some c → isIdentifierChar c = false

/-- The two ways in which a line without a label defines a name. -/
theorem Derives.cases_of_plain (derives : construct.Derives found) (plain : construct ≠ labelColon) :
    (found.First ∧ construct.Follows found.after ∧ construct.leading = []) ∨
      ∃ first, construct.Directs first found ∧ construct.leading = construct.keywords := by
  have directs (all : construct.leading = construct.keywords) (some : construct.keywords ≠ []) :
      ∃ first, construct.Directs first found ∧ construct.leading = construct.keywords := by
    obtain ⟨keyword, listed, read⟩ := (derives_ahead_iff all some).mp derives
    obtain ⟨before, word, gap, front, -, blank, spelled, apart, gapBlank, identifier, ends⟩ :=
      (nameAfterKeyword?_eq_some_iff listed).mp read
    obtain ⟨space, spaces, rfl⟩ := List.exists_cons_of_ne_nil apart
    refine ⟨⟨before, word, space :: spaces ++ (found.name ++ found.after)⟩,
      ⟨⟨blank, spelled.isIdentifier listed, ?_⟩, ?_, ⟨keyword, listed, spelled⟩, ⟨_, front.symm⟩,
      (takeWhile_boundary gapBlank (identifier.not_blank _)).2, identifier, ends⟩, all⟩
    · rintro c ⟨⟩
      exact not_identifierChar_of_blank (gapBlank space List.mem_cons_self)
    · simp only [Occurrence.text, front, List.append_assoc]
  cases construct with
  | labelColon => contradiction
  | dataDeclaration | equate =>
    obtain ⟨first, starts⟩ := (derives_behind_iff rfl (by decide)).mp derives
    exact .inl ⟨first, .inl starts, rfl⟩
  | assignment =>
    obtain ⟨first, assigns⟩ := derives_assignment_iff.mp derives
    exact .inl ⟨first, .inr ⟨rfl, assigns⟩, rfl⟩
  | labelKeyword | elementKeyword | defineKeyword | macroKeyword | loadKeyword =>
    exact .inr (directs rfl (by decide))

/-- One construct takes the first word of a line for its name, the other one for its keyword. -/
structure Shares (construct other : Construct) (first found : Occurrence) : Prop where
  follows : construct.Follows first.after
  behind : construct.leading = []
  directs : other.Directs first found
  ahead : other.leading = other.keywords

/-- Two constructs that derive the same line, which is no label, share its first word. -/
theorem Derives.shares (derives : construct.Derives found) (derives' : other.Derives found')
    (same : found.text = found'.text) (plain : construct ≠ labelColon) (plain' : other ≠ labelColon)
    (different : construct ≠ other) :
    Shares construct other found found' ∨ Shares other construct found' found := by
  rcases derives.cases_of_plain plain with ⟨first, follows, behind⟩ | ⟨first, directs, ahead⟩ <;>
  rcases derives'.cases_of_plain plain' with ⟨first', follows', behind'⟩ | ⟨first', directs', ahead'⟩
  · cases first.unique first' same
    exact absurd (follows.unique follows') different
  · cases first.unique directs'.leads (same.trans directs'.same.symm)
    exact .inl ⟨follows, behind, directs', ahead'⟩
  · cases first'.unique directs.leads (same.symm.trans directs.same.symm)
    exact .inr ⟨follows', behind', directs, ahead⟩
  · cases directs.leads.unique directs'.leads (directs.same.trans (same.trans directs'.same.symm))
    obtain ⟨keyword, listed, spelled⟩ := directs.keyword
    obtain ⟨keyword', listed', spelled'⟩ := directs'.keyword
    cases String.toList_injective (spelled.symm.trans spelled')
    exact absurd (eq_of_keyword listed listed') different

/-- Two definitions of a line: one name ends before the other begins, and they are kept apart. -/
structure Apart (construct other : Construct) (found found' : Occurrence) : Prop where
  order : found.Precedes found' ∨ found'.Precedes found
  targets : targetOf? construct.kind (String.ofList found.name) ≠
    targetOf? other.kind (String.ofList found'.name)

theorem Apart.symm (apart : Apart construct other found found') : Apart other construct found' found :=
  ⟨apart.order.symm, apart.targets.symm⟩

/-- Behind a keyword there is a name, so no assignment operator. -/
theorem Directs.starts {first : Occurrence} (directs : other.Directs first found)
    (follows : construct.Follows first.after) : startsWithKeyword construct.keywords first.after = true := by
  refine follows.resolve_right fun ⟨_, assigns⟩ => ?_
  rw [directs.follows, not_startsWithAssignment directs.identifier] at assigns
  contradiction

/-- A keyword can be a name itself if another keyword follows it. -/
theorem Directs.apart {first : Occurrence} (directs : other.Directs first found')
    (follows : construct.Follows first.after) (different : construct ≠ other) :
    Apart construct other first found' := by
  refine ⟨.inl directs.precedes, fun same => different ?_⟩
  have starts := directs.starts follows
  obtain ⟨keyword, listed, spelled⟩ := directs.keyword
  have letters := spelled.letters listed
  have unmarked : isMarked first.name = false := isMarked_of_letters letters
  have identifier : IsIdentifier (String.ofList first.name).toList := by
    rw [String.toList_ofList]
    exact directs.leads.identifier
  have identifier' : IsIdentifier (String.ofList found'.name).toList := by
    rw [String.toList_ofList]
    exact directs.identifier
  rw [targetOf?_of_isIdentifier _ identifier, targetOf?_of_isIdentifier _ identifier',
    String.toList_ofList, String.toList_ofList, unmarked, if_neg Bool.false_ne_true] at same
  -- a marked name is kept elsewhere, so the name after the keyword can only be the keyword again
  have again : found'.name = first.name := by
    cases marked : isMarked found'.name with
    | true => simp [marked] at same
    | false =>
      have both : construct.kind = other.kind ∧ String.ofList first.name = String.ofList found'.name := by
        simpa [marked] using same
      exact (String.ofList_injective both.2).symm
  obtain ⟨keyword', listed', word⟩ := headWord_of_startsWithKeyword starts
  have spelled' : headWord first.after = keyword.toList := by
    rw [headWord, directs.follows, again, (takeWhile_boundary letters fun c next =>
      not_isAlpha_of_not_identifierChar (directs.ends c next)).1]
    exact spelled
  cases String.toList_injective (word.symm.trans spelled')
  exact eq_of_keyword listed' listed

/-- Two constructs that derive the same line, which is no label. -/
theorem Derives.apart (derives : construct.Derives found) (derives' : other.Derives found')
    (same : found.text = found'.text) (plain : construct ≠ labelColon) (plain' : other ≠ labelColon)
    (different : construct ≠ other) : Apart construct other found found' := by
  rcases derives.shares derives' same plain plain' different with shares | shares
  · exact shares.directs.apart shares.follows different
  · exact (shares.directs.apart shares.follows different.symm).symm

end Construct

/-- The definitions of a line start at different columns and go to different keys. -/
structure LineDefinition.Apart (line : List Char) (definition other : LineDefinition) : Prop where
  columns : Text.utf16Length line < UInt32.size →
    Text.utf16Column line definition.start ≠ Text.utf16Column line other.start
  targets : targetOf? definition.kind definition.name ≠ targetOf? other.kind other.name

theorem IsIdentifier.utf16Length_pos {text : List Char} (identifier : IsIdentifier text) :
    0 < Text.utf16Length text := by
  obtain ⟨first, rest, rfl, -⟩ := identifier
  exact Nat.add_pos_left (Text.utf16Units_pos first) _

namespace Occurrence
variable {found other : Occurrence}

theorem utf16Column_definition (found : Occurrence) (construct : Construct) :
    Text.utf16Column found.text (found.definition construct).start =
      (Text.utf16Length found.before).toUInt32 := by
  rw [definition, Text.length_encode, text, List.append_assoc, Text.utf16Column_append]

theorem Precedes.lt (precedes : found.Precedes other) (identifier : IsIdentifier found.name) :
    Text.utf16Length found.before < Text.utf16Length other.before := by
  obtain ⟨gap, cut⟩ := precedes
  have wide := identifier.utf16Length_pos
  rw [← cut, Text.utf16Length_append, Text.utf16Length_append]
  omega

end Occurrence

theorem Construct.apart_of_define {construct other : Construct} {line : List Char}
    {definition definition' : LineDefinition} (defined : construct.define? line = some definition)
    (defined' : other.define? line = some definition') (plain : construct ≠ labelColon)
    (plain' : other ≠ labelColon) (different : construct ≠ other) : definition.Apart line definition' := by
  obtain ⟨found, rfl, derives, rfl⟩ := define?_eq_some_iff.mp defined
  obtain ⟨found', same, derives', rfl⟩ := define?_eq_some_iff.mp defined'
  obtain ⟨order, targets⟩ := derives.apart derives' same plain plain' different
  refine ⟨fun short => ?_, targets⟩
  have within (found : Occurrence) : Text.utf16Length found.before ≤ Text.utf16Length found.text := by
    rw [Occurrence.text, Text.utf16Length_append, Text.utf16Length_append]
    omega
  have inside := within found
  have inside' := same ▸ within found'
  rw [found.utf16Column_definition, same, found'.utf16Column_definition]
  intro equal
  have columns := congrArg UInt32.toNat equal
  rw [UInt32.toNat_ofNat_of_lt' (by omega), UInt32.toNat_ofNat_of_lt' (by omega)] at columns
  rcases order with before | behind
  · exact absurd columns (before.lt derives.identifier).ne
  · exact absurd columns (behind.lt derives'.identifier).ne'

/-- What holds of any two constructs that define names on the line holds of its definitions. -/
theorem classifyLine_pairwise {related : LineDefinition → LineDefinition → Prop} (line : List Char)
    (pairs : ∀ {construct other : Construct} {definition definition' : LineDefinition},
      construct.define? line = some definition → other.define? line = some definition' →
      construct ≠ .labelColon → other ≠ .labelColon → construct ≠ other → related definition definition') :
    (classifyLine line).Pairwise related := by
  cases label : Construct.labelColon.define? line with
  | some definition =>
    rw [classifyLine_of_label label]
    exact List.pairwise_singleton ..
  | none =>
    rw [classifyLine_of_no_label label, List.pairwise_filterMap]
    have distinct : Construct.withoutColon.Nodup := by decide
    refine distinct.imp_of_mem fun {construct other} listed listed' different => ?_
    intro definition defined definition' defined'
    exact pairs defined defined' (Construct.mem_withoutColon.mp listed)
      (Construct.mem_withoutColon.mp listed') different

theorem classifyLine_apart (line : List Char) : (classifyLine line).Pairwise (LineDefinition.Apart line) :=
  classifyLine_pairwise line Construct.apart_of_define

end AssemblySymbols
