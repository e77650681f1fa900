import AssemblySymbols.Proofs.Source.IndexedSearch
import AssemblySymbols.Proofs.Source.Occurrences

/-! Which runs the cursor answers for. In front of a character and at the end of a line it is the run that
it touches. Inside a pair of units and behind the line, where the cursor touches nothing, it is still the
run that ends before it. All of this is said of lines whose columns fit into 32 bits. On a longer line the
columns start over, and the cursor answers for what stands where they have done so. -/
namespace AssemblySymbols

namespace Occurrence
variable {found : Occurrence} {line before after : List Char} {column : Nat}

theorem toNat_identifier (cut : line = found.before ++ found.name ++ found.after)
    (short : Text.utf16Length line < UInt32.size) :
    found.identifier.start.toNat = found.startColumn ∧
      found.identifier.stop.toNat = found.stopColumn := by
  have begins : found.before <+: line := ⟨_, by rw [cut, List.append_assoc]⟩
  have goes : found.before ++ found.name <+: line := ⟨_, cut.symm⟩
  exact ⟨Text.toNat_utf16Length begins short, Text.toNat_utf16Length goes short⟩

theorem IsRun.isolated (run : found.IsRun line)
    (start : found.name.head?.any isIdentifierStart = true) : found.Isolated line := by
  obtain ⟨first, rest, spelled⟩ := List.exists_cons_of_ne_nil run.solid
  rw [spelled] at start
  have inside : ∀ c ∈ rest, isIdentifierChar c = true := fun c member =>
    run.inside c (spelled ▸ List.mem_cons_of_mem _ member)
  exact ⟨run.cut, ⟨first, rest, spelled, start, inside⟩, run.begins, run.ends⟩

theorem Isolated.identifier?_eq (isolated : found.Isolated line) :
    found.identifier? = some found.identifier := by
  obtain ⟨first, rest, spelled, start, -⟩ := isolated.identifier
  exact if_pos (by rw [spelled]; exact start)

theorem IsRun.head_iff (run : found.IsRun line) :
    found.name.head?.any isIdentifierStart = true ↔
      ∀ c, found.name.head? = some c → c.isDigit = false ∧ c ≠ '#' := by
  obtain ⟨first, rest, spelled⟩ := List.exists_cons_of_ne_nil run.solid
  have inside := run.inside first (spelled ▸ List.mem_cons_self)
  rw [spelled, List.head?_cons, Option.any_some, isIdentifierStart_iff inside]
  exact ⟨fun first c same => Option.some.inj same ▸ first, fun all => all first rfl⟩

/-- The run that a cursor between the two parts of a line stands for: the one that the character behind it
belongs to, or if that is not an identifier character or there is none, the one that ends there. -/
structure PickedAt (found : Occurrence) (before after : List Char) : Prop where
  run : found.IsRun (before ++ after)
  place : if after.head?.any isIdentifierChar then
      found.startColumn ≤ Text.utf16Length before ∧ Text.utf16Length before < found.stopColumn
    else found.stopColumn = Text.utf16Length before

theorem PickedAt.touches (picked : found.PickedAt before after) :
    found.startColumn ≤ Text.utf16Length before ∧ Text.utf16Length before ≤ found.stopColumn := by
  have place := picked.place
  have ordered := found.startColumn_le_stopColumn
  split at place
  · exact ⟨place.1, Nat.le_of_lt place.2⟩
  · omega

theorem PickedAt.eq_around (picked : found.PickedAt before after) : found = around before after :=
  picked.run.eq_around (cutAt_utf16Length before after) picked.touches.1 picked.touches.2

theorem pickedAt_around (solid : (around before after).name ≠ []) :
    (around before after).PickedAt before after where
  run := isRun_around solid
  place := by
    have start := startColumn_around_le before after
    have stop := stopColumn_around before after
    cases after with
    | nil => exact stop
    | cons c rest =>
      by_cases inside : isIdentifierChar c = true
      · have wide := Text.utf16Units_pos c
        rw [List.takeWhile_cons, if_pos inside, Text.utf16Length] at stop
        rw [List.head?_cons, Option.any_some, if_pos inside]
        exact ⟨start, by omega⟩
      · rw [List.takeWhile_cons, if_neg inside] at stop
        rw [List.head?_cons, Option.any_some, if_neg inside]
        exact stop

end Occurrence

/-- A character of the line starts at the column, or the line ends there. -/
def OnBoundary (line : List Char) (column : Nat) : Prop :=
  ∃ front, front <+: line ∧ Text.utf16Length front = column

namespace CutAt
variable {line before after : List Char} {column : Nat}

theorem onBoundary_iff (cutAt : CutAt line column before after) :
    OnBoundary line column ↔ Text.utf16Length before = column := by
  constructor
  · rintro ⟨front, begins, rfl⟩
    obtain ⟨more, rfl⟩ := cutAt.prefix_of_le begins (Nat.le_refl _)
    have above := cutAt.above
    rw [Text.utf16Length_append] at above ⊢
    omega
  · exact fun here => ⟨before, ⟨after, cutAt.cut.symm⟩, here⟩

/-- An identifier character is not wide enough for a column inside of it. -/
theorem takeWhile_eq_nil (cutAt : CutAt line column before after)
    (behind : Text.utf16Length before < column) : after.takeWhile isIdentifierChar = [] := by
  cases after with
  | nil => rfl
  | cons c rest =>
    rw [List.takeWhile_cons, if_neg]
    intro inside
    have below := cutAt.below c rfl
    rw [utf16Units_of_identifierChar inside] at below
    omega

/-- What is found around the cut touches the cursor only if the cursor is at the cut. -/
theorem touches_iff (cutAt : CutAt line column before after) :
    column ≤ (Occurrence.around before after).stopColumn ↔ OnBoundary line column := by
  rw [cutAt.onBoundary_iff, Occurrence.stopColumn_around]
  have above := cutAt.above
  constructor
  · intro within
    by_contra apart
    rw [cutAt.takeWhile_eq_nil (by omega), Text.utf16Length] at within
    omega
  · omega

end CutAt

/-- An answer is for an identifier that stands on the line as a whole. -/
theorem LastCut.isolated_of_answer {line before after : List Char} {column : UInt32}
    {identifier : Identifier} (lastCut : LastCut line column before after)
    (answered : identifierAt? line column = some identifier) :
    (Occurrence.around before after).Isolated line ∧
      identifier = (Occurrence.around before after).identifier := by
  rw [lastCut.identifierAt?_eq, Occurrence.identifier?] at answered
  split at answered
  · next start =>
    have solid : (Occurrence.around before after).name ≠ [] := by
      intro none
      rw [none] at start
      contradiction
    have run := Occurrence.isRun_around solid
    rw [← lastCut.cut] at run
    exact ⟨run.isolated start, (Option.some.inj answered).symm⟩
  · contradiction

/-- The search by way of indexes stays within its arrays on every line and wherever the cursor is. If the
columns of the line fit into 32 bits, then at the start of each character and at the end of the line the
cursor answers for one run: that of the character, if it is an identifier character, or else the one that
ends there. If there is one and it does not begin with a digit or a hash, the answer is its text with its
columns, between which the cursor is; if there is none or it does, there is no answer. From all columns of
the run but its end the answer is the same. -/
theorem identifierAt?_eq_run {before after : List Char} {column : UInt32}
    (here : Text.utf16Length before = column.toNat) :
    let line := before ++ after
    (∀ other, IndexedSearch.identifierAt line other = .ok (identifierAt? line other)) ∧
    (Text.utf16Length line < UInt32.size →
      (∀ identifier, identifierAt? line column = some identifier ↔
        ∃ found : Occurrence, found.PickedAt before after ∧
          (∀ c, found.name.head? = some c → c.isDigit = false ∧ c ≠ '#') ∧
          identifier =
            ⟨String.ofList found.name, found.startColumn.toUInt32, found.stopColumn.toUInt32⟩) ∧
      (∀ found : Occurrence, found.PickedAt before after →
        (∀ other : Occurrence, other.PickedAt before after → other = found) ∧
        found.startColumn ≤ column.toNat ∧ column.toNat ≤ found.stopColumn ∧
        ∀ other : UInt32, found.startColumn ≤ other.toNat → other.toNat < found.stopColumn →
          identifierAt? line other = identifierAt? line column) ∧
      ∀ identifier, identifierAt? line column = some identifier →
        identifier.start ≤ column ∧ column ≤ identifier.stop) := by
  intro line
  refine ⟨IndexedSearch.identifierAt_eq line, fun short => ?_⟩
  have cutAt : CutAt line column.toNat before after := here ▸ cutAt_utf16Length before after
  have lastCut := (lastCut_iff short).mpr cutAt
  have picks (identifier : Identifier) : identifierAt? line column = some identifier ↔
      ∃ found : Occurrence, found.PickedAt before after ∧
        (∀ c, found.name.head? = some c → c.isDigit = false ∧ c ≠ '#') ∧
        identifier = found.identifier := by
    constructor
    · intro answered
      obtain ⟨isolated, rfl⟩ := lastCut.isolated_of_answer answered
      have picked := Occurrence.pickedAt_around isolated.identifier.ne_nil
      obtain ⟨first, rest, spelled, start, -⟩ := isolated.identifier
      exact ⟨_, picked, picked.run.head_iff.mp (by rw [spelled]; exact start), rfl⟩
    · rintro ⟨found, picked, head, rfl⟩
      rw [lastCut.identifierAt?_eq, ← picked.eq_around]
      exact if_pos (picked.run.head_iff.mpr head)
  refine ⟨picks, fun found picked => ⟨fun other again => ?_, ?_, ?_, fun other above below => ?_⟩,
    fun identifier answered => ?_⟩
  · rw [again.eq_around, picked.eq_around]
  · exact here ▸ picked.touches.1
  · exact here ▸ picked.touches.2
  · rw [picked.run.identifierAt?_eq short above (Nat.le_of_lt below),
      picked.run.identifierAt?_eq short (here ▸ picked.touches.1) (here ▸ picked.touches.2)]
  · obtain ⟨found, picked, -, rfl⟩ := (picks identifier).mp answered
    obtain ⟨above, below⟩ := picked.touches
    obtain ⟨start, stop⟩ := Occurrence.toNat_identifier picked.run.cut short
    rw [UInt32.le_iff_toNat_le, UInt32.le_iff_toNat_le, start, stop, ← here]
    exact ⟨above, below⟩

/-- Behind a wide character and in front of the dot of a name that holds a hash and a marker. -/
theorem identifierAt?_eq_run_wide :
    Text.utf16Length "'😀'+a#".toList = (7 : UInt32).toNat ∧
    identifierAt? "'😀'+a#.b?1 c".toList 7 = some ⟨"a#.b?1", 5, 11⟩ ∧
    identifierAt? "'😀'+a#.b?1 c".toList 10 = some ⟨"a#.b?1", 5, 11⟩ ∧
    IndexedSearch.identifierAt "'😀'+a#.b?1 c".toList 7 = .ok (some ⟨"a#.b?1", 5, 11⟩) := by
  have here : Text.utf16Length "'😀'+a#".toList = (7 : UInt32).toNat := by decide +kernel
  let found : Occurrence := ⟨"'😀'+".toList, "a#.b?1".toList, " c".toList⟩
  have picked : found.PickedAt "'😀'+a#".toList ".b?1 c".toList := by
    have inside : found.name.all isIdentifierChar = true := by decide +kernel
    refine ⟨⟨by decide +kernel, by decide +kernel, List.all_eq_true.mp inside, ?_, ?_⟩,
      by decide +kernel⟩
    · rintro c last
      cases last
      decide
    · rintro c next
      cases next
      decide
  obtain ⟨searched, short⟩ := @identifierAt?_eq_run _ ".b?1 c".toList _ here
  obtain ⟨answers, runs, -⟩ := short (by decide +kernel)
  have answered := (answers ⟨"a#.b?1", 5, 11⟩).mpr
    ⟨found, picked, fun c first => by cases first; decide, by decide +kernel⟩
  have same := (runs found picked).2.2.2 10 (by decide +kernel) (by decide +kernel)
  exact ⟨here, answered, same.trans answered,
    (searched 7).trans (congrArg Except.ok answered)⟩

/-- A cursor at column zero finds the run at which the columns start over. -/
theorem Occurrence.IsRun.identifierAt?_of_wrapped {found : Occurrence} {line : List Char}
    (run : found.IsRun line) (wrapped : found.startColumn.toUInt32 = 0)
    (short : Text.utf16Length (found.name ++ found.after) < UInt32.size) :
    identifierAt? line 0 = found.identifier? := by
  have cut : line = found.before ++ (found.name ++ found.after) := by
    rw [run.cut, List.append_assoc]
  have lastCut : LastCut line 0 found.before (found.name ++ found.after) := by
    refine ⟨cut, wrapped ▸ UInt32.le_refl _, fun front begins solid => ?_⟩
    rw [Text.toUInt32_utf16Length_append]
    rw [startColumn] at wrapped
    rw [wrapped, UInt32.zero_add, UInt32.lt_iff_toNat_lt, Text.toNat_utf16Length begins short]
    exact Text.utf16Length_pos solid
  have cutAt := cutAt_utf16Length found.before (found.name ++ found.after)
  rw [← cut] at cutAt
  rw [lastCut.identifierAt?_eq,
    ← run.eq_around cutAt (Nat.le_refl _) found.startColumn_le_stopColumn]

theorem Occurrence.isRun_singleton {before after : List Char} {c : Char}
    (inside : isIdentifierChar c = true)
    (begins : ∀ last, before.getLast? = some last → isIdentifierChar last = false)
    (ends : ∀ next, after.head? = some next → isIdentifierChar next = false) :
    (⟨before, [c], after⟩ : Occurrence).IsRun (before ++ [c] ++ after) :=
  ⟨rfl, List.cons_ne_nil c [], fun _ member => List.mem_singleton.mp member ▸ inside, begins, ends⟩

/-- With 2^32 units before it the second name has the column of the first. In front of the first it is the
second that is found. -/
theorem identifierAt?_wraps :
    let spaces := List.replicate (UInt32.size - 1) ' '
    let line := 'a' :: (spaces ++ ['b'])
    Text.utf16Length [] = (0 : UInt32).toNat ∧
    (⟨[], ['a'], spaces ++ ['b']⟩ : Occurrence).PickedAt [] line ∧
    identifierAt? line 0 = some ⟨"b", 0, 1⟩ ∧
    IndexedSearch.identifierAt line 0 = .ok (some ⟨"b", 0, 1⟩) ∧
    ¬ ∀ identifier, identifierAt? line 0 = some identifier ↔
      ∃ found : Occurrence, found.PickedAt [] line ∧
        (∀ c, found.name.head? = some c → c.isDigit = false ∧ c ≠ '#') ∧
        identifier =
          ⟨String.ofList found.name, found.startColumn.toUInt32, found.stopColumn.toUInt32⟩ := by
  -- The number of spaces stays a variable, since nothing may count them out.
  obtain ⟨count, size⟩ : ∃ count, UInt32.size - 1 = count + 1 := ⟨UInt32.size - 2, rfl⟩
  rw [size]
  intro spaces line
  have opens : spaces = ' ' :: List.replicate count ' ' := List.replicate_succ
  have closes : spaces = List.replicate count ' ' ++ [' '] := List.replicate_succ'
  let first : Occurrence := ⟨[], ['a'], spaces ++ ['b']⟩
  let second : Occurrence := ⟨'a' :: spaces, ['b'], []⟩
  have picked : first.PickedAt [] line := by
    refine ⟨Occurrence.isRun_singleton (by decide) nofun fun next follows => ?_,
      Nat.le_refl _, Nat.zero_lt_one⟩
    rw [opens, List.cons_append, List.head?_cons] at follows
    cases follows
    decide
  have run : second.IsRun line := by
    have alone : second.IsRun ('a' :: spaces ++ ['b'] ++ []) := by
      refine Occurrence.isRun_singleton (by decide) (fun last before => ?_) nofun
      rw [closes, ← List.cons_append, List.getLast?_concat] at before
      cases before
      decide
    rwa [List.append_nil] at alone
  have length : second.startColumn = UInt32.size := by
    have blank : Text.utf16Units ' ' = 1 := by decide
    have letter : Text.utf16Units 'a' = 1 := by decide
    rw [Occurrence.startColumn, Text.utf16Length, Text.utf16Length_replicate, blank, letter,
      Nat.mul_one, ← size]
    exact Nat.add_sub_of_le (Nat.zero_lt_succ _)
  have wrapped : second.startColumn.toUInt32 = 0 := length ▸ rfl
  have stop : second.stopColumn.toUInt32 = 1 := by
    rw [Occurrence.startColumn] at wrapped
    rw [Occurrence.stopColumn, Text.toUInt32_utf16Length_append, wrapped]
    rfl
  have short : Text.utf16Length ['b'] < UInt32.size := by decide
  have start : isIdentifierStart 'b' = true := by decide
  have answered : identifierAt? line 0 = some ⟨"b", 0, 1⟩ := by
    rw [run.identifierAt?_of_wrapped wrapped short, Occurrence.identifier?, Occurrence.identifier,
      wrapped, stop]
    exact if_pos start
  have searched := (IndexedSearch.identifierAt_eq line 0).trans (congrArg Except.ok answered)
  refine ⟨rfl, picked, answered, searched, fun all => ?_⟩
  have expected := (all ⟨"a", 0, 1⟩).mpr ⟨first, picked, fun c head => by cases head; decide, rfl⟩
  rw [answered] at expected
  exact absurd expected (by decide)

/-- An answer is for an identifier that stands on the line as a whole. If the columns of the line fit into
32 bits, it begins at or before the cursor, and it touches the cursor exactly if a character starts at the
column or the line ends there. At the columns inside of a pair of units and behind the line, where none can
be touched, there is still an answer exactly if an identifier ends right before the character or at the end
of the line. -/
theorem identifierAt?_touches_iff (line : List Char) (column : UInt32) :
    (∀ identifier, identifierAt? line column = some identifier →
      ∃ found : Occurrence, found.Isolated line ∧
        identifier =
          ⟨String.ofList found.name, found.startColumn.toUInt32, found.stopColumn.toUInt32⟩ ∧
        (Text.utf16Length line < UInt32.size →
          found.startColumn ≤ column.toNat ∧
          (column.toNat ≤ found.stopColumn ↔ OnBoundary line column.toNat))) ∧
    (Text.utf16Length line < UInt32.size → ¬ OnBoundary line column.toNat →
      ((identifierAt? line column).isSome ↔
        ∃ found : Occurrence, found.Isolated line ∧ found.stopColumn < column.toNat ∧
          ∀ c, found.after.head? = some c →
            column.toNat < found.stopColumn + Text.utf16Units c)) ∧
    (Text.utf16Length line < UInt32.size →
      ∀ identifier, identifierAt? line column = some identifier →
        identifier.start ≤ column ∧
        (column ≤ identifier.stop ↔ OnBoundary line column.toNat)) := by
  obtain ⟨before, after, lastCut⟩ := exists_lastCut line column
  have starts := Occurrence.startColumn_around_le before after
  refine ⟨fun identifier answered => ?_, fun short off => ⟨fun answered => ?_, ?_⟩,
    fun short identifier answered => ?_⟩
  · obtain ⟨isolated, same⟩ := lastCut.isolated_of_answer answered
    refine ⟨_, isolated, same, fun short => ?_⟩
    have cutAt := (lastCut_iff short).mp lastCut
    exact ⟨starts.trans cutAt.above, cutAt.touches_iff⟩
  · have cutAt := (lastCut_iff short).mp lastCut
    obtain ⟨identifier, answered⟩ := Option.isSome_iff_exists.mp answered
    obtain ⟨isolated, -⟩ := lastCut.isolated_of_answer answered
    have apart : Text.utf16Length before < column.toNat :=
      Nat.lt_of_le_of_ne cutAt.above (mt cutAt.onBoundary_iff.mpr off)
    have stop := Occurrence.stopColumn_around before after
    rw [cutAt.takeWhile_eq_nil apart, Text.utf16Length, Nat.add_zero] at stop
    refine ⟨_, isolated, stop ▸ apart, fun c next => ?_⟩
    have rest : (Occurrence.around before after).after = after := by
      have split := List.takeWhile_append_dropWhile (p := isIdentifierChar) (l := after)
      rwa [cutAt.takeWhile_eq_nil apart] at split
    rw [rest] at next
    exact stop ▸ cutAt.below c next
  · rintro ⟨found, isolated, behind, ends⟩
    have cutAt : CutAt line column.toNat (found.before ++ found.name) found.after :=
      ⟨isolated.cut, Nat.le_of_lt behind, ends⟩
    have above := found.startColumn_le_stopColumn.trans (Nat.le_of_lt behind)
    rw [((lastCut_iff short).mpr cutAt).identifierAt?_eq,
      ← isolated.isRun.eq_around cutAt above (Nat.le_refl _), isolated.identifier?_eq]
    rfl
  · have cutAt := (lastCut_iff short).mp lastCut
    obtain ⟨isolated, rfl⟩ := lastCut.isolated_of_answer answered
    obtain ⟨start, stop⟩ := Occurrence.toNat_identifier isolated.cut short
    rw [UInt32.le_iff_toNat_le, UInt32.le_iff_toNat_le, start, stop]
    exact ⟨starts.trans cutAt.above, cutAt.touches_iff⟩

/-- Behind a line of one name the cursor touches nothing, and the name is still the answer. -/
theorem identifierAt?_touches_iff_past_end :
    identifierAt? "a".toList 5 = some ⟨"a", 0, 1⟩ ∧ ¬ (5 : UInt32) ≤ 1 ∧
      ¬ OnBoundary "a".toList 5 := by
  have answered : identifierAt? "a".toList 5 = some ⟨"a", 0, 1⟩ := by decide +kernel
  have touches := (identifierAt?_touches_iff "a".toList 5).2.2 (by decide +kernel) _ answered
  have apart : ¬ (5 : UInt32) ≤ 1 := by decide
  exact ⟨answered, apart, mt touches.2.mpr apart⟩

end AssemblySymbols
