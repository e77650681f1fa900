import AssemblySymbols.Proofs.Source.DefinedNames
import AssemblySymbols.Proofs.Text.Columns
import Mathlib.Data.List.Induction

/-! What a cursor finds on a line. It stands at a cut of the line, or behind one that it has not left by
a whole character, and around the cut there is at most one run of identifier characters. Columns are 32
bits wide. Where they fit, the cut is the one that the cursor has reached, and where they start over, it is
the last one whose column is not beyond the cursor. -/
namespace AssemblySymbols

theorem takeWhile_boundary {α : Type} {keep : α → Bool} {word rest : List α}
    (inside : ∀ c ∈ word, keep c = true) (boundary : ∀ c, rest.head? = some c → keep c = false) :
    (word ++ rest).takeWhile keep = word ∧ (word ++ rest).dropWhile keep = rest := by
  rw [List.takeWhile_append_of_pos inside, List.dropWhile_append_of_pos inside]
  cases rest with
  | nil => simp
  | cons c rest => simp [boundary c rfl]

theorem utf16Units_of_identifierChar {c : Char} (inside : isIdentifierChar c = true) :
    Text.utf16Units c = 1 := by
  have bounds := isIdentifierChar_bounds inside
  rw [Text.utf16Units, if_pos (by omega)]

/-- No identifier begins with these. -/
theorem isIdentifierStart_iff {c : Char} (inside : isIdentifierChar c = true) :
    isIdentifierStart c = true ↔ c.isDigit = false ∧ c ≠ '#' := by
  constructor
  · intro start
    refine ⟨?_, fun hash => absurd (hash ▸ start) (by decide)⟩
    by_contra digit
    have bounds : 48 ≤ c.toNat ∧ c.toNat ≤ 57 :=
      Char.isDigit_iff_toNat.mp (Bool.not_eq_false _ ▸ digit)
    have range : ∀ n < 58, 48 ≤ n → isIdentifierStart (Char.ofNat n) = false := by decide
    have none := range c.toNat (by omega) bounds.1
    rw [Char.ofNat_toNat, start] at none
    contradiction
  · rintro ⟨digit, hash⟩
    simpa [isIdentifierChar, digit, hash] using inside

namespace Occurrence

def startColumn (found : Occurrence) : Nat := Text.utf16Length found.before

def stopColumn (found : Occurrence) : Nat := Text.utf16Length (found.before ++ found.name)

/-- What is told of an occurrence, its columns being 32 bits wide. -/
def identifier (found : Occurrence) : Identifier :=
  ⟨String.ofList found.name, found.startColumn.toUInt32, found.stopColumn.toUInt32⟩

/-- The identifier that an occurrence is, if its first character may begin one. -/
def identifier? (found : Occurrence) : Option Identifier :=
  if found.name.head?.any isIdentifierStart then some found.identifier else none

/-- A longest stretch of identifier characters. It is no identifier if it begins with a digit. -/
structure IsRun (found : Occurrence) (line : List Char) : Prop where
  cut : line = found.before ++ found.name ++ found.after
  solid : found.name ≠ []
  inside : ∀ c ∈ found.name, isIdentifierChar c = true
  begins : ∀ c, found.before.getLast? = some c → isIdentifierChar c = false
  ends : ∀ c, found.after.head? = some c → isIdentifierChar c = false

/-- What stands around a cut, as far as there are identifier characters on both sides. -/
def around (before after : List Char) : Occurrence where
  before := (before.reverse.dropWhile isIdentifierChar).reverse
  name := (before.reverse.takeWhile isIdentifierChar).reverse ++ after.takeWhile isIdentifierChar
  after := after.dropWhile isIdentifierChar

end Occurrence

/-- The line is cut at the last of its places whose 32-bit column is not beyond the cursor. -/
structure LastCut (line : List Char) (column : UInt32) (before after : List Char) : Prop where
  cut : line = before ++ after
  above : (Text.utf16Length before).toUInt32 ≤ column
  beyond : ∀ front, front <+: after → front ≠ [] →
    column < (Text.utf16Length (before ++ front)).toUInt32

theorem exists_lastCut (line : List Char) (column : UInt32) :
    ∃ before after, LastCut line column before after := by
  induction line using List.reverseRecOn with
  | nil =>
    exact ⟨[], [], rfl, Nat.zero_le _,
      fun front begins solid => absurd (List.prefix_nil.mp begins) solid⟩
  | append_singleton line c ih =>
    by_cases ended : (Text.utf16Length (line ++ [c])).toUInt32 ≤ column
    · exact ⟨line ++ [c], [], (List.append_nil _).symm, ended,
        fun front begins solid => absurd (List.prefix_nil.mp begins) solid⟩
    · obtain ⟨before, after, cut, above, beyond⟩ := ih
      refine ⟨before, after ++ [c], by rw [cut, List.append_assoc], above,
        fun front begins solid => ?_⟩
      rcases List.prefix_concat_iff.mp begins with rfl | inside
      · rw [← List.append_assoc, ← cut]
        exact UInt32.not_le.mp ended
      · exact beyond front inside solid

/-- No later place replaces the cut once all columns are beyond the cursor. -/
theorem cutAtColumn_of_beyond {column start : UInt32} {rest : List Char}
    (beyond : ∀ front, front <+: rest → column < start + (Text.utf16Length front).toUInt32)
    (passed : List Char) (best : List Char × List Char) :
    cutAtColumn column start passed best rest = best := by
  have here (start : UInt32) (first : column < start + (Text.utf16Length []).toUInt32) :
      ¬ start ≤ column := by
    rwa [Text.toUInt32_utf16Length_nil, UInt32.add_zero, ← UInt32.not_le] at first
  induction rest generalizing start passed best with
  | nil => rw [cutAtColumn, if_neg (here start (beyond [] List.nil_prefix))]
  | cons c rest ih =>
    rw [cutAtColumn, if_neg (here start (beyond [] List.nil_prefix))]
    refine ih (fun front begins => ?_) _ _
    have later := beyond (c :: front) (List.cons_prefix_cons.mpr ⟨rfl, begins⟩)
    rwa [Text.toUInt32_utf16Length_cons, ← UInt32.add_assoc] at later

theorem LastCut.cutAtColumn_eq {line before after : List Char} {column : UInt32}
    (lastCut : LastCut line column before after) (best : List Char × List Char) :
    cutAtColumn column 0 [] best line = (before.reverse, after) := by
  -- By induction on what is left of the part before the cut. No matter what was best until then, the cut
  -- itself is taken, and behind it nothing is.
  suffices general : ∀ (left passed : List Char) (best : List Char × List Char),
      before = passed ++ left →
      cutAtColumn column (Text.utf16Length passed).toUInt32 passed.reverse best (left ++ after) =
        (before.reverse, after) by
    rw [lastCut.cut]
    exact general before [] best rfl
  intro left
  induction left with
  | nil =>
    intro passed best whole
    rw [List.append_nil] at whole
    subst whole
    cases rest : after with
    | nil => rw [List.nil_append, cutAtColumn, if_pos lastCut.above]
    | cons c more =>
      rw [List.nil_append, cutAtColumn, if_pos lastCut.above]
      refine cutAtColumn_of_beyond (fun front begins => ?_) _ _
      have := lastCut.beyond (c :: front) (rest ▸ List.cons_prefix_cons.mpr ⟨rfl, begins⟩)
        (List.cons_ne_nil c front)
      rwa [Text.toUInt32_utf16Length_append, Text.toUInt32_utf16Length_cons, ← UInt32.add_assoc]
        at this
  | cons c left ih =>
    intro passed best whole
    have further : (Text.utf16Length passed).toUInt32 + (Text.utf16Units c).toUInt32 =
        (Text.utf16Length (passed ++ [c])).toUInt32 := by
      rw [Text.toUInt32_utf16Length_append, Text.toUInt32_utf16Length_cons,
        Text.toUInt32_utf16Length_nil, UInt32.add_zero]
    have nearest : c :: passed.reverse = (passed ++ [c]).reverse := (List.reverse_concat ..).symm
    rw [List.cons_append, cutAtColumn, further, nearest]
    exact ih _ _ (by rw [whole, List.append_assoc, List.singleton_append])

/-- The line is cut in front of the character that reaches over the column, or at its end. -/
structure CutAt (line : List Char) (column : Nat) (before after : List Char) : Prop where
  cut : line = before ++ after
  above : Text.utf16Length before ≤ column
  below : ∀ c, after.head? = some c → column < Text.utf16Length before + Text.utf16Units c

theorem cutAt_utf16Length (before after : List Char) :
    CutAt (before ++ after) (Text.utf16Length before) before after :=
  ⟨rfl, Nat.le_refl _, fun c _ => Nat.lt_add_of_pos_right (Text.utf16Units_pos c)⟩

namespace CutAt
variable {line before after front : List Char} {column : Nat}

/-- The part in front of the cut is the longest that does not reach beyond the column. -/
theorem prefix_of_le (cutAt : CutAt line column before after) (begins : front <+: line)
    (within : Text.utf16Length front ≤ column) : front <+: before := by
  have cut : before <+: line := ⟨after, cutAt.cut.symm⟩
  rcases List.prefix_or_prefix_of_prefix begins cut with shorter | ⟨more, rfl⟩
  · exact shorter
  · rw [cutAt.cut, List.prefix_append_right_inj] at begins
    cases more with
    | nil => exact (List.append_nil before).symm ▸ List.prefix_rfl
    | cons c more =>
      obtain ⟨rest, same⟩ := begins
      have beyond := cutAt.below c (same ▸ rfl)
      rw [Text.utf16Length_append, Text.utf16Length] at within
      omega

end CutAt

/-- On a line whose columns fit, the last cut is the one that the cursor has reached. -/
theorem lastCut_iff {line before after : List Char} {column : UInt32}
    (short : Text.utf16Length line < UInt32.size) :
    LastCut line column before after ↔ CutAt line column.toNat before after := by
  have units {front : List Char} (begins : front <+: line) :
      (Text.utf16Length front).toUInt32 ≤ column ↔ Text.utf16Length front ≤ column.toNat := by
    rw [UInt32.le_iff_toNat_le, Text.toNat_utf16Length begins short]
  constructor
  · intro lastCut
    refine ⟨lastCut.cut, (units ⟨after, lastCut.cut.symm⟩).mp lastCut.above, fun c first => ?_⟩
    obtain ⟨rest, rfl⟩ := List.head?_eq_some_iff.mp first
    have further : before ++ [c] <+: line := ⟨rest, by rw [lastCut.cut, List.append_assoc]; rfl⟩
    have beyond := lastCut.beyond [c] ⟨rest, rfl⟩ (List.cons_ne_nil c [])
    rw [← UInt32.not_le, units further, Text.utf16Length_append, Text.utf16Length] at beyond
    exact Nat.lt_of_not_le beyond
  · intro cutAt
    refine ⟨cutAt.cut, (units ⟨after, cutAt.cut.symm⟩).mpr cutAt.above, fun front begins solid => ?_⟩
    have further : before ++ front <+: line := by
      rw [cutAt.cut, List.prefix_append_right_inj]
      exact begins
    rw [← UInt32.not_le, units further]
    intro reached
    have shorter := (cutAt.prefix_of_le further reached).length_le
    have := List.length_pos_iff.mpr solid
    rw [List.length_append] at shorter
    omega

namespace Occurrence
variable {found : Occurrence} {line before after : List Char} {column : Nat}

theorem startColumn_le_stopColumn (found : Occurrence) : found.startColumn ≤ found.stopColumn := by
  rw [startColumn, stopColumn, Text.utf16Length_append]
  exact Nat.le_add_right ..

theorem around_append (before after : List Char) :
    (around before after).before ++ (before.reverse.takeWhile isIdentifierChar).reverse = before := by
  rw [around, ← List.reverse_append, List.takeWhile_append_dropWhile, List.reverse_reverse]

theorem startColumn_around_le (before after : List Char) :
    (around before after).startColumn ≤ Text.utf16Length before := by
  have whole := congrArg Text.utf16Length (around_append before after)
  rw [Text.utf16Length_append] at whole
  rw [startColumn]
  omega

theorem stopColumn_around (before after : List Char) :
    (around before after).stopColumn =
      Text.utf16Length before + Text.utf16Length (after.takeWhile isIdentifierChar) := by
  have name : (around before after).name =
      (before.reverse.takeWhile isIdentifierChar).reverse ++ after.takeWhile isIdentifierChar := rfl
  rw [stopColumn, name, ← List.append_assoc, around_append, Text.utf16Length_append]

theorem isRun_around (solid : (around before after).name ≠ []) :
    (around before after).IsRun (before ++ after) where
  cut := by
    have name : (around before after).name ++ (around before after).after =
        (before.reverse.takeWhile isIdentifierChar).reverse ++ after := by
      rw [around, List.append_assoc, List.takeWhile_append_dropWhile]
    rw [List.append_assoc, name, ← List.append_assoc, around_append]
  solid := solid
  inside c member := by
    rcases List.mem_append.mp member with left | right
    · exact List.mem_takeWhile_imp (List.mem_reverse.mp left)
    · exact List.mem_takeWhile_imp right
  begins c last := by
    have stopped := List.head?_dropWhile_not isIdentifierChar before.reverse
    rw [around, List.getLast?_reverse] at last
    rwa [last] at stopped
  ends c next := by
    have stopped := List.head?_dropWhile_not isIdentifierChar after
    rw [around] at next
    rwa [next] at stopped

/-- The run that the cursor touches is the one around the cut. -/
theorem IsRun.eq_around (run : found.IsRun line) (cutAt : CutAt line column before after)
    (above : found.startColumn ≤ column) (below : Text.utf16Length before ≤ found.stopColumn) :
    found = around before after := by
  have begins : found.before <+: before :=
    cutAt.prefix_of_le ⟨_, by rw [run.cut, List.append_assoc]⟩ above
  have whole := cutAt_utf16Length (found.before ++ found.name) found.after
  rw [← run.cut] at whole
  have goes : before <+: found.before ++ found.name :=
    whole.prefix_of_le ⟨_, cutAt.cut.symm⟩ below
  obtain ⟨left, rfl⟩ := begins
  rw [List.prefix_append_right_inj] at goes
  obtain ⟨right, name⟩ := goes
  have rest : after = right ++ found.after := by
    have both := cutAt.cut.symm.trans run.cut
    rw [← name] at both
    simpa only [List.append_assoc, List.append_cancel_left_eq] using both
  have insideLeft : ∀ c ∈ left.reverse, isIdentifierChar c = true := fun c member =>
    run.inside c (name ▸ List.mem_append_left _ (List.mem_reverse.mp member))
  have insideRight : ∀ c ∈ right, isIdentifierChar c = true := fun c member =>
    run.inside c (name ▸ List.mem_append_right _ member)
  have begins : ∀ c, found.before.reverse.head? = some c → isIdentifierChar c = false :=
    fun c last => run.begins c (List.head?_reverse ▸ last)
  obtain ⟨leftTaken, leftDropped⟩ := takeWhile_boundary insideLeft begins
  obtain ⟨rightTaken, rightDropped⟩ := takeWhile_boundary insideRight run.ends
  rw [around, List.reverse_append, leftTaken, leftDropped, rest, rightTaken, rightDropped,
    List.reverse_reverse, List.reverse_reverse, name]

end Occurrence

theorem LastCut.identifierAt?_eq {line before after : List Char} {column : UInt32}
    (lastCut : LastCut line column before after) :
    identifierAt? line column = (Occurrence.around before after).identifier? := by
  have units : Text.utf16Length (before.reverse.dropWhile isIdentifierChar) =
      (Occurrence.around before after).startColumn := (Text.utf16Length_reverse _).symm
  have stop : (Occurrence.around before after).startColumn +
      Text.utf16Length (Occurrence.around before after).name =
      (Occurrence.around before after).stopColumn := (Text.utf16Length_append ..).symm
  have name : (before.reverse.takeWhile isIdentifierChar).reverse ++ after.takeWhile isIdentifierChar =
      (Occurrence.around before after).name := rfl
  rw [identifierAt?, lastCut.cutAtColumn_eq]
  simp only [name, units, stop]
  unfold Occurrence.identifier? Occurrence.identifier
  cases (Occurrence.around before after).name with
  | nil => rfl
  | cons first rest => rfl

/-- From every column of a run, its end included, the cursor finds just this run. -/
theorem Occurrence.IsRun.identifierAt?_eq {found : Occurrence} {line : List Char} {column : UInt32}
    (run : found.IsRun line) (short : Text.utf16Length line < UInt32.size)
    (above : found.startColumn ≤ column.toNat) (below : column.toNat ≤ found.stopColumn) :
    identifierAt? line column = found.identifier? := by
  obtain ⟨before, after, lastCut⟩ := exists_lastCut line column
  have cutAt := (lastCut_iff short).mp lastCut
  rw [lastCut.identifierAt?_eq, ← run.eq_around cutAt above (cutAt.above.trans below)]

end AssemblySymbols
