import AssemblySymbols.Proofs.Source.Cursor

/-! The search around the cursor as a walk over arrays, on which every access may fail. None does,
whatever the line and the column, and the walk finds the identifier at the cursor. -/
namespace AssemblySymbols

/-- An index behind the end of an array. -/
structure BoundsError where
  index : Nat
  size : Nat
deriving DecidableEq, Repr

namespace IndexedSearch

def readAt {α : Type} (items : Array α) (index : Nat) : Except BoundsError α :=
  match items[index]? with
  | some item => .ok item
  | none => .error ⟨index, items.size⟩

def slice (chars : Array Char) (start stop : Nat) : Except BoundsError (List Char) :=
  if start ≤ stop ∧ stop ≤ chars.size then .ok (chars.extract start stop).toList
  else .error ⟨stop, chars.size⟩

/-- The columns at which the characters start and the one behind the last, added up in 32 bits. -/
def columnsFrom (column : UInt32) : List Char → List UInt32
  | [] => [column]
  | c :: rest => column :: columnsFrom (column + (Text.utf16Units c).toUInt32) rest

/-- The last of the first `count` columns that is not beyond the cursor, or else the first of all. -/
def lastColumn (columns : Array UInt32) (column : UInt32) : Nat → Except BoundsError Nat
  | 0 => .ok 0
  | count + 1 => do
    let start ← readAt columns count
    if start ≤ column then .ok count else lastColumn columns column count

def isNameAt (chars : Array Char) (index : Nat) : Except BoundsError Bool := do
  let c ← readAt chars index
  return isIdentifierChar c

def walkBack (chars : Array Char) : Nat → Except BoundsError Nat
  | 0 => .ok 0
  | start + 1 => do
    if ← isNameAt chars start then walkBack chars start else .ok (start + 1)

def walkOn (chars : Array Char) (stop : Nat) : Except BoundsError Nat :=
  if stop < chars.size then do
    if ← isNameAt chars stop then walkOn chars (stop + 1) else .ok stop
  else .ok stop
termination_by chars.size - stop

def coversAt (chars : Array Char) (here : Nat) : Except BoundsError Bool :=
  if here < chars.size then isNameAt chars here else .ok false

def endsAt (chars : Array Char) (here : Nat) : Except BoundsError Bool :=
  if 0 < here then isNameAt chars (here - 1) else .ok false

/-- The character to walk from, which is the one at the cursor or the one before it. -/
def anchor? (chars : Array Char) (here : Nat) : Except BoundsError (Option Nat) := do
  if ← coversAt chars here then .ok (some here)
  else if ← endsAt chars here then .ok (some (here - 1))
  else .ok none

def searchAround (chars : Array Char) (columns : Array UInt32) (here : Nat) :
    Except BoundsError (Option Identifier) := do
  match ← anchor? chars here with
  | none => .ok none
  | some anchor =>
    let start ← walkBack chars anchor
    let stop ← walkOn chars (anchor + 1)
    let first ← readAt chars start
    if isIdentifierStart first then
      let name ← slice chars start stop
      let left ← readAt columns start
      let right ← readAt columns stop
      .ok (some ⟨String.ofList name, left, right⟩)
    else .ok none

/-- The identifier that covers a column or ends right at it, by way of indexes. -/
def identifierAt (line : List Char) (column : UInt32) : Except BoundsError (Option Identifier) := do
  let columns := (columnsFrom 0 line).toArray
  let here ← lastColumn columns column columns.size
  searchAround line.toArray columns here

theorem ok_bind {α β : Type} (value : α) (next : α → Except BoundsError β) :
    ((.ok value : Except BoundsError α) >>= next) = next value :=
  rfl

theorem readAt_eq {α : Type} {items : List α} {index : Nat} {item : α}
    (there : items[index]? = some item) : readAt items.toArray index = .ok item := by
  rw [readAt, List.getElem?_toArray, there]

theorem isNameAt_append (before : List Char) (c : Char) (rest : List Char) :
    isNameAt (before ++ c :: rest).toArray before.length = .ok (isIdentifierChar c) := by
  have there : (before ++ c :: rest)[before.length]? = some c := by simp
  rw [isNameAt, readAt_eq there]
  rfl

theorem walkBack_eq (before after : List Char) :
    walkBack (before ++ after).toArray before.length =
      .ok (before.reverse.dropWhile isIdentifierChar).length := by
  induction before using List.reverseRecOn generalizing after with
  | nil => rfl
  | append_singleton before c ih =>
    have on := ih (c :: after)
    rw [List.length_append, List.length_singleton, walkBack, List.append_assoc, List.singleton_append,
      isNameAt_append, ok_bind, on, List.reverse_append, List.reverse_singleton, List.singleton_append,
      List.dropWhile_cons]
    split
    · rfl
    · rw [List.length_cons, List.length_reverse]

theorem walkOn_eq (before after : List Char) :
    walkOn (before ++ after).toArray before.length =
      .ok (before.length + (after.takeWhile isIdentifierChar).length) := by
  induction after generalizing before with
  | nil =>
    rw [walkOn, List.append_nil, List.size_toArray, if_neg (Nat.lt_irrefl _)]
    rfl
  | cons c rest ih =>
    have on := ih (before ++ [c])
    rw [List.append_assoc, List.singleton_append, List.length_append, List.length_singleton] at on
    have more : before.length < (before ++ c :: rest).toArray.size := by simp
    rw [walkOn, if_pos more, isNameAt_append, ok_bind, on, List.takeWhile_cons]
    split
    · rw [List.length_cons, Nat.add_right_comm, Nat.add_assoc]
    · rfl

theorem slice_eq (before name after : List Char) :
    slice (before ++ name ++ after).toArray before.length (before ++ name).length = .ok name := by
  have within : before.length ≤ (before ++ name).length ∧
      (before ++ name).length ≤ (before ++ name ++ after).toArray.size := by simp
  rw [slice, if_pos within]
  simp

/-- A column is the length of what stands before it. -/
theorem getElem?_columnsFrom (column : UInt32) (front rest : List Char) :
    (columnsFrom column (front ++ rest))[front.length]? =
      some (column + (Text.utf16Length front).toUInt32) := by
  induction front generalizing column with
  | nil => cases rest <;> simp [columnsFrom, Text.utf16Length]
  | cons c front ih =>
    rw [List.cons_append, columnsFrom, List.length_cons, List.getElem?_cons_succ, ih, UInt32.add_assoc,
      Text.toUInt32_utf16Length_cons]

theorem coversAt_eq (before after : List Char) :
    coversAt (before ++ after).toArray before.length = .ok (after.head?.any isIdentifierChar) := by
  cases after with
  | nil => simp [coversAt]
  | cons c rest =>
    rw [coversAt, if_pos (by simp), isNameAt_append]
    rfl

theorem endsAt_eq (before after : List Char) :
    endsAt (before ++ after).toArray before.length = .ok (before.getLast?.any isIdentifierChar) := by
  cases before using List.reverseRecOn with
  | nil => rfl
  | append_singleton before c =>
    rw [endsAt, if_pos (by simp), List.append_assoc, List.singleton_append, List.length_append,
      List.length_singleton, Nat.add_sub_cancel, isNameAt_append, List.getLast?_concat]
    rfl

theorem anchor?_eq (before after : List Char) :
    anchor? (before ++ after).toArray before.length =
      .ok (if after.head?.any isIdentifierChar then some before.length
        else if before.getLast?.any isIdentifierChar then some (before.length - 1) else none) := by
  rw [anchor?, coversAt_eq, ok_bind, endsAt_eq, ok_bind]
  split
  · rfl
  · split <;> rfl

/-- A walk that begins at a character of the run ends at the bounds of the run. -/
theorem walks_eq {before after : List Char} {anchor : Nat}
    (begun : anchor? (before ++ after).toArray before.length = .ok (some anchor)) :
    let found := Occurrence.around before after
    found.name ≠ [] ∧ walkBack (before ++ after).toArray anchor = .ok found.before.length ∧
      walkOn (before ++ after).toArray (anchor + 1) = .ok (found.before ++ found.name).length := by
  intro found
  have start : found.before.length = (before.reverse.dropWhile isIdentifierChar).length :=
    List.length_reverse
  have stop : (found.before ++ found.name).length =
      before.length + (after.takeWhile isIdentifierChar).length := by
    have name : found.name = (before.reverse.takeWhile isIdentifierChar).reverse ++
      after.takeWhile isIdentifierChar := rfl
    rw [name, ← List.append_assoc, Occurrence.around_append, List.length_append]
  rw [anchor?_eq] at begun
  rw [start, stop]
  by_cases covered : after.head?.any isIdentifierChar
  · rw [if_pos covered] at begun
    cases begun
    cases after with
    | nil => simp at covered
    | cons c rest =>
      have inside : isIdentifierChar c = true := covered
      refine ⟨by simp [found, Occurrence.around, inside], walkBack_eq before _, ?_⟩
      have on := walkOn_eq (before ++ [c]) rest
      rw [List.append_assoc, List.singleton_append, List.length_append, List.length_singleton] at on
      rw [on, List.takeWhile_cons, if_pos inside, List.length_cons, Nat.add_right_comm, Nat.add_assoc]
  · by_cases ended : before.getLast?.any isIdentifierChar
    · rw [if_neg covered, if_pos ended] at begun
      cases begun
      cases before using List.reverseRecOn with
      | nil => simp at ended
      | append_singleton before c =>
        have inside : isIdentifierChar c = true := by simpa using ended
        have back := walkBack_eq before (c :: after)
        have on := walkOn_eq (before ++ [c]) after
        refine ⟨by simp [found, Occurrence.around, inside], ?_, ?_⟩
        · rw [List.reverse_append, List.reverse_singleton, List.singleton_append, List.dropWhile_cons,
            if_pos inside, List.append_assoc, List.singleton_append, List.length_append,
            List.length_singleton, Nat.add_sub_cancel, back]
        · rw [List.length_append, List.length_singleton] at on ⊢
          exact on
    · rw [if_neg covered, if_neg ended] at begun
      cases begun

/-- Without a character to begin at there is no run. -/
theorem name_eq_nil {before after : List Char}
    (nothing : anchor? (before ++ after).toArray before.length = .ok none) :
    (Occurrence.around before after).name = [] := by
  rw [anchor?_eq] at nothing
  split at nothing
  · cases nothing
  · next covered =>
    split at nothing
    · cases nothing
    · next ended =>
      have right : after.takeWhile isIdentifierChar = [] := by
        cases after with
        | nil => rfl
        | cons c rest => simpa using covered
      have left : before.reverse.takeWhile isIdentifierChar = [] := by
        cases before using List.reverseRecOn with
        | nil => rfl
        | append_singleton before c => simpa using ended
      rw [Occurrence.around, left, right]
      rfl

theorem searchAround_eq (before after : List Char) :
    searchAround (before ++ after).toArray (columnsFrom 0 (before ++ after)).toArray before.length =
      .ok (Occurrence.around before after).identifier? := by
  cases begun : anchor? (before ++ after).toArray before.length with
  | error error =>
    rw [anchor?_eq] at begun
    cases begun
  | ok anchor =>
    cases anchor with
    | none =>
      rw [searchAround, begun, ok_bind, Occurrence.identifier?, name_eq_nil begun]
      rfl
    | some anchor =>
      obtain ⟨solid, back, on⟩ := walks_eq begun
      have cut := (Occurrence.isRun_around solid).cut
      generalize Occurrence.around before after = found at solid back on cut ⊢
      obtain ⟨first, rest, spelled⟩ := List.exists_cons_of_ne_nil solid
      have head : readAt (before ++ after).toArray found.before.length = .ok first := by
        refine readAt_eq ?_
        rw [cut, spelled]
        simp
      have named : slice (before ++ after).toArray found.before.length
          (found.before ++ found.name).length = .ok found.name := by
        rw [cut]
        exact slice_eq ..
      have left : readAt (columnsFrom 0 (before ++ after)).toArray found.before.length =
          .ok found.startColumn.toUInt32 := by
        refine readAt_eq ?_
        rw [cut, List.append_assoc, getElem?_columnsFrom, UInt32.zero_add, Occurrence.startColumn]
      have right : readAt (columnsFrom 0 (before ++ after)).toArray
          (found.before ++ found.name).length = .ok found.stopColumn.toUInt32 := by
        refine readAt_eq ?_
        rw [cut, getElem?_columnsFrom, UInt32.zero_add, Occurrence.stopColumn]
      rw [searchAround, begun, ok_bind]
      dsimp only
      rw [back, ok_bind, on, ok_bind, head, ok_bind, named, ok_bind, left, ok_bind, right, ok_bind,
        Occurrence.identifier?, spelled, List.head?_cons, Option.any_some]
      split
      · rw [← spelled]
        rfl
      · rfl

variable {columns : List UInt32} {column : UInt32}

theorem lastColumn_eq {here count : Nat} {start : UInt32} (there : columns[here]? = some start)
    (reached : start ≤ column) (after : here < count) (within : count ≤ columns.length)
    (beyond : ∀ (later : Nat) (next : UInt32), here < later → columns[later]? = some next →
      column < next) :
    lastColumn columns.toArray column count = .ok here := by
  induction count with
  | zero => contradiction
  | succ count ih =>
    rcases Nat.lt_succ_iff_lt_or_eq.mp after with before | rfl
    · have next := List.getElem?_eq_getElem within
      rw [lastColumn, readAt_eq next, ok_bind,
        if_neg (UInt32.not_le.mpr (beyond count _ before next)), ih before (Nat.le_of_succ_le within)]
    · rw [lastColumn, readAt_eq there, ok_bind, if_pos reached]

theorem length_columnsFrom (column : UInt32) (line : List Char) :
    (columnsFrom column line).length = line.length + 1 := by
  induction line generalizing column with
  | nil => rfl
  | cons c rest ih => rw [columnsFrom, List.length_cons, ih, List.length_cons]

/-- Every access is within its array, also on lines whose columns do not fit into 32 bits, and the search
by way of indexes finds what the cursor finds. -/
theorem identifierAt_eq (line : List Char) (column : UInt32) :
    identifierAt line column = .ok (identifierAt? line column) := by
  obtain ⟨before, after, lastCut⟩ := exists_lastCut line column
  have here : lastColumn (columnsFrom 0 line).toArray column (columnsFrom 0 line).length =
      .ok before.length := by
    have there : (columnsFrom 0 line)[before.length]? = some (Text.utf16Length before).toUInt32 := by
      rw [lastCut.cut, getElem?_columnsFrom, UInt32.zero_add]
    refine lastColumn_eq there lastCut.above ?_ (Nat.le_refl _) fun later next behind listed => ?_
    · rw [length_columnsFrom, lastCut.cut, List.length_append]
      omega
    · have within : later ≤ line.length := by
        have := (List.getElem?_eq_some_iff.mp listed).1
        rw [length_columnsFrom] at this
        omega
      have split : before ++ after.take (later - before.length) = line.take later := by
        rw [lastCut.cut, List.take_append, List.take_of_length_le (Nat.le_of_lt behind)]
      have there := getElem?_columnsFrom 0 (line.take later) (line.drop later)
      rw [List.take_append_drop, List.length_take, Nat.min_eq_left within, UInt32.zero_add, listed]
        at there
      rw [Option.some.inj there, ← split]
      refine lastCut.beyond _ (List.take_prefix ..) fun none => ?_
      have := congrArg List.length split
      rw [none, List.append_nil, List.length_take, Nat.min_eq_left within] at this
      omega
  rw [identifierAt, List.size_toArray, here, ok_bind, lastCut.identifierAt?_eq, lastCut.cut]
  exact searchAround_eq before after

end IndexedSearch
end AssemblySymbols
