import AssemblySymbols.Proofs.Symbol.DefinitionSpans
import AssemblySymbols.Proofs.Text.Lines

/-! Tables are made line by line. A text that is put behind complete lines defines what it defines alone,
as many lines further down, and another text on one line changes nothing on the other lines. -/
namespace AssemblySymbols

def Position.moveDown (lines : Nat) (position : Position) : Position :=
  ⟨(position.line.toNat + lines).toUInt32, position.character⟩

def Span.moveDown (lines : Nat) (span : Span) : Span :=
  ⟨span.start.moveDown lines, span.stop.moveDown lines⟩

def Addition.moveDown (lines : Nat) (addition : Addition) : Addition :=
  { addition with span := addition.span.moveDown lines }

namespace SymbolTable

/-- What lines give to a table, numbered from a start. -/
def additionsFrom (start : Nat) (lines : List (List Char)) : List Addition :=
  (lines.zipIdx start).flatMap fun (line, number) => additionsOn number.toUInt32 line

theorem additionsIn_eq (text : String) : additionsIn text = additionsFrom 0 (Text.lines text.toList) := rfl

theorem additionsFrom_cons (start : Nat) (line : List Char) (lines : List (List Char)) :
    additionsFrom start (line :: lines) =
      additionsOn start.toUInt32 line ++ additionsFrom (start + 1) lines := rfl

theorem additionsFrom_append (start : Nat) (lines more : List (List Char)) :
    additionsFrom start (lines ++ more) =
      additionsFrom start lines ++ additionsFrom (start + lines.length) more := by
  rw [additionsFrom, List.zipIdx_append, List.flatMap_append, additionsFrom, additionsFrom]

theorem additionsOn_moveDown (number lines : Nat) (line : List Char) :
    additionsOn (number + lines).toUInt32 line =
      (additionsOn number.toUInt32 line).map (Addition.moveDown lines) := by
  have moved : (number.toUInt32.toNat + lines).toUInt32 = (number + lines).toUInt32 := by
    apply UInt32.toNat_inj.mp
    simp
  rw [additionsOn, additionsOn, List.map_map]
  refine List.map_congr_left fun definition _ => ?_
  simp only [Function.comp_apply, Addition.moveDown, Span.moveDown, Position.moveDown, Span.onLine, moved]

theorem additionsFrom_moveDown (start lines : Nat) (written : List (List Char)) :
    additionsFrom (start + lines) written =
      (additionsFrom start written).map (Addition.moveDown lines) := by
  induction written generalizing start with
  | nil => rfl
  | cons line rest ih =>
    rw [additionsFrom_cons, additionsFrom_cons, List.map_append, ← additionsOn_moveDown, ← ih,
      Nat.add_right_comm]

theorem additionsIn_append {text : String} (complete : Text.Complete text.toList) (more : String) :
    additionsIn (text ++ more) = additionsIn text ++
      additionsFrom (Text.lines text.toList).length (Text.lines more.toList) := by
  rw [additionsIn_eq, additionsIn_eq, String.toList_append, Text.lines_append complete,
    additionsFrom_append, Nat.zero_add]

/-- A table to which the spans of another one are added, moved down. -/
def followedBy (table : SymbolTable) (lines : Nat) (later : SymbolTable) : SymbolTable :=
  ⟨.ofFn fun part => (later.buckets.get part).entries.foldl (fun bucket entry =>
    bucket.alter entry.1 fun spans => some (spans.getD [] ++ entry.2.map (Span.moveDown lines)))
      (table.buckets.get part)⟩

theorem get?_followedBy (table : SymbolTable) (lines : Nat) (later : SymbolTable) (part : SymbolClass)
    (key : String) : ((table.followedBy lines later).buckets.get part).get? key =
      ((later.buckets.get part).get? key).elim ((table.buckets.get part).get? key) fun spans =>
        some (table.spansOf part key ++ spans.map (Span.moveDown lines)) := by
  rw [followedBy, ByClass.get_ofFn]
  exact KeyMap.get?_foldl_alter (fun old spans => some (old.getD [] ++ spans.map (Span.moveDown lines)))
    (table.buckets.get part) (later.buckets.get part) key

theorem spansOf_followedBy (table : SymbolTable) (lines : Nat) (later : SymbolTable) (part : SymbolClass)
    (key : String) : (table.followedBy lines later).spansOf part key =
      table.spansOf part key ++ (later.spansOf part key).map (Span.moveDown lines) := by
  rw [spansOf, get?_followedBy, spansOf, spansOf]
  cases (later.buckets.get part).get? key with
  | none => simp
  | some spans => rfl

theorem compact_followedBy {table later : SymbolTable} (compact : table.Compact) (compact' : later.Compact)
    (lines : Nat) : (table.followedBy lines later).Compact := by
  intro part key
  rw [get?_followedBy]
  cases found : (later.buckets.get part).get? key with
  | none => exact compact part key
  | some spans =>
    intro none
    have blank := (List.append_eq_nil_iff.mp (Option.some.inj none)).2
    exact compact' part key (List.map_eq_nil_iff.mp blank ▸ found)

theorem spansOf_append {text more : String} (complete : Text.Complete text.toList) (part : SymbolClass)
    (key : String) : (ofText (text ++ more)).spansOf part key =
      (ofText text).spansOf part key ++ ((ofText more).spansOf part key).map
        (Span.moveDown (Text.lines text.toList).length) := by
  have moved := additionsFrom_moveDown 0 (Text.lines text.toList).length (Text.lines more.toList)
  rw [Nat.zero_add, ← additionsIn_eq] at moved
  rw [ofText_eq, ofText_eq, ofText_eq, spansOf_ofAdditions, spansOf_ofAdditions, spansOf_ofAdditions,
    additionsIn_append complete, moved, List.filter_append, List.map_append, List.filter_map,
    List.map_map, List.map_map]
  rfl

theorem ofText_append {text more : String} (complete : Text.Complete text.toList) :
    ofText (text ++ more) = (ofText text).followedBy (Text.lines text.toList).length (ofText more) := by
  refine Compact.ext (compact_ofText _)
    (compact_followedBy (compact_ofText text) (compact_ofText more) _) fun part key => ?_
  rw [spansOf_followedBy, spansOf_append complete]

/-- Lines keep their numbers below 32 bits when they are moved down within a text of so few lines. -/
theorem moveDown_exact {text more : String} (complete : Text.Complete text.toList)
    (few : (Text.lines (text ++ more).toList).length < UInt32.size) {part : SymbolClass} {key : String}
    {span : Span} (member : span ∈ (ofText more).spansOf part key) :
    (span.moveDown (Text.lines text.toList).length).start.line.toNat =
        span.start.line.toNat + (Text.lines text.toList).length ∧
      (span.moveDown (Text.lines text.toList).length).stop.line.toNat =
        span.stop.line.toNat + (Text.lines text.toList).length := by
  obtain ⟨number, line, definition, defined⟩ := definedOn_of_mem_spansOf member
  have within := (List.getElem?_eq_some_iff.mp defined.written).1
  rw [String.toList_append, Text.lines_append complete, List.length_append] at few
  have low : number.toUInt32.toNat = number := UInt32.toNat_ofNat_of_lt' (by omega)
  have moved : (number + (Text.lines text.toList).length).toUInt32.toNat =
      number + (Text.lines text.toList).length := UInt32.toNat_ofNat_of_lt' (by omega)
  rw [defined.place]
  simp only [Span.onLine, Span.moveDown, Position.moveDown, low, moved, and_self]

/-- Whatever is on a line gives to the table on this line only, between what comes before and after. -/
theorem additionsIn_around {before after : String} (complete : Text.Complete before.toList)
    (border : after = "" ∨ after.toList.head? = some '\n') :
    ∃ later, ∀ line : String, '\n' ∉ line.toList →
      ∃ own, (∀ addition ∈ own, addition.span.On (Text.lines before.toList).length.toUInt32) ∧
        additionsIn (before ++ line ++ after) = additionsIn before ++ (own ++ later) := by
  have split (line : String) : additionsIn (before ++ line ++ after) = additionsIn before ++
      additionsFrom (Text.lines before.toList).length (Text.lines (line.toList ++ after.toList)) := by
    rw [String.append_assoc, additionsIn_append complete, String.toList_append]
  rcases border with rfl | feed
  · refine ⟨[], fun line inside => ?_⟩
    rw [split, String.toList_empty, List.append_nil, Text.lines_open inside]
    split
    · exact ⟨[], fun _ member => absurd member List.not_mem_nil, rfl⟩
    · exact ⟨additionsOn _ line.toList, fun _ => on_of_mem_additionsOn, rfl⟩
  · obtain ⟨rest, feed⟩ := List.head?_eq_some_iff.mp feed
    refine ⟨additionsFrom ((Text.lines before.toList).length + 1) (Text.lines rest), fun line inside => ?_⟩
    refine ⟨additionsOn _ (Text.dropReturn line.toList), fun _ => on_of_mem_additionsOn, ?_⟩
    rw [split, feed, Text.lines_ended inside, additionsFrom_cons]

/-- Another text on one line leaves the spans on all other lines as they are. -/
theorem spansOf_elsewhere {before after line line' : String} (complete : Text.Complete before.toList)
    (inside : '\n' ∉ line.toList) (inside' : '\n' ∉ line'.toList)
    (border : after = "" ∨ after.toList.head? = some '\n') (part : SymbolClass) (key : String) :
    ((ofText (before ++ line ++ after)).spansOf part key).filter
        (fun span => ¬ span.On (Text.lines before.toList).length.toUInt32) =
      ((ofText (before ++ line' ++ after)).spansOf part key).filter
        (fun span => ¬ span.On (Text.lines before.toList).length.toUInt32) := by
  obtain ⟨later, around⟩ := additionsIn_around complete border
  have elsewhere (line : String) (inside : '\n' ∉ line.toList) :
      ((ofText (before ++ line ++ after)).spansOf part key).filter
          (fun span => ¬ span.On (Text.lines before.toList).length.toUInt32) =
        ((ofAdditions (additionsIn before ++ later)).spansOf part key).filter
          (fun span => ¬ span.On (Text.lines before.toList).length.toUInt32) := by
    obtain ⟨own, on, additions⟩ := around line inside
    have hidden : ((own.filter fun addition =>
        targetOf? addition.kind addition.rawName = some (part, key)).map (·.span)).filter
          (fun span => ¬ span.On (Text.lines before.toList).length.toUInt32) = [] := by
      refine List.filter_eq_nil_iff.mpr fun span member => ?_
      obtain ⟨addition, kept, rfl⟩ := List.mem_map.mp member
      simpa using on addition (List.mem_filter.mp kept).1
    rw [ofText_eq, spansOf_ofAdditions, spansOf_ofAdditions, additions]
    simp only [List.filter_append, List.map_append, hidden, List.nil_append]
  exact (elsewhere line inside).trans (elsewhere line' inside').symm

/-- The table of complete lines and of a text behind them is the table of the lines, in which each key gets
the spans of the text behind, moved down by the number of the lines. Hence a line that takes the place of
another one changes the spans on this line only. -/
theorem ofText_line_local :
    (∀ text more : String, Text.Complete text.toList →
      (Text.lines (text ++ more).toList).length < UInt32.size →
      let above := (Text.lines text.toList).length
      ofText (text ++ more) = (ofText text).followedBy above (ofText more) ∧
      ∀ part key,
        (ofText (text ++ more)).spansOf part key =
          (ofText text).spansOf part key ++ ((ofText more).spansOf part key).map (Span.moveDown above) ∧
        ∀ span ∈ (ofText more).spansOf part key,
          (span.moveDown above).start.line.toNat = span.start.line.toNat + above ∧
          (span.moveDown above).stop.line.toNat = span.stop.line.toNat + above) ∧
    ∀ before line line' after : String, Text.Complete before.toList →
      '\n' ∉ line.toList → '\n' ∉ line'.toList → (after = "" ∨ after.toList.head? = some '\n') →
      let number := (Text.lines before.toList).length.toUInt32
      ∀ part key,
        ((ofText (before ++ line ++ after)).spansOf part key).filter (fun span => ¬ span.On number) =
          ((ofText (before ++ line' ++ after)).spansOf part key).filter (fun span => ¬ span.On number) := by
  constructor
  · intro text more complete few above
    refine ⟨ofText_append complete, fun part key => ⟨spansOf_append complete part key, ?_⟩⟩
    exact fun span member => moveDown_exact complete few member
  · intro before line line' after complete inside inside' border number part key
    exact spansOf_elsewhere complete inside inside' border part key

/-- A line that ends with a carriage return, and one that is replaced by a line without definitions. -/
theorem ofText_line_local_replaced :
    let text := "a:\r\n"
    let more := "b? = 1\na:"
    (Text.Complete text.toList ∧ (Text.lines (text ++ more).toList).length < UInt32.size ∧
      (ofText (text ++ more)).spansOf ⟨.label, .sensitive⟩ "a" = [⟨⟨0, 0⟩, ⟨0, 1⟩⟩, ⟨⟨2, 0⟩, ⟨2, 1⟩⟩] ∧
      ofText (text ++ more) = (ofText text).followedBy 1 (ofText more)) ∧
    ('\n' ∉ "b? = 1".toList ∧ '\n' ∉ "nop".toList ∧ "\na:".toList.head? = some '\n' ∧
      ((ofText (text ++ "nop" ++ "\na:")).spansOf ⟨.label, .sensitive⟩ "a").filter
          (fun span => ¬ span.On 1) = [⟨⟨0, 0⟩, ⟨0, 1⟩⟩, ⟨⟨2, 0⟩, ⟨2, 1⟩⟩]) := by
  intro text more
  have complete : Text.Complete text.toList := .inr (by decide +kernel)
  have few : (Text.lines (text ++ more).toList).length < UInt32.size := by decide +kernel
  have twice : (ofText (text ++ more)).spansOf ⟨.label, .sensitive⟩ "a" =
      [⟨⟨0, 0⟩, ⟨0, 1⟩⟩, ⟨⟨2, 0⟩, ⟨2, 1⟩⟩] := by decide +kernel
  have one : (Text.lines text.toList).length = 1 := by decide +kernel
  have inside : '\n' ∉ "b? = 1".toList := by decide +kernel
  have inside' : '\n' ∉ "nop".toList := by decide +kernel
  have border : "\na:".toList.head? = some '\n' := by decide +kernel
  have appended := (ofText_line_local.1 text more complete few).1
  have replaced := ofText_line_local.2 text "nop" "b? = 1" "\na:" complete inside' inside (.inr border)
    ⟨.label, .sensitive⟩ "a"
  rw [one] at appended replaced
  exact ⟨⟨complete, few, twice, appended⟩, inside, inside', border, replaced.trans (by decide +kernel)⟩

end SymbolTable
end AssemblySymbols
