import AssemblySymbols.Proofs.KeyMapFolds
import AssemblySymbols.Symbol.Snapshot
import Mathlib.Data.List.Induction

/-! A table groups what is added to it: under each key of a class stand the spans of the additions that
go there, in the order in which they were added. -/
namespace AssemblySymbols

/-- A definition that is given to a table, under its name as it was written. -/
structure Addition where
  kind : Kind
  rawName : String
  span : Span
deriving DecidableEq, Repr

/-- The class and the key under which a definition is kept. A blank name goes nowhere. -/
def targetOf? (kind : Kind) (rawName : String) : Option (SymbolClass × String) :=
  (Name.parse? rawName).map fun name => (⟨kind, name.policy⟩, name.key)

namespace SymbolTable

def ofAdditions (additions : List Addition) : SymbolTable :=
  additions.foldl (fun table addition => table.add addition.kind addition.rawName addition.span) .empty

def spansOf (table : SymbolTable) (part : SymbolClass) (key : String) : List Span :=
  ((table.buckets.get part).get? key).getD []

/-- No key stands over an empty list. -/
def Compact (table : SymbolTable) : Prop :=
  ∀ part key, (table.buckets.get part).get? key ≠ some []

@[simp] theorem get_buckets_empty (part : SymbolClass) : empty.buckets.get part = ∅ := by
  obtain ⟨kind, policy⟩ := part
  cases kind <;> cases policy <;> rfl

@[simp] theorem spansOf_empty (part : SymbolClass) (key : String) : empty.spansOf part key = [] := by
  rw [spansOf, get_buckets_empty]
  rfl

theorem get?_push (table : SymbolTable) (part : SymbolClass) (key : String) (span : Span)
    (other : SymbolClass) (name : String) :
    ((table.push part key span).buckets.get other).get? name =
      if (part, key) = (other, name) then some (table.spansOf other name ++ [span])
      else (table.buckets.get other).get? name := by
  by_cases samePart : other = part
  · subst samePart
    by_cases sameKey : name = key
    · simp [push, spansOf, sameKey]
    · simp [push, sameKey, Ne.symm sameKey]
  · simp [push, samePart, Ne.symm samePart]

theorem add_eq (table : SymbolTable) (kind : Kind) (rawName : String) (span : Span) :
    table.add kind rawName span =
      match targetOf? kind rawName with
      | none => table
      | some (part, key) => table.push part key span := by
  unfold add targetOf?
  cases Name.parse? rawName <;> rfl

theorem spansOf_add (table : SymbolTable) (kind : Kind) (rawName : String) (span : Span)
    (part : SymbolClass) (key : String) :
    (table.add kind rawName span).spansOf part key =
      table.spansOf part key ++ if targetOf? kind rawName = some (part, key) then [span] else [] := by
  rw [add_eq]
  cases target : targetOf? kind rawName with
  | none => simp
  | some place =>
    obtain ⟨part', key'⟩ := place
    rw [spansOf, get?_push]
    by_cases here : (part', key') = (part, key)
    · simp [here]
    · simp [here, spansOf]

theorem Compact.get?_eq {table : SymbolTable} (compact : table.Compact) (part : SymbolClass)
    (key : String) : (table.buckets.get part).get? key =
      if table.spansOf part key = [] then none else some (table.spansOf part key) := by
  unfold spansOf
  cases found : (table.buckets.get part).get? key with
  | none => rfl
  | some spans => rw [Option.getD_some, if_neg fun blank : spans = [] => compact part key (blank ▸ found)]

/-- Tables without empty lists are the same if they have the same spans under each key. -/
theorem Compact.ext {table other : SymbolTable} (compact : table.Compact) (compact' : other.Compact)
    (same : ∀ part key, table.spansOf part key = other.spansOf part key) : table = other := by
  have buckets : table.buckets = other.buckets := by
    apply ByClass.ext_get
    intro part
    apply KeyMap.ext_get?
    intro key
    rw [compact.get?_eq, compact'.get?_eq, same]
  exact congrArg SymbolTable.mk buckets

theorem compact_empty : empty.Compact := by
  intro part key
  rw [get_buckets_empty]
  exact (Option.some_ne_none _).symm

theorem compact_add {table : SymbolTable} (compact : table.Compact) (kind : Kind) (rawName : String)
    (span : Span) : (table.add kind rawName span).Compact := by
  rw [add_eq]
  cases targetOf? kind rawName with
  | none => exact compact
  | some place =>
    intro part key
    rw [get?_push]
    split
    · simp
    · exact compact part key

theorem ofAdditions_concat (additions : List Addition) (addition : Addition) :
    ofAdditions (additions ++ [addition]) =
      (ofAdditions additions).add addition.kind addition.rawName addition.span :=
  List.foldl_append

/-- Each key of a class lists the spans of the additions that go there, in their order. -/
theorem spansOf_ofAdditions (additions : List Addition) (part : SymbolClass) (key : String) :
    (ofAdditions additions).spansOf part key =
      (additions.filter fun addition =>
        targetOf? addition.kind addition.rawName = some (part, key)).map (·.span) := by
  induction additions using List.reverseRecOn with
  | nil => exact spansOf_empty part key
  | append_singleton before addition ih =>
    rw [ofAdditions_concat, spansOf_add, ih, List.filter_append, List.map_append]
    by_cases here : targetOf? addition.kind addition.rawName = some (part, key) <;> simp [here]

theorem compact_ofAdditions (additions : List Addition) : (ofAdditions additions).Compact := by
  induction additions using List.reverseRecOn with
  | nil => exact compact_empty
  | append_singleton before addition ih =>
    rw [ofAdditions_concat]
    exact compact_add ih addition.kind addition.rawName addition.span

/-- What a numbered line gives to the table of its document. -/
def additionsOn (number : UInt32) (line : List Char) : List Addition :=
  (classifyLine (stripComment line)).map fun definition =>
    ⟨definition.kind, definition.name,
      .onLine number (stripComment line) definition.start definition.stop⟩

def additionsIn (text : String) : List Addition :=
  (Text.lines text.toList).zipIdx.flatMap fun (line, number) => additionsOn number.toUInt32 line

theorem scanLine_eq (table : SymbolTable) (number : UInt32) (line : List Char) :
    table.scanLine number line = (additionsOn number line).foldl (fun table addition =>
      table.add addition.kind addition.rawName addition.span) table := by
  rw [scanLine, additionsOn, List.foldl_map]

/-- The table of a text is that of the definitions on its lines. -/
theorem ofText_eq (text : String) : ofText text = ofAdditions (additionsIn text) := by
  rw [ofText, scanLines, ofAdditions, additionsIn, List.foldl_flatMap]
  simp only [scanLine_eq]

theorem compact_ofText (text : String) : (ofText text).Compact :=
  ofText_eq text ▸ compact_ofAdditions _

end SymbolTable

theorem DocumentRecord.get?_toTable (record : DocumentRecord) (part : SymbolClass) (key : String) :
    (record.toTable.buckets.get part).get? key =
      ((record.buckets.get part).get? key).filter fun spans => !spans.isEmpty := by
  rw [toTable, ByClass.get_map, KeyMap.get?_filterValues]

/-- A table has the spans of its record, for there are none under the keys that it lacks. -/
theorem DocumentRecord.spansOf_toTable (record : DocumentRecord) (part : SymbolClass) (key : String) :
    record.toTable.spansOf part key = ((record.buckets.get part).get? key).getD [] := by
  rw [SymbolTable.spansOf, record.get?_toTable]
  rcases (record.buckets.get part).get? key with _ | _ | _ <;> rfl

namespace SymbolTable

/-- A record may hold empty lists, the table made of it does not. -/
theorem compact_toTable (record : DocumentRecord) : record.toTable.Compact := by
  intro part key
  rw [record.get?_toTable]
  intro found
  exact absurd (Option.filter_eq_some_iff.mp found).2 (by decide)

end SymbolTable
end AssemblySymbols
