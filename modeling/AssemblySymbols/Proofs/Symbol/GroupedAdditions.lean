import AssemblySymbols.Proofs.Symbol.Restoration
import AssemblySymbols.Proofs.Symbol.TableSpans

/-! A table is the grouping of what was added to it: the names are trimmed, those that had a marker are
told apart without regard to case, and those of which nothing is left do not count. The record of a table
is as good as the table, because no key of a table stands over an empty list. -/
namespace AssemblySymbols

namespace Text

theorem lowerChar_ne_nil (c : Char) : lowerChar c ≠ [] := by
  unfold lowerChar
  dsimp only
  split
  · exact List.cons_ne_nil _ _
  · split <;> exact List.cons_ne_nil _ _

theorem lowercase_ne_nil {text : List Char} (some_text : text ≠ []) : lowercase text ≠ [] := by
  obtain ⟨c, rest, rfl⟩ := List.exists_cons_of_ne_nil some_text
  intro none
  obtain ⟨lowered, -⟩ := List.append_eq_nil_iff.mp none
  split at lowered
  · contradiction
  · exact lowerChar_ne_nil c lowered

end Text

/-- A marker alone is not taken off. -/
theorem withoutMarker_ne_nil {name : List Char} (some_name : name ≠ []) : withoutMarker name ≠ [] := by
  unfold withoutMarker
  split
  · next marked =>
    obtain ⟨last, longer⟩ := Bool.and_eq_true_iff.mp marked
    intro none
    have whole := List.dropLast_append_getLast? '?' (beq_iff_eq.mp last)
    rw [none, List.nil_append] at whole
    exact bne_iff_ne.mp longer whole.symm
  · exact some_name

namespace Addition

/-- The name without the white space around it. -/
def name (addition : Addition) : List Char := Text.trim addition.rawName.toList

def part (addition : Addition) : SymbolClass :=
  ⟨addition.kind, if isMarked addition.name then .insensitive else .sensitive⟩

/-- The name as it is looked up: without its marker, and in lower case if it had one. -/
def key (addition : Addition) : String :=
  String.ofList
    (if isMarked addition.name then Text.lowercase (withoutMarker addition.name) else addition.name)

theorem target_eq_none_iff {addition : Addition} :
    targetOf? addition.kind addition.rawName = none ↔ addition.name = [] := by
  rw [targetOf?, Option.map_eq_none_iff, Name.parse?_eq_none_iff]
  rfl

theorem target_of_named {addition : Addition} (named : addition.name ≠ []) :
    targetOf? addition.kind addition.rawName = some (addition.part, addition.key) := by
  rw [targetOf?_of_named addition.kind named, part, key, name]
  split <;> rfl

theorem key_ne_empty {addition : Addition} (named : addition.name ≠ []) : addition.key ≠ "" := by
  intro empty
  have none := String.ofList_injective (empty.trans String.ofList_nil.symm)
  split at none
  · exact Text.lowercase_ne_nil (withoutMarker_ne_nil named) none
  · exact named none

end Addition

namespace SymbolTable

/-- Just the additions that have a name change a table. -/
theorem add_eq_self_iff (table : SymbolTable) (addition : Addition) :
    table.add addition.kind addition.rawName addition.span = table ↔ addition.name = [] := by
  constructor
  · intro unchanged
    by_contra named
    have target : targetOf? addition.kind addition.rawName ≠ none :=
      fun none => named (Addition.target_eq_none_iff.mp none)
    have longer := (table.spans_add addition.kind addition.rawName addition.span).length_eq
    rw [unchanged, if_neg target, List.length_append, List.length_singleton] at longer
    omega
  · intro blank
    rw [add_eq, Addition.target_eq_none_iff.mpr blank]

theorem ofAdditions_named (additions : List Addition) :
    ofAdditions (additions.filter (·.name ≠ [])) = ofAdditions additions := by
  unfold ofAdditions
  rw [List.foldl_filter]
  -- both folds go through all additions, and their steps differ only where a step does nothing
  congr 1
  funext table addition
  split
  · rfl
  · next blank => exact ((table.add_eq_self_iff addition).mpr (by simpa using blank)).symm

theorem spansOf_named (additions : List Addition) (part : SymbolClass) (key : String) :
    (ofAdditions additions).spansOf part key =
      ((additions.filter (·.name ≠ [])).filter fun addition =>
        addition.part = part ∧ addition.key = key).map (·.span) := by
  rw [← ofAdditions_named, spansOf_ofAdditions]
  refine congrArg (List.map Addition.span) (List.filter_congr fun addition member => ?_)
  have named : addition.name ≠ [] := of_decide_eq_true (List.mem_filter.mp member).2
  rw [Addition.target_of_named named, decide_eq_decide, Option.some.injEq, Prod.mk.injEq]

theorem Compact.get?_eq_some_iff {table : SymbolTable} (compact : table.Compact) {part : SymbolClass}
    {key : String} {spans : List Span} :
    (table.buckets.get part).get? key = some spans ↔ spans ≠ [] ∧ spans = table.spansOf part key := by
  constructor
  · intro found
    refine ⟨fun none => compact part key (none ▸ found), ?_⟩
    rw [spansOf, found, Option.getD_some]
  · rintro ⟨some_spans, rfl⟩
    rw [compact.get?_eq, if_neg some_spans]

theorem definitionCount_ofAdditions (additions : List Addition) :
    (ofAdditions additions).definitionCount = (additions.filter (·.name ≠ [])).length := by
  rw [definitionCount_eq_length, (spans_ofAdditions additions).length_eq, List.length_map]
  refine congrArg List.length (List.filter_congr fun addition _ => ?_)
  exact decide_eq_decide.mpr (not_congr Addition.target_eq_none_iff)

/-- Without empty lists there is no key where there is no span. -/
theorem Compact.isEmpty_iff {table : SymbolTable} (compact : table.Compact) :
    table.isEmpty = true ↔ table.definitionCount = 0 := by
  rw [definitionCount_eq_length, List.length_eq_zero_iff, spans, List.flatMap_eq_nil_iff, isEmpty,
    List.all_eq_true]
  refine forall_congr' fun bucket => forall_congr' fun member => ?_
  obtain ⟨part, -, rfl⟩ := List.mem_map.mp member
  rw [KeyMap.isEmpty, List.isEmpty_iff, KeyMap.elements, List.flatMap_eq_nil_iff]
  constructor
  · intro blank entry listed
    rw [blank] at listed
    contradiction
  · intro none
    refine List.eq_nil_iff_forall_not_mem.mpr fun entry listed => ?_
    apply compact part entry.1
    rw [KeyMap.get?_of_mem listed, none entry listed]

theorem empty_not_mem_keys (additions : List Addition) (part : SymbolClass) :
    "" ∉ ((ofAdditions additions).buckets.get part).keys := by
  have blank : (ofAdditions additions).spansOf part "" = [] := by
    rw [spansOf_named, List.map_eq_nil_iff, List.filter_eq_nil_iff]
    intro addition member here
    have named : addition.name ≠ [] := of_decide_eq_true (List.mem_filter.mp member).2
    exact Addition.key_ne_empty named (of_decide_eq_true here).2
  rw [← KeyMap.get?_eq_none_iff, (compact_ofAdditions additions).get?_eq, if_pos blank]

end SymbolTable

namespace DocumentRecord

/-- Without empty lists, and only so, a table is recovered from its record. -/
theorem toTable_ofTable_iff {uri : String} {table : SymbolTable} :
    (ofTable uri table).toTable = table ↔ table.Compact :=
  ⟨fun recovered => recovered ▸ SymbolTable.compact_toTable _,
    fun compact => toTable_ofTable compact uri⟩

theorem get?_ofTable_toTable (record : DocumentRecord) (part : SymbolClass) (key : String)
    (spans : List Span) :
    ((ofTable record.uri record.toTable).buckets.get part).get? key = some spans ↔
      (record.buckets.get part).get? key = some spans ∧ spans ≠ [] := by
  have recorded : (ofTable record.uri record.toTable).buckets = record.toTable.buckets := rfl
  rw [recorded, get?_toTable, Option.filter_eq_some_iff, Bool.not_eq_true', List.isEmpty_eq_false_iff]

end DocumentRecord

namespace SymbolTable

/-- Whatever is added to an empty table in whatever order: the additions without a name do nothing, and
those that have one do. Each key of a class lists the spans of the named additions of this class and key
as they came, and there are no other keys, no empty lists and no empty key. The table counts the named
additions and is empty if there are none. Its record gives it back and is itself read back as it is
written. A record does so for just the tables without empty lists, while from any record whatever comes
back that record less its empty lists. -/
theorem ofAdditions_groups (additions : List Addition) :
    let named := additions.filter (·.name ≠ [])
    let table := ofAdditions additions
    (∀ before : SymbolTable, ∀ addition : Addition,
      before.add addition.kind addition.rawName addition.span = before ↔ addition.name = []) ∧
    table = ofAdditions named ∧
    (∀ part key spans, (table.buckets.get part).get? key = some spans ↔
      spans ≠ [] ∧
        spans = (named.filter fun addition =>
          addition.part = part ∧ addition.key = key).map (·.span)) ∧
    (∀ part, "" ∉ (table.buckets.get part).keys) ∧
    table.definitionCount = named.length ∧
    (table.isEmpty = true ↔ table.definitionCount = 0) ∧
    (∀ uri,
      let record := DocumentRecord.ofTable uri table
      record.toTable = table ∧ DocumentRecord.ofJson? record.toJson = some record) ∧
    (∀ uri, ∀ other : SymbolTable,
      (DocumentRecord.ofTable uri other).toTable = other ↔ other.Compact) ∧
    ∀ record : DocumentRecord,
      let returned := DocumentRecord.ofTable record.uri record.toTable
      returned.uri = record.uri ∧
      ∀ part key spans, (returned.buckets.get part).get? key = some spans ↔
        (record.buckets.get part).get? key = some spans ∧ spans ≠ [] := by
  intro named table
  have compact : table.Compact := compact_ofAdditions additions
  refine ⟨add_eq_self_iff, (ofAdditions_named additions).symm, ?_, empty_not_mem_keys additions,
    definitionCount_ofAdditions additions, compact.isEmpty_iff, ?_, ?_, ?_⟩
  · intro part key spans
    rw [compact.get?_eq_some_iff, spansOf_named]
  · intro uri
    exact ⟨DocumentRecord.toTable_ofTable compact uri, DocumentRecord.ofJson?_toJson _⟩
  · intro uri other
    exact DocumentRecord.toTable_ofTable_iff
  · intro record
    exact ⟨rfl, record.get?_ofTable_toTable⟩

/-- Two spellings of one marked name, the same name without a marker, a marker alone and a blank. -/
example :
    let column (n : UInt32) : Span := ⟨⟨0, n⟩, ⟨0, n⟩⟩
    let table := ofAdditions [⟨.label, " ΣΑΣ? ", column 0⟩, ⟨.label, "ΣΑΣ", column 1⟩,
      ⟨.label, "?", column 2⟩, ⟨.label, "\u3000", column 3⟩, ⟨.label, "σας?", column 4⟩]
    table.buckets.labelsInsensitive.entries = [("σας", [column 0, column 4])] ∧
    table.buckets.labelsSensitive.entries = [("?", [column 2]), ("ΣΑΣ", [column 1])] ∧
    table.definitionCount = 4 := by
  decide +kernel

end SymbolTable
end AssemblySymbols
