import AssemblySymbols.Proofs.Session.Resolution
import AssemblySymbols.Proofs.Symbol.Kinds

/-! From a site that a query leads to back to the line that defines something there. The cursor at the
start of the site picks up the name that is defined, and the query of this name, which may be another
one, leads to the site as well. -/
namespace AssemblySymbols

/-- Lines and columns can be counted, also from one. -/
structure Countable (text : String) : Prop where
  lines : (Text.lines text.toList).length + 1 < UInt32.size
  columns : ∀ line ∈ Text.lines text.toList, Text.utf16Length line + 1 < UInt32.size

namespace DefinedOn
variable {text : String} {number : Nat} {line : List Char} {definition : LineDefinition} {span : Span}

/-- Where a definition starts in a text that can be counted, and that it ends behind its start. -/
theorem bounds (defined : DefinedOn text number line definition span) (countable : Countable text) :
    span.start.line.toNat = number ∧ number + 1 < UInt32.size ∧
    span.start.character.toNat + 1 < UInt32.size ∧ span.start.character ≤ span.stop.character := by
  have inside : number < (Text.lines text.toList).length :=
    (List.getElem?_eq_some_iff.mp defined.written).1
  have few := countable.lines
  have short := countable.columns line (List.mem_of_getElem? defined.written)
  obtain ⟨found, -, -, columns, first, within⟩ := columns_of_classify defined.defined defined.place
  rw [columns]
  have numbered : number.toUInt32.toNat = number := UInt32.toNat_ofNat_of_lt' (by omega)
  have starts : (Text.utf16Length found.before).toUInt32.toNat = Text.utf16Length found.before :=
    UInt32.toNat_ofNat_of_lt' (by omega)
  have stops : (Text.utf16Length (found.before ++ found.name)).toUInt32.toNat =
      Text.utf16Length (found.before ++ found.name) := UInt32.toNat_ofNat_of_lt' (by omega)
  refine ⟨numbered, by omega, by rw [starts]; omega, ?_⟩
  rw [UInt32.le_iff_toNat_le, starts, stops]
  exact first

/-- The cursor finds the name at its start. -/
theorem identifierIn? (defined : DefinedOn text number line definition span)
    (countable : Countable text) :
    Session.identifierIn? text span.start =
      some ⟨definition.name, span.start.character, span.stop.character⟩ := by
  obtain ⟨numbered, -, -, forward⟩ := defined.bounds countable
  have short := countable.columns line (List.mem_of_getElem? defined.written)
  rw [Session.identifierIn?, lineText?, numbered, defined.written, Option.bind_some]
  exact identifierAt?_of_classify defined.defined (by omega) defined.place (UInt32.le_refl _) forward

theorem mem_definitionsOf (defined : DefinedOn text number line definition span) {index : SymbolIndex}
    (coherent : index.Coherent) {uri : String} (indexed : index.document? uri = some (.ofText text)) :
    ⟨uri, span⟩ ∈ index.definitionsOf definition.name :=
  coherent.mem_definitionsOf indexed defined.added (isIdentifier_of_classify defined.defined)

end DefinedOn

/-- What a query leads to stands in the table of its document. -/
theorem SymbolIndex.Coherent.document?_of_mem_definitionsOf {index : SymbolIndex}
    (coherent : index.Coherent) {query : String} {site : Site} (member : site ∈ index.definitionsOf query) :
    ∃ table part key, index.document? site.uri = some table ∧ site.span ∈ table.spansOf part key := by
  rw [definitionsOf_eq] at member
  obtain ⟨location, answered, rfl⟩ := List.mem_map.mp member
  obtain ⟨key, locations, found, listed⟩ := coherent.mem_answer answered
  have placed : location ∈ placesIn index.documents location.part key := by
    rw [← listing_getD (placesIn _ _ _), ← coherent.listed, found]
    exact listed
  obtain ⟨⟨uri, table⟩, document, span, member, same⟩ := mem_placesIn.mp placed
  rw [show location.site = ⟨uri, span⟩ from congrArg Location.site same]
  exact ⟨table, _, key, lookup_of_mem coherent.distinct document, member⟩

end AssemblySymbols
