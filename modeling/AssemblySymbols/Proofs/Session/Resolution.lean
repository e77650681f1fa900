import AssemblySymbols.Proofs.Session.IndexRuns
import AssemblySymbols.Proofs.Symbol.DefinitionSpans
import AssemblySymbols.Proofs.Symbol.Reordering
import AssemblySymbols.Proofs.Symbol.Search

/-! From a name where it is defined back to its definition. The cursor picks up the name that the line
defines, and the index has kept the definition under the key that a query of this name asks for. -/
namespace AssemblySymbols

namespace SymbolIndex
variable {index : SymbolIndex} {uri text : String}

theorem Coherent.mem_placesUnder {table : SymbolTable} {kind : Kind} {policy : CasePolicy}
    {key : String} {span : Span} (coherent : index.Coherent)
    (indexed : index.document? uri = some table) (member : span ∈ table.spansOf ⟨kind, policy⟩ key) :
    ⟨uri, span, ⟨kind, policy⟩⟩ ∈ index.placesUnder policy key := by
  have placed : (⟨uri, span, ⟨kind, policy⟩⟩ : Location) ∈
      ((index.aggregates.get ⟨kind, policy⟩).get? key).getD [] := by
    rw [coherent.listed, listing_getD]
    exact mem_placesIn.mpr ⟨(uri, table), mem_of_lookup indexed, span, member, rfl⟩
  rw [placesUnder]
  cases kind with
  | label => exact List.mem_append_left _ placed
  | value => exact List.mem_append_right _ placed

/-- No other document can hide a definition from a query for its name: a marked name is looked up where
it is kept, and an unmarked one shadows only marked ones. -/
theorem Coherent.mem_definitionsOf {kind : Kind} {name : String} {span : Span}
    (coherent : index.Coherent) (indexed : index.document? uri = some (.ofText text))
    (added : ⟨kind, name, span⟩ ∈ SymbolTable.additionsIn text)
    (identifier : IsIdentifier name.toList) : ⟨uri, span⟩ ∈ index.definitionsOf name := by
  have target := targetOf?_of_isIdentifier kind identifier
  have solid : Text.trim name.toList = name.toList :=
    Text.trim_eq_self fun c member => isBlank_of_isIdentifierChar (identifier.all c member)
  rw [definitionsOf_eq, answer, Name.parse?, solid, Name.split?_eq identifier.ne_nil]
  dsimp only
  by_cases marked : isMarked name.toList
  · rw [if_pos marked] at target
    have placed := coherent.mem_placesUnder indexed (SymbolTable.mem_spansOf_ofText added target)
    rw [marked, Bool.true_or, if_pos rfl, Name.insensitiveKey, String.toList_ofList]
    exact List.mem_map.mpr ⟨_, placed, rfl⟩
  · rw [if_neg marked] at target
    have placed := coherent.mem_placesUnder indexed (SymbolTable.mem_spansOf_ofText added target)
    have found : (index.placesUnder .sensitive name).isEmpty = false :=
      List.isEmpty_eq_false_iff.mpr (List.ne_nil_of_mem placed)
    have whole : String.ofList (withoutMarker name.toList) = name := by
      rw [withoutMarker, if_neg marked, String.ofList_toList]
    rw [whole, found, Bool.eq_false_iff.mpr marked, Bool.or_self, if_neg Bool.false_ne_true]
    exact List.mem_map.mpr ⟨_, placed, rfl⟩

end SymbolIndex

/-- From every column of its span the cursor finds the name that a line defines. -/
theorem identifierAt?_of_classify {line : List Char} {definition : LineDefinition} {number : UInt32}
    (member : definition ∈ classifyLine (stripComment line))
    (short : Text.utf16Length line < UInt32.size) {span : Span}
    (place : span = .onLine number (stripComment line) definition.start definition.stop)
    {column : UInt32} (above : span.start.character ≤ column)
    (below : column ≤ span.stop.character) :
    identifierAt? line column =
      some ⟨definition.name, span.start.character, span.stop.character⟩ := by
  obtain ⟨found, isolated, name, columns, first, within⟩ := columns_of_classify member place
  have last := lt_of_le_of_lt within short
  rw [columns] at above below ⊢
  rw [name]
  apply isolated.identifierAt?_eq short
  · have start := UInt32.le_iff_toNat_le.mp above
    rwa [UInt32.toNat_ofNat_of_lt' (lt_of_le_of_lt first last)] at start
  · have stop := UInt32.le_iff_toNat_le.mp below
    rwa [UInt32.toNat_ofNat_of_lt' last] at stop

/-- Whatever a line of an indexed document defines can be reached from its name on that line: from each
column of the name the cursor finds it with the columns of the definition, and the query of this name
leads to the definition, whatever other documents define. So does the question for the definition at
that place, which a session with this document answers. -/
theorem definition_resolves (operations : List SymbolIndex.Operation) {uri text : String}
    (indexed : (SymbolIndex.run operations).document? uri = some (.ofText text))
    {number : Nat} (few : number < UInt32.size) {line : List Char}
    (written : (Text.lines text.toList)[number]? = some line)
    (short : Text.utf16Length line < UInt32.size) {definition : LineDefinition}
    (defined : definition ∈ classifyLine (stripComment line)) {span : Span}
    (place : span = .onLine number.toUInt32 (stripComment line) definition.start definition.stop)
    {column : UInt32} (above : span.start.character ≤ column)
    (below : column ≤ span.stop.character) :
    lineText? text.toList number.toUInt32 = some line ∧
    identifierAt? line column =
      some ⟨definition.name, span.start.character, span.stop.character⟩ ∧
    ⟨uri, span⟩ ∈ (SymbolIndex.run operations).definitionsOf definition.name ∧
    ∀ (root : Path) (settings : Settings) (disk : Disk) (demands : List Demand)
      (discovered : Option (List Session.Opening)),
      let session := demands.foldl Session.meet (.start root settings disk)
      (session.ensureInitialized discovered).1.index.document? uri = some (.ofText text) →
        ⟨uri, span⟩ ∈ (session.definitionsAt discovered false text ⟨number.toUInt32, column⟩).2 := by
  have added : (⟨definition.kind, definition.name, span⟩ : Addition) ∈
      SymbolTable.additionsIn text := by
    refine List.mem_flatMap.mpr ⟨(line, number), List.mem_zipIdx_iff_getElem?.mpr written, ?_⟩
    exact List.mem_map.mpr ⟨definition, defined, by rw [place]⟩
  have identifier := isIdentifier_of_classify defined
  have read : lineText? text.toList number.toUInt32 = some line := by
    rw [lineText?, UInt32.toNat_ofNat_of_lt' few, written]
  have found := identifierAt?_of_classify defined short place above below
  refine ⟨read, found,
    (SymbolIndex.coherent_run operations).mem_definitionsOf indexed added identifier, ?_⟩
  intro root settings disk demands discovered session known
  have met : session.index.Coherent :=
    ((Session.start root settings disk).leadsTo_meets demands).coherent SymbolIndex.coherent_empty
  have coherent := (session.leadsTo_ensureInitialized discovered).coherent met
  have identified : Session.identifierIn? text ⟨number.toUInt32, column⟩ =
      some ⟨definition.name, span.start.character, span.stop.character⟩ := by
    rw [Session.identifierIn?, read, Option.bind_some, found]
  rw [Session.definitionsAt, identified]
  exact coherent.mem_definitionsOf known added identifier

/-- A marked name behind a wide space, which takes three bytes, where another document defines the name
as well. -/
theorem definition_resolves_marked :
    let operations : List SymbolIndex.Operation :=
      [.indexText "a.asm" "start:\n\u3000macro Size? ; size?\n", .indexText "b.asm" "size? = 1\n"]
    identifierAt? "\u3000macro Size? ; size?".toList 10 = some ⟨"Size?", 7, 12⟩ ∧
    ⟨"a.asm", ⟨⟨1, 7⟩, ⟨1, 12⟩⟩⟩ ∈ (SymbolIndex.run operations).definitionsOf "Size?" := by
  intro operations
  have indexed : (SymbolIndex.run operations).document? "a.asm" =
      some (.ofText "start:\n\u3000macro Size? ; size?\n") := by decide +kernel
  have written : (Text.lines "start:\n\u3000macro Size? ; size?\n".toList)[1]? =
      some "\u3000macro Size? ; size?".toList := by decide +kernel
  have defined : ⟨"Size?", .macroKeyword, 9, 14⟩ ∈
      classifyLine (stripComment "\u3000macro Size? ; size?".toList) := by decide +kernel
  have place : (⟨⟨1, 7⟩, ⟨1, 12⟩⟩ : Span) =
      .onLine (Nat.toUInt32 1) (stripComment "\u3000macro Size? ; size?".toList) 9 14 := by
    decide +kernel
  obtain ⟨-, found, resolved, -⟩ := definition_resolves operations indexed (by decide) written
    (by decide +kernel) defined place (show 7 ≤ (10 : UInt32) by decide) (by decide)
  exact ⟨found, resolved⟩

end AssemblySymbols
