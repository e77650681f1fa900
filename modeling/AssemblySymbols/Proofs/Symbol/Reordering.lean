import AssemblySymbols.Proofs.Symbol.Coherence

/-! What the order of the documents does to an index. Coherent indexes of the same tables give the same
kinds, the same snapshot and the same places; only places of different documents may change sides. -/
namespace AssemblySymbols

theorem placesIn_filter_uri {documents : List (String × SymbolTable)}
    (distinct : (documents.map (·.1)).Nodup) (part : SymbolClass) (key uri : String) :
    (placesIn documents part key).filter (·.uri = uri) =
      ((documents.lookup uri).elim [] fun table => table.spansOf part key).map (⟨uri, ·, part⟩) := by
  induction documents with
  | nil => rfl
  | cons entry rest ih =>
    obtain ⟨new, distinct⟩ := List.nodup_cons.mp distinct
    have split : placesIn (entry :: rest) part key =
        (entry.2.spansOf part key).map (⟨entry.1, ·, part⟩) ++ placesIn rest part key := rfl
    rw [split, List.filter_append, ih distinct, List.lookup_cons]
    by_cases own : uri = entry.1
    · subst own
      have absent : rest.lookup entry.1 = none := by
        refine List.lookup_eq_none_iff.mpr fun other member => bne_iff_ne.mpr fun same => ?_
        exact new (List.mem_map.mpr ⟨other, member, same.symm⟩)
      simp [absent]
    · simp [beq_eq_false_iff_ne.mpr own, Ne.symm own]

namespace SymbolIndex

/-- The places under a key of a policy, labels before values. -/
def placesUnder (index : SymbolIndex) (policy : CasePolicy) (key : String) : List Location :=
  ((index.aggregates.get ⟨.label, policy⟩).get? key).getD [] ++
    ((index.aggregates.get ⟨.value, policy⟩).get? key).getD []

/-- The places that a query leads to, each with the class that it comes from. -/
def answer (index : SymbolIndex) (query : String) : List Location :=
  match Name.parse? query with
  | none => []
  | some name =>
    let exact := index.placesUnder .sensitive name.base
    if name.marked || exact.isEmpty then
      index.placesUnder .insensitive (Name.insensitiveKey name.base)
    else exact

theorem definitionsOf_eq (index : SymbolIndex) (query : String) :
    index.definitionsOf query = (index.answer query).map Location.site := by
  unfold definitionsOf answer
  cases Name.parse? query with
  | none => rfl
  | some name =>
    have sites (policy : CasePolicy) (key : String) :
        (index.aggregates.get ⟨.label, policy⟩).sites key ++
          (index.aggregates.get ⟨.value, policy⟩).sites key =
        (index.placesUnder policy key).map Location.site := List.map_append.symm
    have exact := sites .sensitive name.base
    have alike := sites .insensitive (Name.insensitiveKey name.base)
    simp only [ByClass.get] at exact alike
    dsimp only
    rw [exact, alike]
    cases name.marked with
    | true => rfl
    | false =>
      rw [if_neg Bool.false_ne_true, Bool.false_or, List.isEmpty_map]
      split <;> rfl

/-- Both indexes hold the same tables, in whatever order. -/
structure Reordered (index other : SymbolIndex) : Prop where
  coherent : index.Coherent
  coherent' : other.Coherent
  documents : index.documents.Perm other.documents

namespace Reordered
variable {index other : SymbolIndex}

theorem of_document? (coherent : index.Coherent) (coherent' : other.Coherent)
    (same : ∀ uri, index.document? uri = other.document? uri) : Reordered index other :=
  ⟨coherent, coherent', perm_of_lookup coherent.distinct coherent'.distinct same⟩

theorem document? (reordered : Reordered index other) (uri : String) :
    index.document? uri = other.document? uri := by
  apply Option.ext
  intro table
  have found {one another : SymbolIndex} (distinct : another.uris.Nodup)
      (documents : one.documents.Perm another.documents) (looked : one.document? uri = some table) :
      another.document? uri = some table :=
    lookup_of_mem distinct (documents.subset (mem_of_lookup looked))
  exact ⟨found reordered.coherent'.distinct reordered.documents,
    found reordered.coherent.distinct reordered.documents.symm⟩

theorem documentCount (reordered : Reordered index other) :
    index.documentCount = other.documentCount := reordered.documents.length_eq

theorem definitionCount (reordered : Reordered index other) :
    index.definitionCount = other.definitionCount :=
  List.Perm.foldr_eq' (f := fun (entry : String × SymbolTable) count =>
    entry.2.definitionCount + count) reordered.documents (fun _ _ _ _ _ => Nat.add_left_comm ..) 0

theorem snapshot (reordered : Reordered index other) : index.snapshot = other.snapshot := by
  have sorted : KeyMap.ofList index.documents = KeyMap.ofList other.documents := by
    apply KeyMap.ext_get?
    intro key
    rw [KeyMap.get?_ofList reordered.coherent.distinct, KeyMap.get?_ofList reordered.coherent'.distinct]
    exact reordered.document? key
  rw [SymbolIndex.snapshot, SymbolIndex.snapshot, sorted]

theorem listed (reordered : Reordered index other) (part : SymbolClass) (key : String) :
    (((index.aggregates.get part).get? key).getD []).Perm
      (((other.aggregates.get part).get? key).getD []) ∧
    ∀ uri, (((index.aggregates.get part).get? key).getD []).filter (·.uri = uri) =
      (((other.aggregates.get part).get? key).getD []).filter (·.uri = uri) := by
  rw [reordered.coherent.listed, reordered.coherent'.listed, listing_getD, listing_getD]
  refine ⟨reordered.documents.flatMap_right _, fun uri => ?_⟩
  have same : index.documents.lookup uri = other.documents.lookup uri := reordered.document? uri
  rw [placesIn_filter_uri reordered.coherent.distinct, placesIn_filter_uri reordered.coherent'.distinct,
    same]

theorem contains (reordered : Reordered index other) (part : SymbolClass) (key : String) :
    (index.aggregates.get part).contains key = (other.aggregates.get part).contains key := by
  have perm := (reordered.listed part key).1
  rw [reordered.coherent.listed, reordered.coherent'.listed, listing_getD, listing_getD] at perm
  have empty : placesIn index.documents part key = [] ↔ placesIn other.documents part key = [] :=
    ⟨fun none => (none ▸ perm).nil_eq.symm, fun none => (none ▸ perm).eq_nil⟩
  rw [KeyMap.contains, KeyMap.contains, Bool.eq_iff_iff, Option.isSome_iff_ne_none,
    Option.isSome_iff_ne_none, reordered.coherent.listed, reordered.coherent'.listed, ne_eq, ne_eq,
    listing_eq_none_iff, listing_eq_none_iff, empty]

theorem kindOf? (reordered : Reordered index other) (query : String) :
    index.kindOf? query = other.kindOf? query := by
  have labelsSensitive := reordered.contains ⟨.label, .sensitive⟩
  have labelsInsensitive := reordered.contains ⟨.label, .insensitive⟩
  have valuesSensitive := reordered.contains ⟨.value, .sensitive⟩
  have valuesInsensitive := reordered.contains ⟨.value, .insensitive⟩
  simp only [ByClass.get] at labelsSensitive labelsInsensitive valuesSensitive valuesInsensitive
  unfold SymbolIndex.kindOf?
  simp only [labelsSensitive, labelsInsensitive, valuesSensitive, valuesInsensitive]

theorem placesUnder (reordered : Reordered index other) (policy : CasePolicy) (key : String) :
    (index.placesUnder policy key).Perm (other.placesUnder policy key) ∧
    ∀ uri, (index.placesUnder policy key).filter (·.uri = uri) =
      (other.placesUnder policy key).filter (·.uri = uri) := by
  obtain ⟨labels, labelsOf⟩ := reordered.listed ⟨.label, policy⟩ key
  obtain ⟨values, valuesOf⟩ := reordered.listed ⟨.value, policy⟩ key
  refine ⟨labels.append values, fun uri => ?_⟩
  rw [SymbolIndex.placesUnder, SymbolIndex.placesUnder, List.filter_append, List.filter_append,
    labelsOf, valuesOf]

theorem answer (reordered : Reordered index other) (query : String) :
    (index.answer query).Perm (other.answer query) ∧
    ∀ uri, (index.answer query).filter (·.uri = uri) = (other.answer query).filter (·.uri = uri) := by
  unfold SymbolIndex.answer
  cases Name.parse? query with
  | none => exact ⟨.refl _, fun _ => rfl⟩
  | some name =>
    have exact := reordered.placesUnder .sensitive name.base
    dsimp only
    rw [exact.1.isEmpty_eq]
    split
    · exact reordered.placesUnder .insensitive (Name.insensitiveKey name.base)
    · exact exact

theorem definitionsOf (reordered : Reordered index other) (query : String) :
    (index.definitionsOf query).Perm (other.definitionsOf query) := by
  rw [definitionsOf_eq, definitionsOf_eq]
  exact (reordered.answer query).1.map Location.site

end Reordered
end SymbolIndex
end AssemblySymbols
