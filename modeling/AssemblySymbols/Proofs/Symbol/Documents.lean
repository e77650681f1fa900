import AssemblySymbols.Proofs.Lookups
import AssemblySymbols.Symbol.Index

/-! The documents of an index after an insertion and after a removal. -/
namespace AssemblySymbols.SymbolIndex

theorem documents_remove (index : SymbolIndex) (uri : String) :
    (index.remove uri).documents = index.documents.filter (·.1 ≠ uri) := by
  unfold remove
  cases found : index.document? uri with
  | some table => rfl
  | none =>
    have absent := List.lookup_eq_none_iff.mp found
    refine (List.filter_eq_self.mpr fun entry member => ?_).symm
    have different : uri ≠ entry.1 := by simpa using absent entry member
    simpa using different.symm

theorem documents_replace (index : SymbolIndex) (uri : String) (table : SymbolTable) :
    (index.replace uri table).documents = index.documents.filter (·.1 ≠ uri) ++ [(uri, table)] := by
  rw [← documents_remove]
  rfl

theorem document?_remove (index : SymbolIndex) (uri other : String) :
    (index.remove uri).document? other = if other = uri then none else index.document? other := by
  rw [document?, documents_remove, lookup_filter _ (fun other => other ≠ uri)]
  by_cases asked : other = uri <;> simp [asked, document?]

theorem document?_replace (index : SymbolIndex) (uri : String) (table : SymbolTable)
    (other : String) :
    (index.replace uri table).document? other =
      if other = uri then some table else index.document? other := by
  rw [document?, documents_replace, List.lookup_append, ← documents_remove, ← document?,
    document?_remove]
  by_cases asked : other = uri
  · simp [asked]
  · simp [asked, List.lookup_cons, beq_eq_false_iff_ne.mpr asked, document?]

theorem contains_iff {index : SymbolIndex} {uri : String} :
    index.contains uri = true ↔ uri ∈ index.uris := by
  rw [contains, document?, uris]
  constructor
  · intro found
    obtain ⟨table, looked⟩ := Option.isSome_iff_exists.mp found
    exact List.mem_map.mpr ⟨(uri, table), mem_of_lookup looked, rfl⟩
  · intro member
    obtain ⟨entry, entryMember, rfl⟩ := List.mem_map.mp member
    apply Option.isSome_iff_ne_none.mpr
    intro absent
    simpa using List.lookup_eq_none_iff.mp absent entry entryMember

theorem mem_uris_replace {index : SymbolIndex} {uri other : String} {table : SymbolTable} :
    other ∈ (index.replace uri table).uris ↔ other = uri ∨ other ∈ index.uris := by
  rw [← contains_iff, ← contains_iff, contains, document?_replace]
  by_cases asked : other = uri <;> simp [asked, contains]

end AssemblySymbols.SymbolIndex
