import AssemblySymbols.Proofs.Symbol.Restoration
import Mathlib.Data.Finset.Card

/-! What a restoration adds to an index that has documents already. These stay as they are and in front
of all others, the new ones come behind them as the first record of each has it, and what has been
restored once need not be restored again. -/
namespace AssemblySymbols

namespace DocumentRecord

theorem uri_mem_newOnes {known : List String} {records : List DocumentRecord} {uri : String} :
    uri ∈ (newOnes known records).map (·.uri) ↔ uri ∈ records.map (·.uri) ∧ uri ∉ known := by
  induction records generalizing known with
  | nil => simp [newOnes]
  | cons record rest ih =>
    rw [newOnes]
    split
    · next old =>
      rw [ih, List.map_cons, List.mem_cons]
      constructor
      · rintro ⟨later, new⟩
        exact ⟨Or.inr later, new⟩
      · rintro ⟨found, new⟩
        exact ⟨found.resolve_left fun same => new (same ▸ old), new⟩
    · next new =>
      rw [List.map_cons, List.mem_cons, ih, List.map_cons, List.mem_cons, List.mem_cons]
      by_cases own : uri = record.uri
      · simp [own, new]
      · simp [own]

theorem nodup_newOnes (known : List String) (records : List DocumentRecord) :
    ((newOnes known records).map (·.uri)).Nodup := by
  induction records generalizing known with
  | nil => exact .nil
  | cons record rest ih =>
    rw [newOnes]
    split
    · exact ih known
    · rw [List.map_cons, List.nodup_cons]
      exact ⟨fun again => (uri_mem_newOnes.mp again).2 List.mem_cons_self, ih _⟩

theorem newOnes_sublist (known : List String) (records : List DocumentRecord) :
    (newOnes known records).Sublist records := by
  induction records generalizing known with
  | nil => exact .slnil
  | cons record rest ih =>
    rw [newOnes]
    split
    · exact (ih known).cons record
    · exact (ih (record.uri :: known)).cons_cons record

end DocumentRecord

namespace SymbolIndex
variable {index : SymbolIndex}

/-- Insertions of new documents leave the old ones in front. -/
theorem documents_insertions {records : List DocumentRecord} (distinct : (records.map (·.uri)).Nodup)
    (new : ∀ record ∈ records, record.uri ∉ index.uris) :
    (index.applyChanges (records.map DocumentRecord.change)).documents =
      index.documents ++ records.map fun record => (record.uri, record.toTable) := by
  induction records generalizing index with
  | nil => exact (List.append_nil _).symm
  | cons record rest ih =>
    obtain ⟨unlike, distinct⟩ := List.nodup_cons.mp distinct
    obtain ⟨first, new⟩ := List.forall_mem_cons.mp new
    have kept : index.documents.filter (·.1 ≠ record.uri) = index.documents := by
      rw [List.filter_eq_self]
      intro entry member
      refine decide_eq_true fun same => first ?_
      exact List.mem_map.mpr ⟨entry, member, same⟩
    have inserted : (index.applyChange record.change).documents =
        index.documents ++ [(record.uri, record.toTable)] := by
      rw [documents_applyChange]
      exact congrArg (· ++ _) kept
    have still : ∀ other ∈ rest, other.uri ∉ (index.applyChange record.change).uris := by
      intro other member
      rw [uris, inserted, List.map_append, List.mem_append]
      rintro (old | same)
      · exact new other member old
      · exact unlike (List.mem_map.mpr ⟨other, member, List.mem_singleton.mp same⟩)
    have later := ih distinct still
    rw [inserted, List.append_assoc] at later
    exact later

theorem documents_restore (index : SymbolIndex) (snapshot : Snapshot) :
    (index.restore snapshot).1.documents = index.documents ++
      (DocumentRecord.newOnes index.uris snapshot.documents).map fun record =>
        (record.uri, record.toTable) := by
  rw [restore_eq]
  exact documents_insertions (DocumentRecord.nodup_newOnes ..) fun _ => DocumentRecord.uri_not_known

theorem uris_restore (index : SymbolIndex) (snapshot : Snapshot) :
    (index.restore snapshot).1.uris = index.uris ++
      (DocumentRecord.newOnes index.uris snapshot.documents).map (·.uri) := by
  rw [uris, documents_restore, List.map_append, List.map_map]
  rfl

/-- There is nothing to restore of documents that are all known. -/
theorem restore_known {snapshot : Snapshot}
    (known : ∀ record ∈ snapshot.documents, record.uri ∈ index.uris) :
    index.restore snapshot = (index, 0) := by
  have none : DocumentRecord.newOnes index.uris snapshot.documents = [] := by
    rw [List.eq_nil_iff_forall_not_mem]
    intro record member
    have named := List.mem_map_of_mem (f := (·.uri)) member
    obtain ⟨listed, new⟩ := DocumentRecord.uri_mem_newOnes.mp named
    obtain ⟨other, found, same⟩ := List.mem_map.mp listed
    exact new (same ▸ known other found)
  rw [restore_eq, none]
  rfl

/-- Under every key the new places come behind the old ones. -/
theorem Coherent.listed_restore (coherent : index.Coherent) (snapshot : Snapshot) (part : SymbolClass)
    (key : String) :
    ((((index.restore snapshot).1.aggregates.get part).get? key).getD [] =
      ((index.aggregates.get part).get? key).getD [] ++
        placesIn ((DocumentRecord.newOnes index.uris snapshot.documents).map fun record =>
          (record.uri, record.toTable)) part key) := by
  rw [(coherent.restore snapshot).listed, coherent.listed, listing_getD, listing_getD,
    documents_restore, placesIn_append]

/-- Whatever is restored into an index after whatever run: each of its documents keeps its table, and in
every list its places stay in their order and in front of those of the restored documents, which come one
document after the other as in the snapshot. These are the documents of the snapshot that were new, each
with the table of its first record, which has the keys as they were recorded less those without spans.
There are no others, the number that is returned is theirs,
by which the index has grown, and the same restoration again does nothing. -/
theorem run_restore (operations : List Operation) (snapshot : Snapshot) :
    let index := run operations
    let merged := (index.restore snapshot).1
    let count := (index.restore snapshot).2
    let newcomers := (snapshot.documents.map (·.uri)).toFinset \ index.uris.toFinset
    let added := (DocumentRecord.newOnes index.uris snapshot.documents).map fun record =>
      (record.uri, record.toTable)
    (∀ uri ∈ index.uris, merged.document? uri = index.document? uri) ∧
    (∀ part key,
      ((merged.aggregates.get part).get? key).getD [] =
        ((index.aggregates.get part).get? key).getD [] ++ placesIn added part key ∧
      (∀ place ∈ ((index.aggregates.get part).get? key).getD [], place.uri ∈ index.uris) ∧
      ∀ place ∈ placesIn added part key, place.uri ∈ newcomers) ∧
    (∀ uri ∈ newcomers, ∃ record, snapshot.documents.find? (·.uri = uri) = some record ∧
      merged.document? uri = some record.toTable ∧
      ∀ part key, (record.toTable.buckets.get part).get? key =
        ((record.buckets.get part).get? key).filter fun spans => !spans.isEmpty) ∧
    merged.uris.toFinset = index.uris.toFinset ∪ newcomers ∧
    count = newcomers.card ∧ merged.documentCount = index.documentCount + count ∧
    merged.restore snapshot = (merged, 0) := by
  intro index merged count newcomers added
  have coherent : index.Coherent := coherent_run operations
  let records := DocumentRecord.newOnes index.uris snapshot.documents
  have uris : merged.uris = index.uris ++ records.map (·.uri) := index.uris_restore snapshot
  have named : (records.map (·.uri)).toFinset = newcomers := by
    ext uri
    rw [List.mem_toFinset, DocumentRecord.uri_mem_newOnes, Finset.mem_sdiff, List.mem_toFinset,
      List.mem_toFinset]
  have counted : count = records.length := congrArg Prod.snd (restore_eq index snapshot)
  refine ⟨fun uri old => ?_, fun part key => ?_, fun uri new => ?_, ?_, ?_, ?_, ?_⟩
  · obtain ⟨table, found⟩ := Option.isSome_iff_exists.mp (contains_iff.mpr old)
    rw [document?_restore, found, Option.some_or]
  · refine ⟨coherent.listed_restore snapshot part key, fun place member => ?_, fun place member => ?_⟩
    · rw [coherent.listed, listing_getD] at member
      obtain ⟨entry, found, -, -, rfl⟩ := mem_placesIn.mp member
      exact List.mem_map_of_mem found
    · obtain ⟨entry, found, -, -, rfl⟩ := mem_placesIn.mp member
      obtain ⟨record, taken, rfl⟩ := List.mem_map.mp found
      rw [← named, List.mem_toFinset]
      exact List.mem_map_of_mem taken
  · obtain ⟨listed, unknown⟩ := Finset.mem_sdiff.mp new
    obtain ⟨other, found, same⟩ := List.mem_map.mp (List.mem_toFinset.mp listed)
    obtain ⟨record, first⟩ : ∃ record, snapshot.documents.find? (·.uri = uri) = some record := by
      rw [← Option.isSome_iff_exists, List.find?_isSome]
      exact ⟨other, found, decide_eq_true same⟩
    have absent : index.document? uri = none := by
      by_contra present
      exact unknown (List.mem_toFinset.mpr (contains_iff.mp (Option.isSome_iff_ne_none.mpr present)))
    refine ⟨record, first, ?_, record.get?_toTable⟩
    rw [document?_restore, absent, first]
    rfl
  · rw [uris, List.toFinset_append, named]
  · rw [counted, ← named, List.toFinset_card_of_nodup (DocumentRecord.nodup_newOnes ..), List.length_map]
  · rw [counted, documentCount, index.documents_restore, List.length_append, List.length_map]
    rfl
  · refine restore_known fun record member => ?_
    have listed : record.uri ∈ (snapshot.documents.map (·.uri)) := List.mem_map_of_mem member
    rw [uris, List.mem_append, DocumentRecord.uri_mem_newOnes]
    by_cases old : record.uri ∈ index.uris
    · exact Or.inl old
    · exact Or.inr ⟨listed, old⟩

/-- One record of a document that is there, two of a new one, the first of them with a key that has no
spans. -/
theorem run_restore_duplicates :
    let span : Span := ⟨⟨0, 0⟩, ⟨0, 1⟩⟩
    let stale : DocumentRecord := ⟨"a.asm", .replicate ∅⟩
    let first : DocumentRecord :=
      ⟨"b.asm", { ByClass.replicate ∅ with valuesSensitive := .ofList [("X", [span]), ("Y", [])] }⟩
    let index := run [.indexText "a.asm" "start:\n"]
    let merged := (index.restore ⟨[stale, first, { stale with uri := "b.asm" }]⟩).1
    merged.document? "a.asm" = index.document? "a.asm" ∧
    merged.document? "b.asm" = some first.toTable ∧
    (first.toTable.buckets.get ⟨.value, .sensitive⟩).get? "X" = some [span] ∧
    (first.toTable.buckets.get ⟨.value, .sensitive⟩).get? "Y" = none ∧
    merged.documentCount = 2 := by
  intro span stale first index merged
  obtain ⟨kept, -, taken, -, count, grown, -⟩ :=
    run_restore [.indexText "a.asm" "start:\n"] ⟨[stale, first, { stale with uri := "b.asm" }]⟩
  obtain ⟨record, found, table, keys⟩ := taken "b.asm" (by decide +kernel)
  obtain rfl : record = first := by
    have earliest : [stale, first, { stale with uri := "b.asm" }].find? (·.uri = "b.asm") =
      some first := by decide +kernel
    exact Option.some.inj (found.symm.trans earliest)
  refine ⟨kept "a.asm" (by decide +kernel), table, ?_, ?_, ?_⟩
  · exact (keys ⟨.value, .sensitive⟩ "X").trans (by decide +kernel)
  · exact (keys ⟨.value, .sensitive⟩ "Y").trans (by decide +kernel)
  · rw [count] at grown
    exact grown.trans (by decide +kernel)

end SymbolIndex
end AssemblySymbols
