import AssemblySymbols.Proofs.Symbol.Reordering
import AssemblySymbols.Proofs.Symbol.SnapshotText
import Mathlib.Data.List.Nodup

/-! An index that is restored from the text of a snapshot. It holds the tables of the index that the
snapshot was taken of, in ascending order of their names, and answers as that one does. -/
namespace AssemblySymbols

namespace DocumentRecord

theorem toTable_ofTable {table : SymbolTable} (compact : table.Compact) (uri : String) :
    (ofTable uri table).toTable = table := by
  have same : (ofTable uri table).toTable.buckets = table.buckets := by
    apply ByClass.ext_get
    intro part
    apply KeyMap.ext_get?
    intro key
    rw [get?_toTable, ofTable]
    cases found : (table.buckets.get part).get? key with
    | none => rfl
    | some spans =>
      have some_spans : spans ≠ [] := fun none => compact part key (none ▸ found)
      simp [Option.filter, some_spans]
  exact congrArg SymbolTable.mk same

theorem newOnes_of_distinct {known : List String} {records : List DocumentRecord}
    (distinct : (records.map (·.uri)).Nodup) (new : ∀ record ∈ records, record.uri ∉ known) :
    newOnes known records = records := by
  induction records generalizing known with
  | nil => rfl
  | cons record rest ih =>
    obtain ⟨unlike, distinct⟩ := List.nodup_cons.mp distinct
    rw [newOnes, if_neg (new record List.mem_cons_self), ih distinct]
    intro other member
    rw [List.mem_cons]
    rintro (same | old)
    · exact unlike (List.mem_map.mpr ⟨other, member, same⟩)
    · exact new other (List.mem_cons_of_mem _ member) old

end DocumentRecord

theorem Change.live_puts {α : Type} {entries : List (String × α)}
    (distinct : (entries.map (·.1)).Nodup) :
    live (entries.map fun entry => .put entry.1 entry.2) = entries := by
  induction entries with
  | nil => rfl
  | cons entry rest ih =>
    obtain ⟨new, distinct⟩ := List.nodup_cons.mp distinct
    have last : (rest.map fun entry => Change.put entry.1 entry.2).any (·.uri = entry.1) = false := by
      rw [List.any_eq_false]
      intro change member same
      obtain ⟨other, found, rfl⟩ := List.mem_map.mp member
      exact new (List.mem_map.mpr ⟨other, found, of_decide_eq_true same⟩)
    rw [List.map_cons, live, last, if_neg Bool.false_ne_true, ih distinct]

namespace KeyMap
variable {α : Type}

/-- Sorting entries of distinct keys loses none of them. -/
theorem perm_ofList {entries : List (String × α)} (distinct : (entries.map (·.1)).Nodup) :
    (ofList entries).entries.Perm entries := by
  refine perm_of_lookup (ofList entries).nodup_keys distinct fun key => ?_
  rw [← find?_eq_lookup]
  exact get?_ofList distinct key

end KeyMap

namespace SymbolIndex

/-- A restoration leaves what is there and takes the first record of every other document. -/
theorem document?_restore (index : SymbolIndex) (snapshot : Snapshot) (uri : String) :
    (index.restore snapshot).1.document? uri =
      (index.document? uri).or
        ((snapshot.documents.find? (·.uri = uri)).map DocumentRecord.toTable) := by
  suffices general : ∀ (records : List DocumentRecord) (progress : SymbolIndex × Nat),
      (records.foldl (fun progress record =>
        if progress.1.contains record.uri then progress
        else (progress.1.replace record.uri record.toTable, progress.2 + 1)) progress).1.document? uri =
      (progress.1.document? uri).or ((records.find? (·.uri = uri)).map DocumentRecord.toTable) by
    exact general snapshot.documents (index, 0)
  intro records
  induction records with
  | nil => simp
  | cons record rest ih =>
    rintro ⟨index, restored⟩
    rw [List.foldl_cons, ih, List.find?_cons]
    by_cases own : record.uri = uri
    · subst own
      cases found : index.document? record.uri with
      | none => simp [contains, found, document?_replace]
      | some table => simp [contains, found]
    · by_cases known : index.contains record.uri
      · simp [known, own]
      · simp [known, own, document?_replace, Ne.symm own]

theorem document?_restore_empty (snapshot : Snapshot) (uri : String) :
    (empty.restore snapshot).1.document? uri =
      (snapshot.documents.find? (·.uri = uri)).map DocumentRecord.toTable :=
  document?_restore empty snapshot uri

theorem Coherent.restore {index : SymbolIndex} (coherent : index.Coherent) (snapshot : Snapshot) :
    (index.restore snapshot).1.Coherent := by
  rw [restore_eq]
  refine coherent.applyChanges fun uri table member => ?_
  obtain ⟨record, _, same⟩ := List.mem_map.mp member
  cases same
  exact SymbolTable.compact_toTable record

/-- A new index that takes over a snapshot of a coherent one. -/
theorem restore_snapshot {index : SymbolIndex} (coherent : index.Coherent) :
    Reordered (empty.restore index.snapshot).1 index ∧
      (empty.restore index.snapshot).2 = index.documentCount := by
  let sorted := (KeyMap.ofList index.documents).entries
  have perm : sorted.Perm index.documents := KeyMap.perm_ofList coherent.distinct
  have distinct : (sorted.map (·.1)).Nodup := (KeyMap.ofList index.documents).nodup_keys
  let records := sorted.map fun entry => DocumentRecord.ofTable entry.1 entry.2
  have uris : records.map (·.uri) = sorted.map (·.1) := List.map_map
  have all : DocumentRecord.newOnes empty.uris records = records :=
    DocumentRecord.newOnes_of_distinct (uris ▸ distinct) fun _ _ => List.not_mem_nil
  have changes : records.map DocumentRecord.change = sorted.map fun entry => .put entry.1 entry.2 := by
    refine List.map_map.trans (List.map_congr_left fun entry member => ?_)
    have compact := coherent.compact entry (perm.subset member)
    exact congrArg (Change.put entry.1) (DocumentRecord.toTable_ofTable compact entry.1)
  have restored : empty.restore index.snapshot =
      (empty.applyChanges (sorted.map fun entry => .put entry.1 entry.2), records.length) := by
    have taken := restore_eq empty index.snapshot
    rwa [show index.snapshot.documents = records from rfl, all, changes] at taken
  have documents : (empty.restore index.snapshot).1.documents = sorted := by
    rw [restored, documents_applyChanges, Change.live_puts distinct]
  refine ⟨⟨coherent_run [.restore index.snapshot], coherent, documents ▸ perm⟩, ?_⟩
  rw [restored, documentCount, ← perm.length_eq]
  exact List.length_map _

/-- The text of a snapshot brings back the index after every run: its tables and counts, the kind of
every name and every place that a query leads to. The places of one document keep their order, those of
labels and those of values. -/
theorem restore_ofText?_text (operations : List Operation) :
    let index := run operations
    ∃ snapshot, Snapshot.ofText? index.snapshot.text = some snapshot ∧
      let restored := (empty.restore snapshot).1
      (empty.restore snapshot).2 = index.documentCount ∧
      (∀ uri, restored.document? uri = index.document? uri) ∧
      restored.definitionCount = index.definitionCount ∧
      (∀ query, restored.kindOf? query = index.kindOf? query) ∧
      (∀ query, (restored.definitionsOf query).Perm (index.definitionsOf query) ∧
        restored.definitionsOf query = (restored.answer query).map Location.site ∧
        index.definitionsOf query = (index.answer query).map Location.site ∧
        ∀ uri kind,
          (restored.answer query).filter (fun place => place.uri = uri ∧ place.part.kind = kind) =
            (index.answer query).filter (fun place => place.uri = uri ∧ place.part.kind = kind)) ∧
      restored.snapshot.text = index.snapshot.text := by
  intro index
  obtain ⟨reordered, count⟩ := restore_snapshot (coherent_run operations)
  refine ⟨index.snapshot, index.snapshot.ofText?_text, count, reordered.document?,
    reordered.definitionCount, reordered.kindOf?, fun query => ?_, ?_⟩
  · obtain ⟨perm, ofDocument⟩ := reordered.answer query
    refine ⟨?_, definitionsOf_eq _ query, definitionsOf_eq _ query, fun uri kind => ?_⟩
    · rw [definitionsOf_eq, definitionsOf_eq]
      exact perm.map Location.site
    have both (places : List Location) :
        places.filter (fun place => place.uri = uri ∧ place.part.kind = kind) =
          (places.filter (·.uri = uri)).filter (·.part.kind = kind) := by
      rw [List.filter_filter]
      exact List.filter_congr fun place _ => by rw [Bool.decide_and, Bool.and_comm]
    rw [both, both, ofDocument]
  · rw [reordered.snapshot]

end SymbolIndex
end AssemblySymbols
