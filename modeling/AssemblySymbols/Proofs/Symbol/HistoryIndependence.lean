import AssemblySymbols.Proofs.Symbol.Operations
import AssemblySymbols.Proofs.Symbol.Reordering
import AssemblySymbols.Symbol.SnapshotFormat
import Mathlib

/-! The way to an index does not show. Two runs that end with the same tables give indexes with the same
counts, the same kinds, the same places for every query and the same snapshot, whatever documents have
come, changed and gone in between. -/
namespace AssemblySymbols

namespace KeyMap
variable {α : Type}

theorem get?_eq_none_iff {map : KeyMap α} {key : String} : map.get? key = none ↔ key ∉ map.keys := by
  rw [get?, find?_eq_lookup, List.lookup_eq_none_iff, keys, List.mem_map, not_exists]
  refine forall_congr' fun entry => ?_
  rw [bne_iff_ne, not_and, ne_comm]

theorem get?_of_mem {map : KeyMap α} {entry : String × α} (member : entry ∈ map.entries) :
    map.get? entry.1 = some entry.2 := by
  rw [get?, find?_eq_lookup]
  exact lookup_of_mem map.nodup_keys member

/-- How long the lists of a map are together. -/
def totalLength (map : KeyMap (List α)) : Nat := (map.entries.map (·.2.length)).sum

/-- The lists may be counted along any keys, as long as these cover the map. -/
theorem totalLength_eq_sum (map : KeyMap (List α)) {keys : Finset String}
    (covered : map.keys.toFinset ⊆ keys) :
    map.totalLength = ∑ key ∈ keys, ((map.get? key).getD []).length := by
  have outside : ∀ key ∈ keys, key ∉ map.keys.toFinset → ((map.get? key).getD []).length = 0 := by
    intro key _ absent
    rw [get?_eq_none_iff.mpr fun listed => absent (List.mem_toFinset.mpr listed)]
    rfl
  rw [← Finset.sum_subset covered outside, List.sum_toFinset _ map.nodup_keys, KeyMap.keys,
    List.map_map, totalLength]
  refine congrArg List.sum (List.map_congr_left fun entry member => ?_)
  rw [Function.comp_apply, get?_of_mem member, Option.getD_some]

end KeyMap

theorem SymbolTable.definitionCount_eq (table : SymbolTable) :
    table.definitionCount =
      (SymbolClass.all.map fun part => (table.buckets.get part).totalLength).sum := by
  have bucket (bucket : Bucket) : bucketCount bucket = bucket.totalLength := by
    rw [bucketCount, KeyMap.totalLength, List.sum_eq_foldr, List.foldr_map]
  rw [definitionCount, ByClass.toList, List.foldr_map, List.sum_eq_foldr, List.foldr_map]
  simp only [bucket]

/-- Counting key by key across the documents is counting document by document across the keys. -/
theorem sum_length_placesIn (documents : List (String × SymbolTable)) (part : SymbolClass)
    {keys : Finset String}
    (covered : ∀ entry ∈ documents, (entry.2.buckets.get part).keys.toFinset ⊆ keys) :
    ∑ key ∈ keys, (placesIn documents part key).length =
      (documents.map fun entry => (entry.2.buckets.get part).totalLength).sum := by
  induction documents with
  | nil => simp [placesIn]
  | cons entry rest ih =>
    obtain ⟨own, others⟩ := List.forall_mem_cons.mp covered
    have split (key : String) : (placesIn (entry :: rest) part key).length =
        (((entry.2.buckets.get part).get? key).getD []).length +
          (placesIn rest part key).length := by
      rw [← List.singleton_append, placesIn_append, List.length_append]
      simp [placesIn, SymbolTable.spansOf]
    simp only [split, Finset.sum_add_distrib, ih others, ← KeyMap.totalLength_eq_sum _ own,
      List.map_cons, List.sum_cons]

namespace SymbolIndex

/-- How many places the aggregated maps list together. -/
def listedCount (index : SymbolIndex) : Nat :=
  (SymbolClass.all.map fun part => (index.aggregates.get part).totalLength).sum

theorem Coherent.totalLength_eq {index : SymbolIndex} (coherent : index.Coherent)
    (part : SymbolClass) :
    (index.aggregates.get part).totalLength =
      (index.documents.map fun entry => (entry.2.buckets.get part).totalLength).sum := by
  let keys : Finset String := (index.aggregates.get part).keys.toFinset ∪
    (index.documents.flatMap fun entry => (entry.2.buckets.get part).keys).toFinset
  have covered : ∀ entry ∈ index.documents, (entry.2.buckets.get part).keys.toFinset ⊆ keys := by
    intro entry member key listed
    refine Finset.mem_union_right _ (List.mem_toFinset.mpr (List.mem_flatMap.mpr ⟨entry, member, ?_⟩))
    exact List.mem_toFinset.mp listed
  have listed : (index.aggregates.get part).keys.toFinset ⊆ keys := Finset.subset_union_left
  have aggregate := (index.aggregates.get part).totalLength_eq_sum listed
  simp only [coherent.listed, listing_getD] at aggregate
  rw [aggregate, sum_length_placesIn index.documents part covered]

/-- Every definition of every table is listed once. -/
theorem Coherent.definitionCount_eq {index : SymbolIndex} (coherent : index.Coherent) :
    index.definitionCount = index.listedCount := by
  have tables : index.definitionCount = (index.documents.map (·.2.definitionCount)).sum := by
    rw [SymbolIndex.definitionCount, List.sum_eq_foldr, List.foldr_map]
  rw [tables, listedCount]
  simp only [coherent.totalLength_eq, SymbolTable.definitionCount_eq]
  simp only [SymbolClass.all, List.map_cons, List.map_nil, List.sum_cons, List.sum_nil,
    List.sum_map_add, List.sum_map_zero]

theorem snapshot_ascending (index : SymbolIndex) :
    (index.snapshot.documents.map (·.uri)).Pairwise (· < ·) := by
  rw [snapshot, List.map_map, List.pairwise_map]
  exact (KeyMap.ofList index.documents).ascending

/-- The indexes cannot be told apart but by the order in which they list places. -/
structure Alike (index other : SymbolIndex) : Prop where
  documentCount : index.documentCount = other.documentCount
  definitionCount : index.definitionCount = other.definitionCount
  kindOf? : ∀ query, index.kindOf? query = other.kindOf? query
  definitionsOf : ∀ query, (index.definitionsOf query).Perm (other.definitionsOf query)
  text : index.snapshot.text = other.snapshot.text

theorem Reordered.alike {index other : SymbolIndex} (reordered : Reordered index other) :
    index.Alike other :=
  ⟨reordered.documentCount, reordered.definitionCount, reordered.kindOf?, reordered.definitionsOf,
    congrArg Snapshot.text reordered.snapshot⟩

/-- Runs that end with the same tables give indexes that are alike, and each definition that an index
counts is listed once. A text that a document has already may be indexed again without a trace. -/
theorem run_history_independent (operations others : List Operation)
    (same : ∀ uri, (run operations).document? uri = (run others).document? uri) :
    (run operations).Alike (run others) ∧
    (run operations).definitionCount = (run operations).listedCount ∧
    ((run operations).snapshot.documents.map (·.uri)).Pairwise (· < ·) ∧
    ∀ uri text, (run operations).document? uri = some (.ofText text) →
      (run (operations ++ [.indexText uri text])).Alike (run operations) := by
  have alike (one another : List Operation)
      (same : ∀ uri, (run one).document? uri = (run another).document? uri) :
      (run one).Alike (run another) :=
    (Reordered.of_document? (coherent_run one) (coherent_run another) same).alike
  refine ⟨alike operations others same, (coherent_run operations).definitionCount_eq,
    snapshot_ascending _, fun uri text indexed => alike _ _ fun asked => ?_⟩
  have again : run (operations ++ [.indexText uri text]) = (run operations).indexText uri text :=
    List.foldl_append
  rw [again, indexText, document?_replace]
  split
  · next own => rw [own, indexed]
  · rfl

/-- One run goes straight to its two documents. The other takes one of them away in between, restores
an older table of the other and comes to the same tables in the other order. -/
theorem run_history_independent_detour :
    let a := "file:///a.asm"
    let b := "file:///b.asm"
    let straight : List Operation := [.indexText a "start:\n", .indexText b "start:\nlimit = 4\n"]
    let detour : List Operation :=
      [.indexText a "begin:\n", .restore (run [.indexText b "begin:\n"]).snapshot, .remove a,
        .indexText b "start:\nlimit = 4\n", .indexText a "start:\n"]
    (∀ uri, (run straight).document? uri = (run detour).document? uri) ∧
    run straight ≠ run detour ∧
    (run straight).Alike (run detour) := by
  intro a b straight detour
  let start := SymbolTable.ofText "start:\n"
  let limit := SymbolTable.ofText "start:\nlimit = 4\n"
  have first : (run straight).documents = [(a, start), (b, limit)] := by decide +kernel
  have second : (run detour).documents = [(b, limit), (a, start)] := by decide +kernel
  have reordered : Reordered (run straight) (run detour) :=
    ⟨coherent_run straight, coherent_run detour, by rw [first, second]; exact .swap ..⟩
  have same := reordered.document?
  have order : (run straight).uris ≠ (run detour).uris := by
    rw [uris, uris, first, second]
    decide
  exact ⟨same, fun equal => order (congrArg uris equal),
    (run_history_independent straight detour same).1⟩

end SymbolIndex
end AssemblySymbols
