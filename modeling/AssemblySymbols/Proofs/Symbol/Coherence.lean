import AssemblySymbols.Proofs.Symbol.Operations

/-! The aggregated maps agree with the tables of the documents after every run: under each key stands
what the documents define there, document after document, and a key that no document defines is absent.
-/
namespace AssemblySymbols

/-- What documents define under a key of a class, document after document. -/
def placesIn (documents : List (String × SymbolTable)) (part : SymbolClass) (key : String) :
    List Location :=
  documents.flatMap fun (uri, table) => (table.spansOf part key).map (⟨uri, ·, part⟩)

/-- A list of places as an aggregated map keeps it, which has no key for an empty one. -/
def listing (places : List Location) : Option (List Location) :=
  if places = [] then none else some places

@[simp] theorem listing_getD (places : List Location) : (listing places).getD [] = places := by
  unfold listing
  split
  · next empty => exact empty.symm
  · rfl

@[simp] theorem listing_eq_none_iff {places : List Location} : listing places = none ↔ places = [] := by
  unfold listing
  split <;> simp_all

theorem listing_ne_some_nil {places : List Location} : listing places ≠ some [] := by
  unfold listing
  split <;> simp_all

theorem listing_filter (places : List Location) (keep : Location → Bool) :
    ((listing places).map (·.filter keep)).filter (fun kept => !kept.isEmpty) =
      listing (places.filter keep) := by
  unfold listing
  by_cases none : places = []
  · simp [none]
  · by_cases left : places.filter keep = []
    · simp [none, left]
    · simp [none, left, Option.filter]

/-- A place is a span in the table of its document. -/
theorem mem_placesIn {documents : List (String × SymbolTable)} {part : SymbolClass} {key : String}
    {place : Location} :
    place ∈ placesIn documents part key ↔
      ∃ entry ∈ documents, ∃ span ∈ entry.2.spansOf part key, place = ⟨entry.1, span, part⟩ := by
  rw [placesIn, List.mem_flatMap]
  refine exists_congr fun entry => and_congr_right fun _ => ?_
  rw [List.mem_map]
  exact exists_congr fun span => and_congr_right fun _ => eq_comm

theorem part_of_mem_placesIn {documents : List (String × SymbolTable)} {part : SymbolClass}
    {key : String} {place : Location} (member : place ∈ placesIn documents part key) :
    place.part = part := by
  obtain ⟨entry, -, span, -, rfl⟩ := mem_placesIn.mp member
  rfl

theorem placesIn_append (documents more : List (String × SymbolTable)) (part : SymbolClass)
    (key : String) :
    placesIn (documents ++ more) part key = placesIn documents part key ++ placesIn more part key :=
  List.flatMap_append

/-- The places of a document carry its name, so they can be told from those of all others. -/
theorem placesIn_filter (documents : List (String × SymbolTable)) (part : SymbolClass)
    (key uri : String) :
    placesIn (documents.filter (·.1 ≠ uri)) part key =
      (placesIn documents part key).filter (·.uri ≠ uri) := by
  induction documents with
  | nil => rfl
  | cons entry rest ih =>
    have split : placesIn (entry :: rest) part key =
        (entry.2.spansOf part key).map (⟨entry.1, ·, part⟩) ++ placesIn rest part key := rfl
    rw [split, List.filter_append, ← ih]
    by_cases own : entry.1 = uri
    · simp [own]
    · have kept : ((entry.2.spansOf part key).map (Location.mk entry.1 · part)).filter (·.uri ≠ uri) =
          (entry.2.spansOf part key).map (Location.mk entry.1 · part) := by
        rw [List.filter_eq_self]
        intro location member
        obtain ⟨span, _, rfl⟩ := List.mem_map.mp member
        exact decide_eq_true own
      rw [List.filter_cons_of_pos (by simpa using own), kept]
      rfl

namespace SymbolIndex

/-- The aggregated maps hold what the documents define and nothing else. -/
structure Coherent (index : SymbolIndex) : Prop where
  distinct : index.uris.Nodup
  compact : ∀ entry ∈ index.documents, entry.2.Compact
  listed : ∀ part key, (index.aggregates.get part).get? key = listing (placesIn index.documents part key)

theorem coherent_empty : empty.Coherent where
  distinct := .nil
  compact _ member := nomatch member
  listed part key := by
    obtain ⟨kind, policy⟩ := part
    cases kind <;> cases policy <;> rfl

/-- A coherent index is determined by its documents. -/
theorem Coherent.ext {index other : SymbolIndex} (coherent : index.Coherent) (coherent' : other.Coherent)
    (same : index.documents = other.documents) : index = other := by
  have aggregates : index.aggregates = other.aggregates := by
    apply ByClass.ext_get
    intro part
    apply KeyMap.ext_get?
    intro key
    rw [coherent.listed, coherent'.listed, same]
  cases index
  cases other
  exact congr (congrArg SymbolIndex.mk same) aggregates

theorem get?_withdraw (uri : String) (bucket : Bucket) (aggregate : Aggregate) (key : String) :
    (aggregate.withdraw uri bucket).get? key =
      (bucket.get? key).elim (aggregate.get? key) fun _ =>
        ((aggregate.get? key).map (·.filter (·.uri ≠ uri))).filter fun kept => !kept.isEmpty := by
  rw [Aggregate.withdraw, KeyMap.keys, List.foldl_map]
  exact KeyMap.get?_foldl_alter (fun old _ =>
    (old.map (·.filter (·.uri ≠ uri))).filter fun kept => !kept.isEmpty) aggregate bucket key

theorem get?_contribute (uri : String) (part : SymbolClass) (bucket : Bucket) (aggregate : Aggregate)
    (key : String) :
    (aggregate.contribute uri part bucket).get? key =
      (bucket.get? key).elim (aggregate.get? key) fun spans =>
        some ((aggregate.get? key).getD [] ++ Aggregate.locations uri part spans) :=
  KeyMap.get?_foldl_alter (fun old spans =>
    some (old.getD [] ++ Aggregate.locations uri part spans)) aggregate bucket key

/-- Of a key that a document's own table lacks no place is in this document. -/
theorem Coherent.places_elsewhere {index : SymbolIndex} (coherent : index.Coherent) {uri : String}
    {part : SymbolClass} {key : String}
    (lacks : ∀ table, index.document? uri = some table → (table.buckets.get part).get? key = none) :
    (placesIn index.documents part key).filter (·.uri ≠ uri) = placesIn index.documents part key := by
  rw [List.filter_eq_self]
  intro location member
  obtain ⟨entry, entryMember, span, spanMember, rfl⟩ := mem_placesIn.mp member
  refine decide_eq_true fun same : entry.1 = uri => ?_
  have looked := lookup_of_mem coherent.distinct entryMember
  have own := lacks entry.2 ((congrArg index.document? same.symm).trans looked)
  rw [SymbolTable.spansOf, own] at spanMember
  exact absurd spanMember List.not_mem_nil

/-- Only the keys of the document's own table are looked at, and that is enough: its places stand
nowhere else. -/
theorem Coherent.remove {index : SymbolIndex} (coherent : index.Coherent) (uri : String) :
    (index.remove uri).Coherent where
  distinct := by
    have kept : (index.remove uri).uris.Sublist index.uris := by
      rw [uris, uris, documents_remove]
      exact List.filter_sublist.map _
    exact coherent.distinct.sublist kept
  compact entry member := by
    rw [documents_remove] at member
    exact coherent.compact entry (List.mem_filter.mp member).1
  listed part key := by
    rw [documents_remove, placesIn_filter]
    cases found : index.document? uri with
    | none =>
      have unchanged : index.remove uri = index := by simp only [SymbolIndex.remove, found]
      rw [coherent.places_elsewhere (by simp [found]), unchanged, coherent.listed]
    | some table =>
      have removed : (index.remove uri).aggregates.get part =
          (index.aggregates.get part).withdraw uri (table.buckets.get part) := by
        simp only [SymbolIndex.remove, found, ByClass.get_ofFn]
      rw [removed, get?_withdraw]
      cases own : (table.buckets.get part).get? key with
      | some spans => simp only [Option.elim_some, coherent.listed, listing_filter]
      | none =>
        have lacks (other : SymbolTable) (there : index.document? uri = some other) :
            (other.buckets.get part).get? key = none := by
          cases found.symm.trans there
          exact own
        have elsewhere := coherent.places_elsewhere lacks
        simp only [Option.elim_none, coherent.listed, elsewhere]

theorem Coherent.replace {index : SymbolIndex} (coherent : index.Coherent) (uri : String)
    {table : SymbolTable} (compact : table.Compact) : (index.replace uri table).Coherent := by
  have rest := coherent.remove uri
  have documents : (index.replace uri table).documents =
      (index.remove uri).documents ++ [(uri, table)] := rfl
  refine ⟨?_, ?_, ?_⟩
  · rw [uris, documents, List.map_append]
    refine List.nodup_append.mpr ⟨rest.distinct, List.pairwise_singleton .., ?_⟩
    intro other member uri' member' same
    rw [documents_remove] at member
    obtain ⟨entry, entryMember, rfl⟩ := List.mem_map.mp member
    have different : entry.1 ≠ uri := by simpa using (List.mem_filter.mp entryMember).2
    exact different (same.trans (List.mem_singleton.mp member'))
  · intro entry member
    rw [documents] at member
    rcases List.mem_append.mp member with old | new
    · exact rest.compact entry old
    · rw [List.mem_singleton.mp new]
      exact compact
  · intro part key
    have contributed : (index.replace uri table).aggregates.get part =
        ((index.remove uri).aggregates.get part).contribute uri part (table.buckets.get part) := by
      simp only [SymbolIndex.replace, ByClass.get_ofFn]
    have own : placesIn [(uri, table)] part key = (table.spansOf part key).map (⟨uri, ·, part⟩) :=
      List.append_nil _
    rw [contributed, get?_contribute, documents, placesIn_append, rest.listed, own, SymbolTable.spansOf]
    cases found : (table.buckets.get part).get? key with
    | none => simp
    | some spans =>
      have some_spans : spans ≠ [] := fun none => compact part key (none ▸ found)
      simp only [Option.elim_some, listing_getD, Option.getD_some]
      simp [listing, Aggregate.locations, some_spans]

theorem Coherent.applyChanges {index : SymbolIndex} (coherent : index.Coherent)
    {changes : List (Change SymbolTable)}
    (compact : ∀ uri table, .put uri table ∈ changes → table.Compact) :
    (index.applyChanges changes).Coherent := by
  induction changes generalizing index with
  | nil => exact coherent
  | cons change later ih =>
    refine ih ?_ fun uri table member => compact uri table (List.mem_cons_of_mem _ member)
    cases change with
    | put uri table => exact coherent.replace uri (compact uri table List.mem_cons_self)
    | drop uri => exact coherent.remove uri

theorem compact_of_mem_changes {known : List String} {operation : Operation} {uri : String}
    {table : SymbolTable} (member : .put uri table ∈ operation.changes known) : table.Compact := by
  cases operation with
  | indexText uri text =>
    cases List.mem_singleton.mp member
    exact SymbolTable.compact_ofText text
  | replace uri additions =>
    cases List.mem_singleton.mp member
    exact SymbolTable.compact_ofAdditions additions
  | remove uri => cases List.mem_singleton.mp member
  | restore snapshot =>
    obtain ⟨record, _, same⟩ := List.mem_map.mp member
    cases same
    exact SymbolTable.compact_toTable record

theorem compact_of_mem_history {operations : List Operation} {uri : String} {table : SymbolTable}
    (member : .put uri table ∈ history operations) : table.Compact := by
  induction operations using List.reverseRecOn with
  | nil => exact nomatch member
  | append_singleton earlier last ih =>
    rw [history, List.foldl_append, ← history] at member
    rcases List.mem_append.mp member with old | new
    · exact ih old
    · exact compact_of_mem_changes new

theorem coherent_run (operations : List Operation) : (run operations).Coherent :=
  run_eq operations ▸ coherent_empty.applyChanges fun _ _ => compact_of_mem_history

/-- After every run and for every class and key, the aggregated map lists what the documents define
there, in the order in which they were last inserted, each place with its document and its class; the
key is absent exactly if they define nothing there. -/
theorem run_aggregates (operations : List Operation) :
    let documents := Change.live (history operations)
    (run operations).documents = documents ∧
    ∀ part key,
      let places := documents.flatMap fun (uri, table) =>
        (((table.buckets.get part).get? key).getD []).map fun span => (⟨uri, span, part⟩ : Location)
      let listed := ((run operations).aggregates.get part).get? key
      listed.getD [] = places ∧ (listed = none ↔ places = []) ∧ listed ≠ some [] := by
  have documents : (run operations).documents = Change.live (history operations) := by
    rw [run_eq, documents_applyChanges]
  refine ⟨documents, fun part key => ?_⟩
  have listed := (coherent_run operations).listed part key
  rw [documents] at listed
  simp only [listed]
  exact ⟨listing_getD _, listing_eq_none_iff, listing_ne_some_nil⟩

end SymbolIndex
end AssemblySymbols
