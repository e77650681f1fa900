import AssemblySymbols.Proofs.Symbol.Reordering

/-! The kind of a name beside the places that it leads to. A coherent index has no key without places, so
the question whether a key is there and the question what stands under it have one answer. -/
namespace AssemblySymbols.SymbolIndex
variable {index : SymbolIndex} {part : SymbolClass} {policy : CasePolicy} {key : String} {place : Location}

theorem Coherent.contains_iff (coherent : index.Coherent) :
    (index.aggregates.get part).contains key = true ↔
      ((index.aggregates.get part).get? key).getD [] ≠ [] := by
  rw [KeyMap.contains, Option.isSome_iff_ne_none, coherent.listed, listing_getD, ne_eq, ne_eq,
    listing_eq_none_iff]

/-- A place tells the map that it stands in. -/
theorem Coherent.part_of_mem (coherent : index.Coherent)
    (member : place ∈ ((index.aggregates.get part).get? key).getD []) : place.part = part := by
  rw [coherent.listed, listing_getD] at member
  exact part_of_mem_placesIn member

/-- The kind that the maps of a policy know a key by. -/
def kindUnder? (index : SymbolIndex) (policy : CasePolicy) (key : String) : Option Kind :=
  if (index.aggregates.get ⟨.label, policy⟩).contains key then some .label
  else if (index.aggregates.get ⟨.value, policy⟩).contains key then some .value
  else none

theorem kindUnder?_sensitive (index : SymbolIndex) (key : String) :
    index.kindUnder? .sensitive key =
      if index.aggregates.labelsSensitive.contains key then some .label
      else if index.aggregates.valuesSensitive.contains key then some .value
      else none := rfl

theorem kindUnder?_insensitive (index : SymbolIndex) (key : String) :
    index.kindUnder? .insensitive key =
      if index.aggregates.labelsInsensitive.contains key then some .label
      else if index.aggregates.valuesInsensitive.contains key then some .value
      else none := rfl

theorem kindOf?_of_parse {query : String} {name : Name} (parsed : Name.parse? query = some name) :
    index.kindOf? query =
      (if name.marked then none else index.kindUnder? .sensitive name.base).or
        (index.kindUnder? .insensitive (Name.insensitiveKey name.base)) := by
  obtain ⟨base, marked⟩ := name
  rw [kindOf?, parsed, kindUnder?_sensitive, kindUnder?_insensitive]
  cases marked with
  | true => rfl
  | false =>
    simp only [Bool.not_false, Bool.true_and, Bool.false_eq_true, if_false]
    split
    · rfl
    · split <;> rfl

/-- Labels come first, so the first place decides between the kinds. -/
theorem Coherent.kindUnder?_eq (coherent : index.Coherent) (policy : CasePolicy) (key : String) :
    index.kindUnder? policy key = (index.placesUnder policy key).head?.map (·.part.kind) := by
  have first {kind : Kind} {place : Location} {more : List Location}
      (listed : ((index.aggregates.get ⟨kind, policy⟩).get? key).getD [] = place :: more) :
      place.part.kind = kind := by
    have member : place ∈ ((index.aggregates.get ⟨kind, policy⟩).get? key).getD [] :=
      listed ▸ List.mem_cons_self
    rw [coherent.part_of_mem member]
  simp only [kindUnder?, placesUnder, coherent.contains_iff]
  cases labels : ((index.aggregates.get ⟨.label, policy⟩).get? key).getD [] with
  | cons place more => simp [first labels]
  | nil =>
    cases values : ((index.aggregates.get ⟨.value, policy⟩).get? key).getD [] with
    | cons place more => simp [first values]
    | nil => simp

theorem Coherent.kindOf?_eq (coherent : index.Coherent) (query : String) :
    index.kindOf? query = (index.answer query).head?.map (·.part.kind) := by
  cases parsed : Name.parse? query with
  | none => simp only [kindOf?, answer, parsed, List.head?_nil, Option.map_none]
  | some name =>
    obtain ⟨base, marked⟩ := name
    simp only [kindOf?_of_parse parsed, answer, parsed, coherent.kindUnder?_eq]
    cases marked with
    | true => simp
    | false => cases index.placesUnder .sensitive base <;> simp

theorem Coherent.kindOf?_eq_none_iff (coherent : index.Coherent) (query : String) :
    index.kindOf? query = none ↔ index.definitionsOf query = [] := by
  rw [coherent.kindOf?_eq, definitionsOf_eq, Option.map_eq_none_iff, List.head?_eq_none_iff,
    List.map_eq_nil_iff]

/-- What a query leads to stands under one key of one policy, if it leads anywhere. -/
theorem answer_cases (index : SymbolIndex) (query : String) :
    index.answer query = [] ∨ ∃ policy key, index.answer query = index.placesUnder policy key := by
  unfold answer
  cases Name.parse? query with
  | none => exact Or.inl rfl
  | some name =>
    dsimp only
    split
    · exact Or.inr ⟨_, _, rfl⟩
    · exact Or.inr ⟨_, _, rfl⟩

theorem Coherent.mem_answer (coherent : index.Coherent) {query : String}
    (member : place ∈ index.answer query) :
    ∃ key places, (index.aggregates.get place.part).get? key = some places ∧ place ∈ places := by
  have stands {kind : Kind} {policy : CasePolicy} {key : String}
      (member : place ∈ ((index.aggregates.get ⟨kind, policy⟩).get? key).getD []) :
      ∃ key places, (index.aggregates.get place.part).get? key = some places ∧ place ∈ places := by
    rw [coherent.part_of_mem member]
    cases found : (index.aggregates.get ⟨kind, policy⟩).get? key with
    | none => simp [found] at member
    | some places => exact ⟨key, places, found, by simpa [found] using member⟩
  rcases index.answer_cases query with empty | ⟨policy, key, under⟩
  · simp [empty] at member
  · rw [under, placesUnder] at member
    rcases List.mem_append.mp member with label | value
    · exact stands label
    · exact stands value

/-- A value comes first only where there is no label. -/
theorem Coherent.head?_eq_value_iff (coherent : index.Coherent) (query : String) :
    (index.answer query).head?.map (·.part.kind) = some .value ↔
      index.answer query ≠ [] ∧ ∀ place ∈ index.answer query, place.part.kind ≠ .label := by
  constructor
  · intro value
    obtain ⟨first, head, kind⟩ := Option.map_eq_some_iff.mp value
    have some_places : index.answer query ≠ [] := by
      rintro none
      simp [none] at head
    refine ⟨some_places, fun place member labelled => ?_⟩
    obtain ⟨policy, key, under⟩ := (index.answer_cases query).resolve_left some_places
    rw [under, placesUnder] at head member
    rcases List.mem_append.mp member with label | later
    · obtain ⟨label, more, labels⟩ := List.exists_cons_of_ne_nil (List.ne_nil_of_mem label)
      rw [labels, List.cons_append, List.head?_cons] at head
      cases head
      rw [coherent.part_of_mem (labels ▸ List.mem_cons_self)] at kind
      contradiction
    · rw [coherent.part_of_mem later] at labelled
      contradiction
  · rintro ⟨some_places, values⟩
    obtain ⟨first, more, listed⟩ := List.exists_cons_of_ne_nil some_places
    rw [listed, List.head?_cons, Option.map_some]
    have kind := values first (listed ▸ List.mem_cons_self)
    cases same : first.part.kind with
    | label => contradiction
    | value => rfl

end AssemblySymbols.SymbolIndex
