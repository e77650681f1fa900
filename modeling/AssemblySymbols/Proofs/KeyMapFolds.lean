import AssemblySymbols.KeyMap

/-! Look-ups in maps that are built from the entries of another map. -/
namespace AssemblySymbols.KeyMap
variable {α β : Type}

theorem find?_filter (keep : α → Bool) (key : String) {entries : List (String × α)}
    (ascending : entries.Pairwise fun a b => a.1 < b.1) :
    find? key (entries.filter fun entry => keep entry.2) = (find? key entries).filter keep := by
  induction entries with
  | nil => rfl
  | cons head rest ih =>
    obtain ⟨below, sorted⟩ := List.pairwise_cons.mp ascending
    by_cases same : key = head.1
    · have absent : find? key (rest.filter fun entry => keep entry.2) = none :=
        find?_eq_none_of_lt fun entry member => same ▸ below entry ((List.mem_filter.mp member).1)
      by_cases kept : keep head.2
      · simp [find?, same, kept, Option.filter]
      · simpa [find?, ← same, kept, Option.filter] using absent
    · by_cases kept : keep head.2
      · simpa [find?, same, kept] using ih sorted
      · simpa [find?, same, kept] using ih sorted

@[simp] theorem get?_filterValues (map : KeyMap α) (keep : α → Bool) (key : String) :
    (map.filterValues keep).get? key = (map.get? key).filter keep :=
  find?_filter keep key map.ascending

/-- Each key of `other` is changed once and with its own value, so the order of the entries does not
show. -/
theorem get?_foldl_alter (step : Option α → β → Option α) (map : KeyMap α) (other : KeyMap β)
    (key : String) :
    (other.entries.foldl (fun map entry => map.alter entry.1 fun old => step old entry.2) map).get? key =
      (other.get? key).elim (map.get? key) (step (map.get? key)) := by
  obtain ⟨entries, ascending⟩ := other
  simp only [get?]
  induction entries generalizing map with
  | nil => rfl
  | cons head rest ih =>
    obtain ⟨below, sorted⟩ := List.pairwise_cons.mp ascending
    have passed := ih (map.alter head.1 fun old => step old head.2) sorted
    have altered := get?_alter map head.1 (fun old => step old head.2) key
    simp only [get?] at altered
    rw [List.foldl_cons, passed, altered]
    by_cases same : key = head.1
    · have absent : find? key rest = none :=
        find?_eq_none_of_lt fun entry member => same ▸ below entry member
      simp [find?, ← same, absent]
    · simp only [find?, same, if_false]

theorem find?_eq_lookup (key : String) (entries : List (String × α)) :
    find? key entries = entries.lookup key := by
  induction entries with
  | nil => rfl
  | cons head rest ih =>
    rw [find?, List.lookup_cons, ih]
    by_cases same : key = head.1
    · rw [if_pos same, beq_iff_eq.mpr same]
    · rw [if_neg same, beq_eq_false_iff_ne.mpr same]

theorem get?_foldl_insert {entries : List (String × α)} (distinct : (entries.map (·.1)).Nodup)
    (map : KeyMap α) (key : String) :
    (entries.foldl (fun map entry => map.insert entry.1 entry.2) map).get? key =
      (entries.lookup key).or (map.get? key) := by
  induction entries generalizing map with
  | nil => rfl
  | cons head rest ih =>
    obtain ⟨new, distinct⟩ := List.nodup_cons.mp distinct
    rw [List.foldl_cons, ih distinct, get?_insert, List.lookup_cons]
    by_cases same : key = head.1
    · have absent : rest.lookup key = none := by
        rw [List.lookup_eq_none_iff]
        intro entry member
        rw [bne_iff_ne]
        intro again
        exact new (List.mem_map.mpr ⟨entry, member, again.symm.trans same⟩)
      rw [absent, if_pos same, beq_iff_eq.mpr same]
      rfl
    · rw [if_neg same, beq_eq_false_iff_ne.mpr same]

/-- A map that is built from entries of distinct keys holds just these. -/
theorem get?_ofList {entries : List (String × α)} (distinct : (entries.map (·.1)).Nodup)
    (key : String) : (ofList entries).get? key = entries.lookup key := by
  rw [ofList, get?_foldl_insert distinct, get?_empty, Option.or_none]

theorem nodup_keys (map : KeyMap α) : map.keys.Nodup := by
  rw [keys, List.Nodup, List.pairwise_map]
  refine map.ascending.imp fun before same => ?_
  rw [same] at before
  exact String.lt_irrefl _ before

theorem ofList_entries (map : KeyMap α) : ofList map.entries = map := by
  apply ext_get?
  intro key
  rw [get?_ofList map.nodup_keys, ← find?_eq_lookup]
  rfl

end AssemblySymbols.KeyMap
