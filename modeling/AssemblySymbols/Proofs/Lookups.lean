import Mathlib.Data.List.Nodup

/-! Look-ups in lists of entries. -/
namespace AssemblySymbols
variable {κ α : Type} [BEq κ] [LawfulBEq κ]

theorem lookup_filter (entries : List (κ × α)) (keep : κ → Bool) (key : κ) :
    (entries.filter (keep ·.1)).lookup key = if keep key then entries.lookup key else none := by
  induction entries with
  | nil => simp
  | cons entry rest ih =>
    rw [List.filter_cons, List.lookup_cons]
    by_cases asked : key = entry.1
    · subst asked
      by_cases kept : keep entry.1
      · simpa [kept] using List.lookup_cons_self
      · simpa [kept] using ih
    · have different := beq_eq_false_iff_ne.mpr asked
      rw [different, ← ih]
      by_cases kept : keep entry.1
      · rw [if_pos kept, List.lookup_cons, different]
      · rw [if_neg kept]

theorem mem_of_lookup {entries : List (κ × α)} {key : κ} {content : α}
    (looked : entries.lookup key = some content) : (key, content) ∈ entries := by
  obtain ⟨before, after, split, _⟩ := List.lookup_eq_some_iff.mp looked
  simp [split]

theorem lookup_of_mem {entries : List (κ × α)} {key : κ} {content : α}
    (distinct : (entries.map (·.1)).Nodup) (member : (key, content) ∈ entries) :
    entries.lookup key = some content := by
  induction entries with
  | nil => contradiction
  | cons entry rest ih =>
    obtain ⟨new, distinct⟩ := List.nodup_cons.mp distinct
    rcases List.mem_cons.mp member with rfl | later
    · exact List.lookup_cons_self
    · have different : key ≠ entry.1 := by
        rintro rfl
        exact new (List.mem_map.mpr ⟨_, later, rfl⟩)
      rw [List.lookup_cons, beq_eq_false_iff_ne.mpr different]
      exact ih distinct later

/-- A key that stands once has one entry. -/
theorem filter_key [DecidableEq κ] {entries : List (κ × α)} {key : κ} {content : α}
    (distinct : (entries.map (·.1)).Nodup) (looked : entries.lookup key = some content) :
    entries.filter (·.1 = key) = [(key, content)] := by
  obtain ⟨before, after, rfl, free⟩ := List.lookup_eq_some_iff.mp looked
  rw [List.map_append, List.map_cons] at distinct
  obtain ⟨-, tail, -⟩ := List.nodup_append.mp distinct
  have none_before : before.filter (·.1 = key) = [] := by
    rw [List.filter_eq_nil_iff]
    intro entry member same
    have other := free entry member
    simp [of_decide_eq_true same] at other
  have none_after : after.filter (·.1 = key) = [] := by
    rw [List.filter_eq_nil_iff]
    intro entry member same
    exact (List.nodup_cons.mp tail).1 (List.mem_map.mpr ⟨entry, member, of_decide_eq_true same⟩)
  rw [List.filter_append, List.filter_cons_of_pos (by simp), none_before, none_after, List.nil_append]

/-- Entries of distinct keys are a matter of their look-ups but for their order. -/
theorem perm_of_lookup {entries others : List (κ × α)} (distinct : (entries.map (·.1)).Nodup)
    (distinct' : (others.map (·.1)).Nodup) (same : ∀ key, entries.lookup key = others.lookup key) :
    entries.Perm others := by
  rw [List.perm_ext_iff_of_nodup (List.Nodup.of_map _ distinct) (List.Nodup.of_map _ distinct')]
  intro entry
  constructor
  · exact fun member => mem_of_lookup ((same entry.1).symm.trans (lookup_of_mem distinct member))
  · exact fun member => mem_of_lookup ((same entry.1).trans (lookup_of_mem distinct' member))

/-- The order of entries of distinct keys does not matter to a look-up. -/
theorem lookup_perm {entries others : List (κ × α)} (distinct : (entries.map (·.1)).Nodup)
    (same : entries.Perm others) (key : κ) : entries.lookup key = others.lookup key := by
  have distinct' : (others.map (·.1)).Nodup := (same.map _).nodup_iff.mp distinct
  refine Option.ext fun content => ⟨fun looked => ?_, fun looked => ?_⟩
  · exact lookup_of_mem distinct' (same.mem_iff.mp (mem_of_lookup looked))
  · exact lookup_of_mem distinct (same.mem_iff.mpr (mem_of_lookup looked))

end AssemblySymbols
