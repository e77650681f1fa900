/-! Finite maps from names, kept in ascending order of the names, so that equal contents are equal
maps and a listing is always canonical. -/
namespace AssemblySymbols

structure KeyMap (α : Type) where
  entries : List (String × α)
  ascending : entries.Pairwise fun a b => a.1 < b.1
deriving DecidableEq

namespace KeyMap
variable {α β : Type}

def empty : KeyMap α := ⟨[], .nil⟩

instance : EmptyCollection (KeyMap α) := ⟨empty⟩
instance : Inhabited (KeyMap α) := ⟨empty⟩

def keys (map : KeyMap α) : List String := map.entries.map (·.1)

def values (map : KeyMap α) : List α := map.entries.map (·.2)

def isEmpty (map : KeyMap α) : Bool := map.entries.isEmpty

def find? (key : String) : List (String × α) → Option α
  | [] => none
  | (name, value) :: rest => if key = name then some value else find? key rest

def get? (map : KeyMap α) (key : String) : Option α := find? key map.entries

def contains (map : KeyMap α) (key : String) : Bool := (map.get? key).isSome

/-- The entries after what stands under `key`, or its absence, went through `change`. -/
def alterEntries (key : String) (change : Option α → Option α) :
    List (String × α) → List (String × α)
  | [] => (change none).toList.map (key, ·)
  | (name, value) :: rest =>
    if key < name then (change none).toList.map (key, ·) ++ (name, value) :: rest
    else if key = name then (change (some value)).toList.map (name, ·) ++ rest
    else (name, value) :: alterEntries key change rest

theorem mem_alterEntries_fst {key : String} {change : Option α → Option α}
    {entries : List (String × α)} {entry : String × α}
    (member : entry ∈ alterEntries key change entries) :
    entry.1 = key ∨ ∃ old ∈ entries, old.1 = entry.1 := by
  induction entries with
  | nil =>
    simp only [alterEntries, List.mem_map] at member
    obtain ⟨_, _, rfl⟩ := member
    exact .inl rfl
  | cons head rest ih =>
    simp only [alterEntries] at member
    split at member
    · simp only [List.mem_append, List.mem_map] at member
      rcases member with ⟨_, _, rfl⟩ | member
      · exact .inl rfl
      · exact .inr ⟨entry, member, rfl⟩
    · split at member
      · simp only [List.mem_append, List.mem_map] at member
        rcases member with ⟨_, _, rfl⟩ | member
        · exact .inr ⟨head, by simp, rfl⟩
        · exact .inr ⟨entry, by simp [member], rfl⟩
      · rcases List.mem_cons.mp member with rfl | member
        · exact .inr ⟨head, by simp, rfl⟩
        · rcases ih member with same | ⟨old, oldMember, same⟩
          · exact .inl same
          · exact .inr ⟨old, by simp [oldMember], same⟩

theorem ascending_alterEntries (key : String) (change : Option α → Option α)
    {entries : List (String × α)} (ascending : entries.Pairwise fun a b => a.1 < b.1) :
    (alterEntries key change entries).Pairwise fun a b => a.1 < b.1 := by
  induction entries with
  | nil => cases h : change none <;> simp [alterEntries, h]
  | cons head rest ih =>
    obtain ⟨below, sorted⟩ := List.pairwise_cons.mp ascending
    simp only [alterEntries]
    split
    · next before =>
      cases change none with
      | none => simpa using ascending
      | some value =>
        simp only [Option.toList_some, List.map_cons, List.map_nil, List.cons_append,
          List.nil_append, List.pairwise_cons]
        refine ⟨fun later member => ?_, below, sorted⟩
        rcases List.mem_cons.mp member with rfl | member
        · exact before
        · exact String.lt_trans before (below _ member)
    · split
      · cases change (some head.2) with
        | none => simpa using sorted
        | some value => exact List.pairwise_cons.mpr ⟨below, sorted⟩
      · next notBefore different =>
        refine List.pairwise_cons.mpr ⟨fun later member => ?_, ih sorted⟩
        rcases mem_alterEntries_fst member with same | ⟨old, oldMember, same⟩
        · rw [same]
          exact String.not_le.mp fun le =>
            different (String.le_antisymm le (String.not_lt.mp notBefore))
        · exact same ▸ below old oldMember

/-- Changes what stands under one key; the absence of the key is `none`. -/
def alter (map : KeyMap α) (key : String) (change : Option α → Option α) : KeyMap α :=
  ⟨alterEntries key change map.entries, ascending_alterEntries key change map.ascending⟩

def insert (map : KeyMap α) (key : String) (value : α) : KeyMap α :=
  map.alter key fun _ => some value

/-- A later entry of the list replaces an earlier one of the same key. -/
def ofList (entries : List (String × α)) : KeyMap α :=
  entries.foldl (fun map entry => map.insert entry.1 entry.2) empty

def filterValues (map : KeyMap α) (keep : α → Bool) : KeyMap α :=
  ⟨map.entries.filter fun entry => keep entry.2, map.ascending.filter _⟩

theorem find?_eq_none_of_lt {key : String} {entries : List (String × α)}
    (above : ∀ entry ∈ entries, key < entry.1) : find? key entries = none := by
  induction entries with
  | nil => rfl
  | cons head rest ih =>
    have different : key ≠ head.1 := fun same =>
      String.lt_irrefl _ (same ▸ above head (by simp))
    simp only [find?, different, if_false]
    exact ih fun entry member => above entry (by simp [member])

theorem find?_cons_eq_none {key : String} {head : String × α} {rest : List (String × α)}
    (before : key < head.1) (below : ∀ entry ∈ rest, head.1 < entry.1) :
    find? key (head :: rest) = none :=
  find?_eq_none_of_lt (List.forall_mem_cons.mpr
    ⟨before, fun entry member => String.lt_trans before (below entry member)⟩)

theorem find?_alterEntries (key : String) (change : Option α → Option α) (other : String)
    {entries : List (String × α)} (ascending : entries.Pairwise fun a b => a.1 < b.1) :
    find? other (alterEntries key change entries) =
      if other = key then change (find? key entries) else find? other entries := by
  induction entries with
  | nil => cases h : change none <;> by_cases same : other = key <;> simp [alterEntries, find?, h, same]
  | cons head rest ih =>
    obtain ⟨below, sorted⟩ := List.pairwise_cons.mp ascending
    simp only [alterEntries]
    split
    · next before =>
      have absent := find?_cons_eq_none before below
      rw [absent]
      cases h : change none with
      | none =>
        simp only [Option.toList_none, List.map_nil, List.nil_append]
        split
        · next same => rw [same]; exact absent
        · rfl
      | some value => by_cases same : other = key <;> simp [find?, same]
    · split
      · next same =>
        have absent : find? key rest = none := find?_eq_none_of_lt fun entry member =>
          same ▸ below entry member
        cases h : change (some head.2) with
        | none =>
          by_cases other_eq : other = key
          · subst other_eq; simp [find?, same, h, same ▸ absent]
          · simp [find?, other_eq, same ▸ other_eq]
        | some value =>
          by_cases other_eq : other = key
          · subst other_eq; simp [find?, same, h]
          · simp [find?, other_eq, same ▸ other_eq]
      · next notBefore different =>
        by_cases other_eq : other = head.1
        · have elsewhere : other ≠ key := fun same => different (same ▸ other_eq)
          simp only [elsewhere, if_false]
          simp only [find?, other_eq, if_true]
        · simp only [find?, other_eq, if_false, different]
          exact ih sorted

@[simp] theorem get?_alter (map : KeyMap α) (key : String) (change : Option α → Option α)
    (other : String) :
    (map.alter key change).get? other = if other = key then change (map.get? key) else map.get? other :=
  find?_alterEntries key change other map.ascending

@[simp] theorem get?_insert (map : KeyMap α) (key : String) (value : α) (other : String) :
    (map.insert key value).get? other = if other = key then some value else map.get? other :=
  get?_alter ..

@[simp] theorem get?_empty (key : String) : (empty : KeyMap α).get? key = none := rfl

theorem entries_eq_of_find? {left right : List (String × α)}
    (leftAscending : left.Pairwise fun a b => a.1 < b.1)
    (rightAscending : right.Pairwise fun a b => a.1 < b.1)
    (same : ∀ key, find? key left = find? key right) : left = right := by
  induction left generalizing right with
  | nil =>
    cases right with
    | nil => rfl
    | cons head rest => simpa [find?] using same head.1
  | cons head rest ih =>
    obtain ⟨below, sorted⟩ := List.pairwise_cons.mp leftAscending
    cases right with
    | nil => simpa [find?] using same head.1
    | cons head' rest' =>
      obtain ⟨below', sorted'⟩ := List.pairwise_cons.mp rightAscending
      have heads : head.1 = head'.1 := by
        apply String.le_antisymm
        · refine String.not_lt.mp fun lt => ?_
          have absent := find?_cons_eq_none lt below
          rw [same head'.1] at absent
          simp [find?] at absent
        · refine String.not_lt.mp fun lt => ?_
          have absent := find?_cons_eq_none lt below'
          rw [← same head.1] at absent
          simp [find?] at absent
      have valuesEq : head.2 = head'.2 := by simpa [find?, heads] using same head.1
      have tails : rest = rest' := by
        refine ih sorted sorted' fun key => ?_
        by_cases atHead : key = head.1
        · rw [find?_eq_none_of_lt fun entry member => atHead ▸ below entry member,
            find?_eq_none_of_lt fun entry member => (atHead.trans heads) ▸ below' entry member]
        · have atHead' : key ≠ head'.1 := fun at' => atHead (at'.trans heads.symm)
          simpa only [find?, atHead, atHead', if_false] using same key
      exact List.cons_eq_cons.mpr ⟨Prod.ext heads valuesEq, tails⟩

/-- Maps with the same look-ups are the same map. -/
theorem ext_get? {left right : KeyMap α} (same : ∀ key, left.get? key = right.get? key) :
    left = right := by
  have := entries_eq_of_find? left.ascending right.ascending same
  cases left; cases right; cases this; rfl

end KeyMap
end AssemblySymbols
