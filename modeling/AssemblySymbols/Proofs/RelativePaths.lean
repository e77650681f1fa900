import AssemblySymbols.Proofs.ParentPaths

/-! Paths cut at a base and joined to it again. What is left of a path below its base leads back to the
path, and a character other than slash and dot stands in the text of a path if it stands in one of its
names. -/
namespace AssemblySymbols.Path
variable {path base relative rest : Path} {c : Char}

/-! ### The head of a path -/

/-- What is cut off at the head of a path is no name. -/
theorem componentsIn_cut (path : Path) :
    componentsIn path.cut.pieces = componentsIn (splitSlashes path.text.toList) := by
  change componentsIn (cutPieces (splitSlashes path.text.toList)).pieces = _
  by_cases single : splitSlashes path.text.toList = [[]]
  · rw [single]
    rfl
  · have silent : componentsIn (cutPieces (splitSlashes path.text.toList)).leader = [] := by
      unfold Cut.leader
      split <;> rfl
    have split := congrArg componentsIn (Cut.leader_cutPieces single)
    rwa [componentsIn_append, silent, List.nil_append] at split

theorem components_eq_append (path : Path) :
    path.components = path.cut.head.toList ++ componentsIn (splitSlashes path.text.toList) := by
  rw [← componentsIn_cut]
  rfl

theorem pieces_of_headless (headless : path.cut.head = none) :
    componentsIn (splitSlashes path.text.toList) = path.components := by
  rw [components_eq_append, headless]
  rfl

theorem headless_or (path : Path) : path.cut.head = none ∨ path.cut.head = some .root ∨
    path.cut.head = some .here := by
  rcases cutPieces_cases (splitSlashes path.text.toList) with ⟨more, cut⟩ | ⟨more, cut⟩ | ⟨headless, -⟩
  · exact Or.inr (Or.inl (congrArg Cut.head cut))
  · exact Or.inr (Or.inr (congrArg Cut.head cut))
  · exact Or.inl headless

theorem relative_of_headless (headless : path.cut.head = none) : path.isAbsolute = false := by
  have cut : cutPieces (splitSlashes path.text.toList) = path.cut := rfl
  rw [isAbsolute, beq_eq_false_iff_ne]
  intro slash
  obtain ⟨others, text⟩ := List.head?_eq_some_iff.mp slash
  rw [text, splitSlashes] at cut
  obtain ⟨piece, pieces, split⟩ := List.exists_cons_of_ne_nil (splitSlashes_ne_nil others)
  rw [split] at cut
  rw [← cut] at headless
  contradiction

/-- Behind its first component a path has names and steps up only. -/
theorem headless_of_drop {count : Nat} (left : rest.components = path.components.drop (count + 1)) :
    rest.cut.head = none := by
  have plain : ∀ component ∈ path.components.drop (count + 1), component ≠ .root ∧ component ≠ .here := by
    intro component member
    have single : path.cut.head.toList.length ≤ count + 1 := by
      cases path.cut.head <;> simp
    rw [components_eq_append, List.drop_append, List.drop_eq_nil_of_le single, List.nil_append] at member
    obtain ⟨piece, -, rfl⟩ := List.mem_map.mp (List.mem_of_mem_drop member)
    unfold componentOf
    split <;> simp
  rcases headless_or rest with headless | root | here
  · exact headless
  · have head : .root ∈ rest.components := by
      rw [components_eq_append, root]
      exact List.mem_cons_self
    exact absurd rfl (plain _ (left ▸ head)).1
  · have head : .here ∈ rest.components := by
      rw [components_eq_append, here]
      exact List.mem_cons_self
    exact absurd rfl (plain _ (left ▸ head)).2

/-! ### Joined paths -/

/-- What is put behind a slash adds the components of its pieces. -/
theorem components_append_slash (front text : List Char) :
    (⟨String.ofList (front ++ '/' :: text)⟩ : Path).components =
      (⟨String.ofList (front ++ ['/'])⟩ : Path).components ++ componentsIn (splitSlashes text) := by
  have blank : componentsIn (splitSlashes []) = [] := rfl
  rw [components_eq, components_eq, String.toList_ofList, String.toList_ofList, splitSlashes_append,
    splitSlashes_append]
  by_cases empty : front = []
  · subst empty
    change (cutPieces ([] :: splitSlashes text)).components =
      (cutPieces ([] :: splitSlashes [])).components ++ _
    rw [components_cutPieces_root (splitSlashes_ne_nil text),
      components_cutPieces_root (splitSlashes_ne_nil []), blank]
    rfl
  · have named := splitSlashes_ne_singleton empty
    rw [components_cutPieces_append (splitSlashes_ne_nil front) named,
      components_cutPieces_append (splitSlashes_ne_nil front) named, blank, List.append_nil]

/-- A relative path means the same behind the empty path. -/
theorem join_of_empty (no_base : base.text.toList = []) (relative : Path) : base.join relative = relative := by
  have empty : base.text.isEmpty = true := by
    rw [String.isEmpty_iff, ← String.toList_inj, no_base]
    rfl
  rw [join, empty, Bool.or_true, if_pos rfl]

theorem components_join (some_base : base.text.toList ≠ []) (below : relative.isAbsolute = false) :
    (base.join relative).components =
      base.components ++ componentsIn (splitSlashes relative.text.toList) := by
  have some_text : base.text.isEmpty = false := by
    rw [Bool.eq_false_iff]
    intro empty
    rw [String.isEmpty_iff] at empty
    exact some_base (by rw [empty]; rfl)
  rw [join, below, some_text, Bool.or_self, if_neg Bool.false_ne_true]
  split
  · next slash =>
    obtain ⟨front, text⟩ := List.getLast?_eq_some_iff.mp slash
    have own : base = ⟨String.ofList (front ++ ['/'])⟩ := by
      rw [← text, String.ofList_toList]
    have whole : base.text ++ relative.text =
        String.ofList (front ++ '/' :: relative.text.toList) := by
      rw [← String.toList_inj, String.toList_append, String.toList_ofList, text, List.append_assoc]
      rfl
    rw [whole, components_append_slash, ← own]
  · next other =>
    have whole : base.text ++ "/" ++ relative.text =
        String.ofList (base.text.toList ++ '/' :: relative.text.toList) := by
      rw [← String.toList_inj]
      simp
    have closed : (⟨String.ofList (base.text.toList ++ ['/'])⟩ : Path).components = base.components := by
      rw [components_eq, String.toList_ofList, splitSlashes_append,
        components_cutPieces_append (splitSlashes_ne_nil _) (splitSlashes_ne_singleton some_base)]
      exact List.append_nil _
    rw [whole, components_append_slash, closed]

/-! ### Paths below a base -/

/-- A path below a base goes on behind it, or the base is the empty path. -/
theorem below?_cases (below : path.below? base = some rest) :
    (base.text.toList = [] ∧ rest.components = path.components) ∨
    (base.text.toList ≠ [] ∧ rest.isAbsolute = false ∧
      componentsIn (splitSlashes rest.text.toList) = rest.components ∧
      path.components = base.components ++ rest.components) := by
  have inside : base.components.isPrefixOf path.components := by
    by_contra outside
    rw [below?, if_neg outside] at below
    contradiction
  by_cases some_base : base.text.toList = []
  · have nothing : base.components = [] := by
      rw [components_eq, some_base]
      rfl
    rw [below?, nothing, if_pos (by rfl)] at below
    cases below
    exact Or.inl ⟨some_base, components_trimEnd path⟩
  · have some_components := components_ne_nil some_base
    obtain ⟨other, found, left⟩ := components_below some_components inside
    cases found.symm.trans below
    obtain ⟨count, length⟩ := Nat.exists_eq_succ_of_ne_zero (mt List.length_eq_zero_iff.mp some_components)
    have headless : rest.cut.head = none := headless_of_drop (length ▸ left)
    obtain ⟨behind, split⟩ := List.isPrefixOf_iff_prefix.mp inside
    refine Or.inr ⟨some_base, relative_of_headless headless, pieces_of_headless headless, ?_⟩
    rw [left, ← split, List.drop_left]

/-- The rest of a path leads from the base to the path. -/
theorem components_join_below (below : path.below? base = some rest) :
    (base.join rest).components = path.components := by
  rcases below?_cases below with ⟨no_base, same⟩ | ⟨some_base, onward, pieces, split⟩
  · rw [join_of_empty no_base, same]
  · rw [components_join some_base onward, pieces, split]

theorem components_of_below (below : path.below? base = some rest) {other : Path}
    (below' : other.below? base = some rest) : path.components = other.components :=
  (components_join_below below).symm.trans (components_join_below below')

/-! ### Characters of names -/

theorem mem_joinSlashes (solid : c ≠ '/') {pieces : List (List Char)} :
    c ∈ joinSlashes pieces ↔ ∃ piece ∈ pieces, c ∈ piece := by
  induction pieces with
  | nil => simp [joinSlashes]
  | cons piece others ih =>
    cases others with
    | nil => simp [joinSlashes]
    | cons next more =>
      rw [joinSlashes, List.mem_append, List.mem_cons, ih, List.exists_mem_cons_iff _ piece]
      · exact or_congr_right (or_iff_right solid)
      · exact List.cons_ne_nil next more

/-- A name holds the character. -/
def Holds (c : Char) (components : List Component) : Prop :=
  ∃ name, .name name ∈ components ∧ c ∈ name.toList

theorem holds_append {components others : List Component} :
    Holds c (components ++ others) ↔ Holds c components ∨ Holds c others := by
  simp only [Holds, List.mem_append, or_and_right, exists_or]

theorem holds_componentsIn (solid : c ≠ '/') (notDot : c ≠ '.') (text : List Char) :
    Holds c (componentsIn (splitSlashes text)) ↔ c ∈ text := by
  rw [← joinSlashes_splitSlashes text, mem_joinSlashes solid, joinSlashes_splitSlashes]
  constructor
  · rintro ⟨name, member, inside⟩
    obtain ⟨piece, listed, same⟩ := List.mem_map.mp member
    refine ⟨piece, (List.mem_filter.mp listed).1, ?_⟩
    unfold componentOf at same
    split at same
    · contradiction
    · rw [← Component.name.inj same, String.toList_ofList] at inside
      exact inside
  · rintro ⟨piece, listed, inside⟩
    have filled : isFiller piece = false := by
      rw [Bool.eq_false_iff]
      intro filler
      rcases (by simpa [isFiller] using filler : piece = [] ∨ piece = ['.']) with rfl | rfl
      · contradiction
      · exact notDot (List.mem_singleton.mp inside)
    have downward : piece ≠ ['.', '.'] := by
      rintro rfl
      simp [notDot] at inside
    refine ⟨String.ofList piece, List.mem_map.mpr ⟨piece, List.mem_filter.mpr ⟨listed, by simp [filled]⟩, ?_⟩, ?_⟩
    · rw [componentOf, if_neg downward]
    · rwa [String.toList_ofList]

/-- The names of a path hold the characters of its text, but for slashes and dots. -/
theorem holds_components (solid : c ≠ '/') (notDot : c ≠ '.') (path : Path) :
    Holds c path.components ↔ c ∈ path.text.toList := by
  rw [components_eq_append, holds_append, holds_componentsIn solid notDot, or_iff_right]
  rintro ⟨name, member, -⟩
  rcases headless_or path with head | head | head <;> simp [head] at member

end AssemblySymbols.Path
