import AssemblySymbols.Path
import Mathlib.Data.List.Infix
import Mathlib.Data.List.TakeWhile

/-! Paths and their components. A name that is added to a path becomes its last component, and the rest
of a path behind its base has the components that are left. -/
namespace AssemblySymbols.Path

/-! Pieces. -/

theorem splitSlashes_ne_nil (text : List Char) : splitSlashes text ≠ [] := by
  unfold splitSlashes
  split
  · simp
  · simp
  · split <;> simp

theorem splitSlashes_ne_singleton {text : List Char} (some_text : text ≠ []) :
    splitSlashes text ≠ [[]] := by
  unfold splitSlashes
  split
  · contradiction
  · simp [splitSlashes_ne_nil]
  · split <;> simp

theorem splitSlashes_append (text more : List Char) :
    splitSlashes (text ++ '/' :: more) = splitSlashes text ++ splitSlashes more := by
  fun_induction splitSlashes text with
  | case1 => rfl
  | case2 rest ih => rw [List.cons_append, splitSlashes, ih, List.cons_append]
  | case3 c rest _ none => exact absurd none (splitSlashes_ne_nil rest)
  | case4 c rest different piece pieces split ih =>
    rw [List.cons_append, splitSlashes, ih, split]
    · rfl
    · exact different

theorem splitSlashes_of_solid {piece : List Char} (solid : '/' ∉ piece) : splitSlashes piece = [piece] := by
  induction piece with
  | nil => rfl
  | cons c rest ih =>
    obtain ⟨first, others⟩ := not_or.mp (mt List.mem_cons.mpr solid)
    rw [splitSlashes, ih others]
    exact fun same => first same.symm

theorem solid_of_mem_splitSlashes (text : List Char) : ∀ piece ∈ splitSlashes text, '/' ∉ piece := by
  fun_induction splitSlashes text with
  | case1 => simp
  | case2 rest ih => exact List.forall_mem_cons.mpr ⟨List.not_mem_nil, ih⟩
  | case3 c rest _ none => exact absurd none (splitSlashes_ne_nil rest)
  | case4 c rest different first pieces split ih =>
    rw [split] at ih
    obtain ⟨solid, others⟩ := List.forall_mem_cons.mp ih
    refine List.forall_mem_cons.mpr ⟨fun member => ?_, others⟩
    rcases List.mem_cons.mp member with same | later
    · exact different same.symm
    · exact solid later

theorem splitSlashes_joinSlashes {pieces : List (List Char)} (some_pieces : pieces ≠ [])
    (solid : ∀ piece ∈ pieces, '/' ∉ piece) : splitSlashes (joinSlashes pieces) = pieces := by
  induction pieces with
  | nil => contradiction
  | cons piece rest ih =>
    obtain ⟨first, others⟩ := List.forall_mem_cons.mp solid
    cases rest with
    | nil => exact splitSlashes_of_solid first
    | cons next more =>
      rw [joinSlashes, splitSlashes_append, splitSlashes_of_solid first, ih (by simp) others]
      · rfl
      · simp

/-! Components. -/

/-- The components that pieces name, fillers left out. -/
def componentsIn (pieces : List (List Char)) : List Component :=
  (pieces.filter fun piece => !isFiller piece).map componentOf

theorem componentsIn_append (pieces more : List (List Char)) :
    componentsIn (pieces ++ more) = componentsIn pieces ++ componentsIn more := by
  rw [componentsIn, List.filter_append, List.map_append]
  rfl

theorem componentsIn_filler {piece : List Char} (filler : isFiller piece = true)
    (rest : List (List Char)) : componentsIn (piece :: rest) = componentsIn rest := by
  simp [componentsIn, filler]

theorem componentsIn_named {piece : List Char} (named : isFiller piece = false)
    (rest : List (List Char)) :
    componentsIn (piece :: rest) = componentOf piece :: componentsIn rest := by
  simp [componentsIn, named]

/-- A text that is cut into pieces, which are some, has a head and pieces behind it. -/
def cutPieces : List (List Char) → Cut
  | [] :: pieces => if pieces.isEmpty then ⟨none, []⟩ else ⟨some .root, pieces⟩
  | ['.'] :: pieces => ⟨some .here, pieces⟩
  | pieces => ⟨none, pieces⟩

def Cut.components (cut : Cut) : List Component := cut.head.toList ++ componentsIn cut.pieces

theorem components_eq (path : Path) :
    path.components = (cutPieces (splitSlashes path.text.toList)).components := rfl

theorem pieces_cutPieces_suffix (pieces : List (List Char)) : (cutPieces pieces).pieces <:+ pieces := by
  unfold cutPieces
  split
  · split
    · exact List.nil_suffix
    · exact List.suffix_cons ..
  · exact List.suffix_cons ..
  · exact List.suffix_refl _

theorem components_cutPieces_root {pieces : List (List Char)} (some_pieces : pieces ≠ []) :
    (cutPieces ([] :: pieces)).components = .root :: componentsIn pieces := by
  have cut : cutPieces ([] :: pieces) = ⟨some .root, pieces⟩ := if_neg (by simpa using some_pieces)
  rw [cut]
  rfl

theorem cutPieces_named {first : List Char} (filled : isFiller first = false) (rest : List (List Char)) :
    cutPieces (first :: rest) = ⟨none, first :: rest⟩ := by
  unfold cutPieces
  split <;> simp_all [isFiller]

theorem components_cutPieces_ne_nil {pieces : List (List Char)} (some_pieces : pieces ≠ [])
    (named : pieces ≠ [[]]) : (cutPieces pieces).components ≠ [] := by
  obtain ⟨first, rest, rfl⟩ := List.exists_cons_of_ne_nil some_pieces
  cases filler : isFiller first with
  | false =>
    rw [cutPieces_named filler, Cut.components, componentsIn_named filler]
    simp
  | true =>
    rcases (by simpa [isFiller] using filler : first = [] ∨ first = ['.']) with rfl | rfl
    · rw [components_cutPieces_root fun none => named (none ▸ rfl)]
      simp
    · simp [cutPieces, Cut.components]

theorem components_ne_nil {path : Path} (some_path : path.text.toList ≠ []) : path.components ≠ [] :=
  components_cutPieces_ne_nil (splitSlashes_ne_nil _) (splitSlashes_ne_singleton some_path)

/-- What comes behind a first piece is a name, whatever it is. -/
theorem components_cutPieces_append {pieces : List (List Char)} (some_pieces : pieces ≠ [])
    (named : pieces ≠ [[]]) (more : List (List Char)) :
    (cutPieces (pieces ++ more)).components = (cutPieces pieces).components ++ componentsIn more := by
  obtain ⟨first, rest, rfl⟩ := List.exists_cons_of_ne_nil some_pieces
  rw [List.cons_append]
  by_cases root : first = []
  · subst root
    have left : rest ≠ [] := fun none => named (none ▸ rfl)
    rw [components_cutPieces_root left, components_cutPieces_root (by simp [left]),
      componentsIn_append, List.cons_append]
  · by_cases here : first = ['.']
    · subst here
      simp only [cutPieces, Cut.components, componentsIn_append, List.append_assoc]
    · have filled : isFiller first = false := by simp [isFiller, root, here]
      rw [cutPieces_named filled, cutPieces_named filled, Cut.components, Cut.components,
        ← List.cons_append, componentsIn_append, List.append_assoc]

/-! Names added to a path. -/

/-- A name that can be listed in a directory. -/
structure IsFileName (name : String) : Prop where
  solid : '/' ∉ name.toList
  filled : isFiller name.toList = false
  downward : name.toList ≠ ['.', '.']

instance : DecidablePred IsFileName := fun name =>
  decidable_of_iff ('/' ∉ name.toList ∧ isFiller name.toList = false ∧ name.toList ≠ ['.', '.'])
    ⟨fun ⟨solid, filled, downward⟩ => ⟨solid, filled, downward⟩,
      fun named => ⟨named.solid, named.filled, named.downward⟩⟩

theorem IsFileName.componentsIn {name : String} (named : IsFileName name) :
    componentsIn [name.toList] = [.name name] := by
  simp [Path.componentsIn, componentOf, named.filled, named.downward]

theorem IsFileName.ne_nil {name : String} (named : IsFileName name) : name.toList ≠ [] := by
  intro none
  have filled := named.filled
  rw [none] at filled
  contradiction

theorem child_eq {base : Path} {name : String} (some_base : base.text.toList ≠ [])
    (named : IsFileName name) :
    base.child name =
      if base.text.toList.getLast? = some '/' then ⟨base.text ++ name⟩ else ⟨base.text ++ "/" ++ name⟩ := by
  have relative : (⟨name⟩ : Path).isAbsolute = false := by
    rw [isAbsolute, beq_eq_false_iff_ne]
    exact fun head => named.solid (List.mem_of_head? head)
  rw [child, join, if_neg (by simpa [relative] using some_base)]

/-- A name is added behind the last slash, or behind a further one. -/
theorem splitSlashes_child {base : Path} {name : String} (some_base : base.text.toList ≠ [])
    (named : IsFileName name) :
    ∃ stem tail, stem ≠ [] ∧ (tail = [[]] ∨ tail = [] ∧ stem ≠ [[]]) ∧
      splitSlashes base.text.toList = stem ++ tail ∧
      splitSlashes (base.child name).text.toList = stem ++ [name.toList] := by
  have whole := splitSlashes_of_solid named.solid
  rw [child_eq some_base named]
  by_cases slash : base.text.toList.getLast? = some '/'
  · obtain ⟨init, split⟩ := List.getLast?_eq_some_iff.mp slash
    refine ⟨splitSlashes init, [[]], splitSlashes_ne_nil init, Or.inl rfl, ?_, ?_⟩
    · rw [split, splitSlashes_append, splitSlashes]
    · rw [if_pos slash, String.toList_append, split, List.append_assoc, List.singleton_append,
        splitSlashes_append, whole]
  · refine ⟨_, [], splitSlashes_ne_nil _, Or.inr ⟨rfl, splitSlashes_ne_singleton some_base⟩,
      (List.append_nil _).symm, ?_⟩
    rw [if_neg slash, String.toList_append, String.toList_append, List.append_assoc,
      show "/".toList = ['/'] from rfl, List.singleton_append, splitSlashes_append, whole]

theorem components_child {base : Path} {name : String} (some_base : base.text.toList ≠ [])
    (named : IsFileName name) : (base.child name).components = base.components ++ [.name name] := by
  obtain ⟨stem, tail, some_stem, tail_eq, split, split'⟩ := splitSlashes_child some_base named
  rw [components_eq, components_eq, split, split']
  by_cases root : stem = [[]]
  · have filler : tail = [[]] := tail_eq.resolve_right fun other => other.2 root
    rw [root, filler, List.singleton_append, List.singleton_append,
      components_cutPieces_root (by simp), components_cutPieces_root (by simp), named.componentsIn]
    rfl
  · have fillers : componentsIn tail = [] := by
      rcases tail_eq with rfl | ⟨rfl, -⟩ <;> rfl
    rw [components_cutPieces_append some_stem root, components_cutPieces_append some_stem root, fillers,
      List.append_nil, named.componentsIn]

theorem child_ne_nil {base : Path} {name : String} (some_base : base.text.toList ≠ [])
    (named : IsFileName name) : (base.child name).text.toList ≠ [] := by
  intro none
  have added := components_child some_base named
  have nothing : (base.child name).components = [] := by
    rw [components_eq, none]
    rfl
  simp [nothing] at added

/-- Names that are added one after another are the last components. -/
theorem components_descend {base : Path} {names : List String} (some_base : base.text.toList ≠ [])
    (named : ∀ name ∈ names, IsFileName name) :
    (names.foldl child base).components = base.components ++ names.map .name := by
  induction names generalizing base with
  | nil => exact (List.append_nil _).symm
  | cons name rest ih =>
    obtain ⟨first, others⟩ := List.forall_mem_cons.mp named
    rw [List.foldl_cons, ih (child_ne_nil some_base first) others, components_child some_base first,
      List.append_assoc]
    rfl

/-! The rest of a path behind its base. -/

theorem componentsIn_dropNames (count : Nat) (pieces : List (List Char)) :
    componentsIn (dropNames count pieces) = (componentsIn pieces).drop count := by
  induction pieces generalizing count with
  | nil => cases count <;> rfl
  | cons piece rest ih =>
    cases count with
    | zero => rfl
    | succ count =>
      rw [dropNames]
      split
      · next filler => rw [ih, componentsIn_filler filler]
      · next named => rw [ih, componentsIn_named (Bool.eq_false_iff.mpr named), List.drop_succ_cons]

theorem dropNames_suffix (count : Nat) (pieces : List (List Char)) : dropNames count pieces <:+ pieces := by
  induction pieces generalizing count with
  | nil => cases count <;> exact List.suffix_refl _
  | cons piece rest ih =>
    cases count with
    | zero => exact List.suffix_refl _
    | succ count =>
      rw [dropNames]
      split
      · exact (ih _).trans (List.suffix_cons piece rest)
      · exact (ih _).trans (List.suffix_cons piece rest)

theorem componentsIn_dropWhile (pieces : List (List Char)) :
    componentsIn (pieces.dropWhile isFiller) = componentsIn pieces := by
  have fillers : componentsIn (pieces.takeWhile isFiller) = [] := by
    rw [componentsIn, List.map_eq_nil_iff, List.filter_eq_nil_iff]
    exact fun piece member => by simp [List.mem_takeWhile_imp member]
  have split := congrArg componentsIn (List.takeWhile_append_dropWhile (p := isFiller) (l := pieces))
  rwa [componentsIn_append, fillers, List.nil_append] at split

theorem componentsIn_reverse (pieces : List (List Char)) :
    componentsIn pieces.reverse = (componentsIn pieces).reverse := by
  rw [componentsIn, List.filter_reverse, List.map_reverse]
  rfl

theorem components_joinSlashes {pieces : List (List Char)} (solid : ∀ piece ∈ pieces, '/' ∉ piece)
    (head : ∀ piece, pieces.head? = some piece → isFiller piece = false) :
    (⟨String.ofList (joinSlashes pieces)⟩ : Path).components = componentsIn pieces := by
  rw [components_eq, String.toList_ofList]
  cases pieces with
  | nil => rfl
  | cons first rest =>
    rw [splitSlashes_joinSlashes (by simp) solid]
    rw [cutPieces_named (head first rfl)]
    rfl

/-- The rest of a path below its base has the components behind those of the base. -/
theorem components_below {path base : Path} (some_base : base.components ≠ [])
    (inside : base.components.isPrefixOf path.components) :
    ∃ rest, path.below? base = some rest ∧
      rest.components = path.components.drop base.components.length := by
  obtain ⟨count, length⟩ : ∃ count, base.components.length = count + 1 :=
    Nat.exists_eq_succ_of_ne_zero (mt List.length_eq_zero_iff.mp some_base)
  let left := dropNames (count + 1 - path.cut.head.toList.length) path.cut.pieces
  let front := left.dropWhile isFiller
  let kept := (front.reverse.dropWhile isFiller).reverse
  have below : path.below? base = some ⟨String.ofList (joinSlashes kept)⟩ := by
    rw [below?, if_pos inside, length]
    rfl
  refine ⟨_, below, ?_⟩
  have split : path.components = path.cut.head.toList ++ componentsIn path.cut.pieces := rfl
  have single : path.cut.head.toList.length ≤ count + 1 := by
    cases path.cut.head <;> simp
  have names : componentsIn kept = path.components.drop (count + 1) := by
    rw [componentsIn_reverse, componentsIn_dropWhile, componentsIn_reverse, List.reverse_reverse,
      componentsIn_dropWhile, componentsIn_dropNames, split, List.drop_append,
      List.drop_eq_nil_of_le single, List.nil_append]
  have shorter : kept <+: front := by
    have suffix := List.reverse_prefix.mpr (List.dropWhile_suffix (l := front.reverse) isFiller)
    rwa [List.reverse_reverse] at suffix
  have solid : ∀ piece ∈ kept, '/' ∉ piece := by
    intro piece member
    have inCut : piece ∈ path.cut.pieces := (dropNames_suffix _ _).subset
      ((List.dropWhile_suffix isFiller).subset (shorter.subset member))
    exact solid_of_mem_splitSlashes _ piece ((pieces_cutPieces_suffix _).subset inCut)
  rw [components_joinSlashes solid, names, length]
  intro piece head
  have first := List.head?_dropWhile_not isFiller left
  obtain ⟨more, extended⟩ := shorter
  have same : front.head? = some piece := by
    rw [← extended, List.head?_append, head, Option.some_or]
  rwa [same] at first

theorem cutPieces_cases (pieces : List (List Char)) :
    (∃ rest, cutPieces pieces = ⟨some .root, rest⟩) ∨ (∃ rest, cutPieces pieces = ⟨some .here, rest⟩) ∨
    ((cutPieces pieces).head = none ∧
      ∀ piece, (cutPieces pieces).pieces.head? = some piece → isFiller piece = false) := by
  cases pieces with
  | nil => exact .inr (.inr ⟨rfl, by simp [cutPieces]⟩)
  | cons first rest =>
    cases filler : isFiller first with
    | false =>
      rw [cutPieces_named filler]
      exact .inr (.inr ⟨rfl, fun piece head => Option.some.inj head ▸ filler⟩)
    | true =>
      rcases (by simpa [isFiller] using filler : first = [] ∨ first = ['.']) with rfl | rfl
      · cases rest with
        | nil => exact .inr (.inr ⟨rfl, by simp [cutPieces]⟩)
        | cons next more => exact .inl ⟨next :: more, rfl⟩
      · exact .inr (.inl ⟨rest, rfl⟩)

theorem componentsIn_splitSlashes {pieces : List (List Char)} (solid : ∀ piece ∈ pieces, '/' ∉ piece) :
    componentsIn (splitSlashes (joinSlashes pieces)) = componentsIn pieces := by
  cases pieces with
  | nil => rfl
  | cons first rest => rw [splitSlashes_joinSlashes (by simp) solid]

/-- Fillers at the end of a path are no part of what it names. -/
theorem components_trimEnd (path : Path) : path.cut.trimEnd.path.components = path.components := by
  let pieces := splitSlashes path.text.toList
  let kept := ((cutPieces pieces).pieces.reverse.dropWhile isFiller).reverse
  have names : componentsIn kept = componentsIn (cutPieces pieces).pieces := by
    rw [componentsIn_reverse, componentsIn_dropWhile, componentsIn_reverse, List.reverse_reverse]
  have shorter : kept <+: (cutPieces pieces).pieces := by
    have suffix := List.reverse_prefix.mpr
      (List.dropWhile_suffix (l := (cutPieces pieces).pieces.reverse) isFiller)
    rwa [List.reverse_reverse] at suffix
  have solid : ∀ piece ∈ kept, '/' ∉ piece := fun piece member =>
    solid_of_mem_splitSlashes _ piece ((pieces_cutPieces_suffix _).subset (shorter.subset member))
  have whole : path.components = (cutPieces pieces).head.toList ++ componentsIn kept := by
    rw [names]
    rfl
  have trimmed : path.cut.trimEnd = ⟨(cutPieces pieces).head, kept⟩ := rfl
  rw [whole, trimmed]
  rcases cutPieces_cases pieces with ⟨rest, cut⟩ | ⟨rest, cut⟩ | ⟨headless, named⟩
  · rw [cut, components_eq, Cut.path, Cut.text, String.toList_ofList]
    rw [splitSlashes, components_cutPieces_root (splitSlashes_ne_nil _),
      componentsIn_splitSlashes solid]
    rfl
  · rw [cut, components_eq, Cut.path, Cut.text, String.toList_ofList,
      splitSlashes_joinSlashes (by simp) (by simpa using solid)]
    rfl
  · rw [headless]
    refine components_joinSlashes solid fun piece first => named piece ?_
    obtain ⟨more, extended⟩ := shorter
    rw [← extended, List.head?_append, first, Option.some_or]

theorem components_below?_congr {path other : Path} (same : path.components = other.components)
    (base : Path) :
    ((path.below? base).getD path).components = ((other.below? base).getD other).components := by
  by_cases inside : base.components.isPrefixOf path.components
  · by_cases some_base : base.components = []
    · have trimmed (path : Path) : path.below? base = some path.cut.trimEnd.path := by
        rw [below?, some_base, if_pos (by simp)]
        rfl
      rw [trimmed, trimmed, Option.getD_some, Option.getD_some, components_trimEnd,
        components_trimEnd, same]
    · obtain ⟨rest, below, left⟩ := components_below some_base inside
      obtain ⟨rest', below', left'⟩ := components_below some_base (same ▸ inside)
      rw [below, below', Option.getD_some, Option.getD_some, left, left', same]
  · rw [below?, below?, if_neg inside, if_neg (same ▸ inside)]
    exact same

/-! Extensions. -/

theorem fileName?_descend {base : Path} {names : List String} {last : String}
    (some_base : base.text.toList ≠ []) (named : ∀ name ∈ names ++ [last], IsFileName name) :
    ((names ++ [last]).foldl child base).fileName? = some last := by
  rw [fileName?, components_descend some_base named, List.map_append, ← List.append_assoc,
    List.map_singleton, List.getLast?_concat]

/-- The last dot of a text is the first from behind. -/
theorem last_dot_iff {text stem extension : List Char} (solid : '.' ∉ extension) :
    text = stem ++ '.' :: extension ↔ text.reverse.takeWhile (· != '.') = extension.reverse ∧
      text.reverse.dropWhile (· != '.') = '.' :: stem.reverse := by
  constructor
  · rintro rfl
    have inside : ∀ c ∈ extension.reverse, (c != '.') = true := by
      intro c member
      rw [bne_iff_ne]
      rintro rfl
      exact solid (List.mem_reverse.mp member)
    rw [List.reverse_append, List.reverse_cons, List.append_assoc, List.singleton_append,
      List.takeWhile_append_of_pos inside, List.dropWhile_append_of_pos inside]
    simp
  · rintro ⟨behind, front⟩
    have whole := List.takeWhile_append_dropWhile (p := (· != '.')) (l := text.reverse)
    rw [behind, front] at whole
    simpa using (congrArg List.reverse whole).symm

/-- An extension stands behind the last dot of the file name, and something stands before that dot. -/
theorem extension?_eq_some_iff {path : Path} {name extension : String}
    (named : path.fileName? = some name) :
    path.extension? = some extension ↔ '.' ∉ extension.toList ∧
      ∃ stem, stem ≠ [] ∧ name.toList = stem ++ '.' :: extension.toList := by
  simp only [extension?, named, Option.bind_eq_bind, Option.bind_some]
  constructor
  · intro found
    split at found
    · contradiction
    · contradiction
    · next none alone =>
      have behind : extension.toList = (name.toList.reverse.takeWhile (· != '.')).reverse := by
        rw [← Option.some.inj found, String.toList_ofList]
      obtain ⟨dot, stem, split⟩ := List.exists_cons_of_ne_nil none
      have first := List.head?_dropWhile_not (· != '.') name.toList.reverse
      rw [split] at first
      obtain rfl : dot = '.' := by simpa using first
      have solid : '.' ∉ extension.toList := fun member => by
        have kept := List.mem_takeWhile_imp (List.mem_reverse.mp (behind ▸ member))
        contradiction
      refine ⟨solid, stem.reverse, fun empty => ?_, (last_dot_iff solid).mpr ⟨?_, ?_⟩⟩
      · exact alone (by rw [split, List.reverse_eq_nil_iff.mp empty])
      · rw [behind, List.reverse_reverse]
      · rw [split, List.reverse_reverse]
  · rintro ⟨solid, stem, some_stem, spelled⟩
    obtain ⟨taken, dropped⟩ := (last_dot_iff solid).mp spelled
    rw [dropped, taken, List.reverse_reverse, String.ofList_toList]
    split
    · contradiction
    · next alone => simp [some_stem] at alone
    · rfl

/-- Whether a name ends in a dot and a word is told by its extension. -/
theorem suffix_iff_of_extension? {path : Path} {name extension : String}
    (named : path.fileName? = some name) (found : path.extension? = some extension)
    {word : List Char} (solid : '.' ∉ word) : '.' :: word <:+ name.toList ↔ extension.toList = word := by
  obtain ⟨solid', stem, -, spelled⟩ := (extension?_eq_some_iff named).mp found
  rw [spelled]
  constructor
  · rintro ⟨front, same⟩
    rcases List.append_eq_append_iff.mp same with ⟨between, -, split⟩ | ⟨between, -, split⟩
    · cases between with
      | nil => exact (List.cons.inj split).2.symm
      | cons c more =>
        have member : '.' ∈ word := by simp [(List.cons.inj split).2]
        exact absurd member solid
    · cases between with
      | nil => exact (List.cons.inj split).2
      | cons c more =>
        have member : '.' ∈ extension.toList := by simp [(List.cons.inj split).2]
        exact absurd member solid'
  · rintro rfl
    exact List.suffix_append ..

/-! Relative paths, as a whole and name by name. -/

theorem joinSlashes_eq (pieces : List (List Char)) : joinSlashes pieces = ['/'].intercalate pieces := by
  induction pieces with
  | nil => rfl
  | cons piece rest ih =>
    cases rest with
    | nil => simp [joinSlashes]
    | cons next more =>
      rw [joinSlashes, ih, List.intercalate_cons_cons, List.append_assoc]
      · rfl
      · simp

theorem mem_intercalate_slash {names : List String} {c : Char}
    (member : c ∈ ("/".intercalate names).toList) : c = '/' ∨ ∃ name ∈ names, c ∈ name.toList := by
  induction names with
  | nil => simp at member
  | cons name rest ih =>
    cases rest with
    | nil => exact Or.inr ⟨name, List.mem_singleton_self name, by simpa using member⟩
    | cons next more =>
      simp only [String.intercalate_cons_cons, String.toList_append, List.mem_append] at member
      rcases member with (own | slash) | later
      · exact Or.inr ⟨name, List.mem_cons_self, own⟩
      · exact Or.inl (List.mem_singleton.mp slash)
      · exact (ih later).imp_right fun ⟨other, listed, inside⟩ =>
          ⟨other, List.mem_cons_of_mem name listed, inside⟩

/-- Names that are added one after another are the last pieces. -/
theorem splitSlashes_descend {base : Path} {names : List String} (some_base : base.text.toList ≠ [])
    (named : ∀ name ∈ names, IsFileName name) (some_names : names ≠ []) :
    ∃ stem tail, stem ≠ [] ∧ (tail = [[]] ∨ tail = [] ∧ stem ≠ [[]]) ∧
      splitSlashes base.text.toList = stem ++ tail ∧
      splitSlashes (names.foldl child base).text.toList = stem ++ names.map String.toList := by
  induction names generalizing base with
  | nil => contradiction
  | cons name rest ih =>
    obtain ⟨first, others⟩ := List.forall_mem_cons.mp named
    obtain ⟨stem, tail, some_stem, fillers, split, split'⟩ := splitSlashes_child some_base first
    refine ⟨stem, tail, some_stem, fillers, split, ?_⟩
    cases rest with
    | nil => exact split'
    | cons next more =>
      obtain ⟨stem', tail', -, fillers', again, further⟩ :=
        ih (child_ne_nil some_base first) others (by simp)
      rw [split'] at again
      have whole : tail' = [] := by
        refine (fillers'.resolve_left fun slash => ?_).1
        rw [slash] at again
        exact first.ne_nil (List.append_inj_right' again rfl |> List.cons.inj |>.1)
      rw [whole, List.append_nil] at again
      rw [List.foldl_cons, further, ← again, List.append_assoc]
      rfl

/-- The head of a text is told by its first pieces. -/
theorem cutPieces_append {stem : List (List Char)} (some_stem : stem ≠ []) :
    ∃ head front, ∀ more, more ≠ [] ∨ stem ≠ [[]] →
      cutPieces (stem ++ more) = ⟨head, front ++ more⟩ := by
  obtain ⟨first, rest, rfl⟩ := List.exists_cons_of_ne_nil some_stem
  cases filler : isFiller first with
  | false => exact ⟨none, first :: rest, fun more _ => cutPieces_named filler _⟩
  | true =>
    rcases (by simpa [isFiller] using filler : first = [] ∨ first = ['.']) with rfl | rfl
    · refine ⟨some .root, rest, fun more filled => if_neg ?_⟩
      rcases filled with filled | filled <;> simp_all
    · exact ⟨some .here, rest, fun more _ => rfl⟩

theorem dropWhile_dropNames (stem more : List (List Char)) :
    (dropNames (componentsIn stem).length (stem ++ more)).dropWhile isFiller =
      more.dropWhile isFiller := by
  induction stem with
  | nil => rw [componentsIn, List.filter_nil, List.map_nil, List.length_nil, dropNames, List.nil_append]
  | cons piece rest ih =>
    cases filler : isFiller piece with
    | false => rw [componentsIn_named filler, List.cons_append, List.length_cons, dropNames, filler,
        if_neg Bool.false_ne_true, ih]
    | true =>
      rw [componentsIn_filler filler, List.cons_append]
      cases count : (componentsIn rest).length with
      | zero =>
        rw [count, dropNames] at ih
        rw [dropNames, List.dropWhile_cons_of_pos filler, ih]
      | succ count' =>
        rw [dropNames, if_pos filler, ← count]
        exact ih

/-- Names are no fillers, so none is dropped in front of them, and none behind them. -/
theorem dropWhile_names {names : List String} (named : ∀ name ∈ names, IsFileName name) :
    (names.map String.toList).dropWhile isFiller = names.map String.toList := by
  rw [List.dropWhile_eq_self_iff]
  intro some_names
  obtain ⟨name, listed, same⟩ := List.mem_map.mp (List.getElem_mem some_names)
  rw [← same, (named name listed).filled]
  simp

theorem Cut.trimEnd_names {head : Option Component} {names : List String}
    (named : ∀ name ∈ names, IsFileName name) :
    (⟨head, names.map String.toList⟩ : Cut).trimEnd = ⟨head, names.map String.toList⟩ := by
  have backwards := dropWhile_names fun name (listed : name ∈ names.reverse) =>
    named name (List.mem_reverse.mp listed)
  rw [List.map_reverse] at backwards
  rw [trimEnd, backwards, List.reverse_reverse]

/-- The rest of a path that names have been added to, behind what they have been added to. -/
theorem below?_descend {base : Path} {names : List String} (some_base : base.text.toList ≠ [])
    (named : ∀ name ∈ names, IsFileName name) (some_names : names ≠ []) :
    (names.foldl child base).below? base = some ⟨"/".intercalate names⟩ := by
  obtain ⟨stem, tail, some_stem, fillers, split, split'⟩ :=
    splitSlashes_descend some_base named some_names
  obtain ⟨head, front, cut⟩ := cutPieces_append some_stem
  have own : base.cut = ⟨head, front ++ tail⟩ :=
    (congrArg cutPieces split).trans (cut tail (fillers.imp (fun slash => by simp [slash]) And.right))
  have whole : (names.foldl child base).cut = ⟨head, front ++ names.map String.toList⟩ :=
    (congrArg cutPieces split').trans (cut _ (Or.inl (by simpa using some_names)))
  have silent : componentsIn tail = [] := by
    rcases fillers with rfl | ⟨rfl, -⟩ <;> rfl
  have components : base.components = head.toList ++ componentsIn front := by
    have joined : base.components = head.toList ++ componentsIn (front ++ tail) := by
      rw [Path.components, own]
      rfl
    rw [joined, componentsIn_append, silent, List.append_nil]
  obtain ⟨count, length⟩ : ∃ count, base.components.length = count + 1 :=
    Nat.exists_eq_succ_of_ne_zero (mt List.length_eq_zero_iff.mp (components_ne_nil some_base))
  have behind : count + 1 - head.toList.length = (componentsIn front).length := by
    rw [← length, components, List.length_append, Nat.add_sub_cancel_left]
  have inside : base.components.isPrefixOf (names.foldl child base).components := by
    rw [components_descend some_base named, List.isPrefixOf_iff_prefix]
    exact List.prefix_append ..
  rw [below?, if_pos inside, length]
  simp only [whole, behind, dropWhile_dropNames, dropWhile_names named, Cut.trimEnd_names named]
  rw [Cut.path, Cut.text]
  simp only [joinSlashes_eq]
  congr 2
  rw [← String.toList_inj, String.toList_ofList, String.toList_intercalate]
  rfl

/-- A relative path behind a name. -/
theorem child_child {base : Path} {name rest : String} (some_base : base.text.toList ≠ [])
    (named : IsFileName name) (relative : rest.toList.head? ≠ some '/') :
    (base.child name).child rest = base.child (name ++ "/" ++ rest) := by
  have open_end : (base.child name).text.toList.getLast? ≠ some '/' := by
    intro slash
    have last : (base.child name).text.toList.getLast? = name.toList.getLast? := by
      rw [child_eq some_base named]
      obtain ⟨front, c, spelled⟩ := (List.eq_nil_or_concat' name.toList).resolve_left named.ne_nil
      split <;> simp [spelled, List.getLast?_append, List.getLast?_cons]
    exact named.solid (List.mem_of_getLast? (last.symm.trans slash))
  have start : (name ++ "/" ++ rest).toList.head? ≠ some '/' := by
    intro slash
    obtain ⟨c, more, spelled⟩ := List.exists_cons_of_ne_nil named.ne_nil
    rw [String.toList_append, String.toList_append, spelled] at slash
    have first : c = '/' := by simpa using slash
    exact named.solid (by simp [spelled, first])
  have joined {front : Path} {text : String} (some_front : front.text.toList ≠ [])
      (relative : text.toList.head? ≠ some '/') : front.child text =
        if front.text.toList.getLast? = some '/' then ⟨front.text ++ text⟩
        else ⟨front.text ++ "/" ++ text⟩ := by
    rw [child, join, if_neg (by simpa [isAbsolute, relative] using some_front)]
  rw [joined (child_ne_nil some_base named) relative, if_neg open_end, joined some_base start,
    child_eq some_base named]
  split <;> simp [String.append_assoc]

/-- Names with slashes between them are a relative path. -/
theorem relative_intercalate {names : List String} (named : ∀ name ∈ names, IsFileName name)
    (some_names : names ≠ []) : ("/".intercalate names).toList.head? ≠ some '/' := by
  obtain ⟨first, rest, rfl⟩ := List.exists_cons_of_ne_nil some_names
  have own := named first List.mem_cons_self
  obtain ⟨c, more, spelled⟩ := List.exists_cons_of_ne_nil own.ne_nil
  have different : c ≠ '/' := by
    rintro rfl
    exact own.solid (by simp [spelled])
  cases rest with
  | nil => simpa [spelled] using different
  | cons next rest => simpa [String.intercalate_cons_cons, spelled] using different

/-- Names that are added one after another can be added as one relative path. -/
theorem child_intercalate {base : Path} {names : List String} (some_base : base.text.toList ≠ [])
    (named : ∀ name ∈ names, IsFileName name) (some_names : names ≠ []) :
    base.child ("/".intercalate names) = names.foldl child base := by
  induction names generalizing base with
  | nil => contradiction
  | cons name rest ih =>
    obtain ⟨first, others⟩ := List.forall_mem_cons.mp named
    cases rest with
    | nil => simp
    | cons next more =>
      have relative := relative_intercalate others (List.cons_ne_nil next more)
      rw [List.foldl_cons, ← ih (child_ne_nil some_base first) others (by simp),
        child_child some_base first relative, String.intercalate_cons_cons]

end AssemblySymbols.Path
