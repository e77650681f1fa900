import AssemblySymbols.Disk.Action
import AssemblySymbols.Proofs.Paths

/-! The paths above a path. Each is spelled by the first pieces of the path below it; behind those of the
nearest one comes the file name, among fillers. -/
namespace AssemblySymbols.Path

/-- The path with the given pieces. A single empty piece is that of the root, which has a slash behind it. -/
def ofPieces (pieces : List (List Char)) : Path :=
  if pieces = [[]] then ⟨"/"⟩ else ⟨String.ofList (joinSlashes pieces)⟩

/-- Pieces without an empty one at their end, but for the single one of the root. -/
def Closed (pieces : List (List Char)) : Prop := pieces = [[]] ∨ pieces.getLast? ≠ some []

theorem splitSlashes_ofPieces {pieces : List (List Char)} (some_pieces : pieces ≠ []) (named : pieces ≠ [[]])
    (solid : ∀ piece ∈ pieces, '/' ∉ piece) : splitSlashes (ofPieces pieces).text.toList = pieces := by
  rw [ofPieces, if_neg named, String.toList_ofList, splitSlashes_joinSlashes some_pieces solid]

theorem joinSlashes_splitSlashes (text : List Char) : joinSlashes (splitSlashes text) = text := by
  fun_induction splitSlashes text with
  | case1 => rfl
  | case2 rest ih =>
    obtain ⟨piece, pieces, split⟩ := List.exists_cons_of_ne_nil (splitSlashes_ne_nil rest)
    rw [split] at ih ⊢
    exact congrArg (List.cons '/') ih
  | case3 c rest _ none => exact absurd none (splitSlashes_ne_nil rest)
  | case4 c rest _ piece pieces split ih =>
    rw [split] at ih
    cases pieces <;> exact congrArg (List.cons c) ih

theorem joinSlashes_prefix (front more : List (List Char)) :
    joinSlashes front <+: joinSlashes (front ++ more) := by
  induction front with
  | nil => exact List.nil_prefix
  | cons piece rest ih =>
    cases rest with
    | nil =>
      cases more with
      | nil => exact List.prefix_refl _
      | cons next others => exact List.prefix_append piece ('/' :: joinSlashes (next :: others))
    | cons next others =>
      obtain ⟨tail, whole⟩ := ih
      refine ⟨tail, ?_⟩
      change (piece ++ '/' :: joinSlashes (next :: others)) ++ tail =
        piece ++ '/' :: joinSlashes (next :: others ++ more)
      rw [← whole, List.append_assoc, List.cons_append]

theorem prefix_ofPieces {path : Path} {stem : List (List Char)}
    (inside : stem <+: splitSlashes path.text.toList) (beyond : stem ≠ [[]]) :
    (ofPieces stem).text.toList <+: path.text.toList := by
  obtain ⟨more, split⟩ := inside
  rw [ofPieces, if_neg beyond, String.toList_ofList, ← joinSlashes_splitSlashes path.text.toList, ← split]
  exact joinSlashes_prefix stem more

/-- Whether a text starts with a slash is told by its first piece. -/
theorem head?_splitSlashes {text : List Char} (some_text : text ≠ []) :
    (splitSlashes text).head? = some [] ↔ text.head? = some '/' := by
  fun_cases splitSlashes text with
  | case1 => contradiction
  | case2 => simp
  | case3 c rest different none => exact absurd none (splitSlashes_ne_nil rest)
  | case4 c rest different => simpa using different

/-! ### Trimming -/

/-- Fillers at the end of pieces can be cut off, so that a name comes last. -/
theorem exists_trim (pieces : List (List Char)) :
    ∃ kept tail, (pieces.reverse.dropWhile isFiller).reverse = kept ∧ pieces = kept ++ tail ∧
      (∀ piece ∈ tail, isFiller piece = true) ∧
      ∀ last, kept.getLast? = some last → isFiller last = false := by
  refine ⟨_, (pieces.reverse.takeWhile isFiller).reverse, rfl, ?_, fun piece member => ?_, fun last final => ?_⟩
  · rw [← List.reverse_append, List.takeWhile_append_dropWhile, List.reverse_reverse]
  · exact List.mem_takeWhile_imp (List.mem_reverse.mp member)
  · have first := List.head?_dropWhile_not isFiller pieces.reverse
    rw [List.getLast?_reverse] at final
    rwa [final] at first

theorem componentsIn_fillers {pieces : List (List Char)} (fillers : ∀ piece ∈ pieces, isFiller piece = true) :
    componentsIn pieces = [] := by
  rw [componentsIn, List.map_eq_nil_iff, List.filter_eq_nil_iff]
  exact fun piece member => by simp [fillers piece member]

namespace Cut

/-- The pieces that stand for the head of a cut. -/
def leader (cut : Cut) : List (List Char) :=
  match cut.head with
  | some .root => [[]]
  | some .here => [['.']]
  | _ => []

theorem leader_cutPieces {pieces : List (List Char)} (named : pieces ≠ [[]]) :
    (cutPieces pieces).leader ++ (cutPieces pieces).pieces = pieces := by
  unfold cutPieces
  split
  · next rest =>
    have some_rest : rest ≠ [] := fun none => named (none ▸ rfl)
    rw [if_neg (by simpa using some_rest)]
    rfl
  · rfl
  · rfl

theorem path_eq_ofPieces {cut : Cut} (named : ∀ last, cut.pieces.getLast? = some last → isFiller last = false) :
    cut.path = ofPieces (cut.leader ++ cut.pieces) := by
  obtain ⟨head, pieces⟩ := cut
  have filled : pieces ≠ [[]] := by
    rintro rfl
    exact absurd (named [] rfl) (by decide)
  unfold path text leader ofPieces
  cases head with
  | none => exact (if_neg filled).symm
  | some component =>
    cases component with
    | root =>
      cases pieces with
      | nil => rfl
      | cons first rest => exact (if_neg (by simp)).symm
    | here => exact (if_neg (by simp)).symm
    | parent | name => exact (if_neg filled).symm

theorem closed_leader {cut : Cut} (named : ∀ last, cut.pieces.getLast? = some last → isFiller last = false) :
    Closed (cut.leader ++ cut.pieces) := by
  cases final : cut.pieces.getLast? with
  | none =>
    rw [List.getLast?_eq_none_iff.mp final, List.append_nil, leader]
    split
    · exact Or.inl rfl
    · exact Or.inr (by simp)
    · exact Or.inr (by simp)
  | some last =>
    refine Or.inr fun blank => ?_
    rw [List.getLast?_append, final, Option.some_or] at blank
    have filled := named last final
    rw [Option.some.inj blank] at filled
    contradiction

end Cut

/-! ### The nearest path above -/

/-- A last component that is not the head of the path is one of its pieces, with fillers behind it. -/
theorem exists_last {path : Path} {component : Component}
    (last : path.components.getLast? = some component) (root : component ≠ .root) (here : component ≠ .here) :
    ∃ front piece tail, path.cut.pieces = front ++ piece :: tail ∧
      path.cut.trimEnd.pieces = front ++ [piece] ∧ (∀ filler ∈ tail, isFiller filler = true) ∧
      isFiller piece = false ∧ componentOf piece = component := by
  obtain ⟨kept, tail, trimmed, split, tailed, named⟩ := exists_trim path.cut.pieces
  have components : path.components = path.cut.head.toList ++ componentsIn kept := by
    rw [← List.append_nil (componentsIn kept), ← componentsIn_fillers tailed, ← componentsIn_append, ← split]
    rfl
  rw [components] at last
  rcases List.eq_nil_or_concat' kept with rfl | ⟨front, piece, rfl⟩
  · have alone : path.cut.head = some component := by
      cases head : path.cut.head <;> simp_all [componentsIn]
    rcases cutPieces_cases (splitSlashes path.text.toList) with ⟨rest, cut⟩ | ⟨rest, cut⟩ | ⟨headless, -⟩
    · exact absurd (Option.some.inj (alone.symm.trans (congrArg Cut.head cut))) root
    · exact absurd (Option.some.inj (alone.symm.trans (congrArg Cut.head cut))) here
    · exact absurd (alone.symm.trans headless) (by simp)
  · have filled : isFiller piece = false := named piece List.getLast?_concat
    have single : componentsIn [piece] = [componentOf piece] := componentsIn_named filled []
    rw [componentsIn_append, single, ← List.append_assoc, List.getLast?_concat] at last
    refine ⟨front, piece, tail, ?_, trimmed, tailed, filled, Option.some.inj last⟩
    rw [split, List.append_assoc, List.singleton_append]

theorem parent?_of_trimEnd {path : Path} {component : Component} {front : List (List Char)} {piece : List Char}
    (last : path.components.getLast? = some component) (root : component ≠ .root) (here : component ≠ .here)
    (trimmed : path.cut.trimEnd.pieces = front ++ [piece]) :
    path.parent? = some (⟨path.cut.head, front⟩ : Cut).trimEnd.path := by
  have dropped : ({ path.cut.trimEnd with pieces := path.cut.trimEnd.pieces.dropLast } : Cut) =
      ⟨path.cut.head, front⟩ := by
    rw [trimmed, List.dropLast_concat]
    rfl
  rw [parent?, last]
  cases component with
  | root => contradiction
  | here => contradiction
  | parent | name => exact congrArg (fun cut : Cut => some cut.trimEnd.path) dropped

/-- A path without a head of its own starts with a name. -/
theorem isFiller_of_leader_eq_nil {path : Path} {piece : List Char} (unled : path.cut.leader = [])
    (first : path.cut.pieces.head? = some piece) : isFiller piece = false := by
  rcases cutPieces_cases (splitSlashes path.text.toList) with ⟨rest, cut⟩ | ⟨rest, cut⟩ | ⟨-, named⟩
  · change path.cut = _ at cut
    rw [Cut.leader, cut] at unled
    contradiction
  · change path.cut = _ at cut
    rw [Cut.leader, cut] at unled
    contradiction
  · exact named piece first

/-- The last component of a path is one of its pieces, with fillers before and behind it, and the path
above it is spelled by what comes first. -/
theorem exists_shelf {path : Path} {component : Component}
    (last : path.components.getLast? = some component) (root : component ≠ .root) (here : component ≠ .here) :
    ∃ shelf gap piece tail, path.parent? = some (ofPieces shelf) ∧ Closed shelf ∧
      splitSlashes path.text.toList = shelf ++ (gap ++ piece :: tail) ∧
      (∀ filler ∈ gap, isFiller filler = true) ∧ (∀ filler ∈ tail, isFiller filler = true) ∧
      (shelf = [] → gap = []) ∧ isFiller piece = false ∧ componentOf piece = component := by
  have some_text : path.text.toList ≠ [] := by
    intro none
    rw [components_eq, none] at last
    contradiction
  obtain ⟨front, piece, tail, split, trimmed, tailed, filled, same⟩ := exists_last last root here
  obtain ⟨kept, gap, trimmed', rfl, gapped, named⟩ := exists_trim front
  let above : Cut := ⟨path.cut.head, kept⟩
  have parent : path.parent? = some above.path := by
    rw [parent?_of_trimEnd last root here trimmed, Cut.trimEnd, trimmed']
  have whole := Cut.leader_cutPieces (splitSlashes_ne_singleton some_text)
  change path.cut.leader ++ path.cut.pieces = _ at whole
  refine ⟨path.cut.leader ++ kept, gap, piece, tail, ?_, @Cut.closed_leader above named, ?_, gapped, tailed,
    fun none => ?_, filled, same⟩
  · rw [parent, @Cut.path_eq_ofPieces above named]
    rfl
  · rw [← whole, split, List.append_assoc, List.append_assoc]
  · obtain ⟨unled, rfl⟩ := List.append_eq_nil_iff.mp none
    cases gap with
    | nil => rfl
    | cons filler more =>
      have named := isFiller_of_leader_eq_nil unled (congrArg List.head? split)
      rw [gapped filler List.mem_cons_self] at named
      contradiction

theorem parent?_cases {path parent : Path} (found : path.parent? = some parent) :
    ∃ shelf, parent = ofPieces shelf ∧ Closed shelf ∧ shelf <+: splitSlashes path.text.toList := by
  cases last : path.components.getLast? with
  | none => simp [parent?, last] at found
  | some component =>
    by_cases root : component = .root
    · simp [parent?, last, root] at found
    by_cases here : component = .here
    · have same : parent = ⟨""⟩ := by simpa [parent?, last, here] using found.symm
      exact ⟨[], same, Or.inr (by simp), List.nil_prefix⟩
    obtain ⟨shelf, gap, piece, tail, found', closed, split, -⟩ := exists_shelf last root here
    exact ⟨shelf, Option.some.inj (found.symm.trans found'), closed, split ▸ List.prefix_append ..⟩

/-- So are those further up. -/
theorem mem_pathsAbove {depth : Nat} {shelf : List (List Char)} {above : Path}
    (solid : ∀ piece ∈ shelf, '/' ∉ piece) (member : above ∈ DiskAction.pathsAbove depth (ofPieces shelf)) :
    ∃ stem, above = ofPieces stem ∧ Closed stem ∧ stem <+: shelf := by
  induction depth generalizing shelf with
  | zero => contradiction
  | succ depth ih =>
    rw [DiskAction.pathsAbove] at member
    by_cases least : shelf = [] ∨ shelf = [[]]
    · have last : (ofPieces shelf).parent? = none := by
        rcases least with rfl | rfl <;> decide
      simp [last] at member
    obtain ⟨some_pieces, named⟩ := not_or.mp least
    cases found : (ofPieces shelf).parent? with
    | none => simp [found] at member
    | some parent =>
      simp only [found, List.mem_cons] at member
      obtain ⟨front, rfl, closed, inside⟩ := parent?_cases found
      rw [splitSlashes_ofPieces some_pieces named solid] at inside
      rcases member with rfl | further
      · exact ⟨front, rfl, closed, inside⟩
      · obtain ⟨stem, spelled, closed', inside'⟩ :=
          ih (fun piece member => solid piece (inside.subset member)) further
        exact ⟨stem, spelled, closed', inside'.trans inside⟩

/-! ### Paths with a file name -/

/-- A path with a file name has the pieces of the path above it and then that name, among fillers. -/
structure Spelled (path : Path) (name : String) (shelf gap tail : List (List Char)) : Prop where
  parent : path.parent? = some (ofPieces shelf)
  closed : Closed shelf
  pieces : splitSlashes path.text.toList = shelf ++ (gap ++ name.toList :: tail)
  before : ∀ piece ∈ gap, isFiller piece = true
  behind : ∀ piece ∈ tail, isFiller piece = true
  first : shelf = [] → gap = []
  entry : IsFileName name

theorem exists_spelled {path : Path} {name : String} (named : path.fileName? = some name) :
    ∃ shelf gap tail, path.Spelled name shelf gap tail := by
  have last : path.components.getLast? = some (.name name) := by
    unfold fileName? at named
    split at named
    · next found => rw [found, Option.some.inj named]
    · contradiction
  obtain ⟨shelf, gap, piece, tail, parent, closed, split, before, behind, first, filled, component⟩ :=
    exists_shelf last (by simp) (by simp)
  have downward : piece ≠ ['.', '.'] := by
    rintro rfl
    contradiction
  have own : name.toList = piece := by
    rw [componentOf, if_neg downward, Component.name.injEq] at component
    rw [← component, String.toList_ofList]
  refine ⟨shelf, gap, tail, parent, closed, own ▸ split, before, behind, first, ?_⟩
  exact ⟨own ▸ solid_of_mem_splitSlashes path.text.toList piece (by simp [split]), own ▸ filled,
    own ▸ downward⟩

/-- A name that is added to such pieces is the next piece. -/
theorem splitSlashes_child_ofPieces {shelf : List (List Char)} {name : String} (closed : Closed shelf)
    (solid : ∀ piece ∈ shelf, '/' ∉ piece) (entry : IsFileName name) :
    splitSlashes ((ofPieces shelf).child name).text.toList = shelf ++ [name.toList] := by
  have whole := splitSlashes_of_solid entry.solid
  by_cases none : shelf = []
  · subst none
    have own : (ofPieces []).child name = ⟨name⟩ := by simp [ofPieces, joinSlashes, child, join]
    rw [own, whole, List.nil_append]
  by_cases root : shelf = [[]]
  · subst root
    have own : (ofPieces [[]]).child name = ⟨"/" ++ name⟩ :=
      (child_eq (show (ofPieces [[]]).text.toList ≠ [] by decide) entry).trans (if_pos (by decide))
    rw [own, String.toList_append, show "/".toList = ['/'] from rfl, List.singleton_append, splitSlashes, whole,
      List.singleton_append]
  have split := splitSlashes_ofPieces none root solid
  have some_text : (ofPieces shelf).text.toList ≠ [] := by
    intro empty
    rw [empty] at split
    exact root split.symm
  have open_end : (ofPieces shelf).text.toList.getLast? ≠ some '/' := by
    intro slash
    obtain ⟨front, spelled⟩ := List.getLast?_eq_some_iff.mp slash
    rw [spelled, splitSlashes_append, splitSlashes] at split
    exact closed.resolve_left root (split ▸ List.getLast?_concat)
  rw [child_eq some_text entry, if_neg open_end, String.toList_append, String.toList_append,
    List.append_assoc, show "/".toList = ['/'] from rfl, List.singleton_append, splitSlashes_append, split, whole]

theorem Spelled.solid {path : Path} {name : String} {shelf gap tail : List (List Char)}
    (spelled : path.Spelled name shelf gap tail) : ∀ piece ∈ shelf, '/' ∉ piece := fun piece member =>
  solid_of_mem_splitSlashes path.text.toList piece (by simp [spelled.pieces, member])

/-- Another file name in the place of the one there leaves the pieces above it. -/
theorem Spelled.withFileName {path : Path} {name other : String} {shelf gap tail : List (List Char)}
    (spelled : path.Spelled name shelf gap tail) (named : path.fileName? = some name) (entry : IsFileName other) :
    splitSlashes (path.withFileName other).text.toList = shelf ++ [other.toList] := by
  rw [Path.withFileName, named, spelled.parent]
  exact splitSlashes_child_ofPieces spelled.closed spelled.solid entry

theorem Spelled.ne_nil {path : Path} {name : String} {shelf gap tail : List (List Char)}
    (spelled : path.Spelled name shelf gap tail) : path.text.toList ≠ [] := by
  intro none
  have single := spelled.pieces
  rw [none, splitSlashes, List.singleton_eq_append_iff] at single
  have filled := spelled.entry.ne_nil
  rcases single with ⟨-, rest⟩ | ⟨-, rest⟩
  · rcases List.append_eq_singleton_iff.mp rest with ⟨-, own⟩ | ⟨-, own⟩
    · exact filled (List.cons.inj own).1
    · contradiction
  · simp at rest

/-! ### Steps up -/

/-- The parts of a path that end in a step up. -/
def ascents (path : Path) : List Path :=
  ((splitSlashes path.text.toList).inits.filter fun front => front.getLast? = some ['.', '.']).map ofPieces

theorem mem_ascents {path : Path} {front : List (List Char)}
    (inside : front ++ [['.', '.']] <+: splitSlashes path.text.toList) :
    ofPieces (front ++ [['.', '.']]) ∈ path.ascents := by
  refine List.mem_map.mpr ⟨_, List.mem_filter.mpr ⟨(List.mem_inits _ _).mpr inside, ?_⟩, rfl⟩
  exact decide_eq_true List.getLast?_concat

end AssemblySymbols.Path
