import AssemblySymbols.Proofs.Disk.Descent
import AssemblySymbols.Proofs.Disk.Renaming
import AssemblySymbols.Workspace.Discovery

/-! Trees of directories and files. Without links every place has one path that spells its names, and
this path leads there exactly if something stands there. -/
namespace AssemblySymbols

namespace Place
open AssemblySymbols.Path (IsFileName)
variable {place names : Place} {name : String}

theorem toList_path (place : Place) :
    place.path.text.toList = '/' :: Path.joinSlashes (place.map String.toList) := by
  rw [path, String.toList_append, String.toList_intercalate, Path.joinSlashes_eq]
  rfl

theorem splitSlashes_path (named : ∀ name ∈ place, IsFileName name) (some_names : place ≠ []) :
    Path.splitSlashes place.path.text.toList = [] :: place.map String.toList := by
  have solid : ∀ piece ∈ place.map String.toList, '/' ∉ piece := by
    intro piece member
    obtain ⟨name, listed, rfl⟩ := List.mem_map.mp member
    exact (named name listed).solid
  rw [toList_path, Path.splitSlashes,
    Path.splitSlashes_joinSlashes (by simpa using some_names) solid]

theorem path_ne_nil (place : Place) : place.path.text.toList ≠ [] := by
  simp [toList_path]

/-- The names of a place can be added to the path of a place above it. -/
theorem path_append (place : Place) (named : ∀ name ∈ place ++ names, IsFileName name) :
    names.foldl Path.child place.path = path (place ++ names) := by
  have fromRoot {names : Place} (named : ∀ name ∈ names, IsFileName name) :
      names.foldl Path.child ⟨"/"⟩ = path names := by
    by_cases some_names : names = []
    · rw [some_names]
      rfl
    · have relative := Path.relative_intercalate named some_names
      rw [← Path.child_intercalate (by decide) named some_names, Path.child, Path.join,
        if_neg (by simpa [Path.isAbsolute] using relative), if_pos (by decide)]
      rfl
  obtain ⟨above, below⟩ := List.forall_mem_append.mp named
  rw [← fromRoot named, List.foldl_append, fromRoot above]

theorem child_path (named : ∀ name ∈ place, IsFileName name) (own : IsFileName name) :
    place.path.child name = path (place ++ [name]) := by
  have added : [name].foldl Path.child place.path = path (place ++ [name]) :=
    path_append place (List.forall_mem_append.mpr ⟨named, by simpa using own⟩)
  exact added

end Place

namespace Disk
open AssemblySymbols.Path (IsFileName)
variable {disk : Disk} {here place other : Place} {names : List String} {node : Node} {follow : Bool}
  {destination : Destination}

/-- A tree of directories and files. -/
structure Linkless (disk : Disk) : Prop extends disk.IsTree where
  unlinked : ∀ place target, disk.node? place ≠ some (.link target)

theorem linkless_of_entries (tree : disk.IsTree)
    (unlinked : ∀ entry ∈ disk.nodes, ∀ target, entry.2 ≠ .link target) : disk.Linkless := by
  refine ⟨tree, fun place target link => ?_⟩
  have some_names : place ≠ [] := by
    rintro rfl
    cases link
  rw [node?_of_ne_nil disk some_names] at link
  exact unlinked _ (mem_of_lookup link) target rfl

/-! Walks by names. -/

theorem Linkless.advance_ne_link (linkless : disk.Linkless) {pieces rest : List (List Char)}
    {source : Place} {target : String} : disk.advance follow here pieces ≠ .link source target rest := by
  induction pieces generalizing here with
  | nil => simp [advance]
  | cons piece behind ih =>
    cases disk.piece_cases here piece with
    | leads same _ _ =>
      rw [same]
      exact ih
    | tooLong fails => simp [fails]
    | named other enters =>
      rw [enters]
      exact fun met => linkless.unlinked _ target (link_of_enter other met).1

theorem Linkless.advance_of_walk (linkless : disk.Linkless) {links : Nat} {pieces : List (List Char)}
    (went : disk.walk follow links here pieces = .ok destination) :
    disk.advance follow here pieces = .arrived destination := by
  rcases cases_of_walk went with arrived | ⟨_, _, _, _, _, _, met, _⟩
  · exact arrived
  · exact absurd met linkless.advance_ne_link

theorem advance_name {name : String} (named : IsEntryName name) (rest : List (List Char)) :
    disk.advance follow here (name.toList :: rest) = disk.enter follow here name rest := by
  rw [advance, if_neg (Bool.eq_false_iff.mp named.filled), if_neg named.downward]
  simp only [String.ofList_toList, if_neg (Nat.not_lt.mpr named.short)]
  rfl

/-- A walk by names ends at the place of these names, in a directory that the others lead to. -/
theorem advance_names (solid : disk.Solid here) (named : ∀ name ∈ names, IsEntryName name)
    (arrived : disk.advance follow here (names.map String.toList) = .arrived destination) :
    destination.place = here ++ names ∧ disk.Solid (here ++ names.dropLast) := by
  induction names generalizing here with
  | nil =>
    cases arrived
    exact ⟨(List.append_nil here).symm, by simpa using solid⟩
  | cons name rest ih =>
    obtain ⟨own, others⟩ := List.forall_mem_cons.mp named
    rw [List.map_cons, advance_name own] at arrived
    by_cases directory : disk.node? (here ++ [name]) = some .directory
    · rw [enter_directory directory] at arrived
      obtain ⟨place, above⟩ := ih (solid.append directory) others arrived
      refine ⟨by simpa using place, ?_⟩
      cases rest with
      | nil => simpa using solid
      | cons next more => simpa using above
    · have last : rest = [] := by
        rcases arrived_of_enter directory arrived with ⟨-, blank, -⟩ | ⟨-, -, ended, -⟩
        · cases rest with
          | nil => rfl
          | cons next more =>
            have empty : next.toList = [] := by simpa using List.all_eq_true.mp blank next.toList (by simp)
            exact absurd empty (others next List.mem_cons_self).ne_nil
        · simpa using ended
      subst last
      refine ⟨?_, by simpa using solid⟩
      rcases arrived_of_enter directory arrived with ⟨-, -, rfl⟩ | ⟨-, -, -, rfl⟩ <;> rfl

theorem advance_solid (named : ∀ name ∈ names, IsEntryName name) (solid : disk.Solid (here ++ names))
    (more : List (List Char)) :
    disk.advance follow here (names.map String.toList ++ more) =
      disk.advance follow (here ++ names) more := by
  induction names generalizing here with
  | nil => rw [List.append_nil]; rfl
  | cons name rest ih =>
    obtain ⟨own, others⟩ := List.forall_mem_cons.mp named
    have split : here ++ name :: rest = here ++ [name] ++ rest := by simp
    rw [split] at solid ⊢
    rw [List.map_cons, List.cons_append, advance_name own,
      enter_directory (solid _ (List.prefix_append ..)), ih others solid]

/-! The path of a place. -/

/-- The path of a place is walked from the root of the disk, name by name. -/
theorem walk_path (named : ∀ name ∈ place, IsEntryName name) (links : Nat) :
    disk.walk follow links (startOf disk.home place.path.text.toList)
        (Path.splitSlashes place.path.text.toList) =
      disk.walk follow links [] (place.map String.toList) := by
  have alike {pieces more : List (List Char)}
      (same : disk.advance follow [] pieces = disk.advance follow [] more) :
      disk.walk follow links [] pieces = disk.walk follow links [] more := by
    rw [walk.eq_def, walk.eq_def]
    dsimp only
    rw [same]
  have root : startOf disk.home place.path.text.toList = [] := by
    rw [startOf, Place.toList_path, List.head?_cons, if_pos rfl]
  rw [root]
  by_cases some_names : place = []
  · subst some_names
    exact alike rfl
  · rw [Place.splitSlashes_path (fun name member => (named name member).toIsFileName) some_names]
    exact alike (by rw [advance, if_pos (by rfl)])

theorem Linkless.advance_of_resolve (linkless : disk.Linkless) (named : ∀ name ∈ place, IsEntryName name)
    (went : disk.resolve follow place.path = .ok destination) :
    place.path.text.utf8ByteSize ≤ pathLimit ∧
    disk.advance follow [] (place.map String.toList) = .arrived destination := by
  obtain ⟨-, -, fits, walked⟩ := resolve_eq_ok_iff.mp went
  rw [walk_path named] at walked
  exact ⟨fits, linkless.advance_of_walk walked⟩

theorem resolve_of_advance (named : ∀ name ∈ place, IsEntryName name)
    (fits : place.path.text.utf8ByteSize ≤ pathLimit)
    (arrived : disk.advance follow [] (place.map String.toList) = .arrived destination) :
    disk.resolve follow place.path = .ok destination := by
  refine resolve_eq_ok_iff.mpr ⟨fun nul => ?_, place.path_ne_nil, fits, ?_⟩
  · rw [Place.path, String.toList_append] at nul
    rcases List.mem_append.mp nul with slash | inside
    · exact absurd slash (by decide)
    · rcases Path.mem_intercalate_slash inside with slash | ⟨name, listed, own⟩
      · exact absurd slash (by decide)
      · exact (named name listed).legible own
  · rw [walk_path named]
    exact walk_of_arrived arrived

namespace Linkless
variable {bytes : Text.Bytes}

/-- The path of a place leads to this place if anywhere, and the directory that it is in is there. -/
theorem place_of_resolve (linkless : disk.Linkless) (named : ∀ name ∈ place, IsEntryName name)
    (went : disk.resolve follow place.path = .ok destination) :
    destination.place = place ∧ disk.Solid place.dropLast ∧
    destination.Sound disk (place.map String.toList) := by
  obtain ⟨-, arrived⟩ := linkless.advance_of_resolve named went
  obtain ⟨there, solid⟩ := advance_names (solid_nil disk) named arrived
  exact ⟨there, solid, advance_sound (solid_nil disk) arrived⟩

/-- If something stands at a place, its path leads there. -/
theorem resolve_path (linkless : disk.Linkless) (stands : disk.node? place = some node)
    (fits : place.path.text.utf8ByteSize ≤ pathLimit) :
    disk.resolve follow place.path = .ok (.present place node) := by
  cases place using List.reverseRecOn with
  | nil =>
    cases stands
    exact resolve_of_advance (by simp) fits rfl
  | append_singleton front last =>
    obtain ⟨solid, own⟩ := linkless.inside front last (by rw [stands]; rfl)
    have named := linkless.named solid
    have all : ∀ name ∈ front ++ [last], IsEntryName name :=
      List.forall_mem_append.mpr ⟨named, by simpa using own⟩
    refine resolve_of_advance all fits ?_
    have unlinked : follow = true → ∀ target, disk.node? (front ++ [last]) ≠ some (.link target) :=
      fun _ => linkless.unlinked _
    have steps : disk.advance follow [] (front.map String.toList ++ [last.toList]) =
        disk.advance follow ([] ++ front) [last.toList] :=
      advance_solid named ((List.nil_append front).symm ▸ solid) [last.toList]
    rw [List.map_append, List.map_singleton, steps, List.nil_append, advance_name own,
      enter_nil unlinked, destinationAt, stands]

theorem find?_path_iff (linkless : disk.Linkless) (named : ∀ name ∈ place, IsEntryName name) :
    disk.find? place.path = .ok (other, node) ↔
      other = place ∧ place.path.text.utf8ByteSize ≤ pathLimit ∧ disk.node? place = some node := by
  constructor
  · intro found
    have went := resolve_of_find? found
    obtain ⟨rfl, -, sound⟩ := linkless.place_of_resolve named went
    exact ⟨rfl, (linkless.advance_of_resolve named went).1, sound⟩
  · rintro ⟨rfl, fits, stands⟩
    rw [find?, linkless.resolve_path stands fits]
    rfl

theorem read_path_iff (linkless : disk.Linkless) (named : ∀ name ∈ place, IsEntryName name) :
    disk.read place.path = .ok bytes ↔
      place.path.text.utf8ByteSize ≤ pathLimit ∧ disk.node? place = some (.file bytes) := by
  have through (node : Node) : disk.find? place.path = .ok (place, node) ↔ place = place ∧
      place.path.text.utf8ByteSize ≤ pathLimit ∧ disk.node? place = some node :=
    linkless.find?_path_iff named
  rw [← and_iff_right (show place = place from rfl) (b := _ ∧ _), ← through, read]
  cases found : disk.find? place.path with
  | error => simp [bind, Except.bind]
  | ok there =>
    obtain ⟨other, node⟩ := there
    obtain ⟨rfl, -⟩ := (linkless.find?_path_iff named).mp found
    cases node <;> simp [bind, Except.bind, pure, Except.pure, throw, throwThe, MonadExceptOf.throw]

theorem unlinked_path (linkless : disk.Linkless) (home : disk.Solid disk.home) (path : Path) :
    disk.Unlinked path :=
  fun place target link => linkless.unlinked place target (resolve_sound home link).2

/-! Changes to trees. -/

/-- A directory or a file is put into a directory, which may not take the place of a directory unless it
is one. -/
theorem put (linkless : disk.Linkless) {name : String} (solid : disk.Solid place)
    (entry : IsEntryName name)
    (stays : disk.node? (place ++ [name]) = some .directory → node = .directory)
    (unlinked : ∀ target, node ≠ .link target) : (disk.put (place ++ [name]) node).Linkless := by
  have found (other : Place) : (disk.put (place ++ [name]) node).node? other =
      if other = place ++ [name] then some node else disk.node? other := node?_put (by simp)
  have kept {other : Place} (solid : disk.Solid other) :
      (disk.put (place ++ [name]) node).Solid other := by
    intro above inside
    rw [found]
    split
    · next same => rw [stays (same ▸ solid above inside)]
    · exact solid above inside
  refine ⟨⟨?_, ?_, fun other last stands => ?_⟩, fun other target => ?_⟩
  · rw [Disk.put, List.map_append, List.map_singleton]
    refine List.nodup_append.mpr ⟨?_, List.nodup_singleton _, ?_⟩
    · exact List.Sublist.nodup (List.filter_sublist.map _) linkless.once
    · intro old member new own same
      obtain ⟨entry, listed, rfl⟩ := List.mem_map.mp member
      have apart := (List.mem_filter.mp listed).2
      rw [same, List.mem_singleton.mp own] at apart
      simp at apart
  · rw [Disk.put, List.map_append, List.mem_append]
    rintro (member | own)
    · obtain ⟨entry, listed, root⟩ := List.mem_map.mp member
      exact linkless.rooted (List.mem_map.mpr ⟨entry, (List.mem_filter.mp listed).1, root⟩)
    · simp at own
  · rw [found] at stands
    split at stands
    · next same =>
      obtain ⟨rfl, own⟩ := List.append_inj' same rfl
      cases own
      exact ⟨kept solid, entry⟩
    · obtain ⟨solid', entry'⟩ := linkless.inside other last stands
      exact ⟨kept solid', entry'⟩
  · rw [found]
    split
    · simpa using unlinked target
    · exact linkless.unlinked other target

/-- Anything but a directory can be taken away. -/
theorem erase (linkless : disk.Linkless) (leaf : disk.node? place ≠ some .directory) :
    (disk.erase place).Linkless := by
  have found {other : Place} (some_names : other ≠ []) : (disk.erase place).node? other =
      if other = place then none else disk.node? other := node?_erase some_names
  refine ⟨⟨?_, ?_, fun other last stands => ?_⟩, fun other target stands => ?_⟩
  · exact List.Sublist.nodup (List.filter_sublist.map _) linkless.once
  · intro member
    obtain ⟨entry, listed, root⟩ := List.mem_map.mp member
    exact linkless.rooted (List.mem_map.mpr ⟨entry, (List.mem_filter.mp listed).1, root⟩)
  · rw [found (by simp)] at stands
    split at stands
    · contradiction
    · obtain ⟨solid, entry⟩ := linkless.inside other last stands
      exact ⟨solid.erase leaf, entry⟩
  · by_cases some_names : other = []
    · subst some_names
      cases stands
    · rw [found some_names] at stands
      split at stands
      · contradiction
      · exact linkless.unlinked other target stands

/-- Nothing stands below a file, so it is moved by itself. -/
theorem move_file (linkless : disk.Linkless) {source target : Place}
    (file : disk.node? source = some (.file bytes)) :
    disk.move source target = (disk.erase source).put target (.file bytes) := by
  have alone : ∀ entry ∈ disk.nodes, source.isPrefixOf entry.1 = decide (entry.1 = source) := by
    rintro ⟨other, node⟩ member
    rw [Bool.eq_iff_iff, List.isPrefixOf_iff_prefix, decide_eq_true_iff]
    constructor
    · rintro ⟨behind, rfl⟩
      cases behind using List.reverseRecOn with
      | nil => exact List.append_nil source
      | append_singleton front last =>
        have stands := linkless.mem_nodes member
        rw [← List.append_assoc] at stands
        have solid := (linkless.inside _ _ (by rw [stands]; rfl)).1
        have directory := solid source (List.prefix_append ..)
        rw [file] at directory
        cases directory
    · intro same
      exact same ▸ List.prefix_refl source
  have some_names : source ≠ [] := by
    rintro rfl
    cases file
  have listed : disk.nodes.lookup source = some (.file bytes) := by
    rwa [node?_of_ne_nil disk some_names] at file
  have single : disk.subtree source = [(source, .file bytes)] := by
    rw [subtree, List.filter_congr alone]
    exact filter_key linkless.once listed
  have rest : disk.nodes.filter (fun entry => !source.isPrefixOf entry.1 && entry.1 ≠ target) =
      (disk.nodes.filter (·.1 ≠ source)).filter (·.1 ≠ target) := by
    rw [List.filter_filter]
    refine List.filter_congr fun entry member => ?_
    rw [alone entry member]
    by_cases same : entry.1 = source <;> by_cases other : entry.1 = target <;> simp [same, other]
  rw [move, single, rest]
  simp [Disk.put, Disk.erase]

end Linkless
end Disk
end AssemblySymbols
