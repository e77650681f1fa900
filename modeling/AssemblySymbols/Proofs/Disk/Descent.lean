import AssemblySymbols.Disk.Access
import AssemblySymbols.Proofs.Disk.Changes
import AssemblySymbols.Proofs.Paths

/-! From a directory to what is below it. A path that leads to a directory leads on, when names are
added to it, to what stands under these names. -/
namespace AssemblySymbols.Disk

variable {disk : Disk} {here place : Place}

/-- Whoever enters a name and arrives at a directory has found it under the name. -/
theorem directory_of_enter {name : String} {rest : List (List Char)}
    (arrived : disk.enter true here name rest = .arrived (.present place .directory)) :
    disk.node? (here ++ [name]) = some .directory := by
  by_contra other
  rcases arrived_of_enter other arrived with ⟨_, _, same⟩ | ⟨node, found, _, same⟩
  · cases same
  · cases same
    exact other found

/-- A way to a directory can be continued at its end, or in place of the slash there. -/
theorem advance_onwards {pieces tail : List (List Char)} (fillers : tail = [[]] ∨ tail = [])
    (arrived : disk.advance true here (pieces ++ tail) = .arrived (.present place .directory))
    (follow : Bool) (more : List (List Char)) :
    disk.advance follow here (pieces ++ more) = disk.advance follow place more := by
  induction pieces generalizing here with
  | nil =>
    have own : disk.advance true here tail = .arrived (.present here .directory) := by
      rcases fillers with rfl | rfl <;> rfl
    rw [List.nil_append, own] at arrived
    cases arrived
    rfl
  | cons piece rest ih =>
    rw [List.cons_append] at arrived ⊢
    cases disk.piece_cases here piece with
    | leads same _ _ =>
      rw [same] at arrived ⊢
      exact ih arrived
    | tooLong fails =>
      rw [fails] at arrived
      contradiction
    | named other enters =>
      rw [enters] at arrived
      exact absurd (directory_of_enter arrived) other

/-- The same of a way to a link, which leaves the end to be walked. -/
theorem advance_link_onwards {pieces tail rest : List (List Char)} {source : Place} {target : String}
    (fillers : tail = [[]] ∨ tail = [])
    (met : disk.advance true here (pieces ++ tail) = .link source target rest) :
    ∃ left, rest = left ++ tail ∧ ∀ (follow : Bool) more, follow = true ∨ more ≠ [] →
      disk.advance follow here (pieces ++ more) = .link source target (left ++ more) := by
  induction pieces generalizing here with
  | nil =>
    have own : disk.advance true here tail = .arrived (.present here .directory) := by
      rcases fillers with rfl | rfl <;> rfl
    rw [List.nil_append, own] at met
    contradiction
  | cons piece behind ih =>
    simp only [List.cons_append] at met ⊢
    cases disk.piece_cases here piece with
    | leads same _ _ =>
      simp only [same] at met ⊢
      exact ih met
    | tooLong fails =>
      rw [fails] at met
      contradiction
    | named other enters =>
      rw [enters] at met
      obtain ⟨link, rfl, rfl, -⟩ := link_of_enter other met
      refine ⟨behind, rfl, fun follow more further => ?_⟩
      rw [enters]
      exact enter_link link (further.imp_right fun left => by simp [left])

theorem walk_of_same {followLast : Bool} {links : Nat} {pieces more : List (List Char)}
    (same : disk.advance followLast here pieces = disk.advance followLast place more) :
    disk.walk followLast links here pieces = disk.walk followLast links place more := by
  rw [walk.eq_def, walk.eq_def disk followLast links place]
  simp only [same]

/-- The way on from a directory is that of whoever starts there with the links that are left. -/
theorem walk_onwards {links : Nat} {pieces tail : List (List Char)} (fillers : tail = [[]] ∨ tail = [])
    (arrived : disk.walk true links here (pieces ++ tail) = .ok (.present place .directory)) :
    ∃ left, ∀ (follow : Bool) more, follow = true ∨ more ≠ [] →
      disk.walk follow links here (pieces ++ more) = disk.walk follow left place more := by
  generalize whole : pieces ++ tail = all at arrived
  induction arrived using walk_induction generalizing pieces with
  | @arrives links _ _ went =>
    subst whole
    exact ⟨links, fun follow more _ => walk_of_same (advance_onwards fillers went follow more)⟩
  | meets met named _ ih =>
    subst whole
    obtain ⟨between, rfl, met'⟩ := advance_link_onwards fillers met
    obtain ⟨left, same⟩ := ih (List.append_assoc ..)
    refine ⟨left, fun follow more further => ?_⟩
    rw [walk_of_link (met' follow more further) named, ← List.append_assoc]
    exact same follow more further

/-! A path that names are added to. -/

/-- A file system can hold the name and look it up. -/
structure IsEntryName (name : String) : Prop extends Path.IsFileName name where
  legible : '\x00' ∉ name.toList
  short : name.utf8ByteSize ≤ nameLimit

instance : DecidablePred IsEntryName := fun name =>
  decidable_of_iff (Path.IsFileName name ∧ '\x00' ∉ name.toList ∧ name.utf8ByteSize ≤ nameLimit)
    ⟨fun ⟨named, legible, short⟩ => ⟨named, legible, short⟩,
      fun entry => ⟨entry.toIsFileName, entry.legible, entry.short⟩⟩

theorem resolve_of_find? {path : Path} {node : Node} (found : disk.find? path = .ok (place, node)) :
    disk.resolve true path = .ok (.present place node) := by
  unfold find? at found
  cases went : disk.resolve true path with
  | error error => simp [went, bind, Except.bind] at found
  | ok destination =>
    cases destination with
    | present there node' =>
      simp only [went, bind, Except.bind, pure, Except.pure] at found
      cases found
      rfl
    | absent there slashed => simp [went, bind, Except.bind, throw, throwThe, MonadExceptOf.throw] at found

/-- A path that leads somewhere can be one, and a path that can be one is walked. -/
theorem resolve_eq_ok_iff {followLast : Bool} {path : Path} {destination : Destination} :
    disk.resolve followLast path = .ok destination ↔
      '\x00' ∉ path.text.toList ∧ path.text.toList ≠ [] ∧ path.text.utf8ByteSize ≤ pathLimit ∧
      disk.walk followLast linkLimit (startOf disk.home path.text.toList)
        (Path.splitSlashes path.text.toList) = .ok destination := by
  unfold resolve
  by_cases nul : '\x00' ∈ path.text.toList
  · simp [nul]
  by_cases empty : path.text.toList = []
  · simp [empty]
  by_cases long : pathLimit < path.text.utf8ByteSize
  · simp [nul, empty, long, Nat.not_le.mpr long]
  · simp [nul, empty, long, Nat.not_lt.mp long]

/-- The last name of a path that is not a link's leads to what stands under it. -/
theorem advance_last {name : String} {node : Node} (named : IsEntryName name)
    (stands : disk.node? (place ++ [name]) = some node) (unlinked : ∀ target, node ≠ .link target) :
    disk.advance true place [name.toList] = .arrived (.present (place ++ [name]) node) := by
  rw [advance, if_neg (Bool.eq_false_iff.mp named.filled), if_neg named.downward]
  simp only [String.ofList_toList, if_neg (Nat.not_lt.mpr named.short), stands]
  cases node with
  | directory | file => rfl
  | link target => exact absurd rfl (unlinked target)

theorem find?_child {base : Path} {name : String} {node : Node}
    (found : disk.find? base = .ok (place, .directory)) (named : IsEntryName name)
    (fits : (base.child name).text.utf8ByteSize ≤ pathLimit)
    (stands : disk.node? (place ++ [name]) = some node) (unlinked : ∀ target, node ≠ .link target) :
    disk.find? (base.child name) = .ok (place ++ [name], node) := by
  obtain ⟨legible, some_base, -, walked⟩ := resolve_eq_ok_iff.mp (resolve_of_find? found)
  obtain ⟨stem, tail, -, fillers, split, split'⟩ :=
    Path.splitSlashes_child some_base named.toIsFileName
  have text := Path.child_eq some_base named.toIsFileName
  have start : (base.child name).text.toList.head? = base.text.toList.head? := by
    obtain ⟨first, rest, spelled⟩ := List.exists_cons_of_ne_nil some_base
    rw [text]
    split <;> simp [spelled]
  have resolved : disk.resolve true (base.child name) = .ok (.present (place ++ [name]) node) := by
    refine resolve_eq_ok_iff.mpr ⟨?_, Path.child_ne_nil some_base named.toIsFileName, fits, ?_⟩
    · rw [text]
      split <;> simp [legible, named.legible]
    · rw [startOf, start, split']
      rw [startOf, split] at walked
      obtain ⟨left, same⟩ := walk_onwards (fillers.imp_right And.left) walked
      rw [same true _ (Or.inl rfl)]
      exact walk_of_arrived (advance_last named stands unlinked)
  rw [find?, resolved]
  rfl

theorem size_child {base : Path} {name : String} (some_base : base.text.toList ≠ [])
    (named : Path.IsFileName name) :
    base.text.utf8ByteSize ≤ (base.child name).text.utf8ByteSize := by
  rw [Path.child_eq some_base named]
  split
  · rw [String.utf8ByteSize_append]
    omega
  · rw [String.utf8ByteSize_append, String.utf8ByteSize_append]
    omega

theorem size_descend {base : Path} {names : List String} (some_base : base.text.toList ≠ [])
    (named : ∀ name ∈ names, Path.IsFileName name) :
    base.text.utf8ByteSize ≤ (names.foldl Path.child base).text.utf8ByteSize := by
  induction names generalizing base with
  | nil => exact Nat.le_refl _
  | cons name rest ih =>
    obtain ⟨first, others⟩ := List.forall_mem_cons.mp named
    exact (size_child some_base first).trans (ih (Path.child_ne_nil some_base first) others)

/-- The names below a directory lead to the file under them, through directories all the way. -/
theorem read_descend {base : Path} {names : List String} {bytes : Text.Bytes}
    (found : disk.find? base = .ok (place, .directory)) (named : ∀ name ∈ names, IsEntryName name)
    (fits : (names.foldl Path.child base).text.utf8ByteSize ≤ pathLimit)
    (solid : disk.Solid (place ++ names.dropLast))
    (stands : disk.node? (place ++ names) = some (.file bytes)) :
    disk.read (names.foldl Path.child base) = .ok bytes := by
  induction names generalizing base place with
  | nil =>
    rw [List.append_nil, solid place (List.prefix_append ..)] at stands
    cases stands
  | cons name rest ih =>
    obtain ⟨first, others⟩ := List.forall_mem_cons.mp named
    have some_base := (resolve_eq_ok_iff.mp (resolve_of_find? found)).2.1
    have some_child := Path.child_ne_nil some_base first.toIsFileName
    have fits' : (base.child name).text.utf8ByteSize ≤ pathLimit :=
      (size_descend some_child fun name member => (others name member).toIsFileName).trans fits
    have onwards {node : Node} (there : disk.node? (place ++ [name]) = some node)
        (unlinked : ∀ target, node ≠ .link target) :=
      find?_child found first fits' there unlinked
    cases rest with
    | nil =>
      rw [List.foldl_cons, List.foldl_nil, read, onwards stands (fun target => nofun)]
      rfl
    | cons next more =>
      rw [List.dropLast_cons_of_ne_nil (by simp), ← List.singleton_append, ← List.append_assoc] at solid
      have below := onwards (solid _ (List.prefix_append ..)) (fun target => nofun)
      refine ih below others fits solid ?_
      rwa [List.append_assoc, List.singleton_append]

/-! Disks that are trees. -/

/-- Every place is recorded once, and what stands under a name stands in a directory. -/
structure IsTree (disk : Disk) : Prop where
  once : (disk.nodes.map (·.1)).Nodup
  rooted : [] ∉ disk.nodes.map (·.1)
  inside : ∀ place name, (disk.node? (place ++ [name])).isSome → disk.Solid place ∧ IsEntryName name

instance (disk : Disk) (place : Place) : Decidable (disk.Solid place) :=
  decidable_of_iff (∀ above ∈ place.inits, disk.node? above = some .directory) (by simp [Solid])

/-- Whether a disk is a tree can be told from its entries. -/
theorem isTree_of_entries (once : (disk.nodes.map (·.1)).Nodup)
    (entries : ∀ entry ∈ disk.nodes, entry.1 ≠ [] ∧ disk.Solid entry.1.dropLast ∧
      ∀ name ∈ entry.1, IsEntryName name) : disk.IsTree := by
  refine ⟨once, fun root => ?_, fun place name stands => ?_⟩
  · obtain ⟨entry, listed, own⟩ := List.mem_map.mp root
    exact (entries entry listed).1 own
  · obtain ⟨node, found⟩ := Option.isSome_iff_exists.mp stands
    rw [node?_of_ne_nil _ (by simp)] at found
    obtain ⟨-, solid, named⟩ := entries _ (mem_of_lookup found)
    rw [List.dropLast_concat] at solid
    exact ⟨solid, named name (by simp)⟩

namespace IsTree
variable {names : List String} {bytes : Text.Bytes}

theorem mem_nodes (tree : disk.IsTree) {node : Node} (member : (place, node) ∈ disk.nodes) :
    disk.node? place = some node := by
  have some_place : place ≠ [] := by
    rintro rfl
    exact tree.rooted (List.mem_map.mpr ⟨_, member, rfl⟩)
  rw [node?_of_ne_nil disk some_place]
  exact lookup_of_mem tree.once member

theorem named (tree : disk.IsTree) (solid : disk.Solid place) : ∀ name ∈ place, IsEntryName name := by
  induction place using List.reverseRecOn with
  | nil => simp
  | append_singleton above name ih =>
    obtain ⟨solid', own⟩ := tree.inside above name (by rw [solid.node?]; rfl)
    intro other member
    rcases List.mem_append.mp member with before | last
    · exact ih solid' other before
    · rwa [List.mem_singleton.mp last]

/-- A file below a directory has a name there, and directories lead to it. -/
theorem file_below (tree : disk.IsTree) (solid : disk.Solid place)
    (file : disk.node? (place ++ names) = some (.file bytes)) :
    names ≠ [] ∧ disk.Solid (place ++ names.dropLast) ∧ ∀ name ∈ names, IsEntryName name := by
  cases names using List.reverseRecOn with
  | nil =>
    rw [List.append_nil, solid.node?] at file
    cases file
  | append_singleton front last =>
    rw [← List.append_assoc] at file
    obtain ⟨solid', own⟩ := tree.inside _ _ (by rw [file]; rfl)
    rw [List.dropLast_concat]
    refine ⟨by simp, solid', fun name member => ?_⟩
    rcases List.mem_append.mp member with before | same
    · exact tree.named solid' name (List.mem_append_right _ before)
    · rwa [List.mem_singleton.mp same]

end IsTree

end AssemblySymbols.Disk
