import AssemblySymbols.Proofs.Disk.Prefixes
import AssemblySymbols.Proofs.Disk.Renaming
import AssemblySymbols.Proofs.ParentPaths

/-! The directories above a file. As many of them as are made are the last on the way there, and below a new
directory there are but new ones. A path that steps up only from directories that were there before
therefore leads to a node afterwards only if it did so before, and to the same one. -/
namespace AssemblySymbols.Disk
open AssemblySymbols.Path (splitSlashes ofPieces Closed)
variable {disk after : Disk} {start place new : Place} {shelf stem rest : List (List Char)} {follow : Bool}

/-! ### Ways and what they are spelled by -/

theorem startOf_congr {text other : List Char} (here : Place) (some_text : text ≠ []) (some_other : other ≠ [])
    (same : (splitSlashes text).head? = some [] ↔ (splitSlashes other).head? = some []) :
    startOf here text = startOf here other := by
  simp only [startOf, ← Path.head?_splitSlashes some_text, ← Path.head?_splitSlashes some_other, same]

theorem head?_of_prefix {pieces : List (List Char)} (some_stem : stem ≠ []) (inside : stem <+: pieces) :
    pieces.head? = stem.head? := by
  obtain ⟨first, others, rfl⟩ := List.exists_cons_of_ne_nil some_stem
  obtain ⟨more, rfl⟩ := inside
  rfl

/-- A walk ends at what stands on the disk. -/
theorem node?_of_walk {here : Place} {links : Nat} {pieces : List (List Char)} {node : Node}
    (solid : disk.Solid here) (arrived : disk.walk follow links here pieces = .ok (.present place node)) :
    disk.node? place = some node := by
  induction arrived using walk_induction with
  | arrives went => exact advance_sound solid went
  | @meets _ _ source _ _ _ met _ _ ih =>
    have solid' : disk.Solid source := by
      cases follow with
      | false => exact (advance_link solid met).1
      | true => exact ((Keeps.refl disk).advance solid).2 _ _ _ met |>.1
    exact ih (solid'.startOf _)

/-- What stands on a tree below a place stands in a directory there. -/
theorem IsTree.directory_above (tree : disk.IsTree) {node : Node} (stands : disk.node? place = some node)
    (inside : new <+: place) (apart : new ≠ place) : disk.node? new = some .directory := by
  cases place using List.reverseRecOn with
  | nil => exact absurd (List.prefix_nil.mp inside) apart
  | append_singleton front name =>
    rcases List.prefix_concat_iff.mp inside with same | inside'
    · exact absurd same apart
    · exact (tree.inside front name (by rw [stands]; rfl)).1 new inside'

/-- Below a place that was free there are but the directories that have been made. -/
theorem IsTree.bare (tree : disk.IsTree) (grows : disk.Grows after) (free : disk.node? new = none) :
    after.Bare new := by
  intro other inside apart
  rcases grows.grown other with same | ⟨-, made⟩
  · refine Or.inl (same.trans (Option.eq_none_iff_forall_ne_some.mpr fun node stands => ?_))
    exact absurd (free.symm.trans (tree.directory_above stands inside (Ne.symm apart))) (by simp)
  · exact Or.inr made

/-! ### Paths that lead on -/

/-- The path goes on from the shelf, down to a name. -/
structure LeadsOn (here start : Place) (shelf : List (List Char)) (path : Path) : Prop where
  starts : startOf here path.text.toList = start
  onwards : ∃ rest, splitSlashes path.text.toList = shelf ++ rest ∧
    (∀ piece ∈ rest, piece ≠ ['.', '.']) ∧ namesIn rest ≠ []

/-- What a path leads to, and where that stands. -/
def held (disk : Disk) (path : Path) : Option (Place × Node) := (disk.find? path).toOption

theorem held_eq_some_iff {path : Path} {node : Node} :
    disk.held path = some (place, node) ↔ disk.resolve true path = .ok (.present place node) := by
  constructor
  · intro found
    refine resolve_of_find? ?_
    unfold held at found
    cases outcome : disk.find? path with
    | error error => simp [outcome, Except.toOption] at found
    | ok value => simpa [outcome, Except.toOption] using found
  · intro arrived
    rw [held, find?, arrived]
    rfl

theorem held_congr {path : Path} (same : ∀ place node,
      after.resolve true path = .ok (.present place node) ↔ disk.resolve true path = .ok (.present place node)) :
    after.held path = disk.held path :=
  Option.ext fun ⟨place, node⟩ => held_eq_some_iff.trans ((same place node).trans held_eq_some_iff.symm)

/-! ### Directories on the way -/

/-- Steps up are made from directories. -/
def Footed (disk : Disk) (start : Place) (shelf : List (List Char)) : Prop :=
  ∀ front, front ++ [['.', '.']] <+: shelf →
    ∃ place, disk.walk true linkLimit start (front ++ [['.', '.']]) = .ok (.present place .directory)

/-- Directories have been made, and part of the way leads to each of them. -/
structure Prepares (before after : Disk) (start : Place) (shelf : List (List Char)) : Prop where
  grows : before.Grows after
  reached : ∀ place, before.node? place = none → after.node? place = some .directory →
    ∃ stem, stem <+: shelf ∧ after.walk true linkLimit start stem = .ok (.present place .directory)

theorem Prepares.refl (disk : Disk) (start : Place) (shelf : List (List Char)) :
    disk.Prepares disk start shelf :=
  ⟨.refl disk, fun _ free made => absurd (free.symm.trans made) (by simp)⟩

/-- A path that is spelled by the first pieces of another starts where that one does. -/
theorem resolve_ofPieces {path : Path} {destination : Destination} (inside : stem <+: splitSlashes path.text.toList)
    (some_path : path.text.toList ≠ []) (beyond : stem ≠ [[]])
    (went : disk.resolve follow (ofPieces stem) = .ok destination) :
    splitSlashes (ofPieces stem).text.toList = stem ∧
      disk.walk follow linkLimit (startOf disk.home path.text.toList) stem = .ok destination := by
  obtain ⟨-, some_text, -, walked⟩ := resolve_eq_ok_iff.mp went
  have some_stem : stem ≠ [] := by
    rintro rfl
    exact some_text rfl
  have split := Path.splitSlashes_ofPieces some_stem beyond fun piece member =>
    Path.solid_of_mem_splitSlashes _ piece (inside.subset member)
  have begins := startOf_congr disk.home some_text some_path (by rw [split, head?_of_prefix some_stem inside])
  rw [split, begins] at walked
  exact ⟨split, walked⟩

/-- A directory that is made on the way is reached by its part of the way. -/
theorem Prepares.makeDirectory (home : disk.Solid disk.home) {path : Path}
    (starts : startOf disk.home path.text.toList = start) (some_path : path.text.toList ≠ [])
    (inside : stem <+: shelf) (leads : shelf <+: splitSlashes path.text.toList) (closed : Closed stem) :
    DiskAction.MakingKeeps (disk.Prepares · start shelf) (ofPieces stem) := by
  intro before after prepares made
  have homeBefore := prepares.grows.solid_home home
  have grows := grows_of_makeDirectory homeBefore made
  obtain ⟨place, slashed, went, rfl⟩ := makeDirectory_ok made
  have sound := (resolve_sound homeBefore went).2
  have free : before.node? place = none := sound.1
  have other : before.node? place ≠ some .directory := by simp [free]
  have named := ne_nil_of_ne_directory other
  have beyond : stem ≠ [[]] := by
    rintro rfl
    cases (resolve_eq_ok_iff.mp went).2.2.2
  obtain ⟨split, walked⟩ := resolve_ofPieces (inside.trans leads) some_path beyond went
  rw [prepares.grows.home, starts] at walked
  have plain : slashed = false := by
    by_contra slash
    have blank := sound.2 (Bool.not_eq_false _ ▸ slash)
    rw [split] at blank
    exact closed.resolve_left beyond blank
  have arrived : before.walk false linkLimit start stem = .ok (before.destinationAt place) := by
    rw [walked, plain, destinationAt, free]
  have solid : before.Solid start := prepares.grows.keeps.solid (starts ▸ home.startOf _)
  have stands : (before.put place .directory).node? place = some .directory := by
    rw [node?_put named, if_pos rfl]
  have there := (walk_arrived solid arrived other).2 _ grows.keeps true (by simp [stands])
  rw [destinationAt, stands] at there
  refine ⟨prepares.grows.trans grows, fun new unmade directory => ?_⟩
  by_cases own : new = place
  · exact ⟨stem, inside, own ▸ there⟩
  · rw [node?_put named, if_neg own] at directory
    obtain ⟨front, inside', there'⟩ := prepares.reached new unmade directory
    exact ⟨front, inside', grows.walk there'⟩

section
variable (prepares : disk.Prepares after start shelf)
include prepares

/-- Behind a new directory there are no steps up. -/
theorem Prepares.downward (solid : disk.Solid start) (footed : disk.Footed start shelf)
    (inside : stem ++ rest <+: shelf) (free : disk.node? new = none)
    (there : after.walk true linkLimit start stem = .ok (.present new .directory)) :
    ∀ piece ∈ rest, piece ≠ ['.', '.'] := by
  rintro piece member rfl
  obtain ⟨front, behind, rfl⟩ := List.append_of_mem member
  have foot : (stem ++ front) ++ [['.', '.']] <+: shelf := by
    refine List.IsPrefix.trans ?_ inside
    exact ⟨behind, by simp⟩
  obtain ⟨place, arrived⟩ := footed _ foot
  rw [List.append_assoc] at arrived
  obtain ⟨old, before⟩ := walk_front ⟨['.', '.'], by simp, by simp⟩ arrived
  have same : old = new := by
    have again := prepares.grows.walk before
    rw [there] at again
    cases again
    rfl
  rw [same] at before
  exact absurd (free.symm.trans (node?_of_walk solid before)) (by simp)

/-- The way on from a new directory leads to new directories below it. -/
theorem Prepares.onwards (tree : disk.IsTree) (free : disk.node? new = none)
    (there : after.walk true linkLimit start stem = .ok (.present new .directory))
    (downward : ∀ piece ∈ rest, piece ≠ ['.', '.']) (further : follow = true ∨ rest ≠ []) {node : Node}
    (arrived : after.walk follow linkLimit start (stem ++ rest) = .ok (.present place node)) :
    place = new ++ namesIn rest ∧ node = .directory := by
  by_cases last : rest = []
  · rw [further.resolve_right (absurd last), last, List.append_nil, there] at arrived
    cases arrived
    exact ⟨by rw [last]; exact (List.append_nil place).symm, rfl⟩
  · rw [← List.append_nil stem] at there
    obtain ⟨left, same⟩ := walk_onwards (Or.inr rfl) there
    exact (tree.bare prepares.grows free).walk downward (same follow rest (Or.inr last) ▸ arrived)

/-- Who finds a node further down has come through no new directory: the node would be a directory below it,
and no way that is part of this one leads there. -/
theorem Prepares.settled (tree : disk.IsTree) (solid : disk.Solid start) (footed : disk.Footed start shelf)
    (downward : ∀ piece ∈ rest, piece ≠ ['.', '.']) (named : namesIn rest ≠ []) {node : Node}
    (arrived : after.walk follow linkLimit start (shelf ++ rest) = .ok (.present place node)) :
    ∀ other, after.node? other = disk.node? other := by
  intro new
  rcases prepares.grows.grown new with same | ⟨free, made⟩
  · exact same
  obtain ⟨stem, ⟨behind, rfl⟩, there⟩ := prepares.reached new free made
  have below := prepares.downward solid footed (List.prefix_refl _) free there
  have onward : ∀ piece ∈ behind ++ rest, piece ≠ ['.', '.'] := List.forall_mem_append.mpr ⟨below, downward⟩
  have some_rest : behind ++ rest ≠ [] := by
    intro none
    rw [(List.append_eq_nil_iff.mp none).2] at named
    exact named rfl
  rw [List.append_assoc] at arrived
  obtain ⟨rfl, rfl⟩ := prepares.onwards tree free there onward (Or.inr some_rest) arrived
  rw [namesIn_append] at arrived
  have stands := node?_of_walk (prepares.grows.keeps.solid solid) arrived
  have free' : disk.node? (new ++ (namesIn behind ++ namesIn rest)) = none := by
    refine Option.eq_none_iff_forall_ne_some.mpr fun node found => ?_
    have above := tree.directory_above found (List.prefix_append ..) (by simp [named])
    exact absurd (free.symm.trans above) (by simp)
  -- The node is a new directory too, so part of the shelf leads to it: to a place further down than this part
  -- can, if it is no longer than that to `new`, and else to one not far enough down.
  obtain ⟨stem', inside, there'⟩ := prepares.reached _ free' stands
  rcases List.prefix_or_prefix_of_prefix inside (List.prefix_append ..) with shorter | longer
  · obtain ⟨between, rfl⟩ := shorter
    rw [List.append_assoc] at inside prepares footed
    have below' := prepares.downward solid footed (List.prefix_refl _) free' there'
    have back := (prepares.onwards tree free' there' (List.forall_mem_append.mp below').1 (Or.inl rfl) there).1
    have length := congrArg List.length back
    have some_names := List.length_pos_iff.mpr named
    simp only [List.length_append] at length
    omega
  · obtain ⟨between, rfl⟩ := longer
    obtain ⟨left, rfl⟩ := (List.prefix_append_right_inj stem).mp inside
    have same := (prepares.onwards tree free there (List.forall_mem_append.mp below).1 (Or.inl rfl) there').1
    rw [namesIn_append, List.append_assoc, List.append_cancel_left_eq, List.append_right_eq_self] at same
    exact absurd (List.append_eq_nil_iff.mp same).2 named

theorem Prepares.resolve_iff (tree : disk.IsTree) (home : disk.Solid disk.home)
    (footed : disk.Footed start shelf) {path : Path} (on : LeadsOn disk.home start shelf path) {node : Node} :
    after.resolve follow path = .ok (.present place node) ↔
      disk.resolve follow path = .ok (.present place node) := by
  refine ⟨fun arrived => ?_, prepares.grows.resolve⟩
  obtain ⟨rest, split, downward, named⟩ := on.onwards
  obtain ⟨-, -, -, walked⟩ := resolve_eq_ok_iff.mp arrived
  rw [split, prepares.grows.home, on.starts] at walked
  have solid : disk.Solid start := on.starts ▸ home.startOf _
  exact (prepares.grows.symm (prepares.settled tree solid footed downward named walked)).resolve arrived

theorem Prepares.held (tree : disk.IsTree) (home : disk.Solid disk.home) (footed : disk.Footed start shelf)
    {path : Path} (on : LeadsOn disk.home start shelf path) : after.held path = disk.held path :=
  held_congr fun _ _ => prepares.resolve_iff tree home footed on

theorem Prepares.unlinked (tree : disk.IsTree) (home : disk.Solid disk.home) (footed : disk.Footed start shelf)
    {path : Path} (on : LeadsOn disk.home start shelf path) (unlinked : disk.Unlinked path) :
    after.Unlinked path := fun place target link =>
  unlinked place target ((prepares.resolve_iff tree home footed on).mp link)

end

/-! ### Paths with a file name -/

section
variable {path : Path} {name : String} {gap tail : List (List Char)}
  (spelled : path.Spelled name shelf gap tail)
include spelled

theorem leadsOn_spelled (here : Place) :
    LeadsOn here (startOf here path.text.toList) shelf path := by
  refine ⟨rfl, gap ++ name.toList :: tail, spelled.pieces, fun piece member => ?_, ?_⟩
  · have filler (piece : List Char) (filler : Path.isFiller piece = true) : piece ≠ ['.', '.'] := by
      rintro rfl
      contradiction
    rcases List.mem_append.mp member with before | after
    · exact filler piece (spelled.before piece before)
    rcases List.mem_cons.mp after with rfl | behind
    · exact spelled.entry.downward
    · exact filler piece (spelled.behind piece behind)
  · simp [namesIn, spelled.entry.filled]

theorem leadsOn_withFileName (here : Place) (named : path.fileName? = some name) {other : String}
    (entry : Path.IsFileName other) :
    LeadsOn here (startOf here path.text.toList) shelf (path.withFileName other) := by
  have split := spelled.withFileName named entry
  refine ⟨startOf_congr here ?_ spelled.ne_nil ?_, [other.toList], split, ?_, ?_⟩
  · intro none
    rw [none, splitSlashes, List.singleton_eq_append_iff] at split
    rcases split with ⟨-, own⟩ | ⟨-, own⟩
    · exact entry.ne_nil (List.cons.inj own).1
    · contradiction
  · rw [split, spelled.pieces]
    cases shelf with
    | nil => simp [spelled.first rfl, entry.ne_nil, spelled.entry.ne_nil]
    | cons first rest => rfl
  · simp [entry.downward]
  · simp [namesIn, entry.filled]

theorem footed_of_ascents (grounded : ∀ above ∈ path.ascents, disk.isDirectory above = true) :
    disk.Footed (startOf disk.home path.text.toList) shelf := by
  intro front inside
  have inside' : front ++ [['.', '.']] <+: splitSlashes path.text.toList := by
    rw [spelled.pieces]
    exact inside.trans (List.prefix_append ..)
  have stands := grounded _ (Path.mem_ascents inside')
  unfold isDirectory at stands
  split at stands
  · next place found =>
    have beyond : front ++ [['.', '.']] ≠ [[]] := fun same => by simpa using congrArg List.getLast? same
    obtain ⟨-, walked⟩ := resolve_ofPieces inside' spelled.ne_nil beyond (resolve_of_find? found)
    exact ⟨place, walked⟩
  · contradiction

/-- The directories above such a path are on the way to it. -/
theorem Prepares.makingKeeps (home : disk.Solid disk.home) {depth : Nat} {above : Path}
    (member : above ∈ ofPieces shelf :: DiskAction.pathsAbove depth (ofPieces shelf)) :
    DiskAction.MakingKeeps (disk.Prepares · (startOf disk.home path.text.toList) shelf) above := by
  have leads : shelf <+: splitSlashes path.text.toList := spelled.pieces ▸ List.prefix_append ..
  rcases List.mem_cons.mp member with rfl | further
  · exact Prepares.makeDirectory home rfl spelled.ne_nil (List.prefix_refl _) leads spelled.closed
  · obtain ⟨stem, rfl, closed, inside⟩ := Path.mem_pathsAbove spelled.solid further
    exact Prepares.makeDirectory home rfl spelled.ne_nil inside leads closed

end
end AssemblySymbols.Disk
