import AssemblySymbols.Proofs.Disk.LinklessTrees
import AssemblySymbols.Proofs.Session.CacheSaves

/-! What a save changes on a disk without links, whether or not it succeeds: directories on the way to the
cache may have been made, and there may be something else at the place of the cache and of the file
beside it. -/
namespace AssemblySymbols

namespace Place
open AssemblySymbols.Path (IsFileName)
variable {place : Place} {last : String}

theorem components_path (named : ∀ name ∈ place, IsFileName name) :
    place.path.components = .root :: place.map .name := by
  have spelled := Path.components_descend (path_ne_nil []) named
  rwa [path_append [] (by simpa using named), List.nil_append] at spelled

/-- The path above that of a place is that of the directory that it is in. -/
theorem parent?_path (named : ∀ name ∈ place ++ [last], IsFileName name) :
    (path (place ++ [last])).parent? = some place.path := by
  have ends : (path (place ++ [last])).components.getLast? = some (.name last) := by
    rw [components_path named, List.map_append, ← List.cons_append]
    exact List.getLast?_concat
  have cut : (path (place ++ [last])).cut = ⟨some .root, (place ++ [last]).map String.toList⟩ := by
    have split := splitSlashes_path named (by simp)
    exact (congrArg Path.cutPieces split).trans (if_neg (by simp))
  have above : ∀ name ∈ place, IsFileName name := (List.forall_mem_append.mp named).1
  have dropped : ((place ++ [last]).map String.toList).dropLast = place.map String.toList := by simp
  rw [Path.parent?, ends]
  simp only [cut, Path.Cut.trimEnd_names named, dropped, Path.Cut.trimEnd_names above]
  rw [Option.some_inj, Path.Cut.path, Path.mk.injEq, ← String.toList_inj, String.toList_ofList]
  exact (toList_path place).symm

theorem parent?_path_nil : (path []).parent? = none := by decide

/-- The paths above that of a place are those of the places above it. -/
theorem mem_pathsAbove {depth : Nat} (named : ∀ name ∈ place, IsFileName name) {above : Path}
    (member : above ∈ DiskAction.pathsAbove depth place.path) :
    ∃ other, other <+: place ∧ above = path other := by
  induction depth generalizing place with
  | zero => contradiction
  | succ depth ih =>
    cases place using List.reverseRecOn with
    | nil => simp [DiskAction.pathsAbove, parent?_path_nil] at member
    | append_singleton front last =>
      rw [DiskAction.pathsAbove, parent?_path named] at member
      rcases List.mem_cons.mp member with rfl | further
      · exact ⟨front, List.prefix_append .., rfl⟩
      · obtain ⟨other, inside, rfl⟩ := ih (List.forall_mem_append.mp named).1 further
        exact ⟨other, inside.trans (List.prefix_append ..), rfl⟩

/-- A snapshot is written beside the cache. -/
theorem temporaryPath_path (named : ∀ name ∈ place ++ [last], IsFileName name)
    (beside : IsFileName (last ++ ".tmp")) :
    Cache.temporaryPath (path (place ++ [last])) = path (place ++ [last ++ ".tmp"]) := by
  have above : ∀ name ∈ place, IsFileName name := (List.forall_mem_append.mp named).1
  have own : (path (place ++ [last])).fileName? = some last := by
    have added := Path.fileName?_descend (path_ne_nil []) named
    rwa [path_append [] (by simpa using named), List.nil_append] at added
  rw [Cache.temporaryPath, Path.withFileName, own, parent?_path named, ← child_path above beside]
  rfl

end Place

/-- A file has been saved in a directory, by way of one beside it. Directories on the way there may be new,
and the two places may hold something else; everything else is as it was. -/
structure Disk.SavedIn (shelf : Place) (last : String) (before after : Disk) : Prop where
  home : after.home = before.home
  linkless : after.Linkless
  directories : ∀ other, before.node? other = some .directory → after.node? other = some .directory
  elsewhere : ∀ other, other ≠ shelf ++ [last] → other ≠ shelf ++ [last ++ ".tmp"] →
    after.node? other = before.node? other ∨
      other <+: shelf ∧ before.node? other = none ∧ after.node? other = some .directory

namespace Disk.SavedIn
variable {shelf other : Place} {last name : String} {before disk : Disk} {bytes : Text.Bytes}

theorem refl (linkless : before.Linkless) : before.SavedIn shelf last before :=
  ⟨rfl, linkless, fun _ => id, fun _ _ _ => Or.inl rfl⟩

theorem solid (saved : before.SavedIn shelf last disk) (solid : before.Solid other) : disk.Solid other :=
  fun above inside => saved.directories above (solid above inside)

theorem solid_home (saved : before.SavedIn shelf last disk) (home : before.Solid before.home) :
    disk.Solid disk.home :=
  saved.home ▸ saved.solid home

/-- A file is put at one of the two places, or a directory at a free place on the way. -/
theorem put (saved : before.SavedIn shelf last disk) {front : Place} {node : Node}
    (allowed : (front ++ [name] = shelf ++ [last] ∨ front ++ [name] = shelf ++ [last ++ ".tmp"]) ∨
      front ++ [name] <+: shelf ∧ disk.node? (front ++ [name]) = none ∧ node = .directory)
    (solid : disk.Solid front) (entry : IsEntryName name)
    (stays : disk.node? (front ++ [name]) = some .directory → node = .directory)
    (unlinked : ∀ target, node ≠ .link target) :
    before.SavedIn shelf last (disk.put (front ++ [name]) node) := by
  have found (other : Place) : (disk.put (front ++ [name]) node).node? other =
      if other = front ++ [name] then some node else disk.node? other := node?_put (by simp)
  refine ⟨saved.home, saved.linkless.put solid entry stays unlinked, fun other directory => ?_,
    fun other apart apart' => ?_⟩
  · have still := saved.directories other directory
    rw [found]
    split
    · next same => rw [stays (same ▸ still)]
    · exact still
  · rw [found]
    split
    · next own =>
      subst own
      rcases allowed with (same | same) | ⟨inside, free, rfl⟩
      · exact absurd same apart
      · exact absurd same apart'
      · rcases saved.elsewhere _ apart apart' with same | ⟨-, -, made⟩
        · exact Or.inr ⟨inside, same ▸ free, rfl⟩
        · rw [free] at made
          cases made
    · exact saved.elsewhere other apart apart'

/-- Something that is no directory goes from the place beside. -/
theorem erase (saved : before.SavedIn shelf last disk)
    (leaf : disk.node? (shelf ++ [last ++ ".tmp"]) ≠ some .directory) :
    before.SavedIn shelf last (disk.erase (shelf ++ [last ++ ".tmp"])) := by
  have found (place : Place) : (disk.erase (shelf ++ [last ++ ".tmp"])).node? place =
      if place = shelf ++ [last ++ ".tmp"] then none else disk.node? place := by
    by_cases some_names : place = []
    · subst some_names
      rw [if_neg (by simp)]
      rfl
    · exact node?_erase some_names
  refine ⟨saved.home, saved.linkless.erase leaf, fun place directory => ?_,
    fun place apart apart' => ?_⟩
  · have still := saved.directories place directory
    have apart : place ≠ shelf ++ [last ++ ".tmp"] := by
      rintro rfl
      exact leaf still
    rwa [found, if_neg apart]
  · rw [found, if_neg apart']
    exact saved.elsewhere place apart apart'

/-- The directories on the way can be made. -/
theorem makingKeeps (named : ∀ name ∈ shelf, IsEntryName name) {above : Place} (inside : above <+: shelf) :
    DiskAction.MakingKeeps (before.SavedIn shelf last) above.path := by
  intro disk after saved made
  obtain ⟨other, slashed, went, rfl⟩ := makeDirectory_ok made
  obtain ⟨rfl, solid, sound⟩ := saved.linkless.place_of_resolve
    (fun name member => named name (inside.subset member)) went
  have free : disk.node? other = none := sound.1
  change other <+: shelf at inside
  change disk.Solid other.dropLast at solid
  cases other using List.reverseRecOn with
  | nil => cases free
  | append_singleton front name =>
    rw [List.dropLast_concat] at solid
    exact saved.put (Or.inr ⟨inside, free, rfl⟩) solid (named name (inside.subset (by simp)))
      (by simp [free]) (by simp)

end Disk.SavedIn

namespace Cache
variable {shelf : Place} {last name : String} {before : Disk} {snapshot : Snapshot}

theorem savedIn_prepared (linkless : before.Linkless) (named : ∀ name ∈ shelf, Disk.IsEntryName name)
    (own : Path.IsFileName last) :
    before.SavedIn shelf last (prepared before (Place.path (shelf ++ [last]))) := by
  have files : ∀ name ∈ shelf, Path.IsFileName name := fun name member => (named name member).toIsFileName
  have parent : (Place.path (shelf ++ [last])).parent? = some shelf.path :=
    Place.parent?_path (List.forall_mem_append.mpr ⟨files, by simpa using own⟩)
  have kept : DiskAction.Keeping (before.SavedIn shelf last)
      (DiskAction.makeParent (Place.path (shelf ++ [last]))) := by
    refine DiskAction.keeping_makeParent fun above found other member => ?_
    cases parent.symm.trans found
    rcases List.mem_cons.mp member with rfl | further
    · exact Disk.SavedIn.makingKeeps named (List.prefix_refl _)
    · obtain ⟨place, inside, rfl⟩ := Place.mem_pathsAbove files further
      exact Disk.SavedIn.makingKeeps named inside
  exact kept before (.refl linkless)

/-- A snapshot is written beside the cache. -/
theorem savedIn_write {disk written : Disk} {bytes : Text.Bytes}
    (saved : before.SavedIn shelf last disk) (home : before.Solid before.home)
    (named : ∀ name ∈ shelf ++ [last ++ ".tmp"], Disk.IsEntryName name)
    (wrote : disk.write (Place.path (shelf ++ [last ++ ".tmp"])) bytes = .ok written) :
    before.SavedIn shelf last written ∧
    written.resolve false (Place.path (shelf ++ [last ++ ".tmp"])) =
      .ok (.present (shelf ++ [last ++ ".tmp"]) (.file bytes)) ∧
    written.node? (shelf ++ [last ++ ".tmp"]) = some (.file bytes) := by
  have free := saved.linkless.unlinked_path (saved.solid_home home)
    (Place.path (shelf ++ [last ++ ".tmp"]))
  obtain ⟨spot, spare, leads, rfl⟩ := Disk.write_ok (saved.solid_home home) free wrote
  obtain ⟨there, solid, -⟩ := saved.linkless.place_of_resolve named leads
  rw [Disk.place_destinationAt] at there
  subst there
  rw [List.dropLast_concat] at solid
  have fits := (saved.linkless.advance_of_resolve named leads).1
  have saved' : before.SavedIn shelf last (disk.put (shelf ++ [last ++ ".tmp"]) (.file bytes)) :=
    saved.put (Or.inl (Or.inr rfl)) solid (named _ (by simp))
      (fun directory => absurd directory spare.ne_directory) (by simp)
  have stands : (disk.put (shelf ++ [last ++ ".tmp"]) (.file bytes)).node?
      (shelf ++ [last ++ ".tmp"]) = some (.file bytes) :=
    (Disk.node?_put (by simp)).trans (if_pos rfl)
  exact ⟨saved', saved'.linkless.resolve_path stands fits, stands⟩

/-- And it takes the place of the cache. -/
theorem savedIn_rename {disk after : Disk} {bytes : Text.Bytes}
    (saved : before.SavedIn shelf last disk) (home : before.Solid before.home)
    (named : ∀ name ∈ shelf ++ [last], Disk.IsEntryName name)
    (leads : disk.resolve false (Place.path (shelf ++ [last ++ ".tmp"])) =
      .ok (.present (shelf ++ [last ++ ".tmp"]) (.file bytes)))
    (stands : disk.node? (shelf ++ [last ++ ".tmp"]) = some (.file bytes))
    (renamed : disk.rename (Place.path (shelf ++ [last ++ ".tmp"])) (Place.path (shelf ++ [last])) =
      .ok after) :
    before.SavedIn shelf last after := by
  obtain ⟨spot, leaf, leads', rfl⟩ := Disk.rename_ok (saved.solid_home home) leads renamed
  obtain ⟨there, solid, -⟩ := saved.linkless.place_of_resolve named leads'
  rw [Disk.place_destinationAt] at there
  subst there
  rw [List.dropLast_concat] at solid
  split
  · exact saved
  · next apart =>
    have source : disk.node? (shelf ++ [last ++ ".tmp"]) ≠ some .directory := by
      rw [stands]
      simp
    rw [saved.linkless.move_file stands]
    refine (saved.erase source).put (Or.inl (Or.inl rfl)) (solid.erase source) (named last (by simp))
      ?_ (by simp)
    intro directory
    rw [Disk.node?_erase (by simp), if_neg apart] at directory
    exact absurd directory leaf

/-- Whatever comes of a save, it has changed nothing else. -/
theorem savedIn_save (linkless : before.Linkless) (home : before.Solid before.home)
    (named : ∀ name ∈ shelf, Disk.IsEntryName name) (own : Disk.IsEntryName last)
    (beside : Disk.IsEntryName (last ++ ".tmp")) :
    before.SavedIn shelf last ((save (Place.path (shelf ++ [last])) snapshot).run before).2 := by
  have all {name : String} (entry : Disk.IsEntryName name) :
      ∀ name' ∈ shelf ++ [name], Disk.IsEntryName name' :=
    List.forall_mem_append.mpr ⟨named, by simpa using entry⟩
  have temporary : temporaryPath (Place.path (shelf ++ [last])) =
      Place.path (shelf ++ [last ++ ".tmp"]) :=
    Place.temporaryPath_path (fun name member => (all own name member).toIsFileName)
      beside.toIsFileName
  have ready := savedIn_prepared linkless named own.toIsFileName
  rw [prepared] at ready
  rw [save, DiskAction.run_bind]
  rcases made : (DiskAction.makeParent (Place.path (shelf ++ [last]))).run before with
    ⟨error | _, disk⟩
  · rwa [made] at ready
  · rw [made] at ready
    simp only
    rw [temporary, DiskAction.run_bind, DiskAction.write, DiskAction.run_change]
    cases wrote : disk.write (Place.path (shelf ++ [last ++ ".tmp"])) (encode snapshot) with
    | error error => exact ready
    | ok written =>
      obtain ⟨saved, leads, stands⟩ := savedIn_write ready home (all beside) wrote
      simp only
      rw [DiskAction.rename, DiskAction.run_change]
      cases renamed : written.rename (Place.path (shelf ++ [last ++ ".tmp"]))
          (Place.path (shelf ++ [last])) with
      | error error => exact saved
      | ok after => exact savedIn_rename saved home (all own) leads stands renamed

/-- Without links nothing is in the way of a save. -/
theorem unobstructed_of_linkless (linkless : before.Linkless) (home : before.Solid before.home)
    (named : ∀ name ∈ shelf, Disk.IsEntryName name) (own : Path.IsFileName last) :
    Unobstructed before (Place.path (shelf ++ [last])) := by
  have saved := savedIn_prepared linkless named own
  have free (path : Path) := saved.linkless.unlinked_path (saved.solid_home home) path
  exact ⟨home, free _, (free _).bypassed _⟩

end Cache
end AssemblySymbols
