import AssemblySymbols.Proofs.Disk.NewDirectories

/-! Files that have been written are read as they were written, whatever links lead to them: the way
meets directories and links only, and the change is made at its end. Where a file stands, the directory
for it need not be made. -/
namespace AssemblySymbols
open AssemblySymbols.Path (splitSlashes joinSlashes ofPieces)

namespace Disk
variable {disk after : Disk} {here place other : Place} {path : Path} {pieces : List (List Char)}
  {destination : Destination}

/-- The destination can be given a file: one is there, or nothing. -/
def Destination.Takes (place : Place) (destination : Destination) : Prop :=
  destination = .absent place false ∨ ∃ bytes, destination = .present place (.file bytes)

/-- A file in a spare place hides no directory and no link. -/
theorem Spare.stays (spare : disk.Spare place) (bytes : Text.Bytes) {node : Node}
    (stands : disk.node? other = some node) (leads : ∀ old, node ≠ .file old) :
    (disk.put place (.file bytes)).node? other = some node := by
  rw [node?_put (ne_nil_of_ne_directory spare.ne_directory), if_neg (spare.apart stands leads), stands]

theorem Spare.keepsIn (spare : disk.Spare place) (bytes : Text.Bytes) :
    disk.KeepsIn (disk.put place (.file bytes)) here :=
  fun _ stands => spare.stays bytes stands (by simp)

theorem advance_takes (takes : destination.Takes place)
    (arrived : disk.advance true here pieces = .arrived destination) :
    disk.Spare place ∧ ∀ bytes, (disk.put place (.file bytes)).advance true here pieces =
      .arrived (.present place (.file bytes)) := by
  induction pieces generalizing here with
  | nil =>
    rcases takes with rfl | ⟨bytes, rfl⟩ <;> cases arrived
  | cons piece rest ih =>
    cases disk.piece_cases here piece with
    | leads same _ stays =>
      rw [same] at arrived
      obtain ⟨spare, leads⟩ := ih arrived
      refine ⟨spare, fun bytes => ?_⟩
      rw [stays _ (spare.keepsIn bytes)]
      exact leads bytes
    | tooLong fails =>
      rw [fails] at arrived
      cases arrived
    | named other enters =>
      rw [enters] at arrived
      have last : rest = [] ∧ place = here ++ [String.ofList piece] ∧ disk.Spare place := by
        rcases arrived_of_enter other arrived with ⟨free, -, rfl⟩ | ⟨node, stands, last, rfl⟩
        · rcases takes with same | ⟨bytes, same⟩
          · obtain ⟨own, plain⟩ := Destination.absent.inj same
            exact ⟨by simpa using plain, own.symm, own ▸ Or.inl free⟩
          · cases same
        · rcases takes with same | ⟨bytes, same⟩
          · cases same
          · cases same
            exact ⟨last, rfl, Or.inr ⟨bytes, stands⟩⟩
      obtain ⟨rfl, rfl, spare⟩ := last
      refine ⟨spare, fun bytes => ?_⟩
      have written : (disk.put (here ++ [String.ofList piece]) (.file bytes)).node?
          (here ++ [String.ofList piece]) = some (.file bytes) := by
        rw [node?_put (by simp), if_pos rfl]
      rw [enters, enter, written]
      rfl

theorem Spare.advance_link (spare : disk.Spare place) (bytes : Text.Bytes) {source : Place}
    {target : String} {rest : List (List Char)}
    (met : disk.advance true here pieces = .link source target rest) :
    (disk.put place (.file bytes)).advance true here pieces = .link source target rest := by
  induction pieces generalizing here with
  | nil => cases met
  | cons piece more ih =>
    cases disk.piece_cases here piece with
    | leads same _ stays =>
      rw [same] at met
      rw [stays _ (spare.keepsIn bytes)]
      exact ih met
    | tooLong fails =>
      rw [fails] at met
      cases met
    | named other enters =>
      rw [enters] at met ⊢
      obtain ⟨link, rfl, rfl, -⟩ := link_of_enter other met
      exact enter_link (spare.stays bytes link (by simp)) (Or.inl rfl)

theorem walk_takes (takes : destination.Takes place) {links : Nat}
    (arrived : disk.walk true links here pieces = .ok destination) :
    disk.Spare place ∧ ∀ bytes, (disk.put place (.file bytes)).walk true links here pieces =
      .ok (.present place (.file bytes)) := by
  induction arrived using walk_induction with
  | arrives went =>
    obtain ⟨spare, leads⟩ := advance_takes takes went
    exact ⟨spare, fun bytes => walk_of_arrived (leads bytes)⟩
  | meets met named _ ih =>
    obtain ⟨spare, leads⟩ := ih
    refine ⟨spare, fun bytes => ?_⟩
    rw [walk_of_link (spare.advance_link bytes met) named]
    exact leads bytes

/-- Where a file has been written. -/
theorem takes_of_write {bytes : Text.Bytes} (wrote : disk.write path bytes = .ok after) :
    ∃ destination place, disk.resolve true path = .ok destination ∧ destination.Takes place ∧
      after = disk.put place (.file bytes) := by
  unfold write at wrote
  cases went : disk.resolve true path with
  | error error => simp [went, bind, Except.bind] at wrote
  | ok destination =>
    rw [went] at wrote
    rcases destination with ⟨place, _ | old | _⟩ | ⟨place, _ | _⟩
    case present.file =>
      cases wrote
      exact ⟨_, place, rfl, Or.inr ⟨old, rfl⟩, rfl⟩
    case absent.false =>
      cases wrote
      exact ⟨_, place, rfl, Or.inl rfl, rfl⟩
    all_goals cases wrote

theorem read_of_write {bytes : Text.Bytes} (wrote : disk.write path bytes = .ok after) :
    after.read path = .ok bytes := by
  obtain ⟨destination, place, went, takes, rfl⟩ := takes_of_write wrote
  obtain ⟨legible, some_path, fits, walked⟩ := resolve_eq_ok_iff.mp went
  have leads := (walk_takes takes walked).2 bytes
  have resolved : (disk.put place (.file bytes)).resolve true path = .ok (.present place (.file bytes)) :=
    resolve_eq_ok_iff.mpr ⟨legible, some_path, fits, leads⟩
  rw [read, find?, resolved]
  rfl

/-- A file that can be read can be written. -/
theorem write_of_read {old : Text.Bytes} (readable : disk.read path = .ok old) (bytes : Text.Bytes) :
    ∃ place, disk.find? path = .ok (place, .file old) ∧
      disk.write path bytes = .ok (disk.put place (.file bytes)) := by
  unfold read at readable
  cases found : disk.find? path with
  | error error => simp [found, bind, Except.bind] at readable
  | ok there =>
    obtain ⟨place, node⟩ := there
    rw [found] at readable
    cases node with
    | directory | link => cases readable
    | file content =>
      cases readable
      refine ⟨place, rfl, ?_⟩
      rw [write, resolve_of_find? found]
      rfl

/-! ### The directory of a file -/

theorem isDirectory_of_spelled {name : String} {shelf gap tail : List (List Char)} {node : Node}
    (spelled : path.Spelled name shelf gap tail) (some_shelf : shelf ≠ [])
    (found : disk.find? path = .ok (place, node)) : disk.isDirectory (ofPieces shelf) = true := by
  by_cases root : shelf = [[]]
  · subst root
    rfl
  · obtain ⟨legible, some_path, fits, walked⟩ := resolve_eq_ok_iff.mp (resolve_of_find? found)
    have inside : shelf <+: splitSlashes path.text.toList := spelled.pieces ▸ List.prefix_append ..
    obtain ⟨rest, whole⟩ := Path.prefix_ofPieces inside root
    rw [spelled.pieces] at walked
    obtain ⟨above, there⟩ := walk_front ⟨name.toList, by simp, spelled.entry.ne_nil⟩ walked
    have split := Path.splitSlashes_ofPieces some_shelf root spelled.solid
    have some_text : (ofPieces shelf).text.toList ≠ [] := by
      intro none
      rw [none] at split
      exact root split.symm
    have begins := startOf_congr disk.home some_text some_path (by rw [split, head?_of_prefix some_shelf inside])
    have resolved : disk.resolve true (ofPieces shelf) = .ok (.present above .directory) := by
      refine resolve_eq_ok_iff.mpr ⟨fun nul => legible ?_, some_text, le_trans ?_ fits, ?_⟩
      · rw [← whole]
        exact List.mem_append_left rest nul
      · have text : path.text = (ofPieces shelf).text ++ String.ofList rest :=
          String.toList_inj.mp (by rw [String.toList_append, String.toList_ofList, whole])
        rw [text, String.utf8ByteSize_append]
        exact Nat.le_add_right ..
      · rwa [split, begins]
    rw [isDirectory, find?, resolved]
    rfl

end Disk

namespace DiskAction
variable {disk : Disk} {path : Path}

theorem run_ensureDirectory (stands : disk.isDirectory path = true) :
    (ensureDirectory path).run disk = (.ok (), disk) := by
  have refused : ∃ error, disk.makeDirectory path = .error error := by
    cases made : disk.makeDirectory path with
    | error error => exact ⟨error, rfl⟩
    | ok after =>
      obtain ⟨place, slashed, free, -⟩ := Disk.makeDirectory_ok made
      unfold Disk.isDirectory at stands
      split at stands
      · next there found =>
        have unlinked : disk.Unlinked path := fun _ _ link => by cases free.symm.trans link
        cases free.symm.trans (Disk.resolve_follow unlinked (Disk.resolve_of_find? found))
      · contradiction
  obtain ⟨error, refused⟩ := refused
  rw [ensureDirectory, run_tryCatch, makeDirectory, run_change, refused]
  change ExceptT.run (if disk.isDirectory path then pure () else throw error : DiskAction Unit) disk = _
  rw [if_pos stands]
  rfl

theorem run_makeDirectoriesAbove (stands : disk.isDirectory path = true) (above : List Path) :
    (makeDirectoriesAbove path above).run disk = (.ok (), disk) := by
  cases above with
  | nil => exact run_ensureDirectory stands
  | cons parent others =>
    rw [makeDirectoriesAbove, run_tryCatch, run_ensureDirectory stands]

/-- Nothing is made for a file that is there. -/
theorem run_makeParent {name : String} {place : Place} {node : Node} (named : path.fileName? = some name)
    (found : disk.find? path = .ok (place, node)) : (makeParent path).run disk = (.ok (), disk) := by
  obtain ⟨shelf, gap, tail, spelled⟩ := Path.exists_spelled named
  rw [makeParent, spelled.parent]
  change (makeDirectories (ofPieces shelf)).run disk = _
  unfold makeDirectories
  split
  · rfl
  · next some_parent =>
    have some_shelf : shelf ≠ [] := by
      rintro rfl
      exact some_parent rfl
    exact run_makeDirectoriesAbove (Disk.isDirectory_of_spelled spelled some_shelf found) _

end DiskAction
end AssemblySymbols
