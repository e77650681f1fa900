import AssemblySymbols.Proofs.Disk.Faults
import AssemblySymbols.Proofs.Disk.NewDirectories
import AssemblySymbols.Proofs.Session.CacheSaves

/-! A save of the cache is done as a whole or not at all, whichever of its calls to the disk fails or is the
last: the snapshot is written beside the cache, to a file that the path of the cache does not lead to, and
comes into its place by a single call. -/
namespace AssemblySymbols

theorem Path.isFileName_temporary {name : String} (entry : IsFileName name) : IsFileName (name ++ ".tmp") := by
  have spelled : (name ++ ".tmp").toList = name.toList ++ ['.', 't', 'm', 'p'] := String.toList_append
  refine ⟨by simp [spelled, entry.solid], Bool.eq_false_iff.mpr fun filler => ?_, fun same => ?_⟩
  · have same : name.toList ++ ['.', 't', 'm', 'p'] = ['.'] := by simpa [spelled, isFiller] using filler
    simpa using congrArg List.length same
  · simpa [spelled] using congrArg List.length same

namespace Disk
variable {disk after : Disk} {path temporary : Path} {place spot : Place} {bytes : Text.Bytes}

/-! ### A file beside another -/

/-- A path does not lead to a file of another name beside its own. -/
theorem ne_of_spelled {name other : String} {shelf gap tail : List (List Char)}
    (spelled : path.Spelled name shelf gap tail) (named : path.fileName? = some name)
    (entry : Path.IsFileName other) (differ : other ≠ name) (home : disk.Solid disk.home)
    (own : disk.resolve false path = .ok (disk.destinationAt place))
    (leaf : disk.node? place ≠ some .directory) :
    disk.resolve false (path.withFileName other) ≠ .ok (disk.destinationAt place) := by
  intro beside
  obtain ⟨-, -, -, walked⟩ := resolve_eq_ok_iff.mp own
  obtain ⟨-, -, -, walked'⟩ := resolve_eq_ok_iff.mp beside
  obtain ⟨⟨parent, piece, -, there, last⟩, -⟩ := walk_arrived (home.startOf _) walked leaf
  obtain ⟨⟨parent', piece', -, there', last'⟩, -⟩ := walk_arrived (home.startOf _) walked' leaf
  rw [spelled.withFileName named entry, List.getLast?_concat, Option.some.injEq] at last'
  obtain ⟨-, same⟩ := List.append_inj' (there.symm.trans there') rfl
  have spelt : piece = other.toList := by
    rw [← String.toList_ofList (l := piece), (List.cons.inj same).1, ← last', String.ofList_toList]
  rw [spelled.pieces, List.getLast?_append_of_ne_nil _ (by simp), List.getLast?_append_of_ne_nil _ (by simp)]
    at last
  rcases List.mem_cons.mp (List.mem_of_getLast? last) with rfl | behind
  · exact differ (String.toList_inj.mp spelt.symm)
  · have filler := spelled.behind piece behind
    rw [spelt, entry.filled] at filler
    exact Bool.false_ne_true filler

/-- On no disk do both paths lead to one file, or to one place for a file. -/
def Apart (path temporary : Path) : Prop :=
  ∀ (disk : Disk) (place : Place), disk.Solid disk.home → disk.node? place ≠ some .directory →
    disk.resolve false path = .ok (disk.destinationAt place) →
    disk.resolve false temporary ≠ .ok (disk.destinationAt place)

theorem Keeps.held (keeps : disk.Keeps after) (home : disk.Solid disk.home) (unlinked : disk.Unlinked path)
    {node : Node} (found : disk.held path = some (place, node)) (stays : after.node? place = some node) :
    after.held path = some (place, node) :=
  held_eq_some_iff.mpr (keeps.resolve home unlinked (held_eq_some_iff.mp found) stays)

theorem ne_of_held (apart : Apart path temporary) (home : disk.Solid disk.home)
    (unlinked : disk.Unlinked path) {node : Node} (leaf : disk.node? spot ≠ some .directory)
    (beside : disk.resolve false temporary = .ok (disk.destinationAt spot))
    (found : disk.held path = some (place, node)) : place ≠ spot ∧ disk.node? place = some node := by
  have arrived := resolve_follow unlinked (held_eq_some_iff.mp found)
  have stands : disk.node? place = some node := (resolve_sound home arrived).2
  refine ⟨?_, stands⟩
  rintro rfl
  refine apart disk place home leaf ?_ beside
  rw [arrived, destinationAt, stands]

theorem Unlinked.put (unlinked : disk.Unlinked path) (home : disk.Solid disk.home) (spare : disk.Spare spot)
    (bytes : Text.Bytes) : (disk.put spot (.file bytes)).Unlinked path := by
  intro place target link
  have named := ne_nil_of_ne_directory spare.ne_directory
  have homeWritten := (keeps_put spare (.file bytes)).solid home
  have found : (disk.put spot (.file bytes)).node? place = some (.link target) :=
    (resolve_sound homeWritten link).2
  have other : place ≠ spot := by
    rintro rfl
    rw [node?_put named, if_pos rfl] at found
    cases found
  have leads : (disk.put spot (.file bytes)).resolve false path =
      .ok ((disk.put spot (.file bytes)).destinationAt place) := by
    rw [link, destinationAt, found]
  have before := (resolve_arrived homeWritten leads (by simp [found])).2 disk (keeps_of_put spare bytes) false
    (by simp)
  rw [node?_put named, if_neg other] at found
  rw [destinationAt, found] at before
  exact unlinked place target before

/-- A path holds what it held before a file was written beside it. -/
theorem held_put (apart : Apart path temporary) (home : disk.Solid disk.home)
    (unlinked : disk.Unlinked path) (spare : disk.Spare spot)
    (beside : disk.resolve false temporary = .ok (disk.destinationAt spot)) (bytes : Text.Bytes) :
    (disk.put spot (.file bytes)).held path = disk.held path := by
  let written := disk.put spot (.file bytes)
  have named := ne_nil_of_ne_directory spare.ne_directory
  have keeps : disk.Keeps written := keeps_put spare _
  have homeWritten : written.Solid written.home := keeps.solid home
  have there := (resolve_arrived home beside spare.ne_directory).2 written keeps false (by simp)
  have file : written.node? spot ≠ some .directory := by
    rw [node?_put named, if_pos rfl]
    simp
  refine Option.ext fun ⟨place, node⟩ => ⟨fun found => ?_, fun found => ?_⟩
  · obtain ⟨other, stands⟩ := ne_of_held apart homeWritten (unlinked.put home spare bytes) file there found
    rw [node?_put named, if_neg other] at stands
    exact (keeps_of_put spare bytes).held homeWritten (unlinked.put home spare bytes) found stands
  · obtain ⟨other, stands⟩ := ne_of_held apart home unlinked spare.ne_directory beside found
    refine keeps.held home unlinked found ?_
    rw [node?_put named, if_neg other, stands]

/-- Where no link stands and no directory, a file can come. -/
theorem Unlinked.spare (unlinked : disk.Unlinked path)
    (arrived : disk.resolve false path = .ok (disk.destinationAt place))
    (leaf : disk.node? place ≠ some .directory) : disk.Spare place := by
  cases stands : disk.node? place with
  | none => exact Or.inl stands
  | some node =>
    cases node with
    | directory => exact absurd stands leaf
    | file old => exact Or.inr ⟨old, stands⟩
    | link target =>
      rw [destinationAt, stands] at arrived
      exact absurd arrived (unlinked place target)

/-- What a file is written over is a file, and held by the path. -/
theorem held_of_spare {node : Node} (home : disk.Solid disk.home) (spare : disk.Spare place)
    (arrived : disk.resolve false path = .ok (disk.destinationAt place)) (stands : disk.node? place = some node) :
    ∃ bytes, node = .file bytes ∧ disk.held path = some (place, node) := by
  rcases spare with free | ⟨bytes, file⟩
  · exact absurd (free.symm.trans stands) (by simp)
  · have same : node = .file bytes := Option.some.inj (stands.symm.trans file)
    have there := (resolve_arrived home arrived (by simp [file])).2 disk (.refl disk) true (by simp [file])
    rw [destinationAt, stands] at there
    exact ⟨bytes, same, held_eq_some_iff.mpr there⟩

/-- A file that is renamed to a path beside it is what the path then holds, and is held by its own path no
more. -/
theorem held_rename (apart : Apart path temporary) (home : disk.Solid disk.home)
    (unlinked : disk.Unlinked path) (file : disk.node? spot = some (.file bytes))
    (beside : disk.resolve false temporary = .ok (disk.destinationAt spot))
    (renamed : disk.rename temporary path = .ok after) :
    ∃ place, disk.Spare place ∧ place ≠ spot ∧ disk.resolve false path = .ok (disk.destinationAt place) ∧
      after = disk.move spot place ∧ after.held path = some (place, .file bytes) ∧
      after.held temporary = none := by
  have leads : disk.resolve false temporary = .ok (.present spot (.file bytes)) := by
    rw [beside, destinationAt, file]
  obtain ⟨place, leaf, arrived, rfl⟩ := rename_ok home leads renamed
  have other : place ≠ spot := by
    rintro rfl
    exact apart disk place home leaf arrived beside
  have spare := unlinked.spare arrived leaf
  have distinct : spot ≠ [] := ne_nil_of_ne_directory (by simp [file] : disk.node? spot ≠ some .directory)
  have named := ne_nil_of_ne_directory leaf
  have keeps : disk.Keeps (disk.move spot place) := (keeps_erase spare).trans (keeps_move file leaf)
  obtain ⟨⟨parent, last, solid, rfl⟩, stays⟩ := resolve_arrived home beside (by simp [file])
  have come : (disk.move (parent ++ [last]) place).node? place = some (.file bytes) :=
    (node?_move_target distinct named).trans file
  have gone : (disk.move (parent ++ [last]) place).node? (parent ++ [last]) = none := by
    have outside : ¬ place <+: parent ++ [last] := fun below => other (solid.eq_of_below leaf below)
    rw [node?_move_other distinct outside, if_pos (List.prefix_refl _)]
  rw [if_neg other]
  refine ⟨place, spare, other, arrived, rfl, ?_, ?_⟩
  · have there := (resolve_arrived home arrived leaf).2 _ keeps true fun _ target => by simp [come]
    rw [destinationAt, come] at there
    exact held_eq_some_iff.mpr there
  · have there := stays _ keeps true fun _ target => by simp [gone]
    rw [destinationAt, gone] at there
    rw [held, find?, there]
    rfl

end Disk

namespace Cache
open Disk
variable {before disk after written : Disk} {path : Path} {snapshot : Snapshot}
  {ended : Option (Except DiskError Unit)}

/-- A cache can have its place at the path: no link stands there or at the path beside it, and where the path
steps up, it does so from a directory that is there. -/
structure Located (disk : Disk) (path : Path) : Prop where
  tree : disk.IsTree
  home : disk.Solid disk.home
  named : path.fileName?.isSome
  unlinked : disk.Unlinked path
  beside : disk.Unlinked (temporaryPath path)
  grounded : ∀ above ∈ path.ascents, disk.isDirectory above = true

/-- What has come of a save when the program has ended, well or with an error, or has been stopped. -/
structure AllOrNothing (before after : Disk) (path : Path) (snapshot : Snapshot)
    (ended : Option (Except DiskError Unit)) : Prop where
  target : after.held path = before.held path ∨
    ∃ place, after.held path = some (place, .file (encode snapshot))
  refused : ∀ error, ended = some (.error error) → after.held path = before.held path
  saved : ended = some (.ok ()) → (∃ place, after.held path = some (place, .file (encode snapshot))) ∧
    after.held (temporaryPath path) = none ∧ load after path = .ok snapshot
  /-- Nothing but files has changed that stood on the disk, and of these only the two. -/
  elsewhere : ∀ place node, before.node? place = some node → after.node? place = some node ∨
    ∃ bytes, node = .file bytes ∧
      (before.held path = some (place, node) ∨ before.held (temporaryPath path) = some (place, node))

/-- A save that has not come to its end has changed nothing but the file beside the cache. -/
structure Abandoned (before after : Disk) (path : Path) : Prop where
  target : after.held path = before.held path
  elsewhere : ∀ place node, before.node? place = some node → after.node? place = some node ∨
    ∃ bytes, node = .file bytes ∧ before.held (temporaryPath path) = some (place, node)

theorem Abandoned.allOrNothing (abandoned : Abandoned before after path) (unfinished : ended ≠ some (.ok ())) :
    AllOrNothing before after path snapshot ended where
  target := Or.inl abandoned.target
  refused _ _ := abandoned.target
  saved finished := absurd finished unfinished
  elsewhere place node stands := (abandoned.elsewhere place node stands).imp_right
    fun ⟨bytes, file, beside⟩ => ⟨bytes, file, Or.inr beside⟩

theorem load_of_held {place : Place} (found : disk.held path = some (place, .file (encode snapshot))) :
    load disk path = .ok snapshot := by
  refine load_eq ?_ snapshot.read?_write
  rw [Disk.read, find?, held_eq_some_iff.mp found]
  rfl

/-- Directories have been made, and both paths hold what they held. -/
structure Readied (before disk : Disk) (path : Path) : Prop where
  grows : before.Grows disk
  home : disk.Solid disk.home
  held : disk.held path = before.held path
  heldBeside : disk.held (temporaryPath path) = before.held (temporaryPath path)
  unlinked : disk.Unlinked path
  beside : disk.Unlinked (temporaryPath path)

theorem Readied.abandoned (readied : Readied before disk path) : Abandoned before disk path where
  target := readied.held
  elsewhere _ _ stands := Or.inl (readied.grows.stands stands)

/-- The path beside that of a cache leads to a file of its own. -/
theorem Located.apart (located : Located before path) : Apart path (temporaryPath path) := by
  obtain ⟨name, named⟩ := Option.isSome_iff_exists.mp located.named
  obtain ⟨shelf, gap, tail, spelled⟩ := Path.exists_spelled named
  intro disk place home leaf own
  have differ : name ++ ".tmp" ≠ name := by
    intro same
    have length := congrArg (List.length ∘ String.toList) same
    have some_suffix : ".tmp".toList.length = 4 := by decide
    simp only [Function.comp_apply, String.toList_append, List.length_append, some_suffix] at length
    omega
  rw [temporaryPath, named, Option.getD_some]
  exact ne_of_spelled spelled named (Path.isFileName_temporary spelled.entry) differ home own leaf

/-- Whatever becomes of the calls, the directories above the cache are not in the way. -/
theorem Located.readied (located : Located before path) (fates : List Fate) :
    Readied before ((FaultyAction.calls.makeParent path).outcome (before, fates)).2.1 path := by
  obtain ⟨name, named⟩ := Option.isSome_iff_exists.mp located.named
  obtain ⟨shelf, gap, tail, spelled⟩ := Path.exists_spelled named
  have kept : FaultyAction.Keeping (before.Prepares · (startOf before.home path.text.toList) shelf)
      (FaultyAction.calls.makeParent path) := by
    refine FaultyAction.keeping_makeParent fun parent found other member => ?_
    cases spelled.parent.symm.trans found
    exact Prepares.makingKeeps spelled located.home member
  have prepares := kept before fates (.refl before _ _)
  have footed := footed_of_ascents spelled located.grounded
  have own := leadsOn_spelled spelled before.home
  have beside : LeadsOn before.home (startOf before.home path.text.toList) shelf (temporaryPath path) := by
    rw [temporaryPath, named, Option.getD_some]
    exact leadsOn_withFileName spelled before.home named (Path.isFileName_temporary spelled.entry)
  exact ⟨prepares.grows, prepares.grows.solid_home located.home,
    prepares.held located.tree located.home footed own,
    prepares.held located.tree located.home footed beside,
    prepares.unlinked located.tree located.home footed own located.unlinked,
    prepares.unlinked located.tree located.home footed beside located.beside⟩

/-- A file with the given bytes stands beside the cache. -/
structure Written (before written : Disk) (path : Path) (spot : Place) (bytes : Text.Bytes) : Prop where
  home : written.Solid written.home
  target : written.held path = before.held path
  unlinked : written.Unlinked path
  file : written.node? spot = some (.file bytes)
  leads : written.resolve false (temporaryPath path) = .ok (written.destinationAt spot)
  replaced : ∀ node, before.node? spot = some node →
    ∃ bytes, node = .file bytes ∧ before.held (temporaryPath path) = some (spot, node)
  elsewhere : ∀ place node, place ≠ spot → before.node? place = some node → written.node? place = some node

theorem Written.abandoned {spot : Place} {bytes : Text.Bytes} (laid : Written before written path spot bytes) :
    Abandoned before written path where
  target := laid.target
  elsewhere place node stands := by
    by_cases own : place = spot
    · subst own
      exact Or.inr (laid.replaced node stands)
    · exact Or.inl (laid.elsewhere place node own stands)

/-- Whatever bytes are written, they are written beside the cache. -/
theorem Readied.write (readied : Readied before disk path) (apart : Apart path (temporaryPath path))
    {bytes : Text.Bytes} (wrote : disk.write (temporaryPath path) bytes = .ok written) :
    ∃ spot, Written before written path spot bytes := by
  obtain ⟨spot, spare, leads, rfl⟩ := write_ok readied.home readied.beside wrote
  have named := ne_nil_of_ne_directory spare.ne_directory
  have keeps : disk.Keeps (disk.put spot (.file bytes)) := keeps_put spare _
  refine ⟨spot, keeps.solid readied.home, ?_, readied.unlinked.put readied.home spare bytes, ?_, ?_, ?_, ?_⟩
  · exact (held_put apart readied.home readied.unlinked spare leads bytes).trans readied.held
  · rw [node?_put named, if_pos rfl]
  · exact (resolve_arrived readied.home leads spare.ne_directory).2 _ keeps false (by simp)
  · intro node stands
    rw [← readied.heldBeside]
    exact held_of_spare readied.home spare leads (readied.grows.stands stands)
  · intro place node other stands
    rw [node?_put named, if_neg other]
    exact readied.grows.stands stands

/-- The file beside the cache takes its place as a whole. -/
theorem Written.rename {spot : Place} (laid : Written before written path spot (encode snapshot))
    (tree : before.IsTree) (apart : Apart path (temporaryPath path))
    (renamed : written.rename (temporaryPath path) path = .ok after) :
    AllOrNothing before after path snapshot (some (.ok ())) := by
  obtain ⟨place, spare, other, arrived, rfl, held, gone⟩ :=
    held_rename apart laid.home laid.unlinked laid.file laid.leads renamed
  have distinct : spot ≠ [] :=
    ne_nil_of_ne_directory (by simp [laid.file] : written.node? spot ≠ some .directory)
  refine ⟨Or.inr ⟨place, held⟩, fun _ error => by simp at error, fun _ => ⟨⟨place, held⟩, gone,
    load_of_held held⟩, fun found node stands => ?_⟩
  by_cases beside : found = spot
  · subst beside
    obtain ⟨bytes, file, old⟩ := laid.replaced node stands
    exact Or.inr ⟨bytes, file, Or.inr old⟩
  have stood := laid.elsewhere found node beside stands
  by_cases own : found = place
  · subst own
    obtain ⟨bytes, file, old⟩ := held_of_spare laid.home spare arrived stood
    exact Or.inr ⟨bytes, file, Or.inl (laid.target ▸ old)⟩
  have outside : ¬ place <+: found := fun below =>
    spare.ne_directory (laid.elsewhere place _ other (tree.directory_above stands below (Ne.symm own)))
  have outside' : ¬ spot <+: found := by
    intro below
    obtain ⟨_, file, -⟩ := laid.replaced _ (tree.directory_above stands below (Ne.symm beside))
    cases file
  left
  rw [node?_move_other distinct outside, if_neg outside', stood]

/-- Each call of a save leaves the cache as it was, except for the last, which brings the whole snapshot. -/
theorem allOrNothing_calls (located : Located disk path) (snapshot : Snapshot) (fates : List Fate) :
    AllOrNothing disk ((FaultyAction.calls.save path snapshot).outcome (disk, fates)).2.1 path snapshot
      ((FaultyAction.calls.save path snapshot).outcome (disk, fates)).1 := by
  have apart := located.apart
  have readied := located.readied fates
  rw [DiskCalls.save, FaultyAction.outcome_bind]
  rcases made : (FaultyAction.calls.makeParent path).outcome (disk, fates) with ⟨_ | _ | _, ready, left⟩
  · rw [made] at readied
    exact readied.abandoned.allOrNothing (by simp)
  · rw [made] at readied
    exact readied.abandoned.allOrNothing (by simp)
  rw [made] at readied
  simp only
  rw [FaultyAction.outcome_bind]
  rcases FaultyAction.write_cases (temporaryPath path) (encode snapshot) ready left with
    ⟨written, wrote, came⟩ | ⟨end', broken, unfinished, part, came⟩
  · obtain ⟨spot, laid⟩ := readied.write apart wrote
    simp only [came]
    rcases FaultyAction.rename_cases (temporaryPath path) path written left.tail with
      ⟨after, renamed, came'⟩ | ⟨end', unfinished, came'⟩
    · rw [came']
      exact laid.rename located.tree apart renamed
    · rw [came']
      exact laid.abandoned.allOrNothing unfinished
  · have abandoned : Abandoned disk broken path := by
      rcases part with rfl | ⟨count, wrote⟩
      · exact readied.abandoned
      · obtain ⟨spot, laid⟩ := readied.write apart wrote
        exact laid.abandoned
    rw [came]
    rcases end' with _ | _ | _
    · exact abandoned.allOrNothing unfinished
    · exact abandoned.allOrNothing unfinished
    · exact absurd rfl unfinished

/-- A save of the cache is all or nothing, whether its calls to the disk do what they should or some of them
fail and the program is stopped in one of them. -/
theorem save_allOrNothing (located : Located disk path) (snapshot : Snapshot) :
    AllOrNothing disk ((save path snapshot).run disk).2 path snapshot (some ((save path snapshot).run disk).1) ∧
    ∀ fates : List Fate,
      AllOrNothing disk ((FaultyAction.calls.save path snapshot).outcome (disk, fates)).2.1 path snapshot
        ((FaultyAction.calls.save path snapshot).outcome (disk, fates)).1 := by
  refine ⟨?_, allOrNothing_calls located snapshot⟩
  have served := allOrNothing_calls located snapshot []
  rwa [FaultyAction.save_served] at served

/-- A cache beside another file, on the way to which a directory is left and entered again. -/
def shelvedDisk : Disk where
  nodes := [(["d"], .directory), (["d", "c"], .file [0x7b, 0x7d]), (["d", "a"], .file [0x61])]
  home := []

theorem located_shelvedDisk : Located shelvedDisk ⟨"d/../d/c"⟩ := by
  have own : shelvedDisk.resolve false ⟨"d/../d/c"⟩ = .ok (.present ["d", "c"] (.file [0x7b, 0x7d])) := rfl
  have beside : shelvedDisk.resolve false (temporaryPath ⟨"d/../d/c"⟩) = .ok (.absent ["d", "c.tmp"] false) := rfl
  refine ⟨isTree_of_entries (by decide) (by decide), solid_nil _, by decide, fun place target linked => ?_,
    fun place target linked => ?_, by decide⟩
  · cases own.symm.trans linked
  · cases beside.symm.trans linked

/-- The program is stopped when three bytes of the new cache have been written. -/
theorem save_allOrNothing_stopped :
    Located shelvedDisk ⟨"d/../d/c"⟩ ∧
    ((FaultyAction.calls.save ⟨"d/../d/c"⟩ ⟨[]⟩).outcome
      (shelvedDisk, [.served, .served, .stopped (some 3)])).2.1.held ⟨"d/../d/c"⟩ =
        some (["d", "c"], .file [0x7b, 0x7d]) ∧
    AllOrNothing shelvedDisk ((FaultyAction.calls.save ⟨"d/../d/c"⟩ ⟨[]⟩).outcome
      (shelvedDisk, [.served, .served, .stopped (some 3)])).2.1 ⟨"d/../d/c"⟩ ⟨[]⟩
      ((FaultyAction.calls.save ⟨"d/../d/c"⟩ ⟨[]⟩).outcome
        (shelvedDisk, [.served, .served, .stopped (some 3)])).1 :=
  ⟨located_shelvedDisk, rfl, (save_allOrNothing located_shelvedDisk ⟨[]⟩).2 _⟩

/-- Where a path steps up from a directory that is missing, this is made first, and it may be made in the
place of the cache itself: the save fails, and the cache that was absent is a directory. -/
theorem not_allOrNothing_save :
    Disk.empty.IsTree ∧ Disk.empty.Solid Disk.empty.home ∧ (⟨"f/../f"⟩ : Path).fileName? = some "f" ∧
    Disk.empty.Unlinked ⟨"f/../f"⟩ ∧ Disk.empty.Unlinked (temporaryPath ⟨"f/../f"⟩) ∧
    ¬ AllOrNothing .empty ((save ⟨"f/../f"⟩ ⟨[]⟩).run .empty).2 ⟨"f/../f"⟩ ⟨[]⟩
      (some ((save ⟨"f/../f"⟩ ⟨[]⟩).run .empty).1) := by
  have own : Disk.empty.resolve false ⟨"f/../f"⟩ = .error .notFound := rfl
  have beside : Disk.empty.resolve false (temporaryPath ⟨"f/../f"⟩) = .error .notFound := rfl
  refine ⟨isTree_of_entries (by decide) (by decide), solid_nil _, by decide, fun place target linked => ?_,
    fun place target linked => ?_, fun whole => ?_⟩
  · cases own.symm.trans linked
  · cases beside.symm.trans linked
  · have failed : ((save ⟨"f/../f"⟩ ⟨[]⟩).run .empty).1 = .error .isADirectory := rfl
    have made : ((save ⟨"f/../f"⟩ ⟨[]⟩).run .empty).2.held ⟨"f/../f"⟩ = some (["f"], .directory) := rfl
    have absent : Disk.empty.held ⟨"f/../f"⟩ = none := rfl
    have same := whole.refused .isADirectory (congrArg some failed)
    rw [made, absent] at same
    cases same

end Cache
end AssemblySymbols
