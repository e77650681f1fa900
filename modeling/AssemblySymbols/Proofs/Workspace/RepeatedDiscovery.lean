import AssemblySymbols.Proofs.Session.CacheFootprint
import AssemblySymbols.Proofs.Workspace.Discovery

/-! Discovery on two disks. Which files are found depends on the files that stand below the root and on
those that speak, in the directories above them, of what is left out; in which order they are found, on
nothing else. A cache that is saved in the meantime is neither of these, as long as it is not found
itself and no file stands in place of the data of a repository. -/
namespace AssemblySymbols

/-! The order in which files are found. -/

namespace Place

theorem comesBefore_total (names others : List String) :
    (comesBefore names others || comesBefore others names) = true := by
  induction names generalizing others with
  | nil => simp [comesBefore]
  | cons name rest ih =>
    cases others with
    | nil => simp [comesBefore]
    | cons other more =>
      by_cases same : name = other
      · simpa [comesBefore, same] using ih more
      · rcases String.le_total name other with less | less
        · simp [comesBefore, same, Std.lt_of_le_of_ne less same]
        · simp [comesBefore, same, Ne.symm same, Std.lt_of_le_of_ne less (Ne.symm same)]

theorem comesBefore_antisymm {names others : List String} (first : comesBefore names others = true)
    (second : comesBefore others names = true) : names = others := by
  induction names generalizing others with
  | nil =>
    cases others with
    | nil => rfl
    | cons other more => simp [comesBefore] at second
  | cons name rest ih =>
    cases others with
    | nil => simp [comesBefore] at first
    | cons other more =>
      by_cases same : name = other
      · subst same
        simp only [comesBefore, if_true] at first second
        rw [ih first second]
      · simp only [comesBefore, if_neg same, if_neg (Ne.symm same), decide_eq_true_iff] at first second
        exact absurd second (String.lt_asymm first)

theorem comesBefore_trans {names others last : List String} (first : comesBefore names others = true)
    (second : comesBefore others last = true) : comesBefore names last = true := by
  induction names generalizing others last with
  | nil => rfl
  | cons name rest ih =>
    cases others with
    | nil => simp [comesBefore] at first
    | cons other more =>
      cases last with
      | nil => simp [comesBefore] at second
      | cons final end' =>
        unfold comesBefore at first second ⊢
        by_cases same : name = other
        · subst same
          rw [if_pos rfl] at first
          by_cases same' : name = final
          · subst same'
            rw [if_pos rfl] at second ⊢
            exact ih first second
          · rw [if_neg same'] at second ⊢
            exact second
        · rw [if_neg same, decide_eq_true_iff] at first
          by_cases same' : other = final
          · subst same'
            rw [if_neg same]
            simpa using first
          · rw [if_neg same', decide_eq_true_iff] at second
            have less := String.lt_trans first second
            have apart : name ≠ final := by
              rintro rfl
              exact String.lt_irrefl name less
            rw [if_neg apart]
            simpa using less

end Place

namespace Disk
variable {disk other : Disk} {root place directory : Place} {names : List String} {path : Path}

theorem map_filesBelow (disk : Disk) (root : Place) :
    ((disk.filesBelow root).map (root ++ ·)).Sublist (disk.nodes.map (·.1)) := by
  unfold filesBelow subtree
  induction disk.nodes with
  | nil => simp
  | cons entry rest ih =>
    obtain ⟨place, node⟩ := entry
    rw [List.map_cons, List.filter_cons]
    by_cases below : root.isPrefixOf place = true
    · rw [if_pos below, List.filterMap_cons]
      obtain ⟨behind, rfl⟩ := List.isPrefixOf_iff_prefix.mp below
      cases node with
      | file bytes =>
        simp only [Place.namesBelow, List.drop_left, List.map_cons]
        exact ih.cons_cons _
      | directory | link target => exact ih.cons _
    · rw [if_neg below]
      exact ih.cons _

/-- No file is found twice. -/
theorem nodup_discover (tree : disk.IsTree) (found : disk.find? path = .ok (root, .directory))
    (globs : List Glob) : (disk.discover path globs).Nodup := by
  have once : (disk.filesBelow root).Nodup := ((disk.map_filesBelow root).nodup tree.once).of_map _
  simp only [discover, found]
  exact (List.mergeSort_perm ..).nodup_iff.mpr (once.filter _)

theorem pairwise_discover (found : disk.find? path = .ok (root, .directory)) (globs : List Glob) :
    (disk.discover path globs).Pairwise fun names others => Place.comesBefore names others = true := by
  simp only [discover, found]
  refine List.pairwise_mergeSort ?_ Place.comesBefore_total _
  exact fun _ _ _ first second => Place.comesBefore_trans first second

/-- Discovery that comes to the same files finds them in the same order. -/
theorem discover_ext (tree : disk.IsTree) (tree' : other.IsTree)
    (found : disk.find? path = .ok (root, .directory)) (found' : other.find? path = .ok (root, .directory))
    {globs : List Glob}
    (same : ∀ names, names ∈ other.discover path globs ↔ names ∈ disk.discover path globs) :
    other.discover path globs = disk.discover path globs := by
  have once := nodup_discover tree found globs
  have once' := nodup_discover tree' found' globs
  exact List.Perm.eq_of_pairwise (fun _ _ _ _ => Place.comesBefore_antisymm)
    (pairwise_discover found' globs) (pairwise_discover found globs)
    ((List.perm_ext_iff_of_nodup once' once).mpr same)

/-! Rules that say the same. -/

/-- The files that say what is left out on behalf of a directory say the same on another disk. -/
structure AgreesOn (disk other : Disk) (directory : Place) : Prop where
  general : other.ignoreRules (directory.path.child ".ignore") =
    disk.ignoreRules (directory.path.child ".ignore")
  versioned : other.ignoreRules (directory.path.child ".gitignore") =
    disk.ignoreRules (directory.path.child ".gitignore")
  excluded : other.exclusions directory = disk.exclusions directory
  repository : other.isRepository directory = disk.isRepository directory

theorem repositoryLevels_congr {directories : List Place}
    (same : ∀ directory ∈ directories, other.isRepository directory = disk.isRepository directory) :
    other.repositoryLevels directories = disk.repositoryLevels directories := by
  have span : directories.span (fun directory => !other.isRepository directory) =
      directories.span fun directory => !disk.isRepository directory := by
    simp only [List.span_eq_takeWhile_dropWhile, Prod.mk.injEq]
    induction directories with
    | nil => simp
    | cons directory rest ih =>
      obtain ⟨own, others⟩ := List.forall_mem_cons.mp same
      rw [List.takeWhile_cons, List.takeWhile_cons, List.dropWhile_cons, List.dropWhile_cons, own]
      split
      · exact ⟨congrArg _ (ih others).1, (ih others).2⟩
      · exact ⟨rfl, rfl⟩
  unfold repositoryLevels
  rw [span]

theorem isIgnored_congr (agree : ∀ directory ∈ place.above, disk.AgreesOn other directory)
    (isDirectory : Bool) : other.isIgnored place isDirectory = disk.isIgnored place isDirectory := by
  have levels : other.repositoryLevels place.above = disk.repositoryLevels place.above :=
    repositoryLevels_congr fun directory above => (agree directory above).repository
  have first {rules rules' : Place → IgnoreRules} {directories : List Place}
      (same : ∀ directory ∈ directories, rules directory = rules' directory) :
      directories.findSome? (fun directory =>
        (rules directory).verdict? ("/".intercalate (Place.namesBelow directory place)) isDirectory) =
      directories.findSome? fun directory =>
        (rules' directory).verdict? ("/".intercalate (Place.namesBelow directory place)) isDirectory := by
    rw [← List.head?_filterMap, ← List.head?_filterMap]
    exact congrArg _ (List.filterMap_congr fun directory member => by rw [same directory member])
  have inside {directory : Place} (level : directory ∈ disk.repositoryLevels place.above) :=
    agree directory (mem_repositoryLevels level)
  rw [isIgnored, isIgnored, ignoreVerdict?, ignoreVerdict?]
  simp only [levels]
  rw [first fun directory above => (agree directory above).general,
    first fun directory level => (inside level).versioned,
    first fun directory level => (inside level).excluded]

theorem reaches_congr (agree : ∀ directory ∈ (root ++ names).above, disk.AgreesOn other directory) :
    other.reaches root names = disk.reaches root names := by
  have through (depth : Nat) : other.entersDirectory (root ++ names.take depth) =
      disk.entersDirectory (root ++ names.take depth) := by
    have inside : root ++ names.take depth <+: root ++ names :=
      (List.prefix_append_right_inj root).mpr (List.take_prefix ..)
    rw [entersDirectory, entersDirectory, isIgnored_congr fun directory above =>
      agree directory (Place.above_subset inside above)]
  rw [reaches, reaches, isIgnored_congr agree]
  simp only [through]

/-- A file that reads the same is the same or cannot be read either way. -/
theorem read_eq_or_error (same : ∀ bytes, other.read path = .ok bytes ↔ disk.read path = .ok bytes) :
    other.read path = disk.read path ∨
      ∃ cause cause', other.read path = .error cause ∧ disk.read path = .error cause' := by
  cases read : disk.read path with
  | ok bytes => exact Or.inl ((same bytes).mpr read)
  | error cause' =>
    cases read' : other.read path with
    | ok bytes => cases ((same bytes).mp read').symm.trans read
    | error cause => exact Or.inr ⟨cause, cause', rfl, rfl⟩

theorem ignoreRules_congr (same : ∀ bytes, other.read path = .ok bytes ↔ disk.read path = .ok bytes) :
    other.ignoreRules path = disk.ignoreRules path := by
  unfold ignoreRules
  rcases read_eq_or_error same with alike | ⟨_, _, illegible, illegible'⟩
  · rw [alike]
  · rw [illegible, illegible']

theorem openDocument_congr (same : ∀ bytes, other.read path = .ok bytes ↔ disk.read path = .ok bytes) :
    (other.openDocument path).toOption = (disk.openDocument path).toOption := by
  unfold openDocument
  rcases read_eq_or_error same with alike | ⟨_, _, illegible, illegible'⟩
  · rw [alike]
  · rw [illegible, illegible']
    rfl

/-! A cache that has been saved. -/

/-- No file stands where a repository keeps its data. -/
def Gitfileless (disk : Disk) : Prop :=
  ∀ directory bytes, disk.node? (directory ++ [".git"]) ≠ some (.file bytes)

theorem gitfileless_of_entries (other : ∀ entry ∈ disk.nodes, entry.1.getLast? ≠ some ".git") :
    disk.Gitfileless := by
  intro directory bytes file
  rw [node?_of_ne_nil disk (by simp)] at file
  exact other _ (mem_of_lookup file) (by simp)

/-- Neither the cache nor the file beside it is among the files that are found. -/
def Overlooks (disk : Disk) (root : Path) (patterns : List String) (cache : Path) : Prop :=
  ∀ paths, disk.findFiles root patterns = .ok paths → cache ∉ paths ∧ Cache.temporaryPath cache ∉ paths

namespace Linkless

theorem isRepository_iff (linkless : disk.Linkless) (named : ∀ name ∈ directory, IsEntryName name) :
    disk.isRepository directory = true ↔
      (Place.path (directory ++ [".git"])).text.utf8ByteSize ≤ pathLimit ∧
      (disk.node? (directory ++ [".git"])).isSome = true := by
  have entries : ∀ name ∈ directory ++ [".git"], IsEntryName name :=
    List.forall_mem_append.mpr ⟨named, by decide⟩
  rw [isRepository, pathExists,
    Place.child_path (fun name member => (named name member).toIsFileName) (by decide)]
  cases found : disk.find? (Place.path (directory ++ [".git"])) with
  | ok there =>
    obtain ⟨place, node⟩ := there
    obtain ⟨-, fits, stands⟩ := (linkless.find?_path_iff entries).mp found
    simp [Except.isOk, Except.toBool, fits, stands]
  | error cause =>
    simp only [Except.isOk, Except.toBool, Bool.false_eq_true, false_iff, not_and]
    intro fits stands
    obtain ⟨node, stands⟩ := Option.isSome_iff_exists.mp stands
    cases ((linkless.find?_path_iff entries).mpr ⟨rfl, fits, stands⟩).symm.trans found

theorem exclusions_eq (linkless : disk.Linkless) (gitfileless : disk.Gitfileless)
    (named : ∀ name ∈ directory, IsEntryName name) : disk.exclusions directory =
      disk.ignoreRules (Place.path (directory ++ [".git", "info"] ++ ["exclude"])) := by
  have entries : ∀ name ∈ directory ++ [".git"], IsEntryName name :=
    List.forall_mem_append.mpr ⟨named, by decide⟩
  have whole : disk.repositoryData? directory = some (Place.path (directory ++ [".git"])) := by
    unfold repositoryData?
    dsimp only
    rw [Place.child_path (fun name member => (named name member).toIsFileName) (by decide)]
    cases found : disk.find? (Place.path (directory ++ [".git"])) with
    | error => rfl
    | ok there =>
      obtain ⟨place, node⟩ := there
      obtain ⟨-, -, stands⟩ := (linkless.find?_path_iff entries).mp found
      cases node with
      | file bytes => exact absurd stands (gitfileless directory bytes)
      | directory | link target => rfl
  have below : ["info", "exclude"].foldl Path.child (Place.path (directory ++ [".git"])) =
      Place.path (directory ++ [".git"] ++ ["info", "exclude"]) :=
    Place.path_append _ (List.forall_mem_append.mpr
      ⟨fun name member => (entries name member).toIsFileName, by decide⟩)
  rw [exclusions, whole]
  simp only [List.append_assoc, List.cons_append, List.nil_append, List.foldl_cons,
    List.foldl_nil] at below ⊢
  rw [below]

/-- What is found below a directory are files, and they are read by the paths of their places. -/
theorem file_of_mem_discover (linkless : disk.Linkless) (solid : disk.Solid root) {globs : List Glob}
    (member : names ∈ disk.discover root.path globs) :
    disk.find? root.path = .ok (root, .directory) ∧
    (∃ bytes, disk.node? (root ++ names) = some (.file bytes)) ∧
    (∀ name ∈ root ++ names, IsEntryName name) ∧
    names.foldl Path.child root.path = Place.path (root ++ names) := by
  have named := linkless.named solid
  cases found : disk.find? root.path with
  | error cause => simp [discover, found] at member
  | ok there =>
    obtain ⟨place, node⟩ := there
    obtain ⟨rfl, -, stands⟩ := (linkless.find?_path_iff named).mp found
    cases solid.node?.symm.trans stands
    obtain ⟨bytes, file⟩ := (mem_filesBelow linkless.toIsTree).mp ((mem_discover found).mp member).1
    have entries : ∀ name ∈ place ++ names, IsEntryName name :=
      List.forall_mem_append.mpr ⟨named, (linkless.file_below solid file).2.2⟩
    exact ⟨rfl, ⟨bytes, file⟩, entries,
      Place.path_append place fun name member => (entries name member).toIsFileName⟩

end Linkless

namespace SavedIn
open Settings (cacheFileName)
variable {shelf : Place} {last : String} {before after : Disk} {bytes : Text.Bytes}

/-- At other places the same files stand. -/
theorem file_iff (saved : before.SavedIn shelf last after) (apart : place ≠ shelf ++ [last])
    (apart' : place ≠ shelf ++ [last ++ ".tmp"]) :
    after.node? place = some (.file bytes) ↔ before.node? place = some (.file bytes) := by
  rcases saved.elsewhere place apart apart' with same | ⟨-, free, made⟩
  · rw [same]
  · simp [free, made]

theorem read_iff (saved : before.SavedIn shelf last after) (linkless : before.Linkless)
    (named : ∀ name ∈ place, IsEntryName name) (apart : place ≠ shelf ++ [last])
    (apart' : place ≠ shelf ++ [last ++ ".tmp"]) :
    after.read place.path = .ok bytes ↔ before.read place.path = .ok bytes := by
  rw [saved.linkless.read_path_iff named, linkless.read_path_iff named, saved.file_iff apart apart']

/-- Directories are found where they were. -/
theorem find?_directory (saved : before.SavedIn shelf last after) (linkless : before.Linkless)
    (found : before.find? path = .ok (place, .directory)) : after.find? path = .ok (place, .directory) := by
  have onwards {pieces : List (List Char)} {here : Place}
      (arrived : before.advance true here pieces = .arrived (.present place .directory)) :
      after.advance true here pieces = .arrived (.present place .directory) := by
    induction pieces generalizing here with
    | nil => exact arrived
    | cons piece rest ih =>
      cases before.piece_cases here piece with
      | leads same _ stays =>
        rw [same] at arrived
        rw [stays after fun _ => saved.directories _]
        exact ih arrived
      | tooLong fails =>
        rw [fails] at arrived
        contradiction
      | named other enters =>
        rw [enters] at arrived
        exact absurd (directory_of_enter arrived) other
  obtain ⟨legible, some_path, fits, walked⟩ := resolve_eq_ok_iff.mp (resolve_of_find? found)
  rw [← saved.home] at walked
  have resolved : after.resolve true path = .ok (.present place .directory) :=
    resolve_eq_ok_iff.mpr ⟨legible, some_path, fits,
      walk_of_arrived (onwards (linkless.advance_of_walk walked))⟩
  rw [find?, resolved]
  rfl

variable (saved : before.SavedIn shelf cacheFileName after) (linkless : before.Linkless)
  (gitfileless : before.Gitfileless)
  (unmade : ∀ directory, directory ++ [".git"] <+: shelf →
    before.node? (directory ++ [".git"]) = some .directory)
include saved

/-- What has another name than the cache and the file beside it stands where it did, unless it is a
directory that has been made. -/
theorem node?_named (directory : Place) (name : String) (own : name ≠ cacheFileName)
    (own' : name ≠ cacheFileName ++ ".tmp") :
    after.node? (directory ++ [name]) = before.node? (directory ++ [name]) ∨
      directory ++ [name] <+: shelf ∧ before.node? (directory ++ [name]) = none ∧
      after.node? (directory ++ [name]) = some .directory := by
  have apart {last : String} (different : name ≠ last) : directory ++ [name] ≠ shelf ++ [last] :=
    fun same => different (List.singleton_inj.mp (List.append_inj' same rfl).2)
  exact saved.elsewhere _ (apart own) (apart own')

include linkless

/-- A file with another name than the cache and the file beside it reads as it did. -/
theorem read_named {name : String} (entries : ∀ name' ∈ directory ++ [name], IsEntryName name')
    (own : name ≠ cacheFileName) (own' : name ≠ cacheFileName ++ ".tmp") :
    after.read (Place.path (directory ++ [name])) = .ok bytes ↔
      before.read (Place.path (directory ++ [name])) = .ok bytes := by
  rw [saved.linkless.read_path_iff entries, linkless.read_path_iff entries]
  rcases saved.node?_named directory name own own' with same | ⟨-, free, made⟩
  · rw [same]
  · simp [free, made]

theorem ignoreRules_named {name : String} (entries : ∀ name' ∈ directory ++ [name], IsEntryName name')
    (own : name ≠ cacheFileName) (own' : name ≠ cacheFileName ++ ".tmp") :
    after.ignoreRules (Place.path (directory ++ [name])) =
      before.ignoreRules (Place.path (directory ++ [name])) :=
  ignoreRules_congr fun _ => saved.read_named linkless entries own own'

include gitfileless unmade

/-- The rules of all directories stay as they are. -/
theorem agreesOn (named : ∀ name ∈ directory, IsEntryName name) : before.AgreesOn after directory := by
  have entries {names : List String} (others : ∀ name ∈ names, IsEntryName name) :
      ∀ name ∈ directory ++ names, IsEntryName name := List.forall_mem_append.mpr ⟨named, others⟩
  have child {name : String} (own : IsEntryName name) :
      directory.path.child name = Place.path (directory ++ [name]) :=
    Place.child_path (fun name member => (named name member).toIsFileName) own.toIsFileName
  have stands : after.node? (directory ++ [".git"]) = before.node? (directory ++ [".git"]) := by
    rcases saved.node?_named directory ".git" (by decide) (by decide) with
      same | ⟨inside, free, -⟩
    · exact same
    · cases free.symm.trans (unmade directory inside)
  refine ⟨?_, ?_, ?_, ?_⟩
  · rw [child (by decide)]
    exact saved.ignoreRules_named linkless (entries (by decide)) (by decide) (by decide)
  · rw [child (by decide)]
    exact saved.ignoreRules_named linkless (entries (by decide)) (by decide) (by decide)
  · have unfiled : after.Gitfileless := by
      intro other bytes file
      rcases saved.node?_named other ".git" (by decide) (by decide) with same | ⟨-, -, made⟩
      · exact gitfileless other bytes (same ▸ file)
      · rw [file] at made
        cases made
    rw [saved.linkless.exclusions_eq unfiled named, linkless.exclusions_eq gitfileless named]
    exact saved.ignoreRules_named linkless (List.append_assoc .. ▸ entries (by decide)) (by decide)
      (by decide)
  · rw [Bool.eq_iff_iff, saved.linkless.isRepository_iff named, linkless.isRepository_iff named, stands]

theorem discover_eq (solid : before.Solid root) {globs : List Glob}
    (apart : ∀ names ∈ before.discover root.path globs,
      root ++ names ≠ shelf ++ [cacheFileName] ∧ root ++ names ≠ shelf ++ [cacheFileName ++ ".tmp"])
    (apart' : ∀ names ∈ after.discover root.path globs,
      root ++ names ≠ shelf ++ [cacheFileName] ∧ root ++ names ≠ shelf ++ [cacheFileName ++ ".tmp"]) :
    after.discover root.path globs = before.discover root.path globs := by
  have solid' := saved.solid solid
  have reach {names : List String} (entries : ∀ name ∈ root ++ names, IsEntryName name) :
      after.reaches root names = before.reaches root names :=
    reaches_congr fun directory above => saved.agreesOn linkless gitfileless unmade
      fun name member => entries name ((Place.mem_above.mp above).1.subset member)
  have onwards {names : List String} (member : names ∈ before.discover root.path globs) :
      names ∈ after.discover root.path globs := by
    obtain ⟨found, ⟨bytes, file⟩, entries, -⟩ := linkless.file_of_mem_discover solid member
    obtain ⟨-, reached, accepted⟩ := (mem_discover found).mp member
    have file' := (saved.file_iff (apart names member).1 (apart names member).2).mpr file
    exact (mem_discover (saved.find?_directory linkless found)).mpr
      ⟨(mem_filesBelow saved.linkless.toIsTree).mpr ⟨bytes, file'⟩, (reach entries).trans reached, accepted⟩
  have back {names : List String} (member : names ∈ after.discover root.path globs) :
      names ∈ before.discover root.path globs := by
    obtain ⟨found, ⟨bytes, file⟩, entries, -⟩ := saved.linkless.file_of_mem_discover solid' member
    obtain ⟨-, reached, accepted⟩ := (mem_discover found).mp member
    have file' := (saved.file_iff (apart' names member).1 (apart' names member).2).mp file
    obtain ⟨-, fits, -⟩ := (saved.linkless.find?_path_iff (saved.linkless.named solid')).mp found
    have found' := (linkless.find?_path_iff (linkless.named solid)).mpr ⟨rfl, fits, solid.node?⟩
    exact (mem_discover found').mpr
      ⟨(mem_filesBelow linkless.toIsTree).mpr ⟨bytes, file'⟩, (reach entries).symm.trans reached, accepted⟩
  cases found : before.find? root.path with
  | ok there =>
    obtain ⟨place, node⟩ := there
    obtain ⟨rfl, -, stands⟩ := (linkless.find?_path_iff (linkless.named solid)).mp found
    cases solid.node?.symm.trans stands
    exact discover_ext linkless.toIsTree saved.linkless.toIsTree found
      (saved.find?_directory linkless found) fun names => ⟨back, onwards⟩
  | error cause =>
    have nothing : before.discover root.path globs = [] := by simp [discover, found]
    rw [nothing, List.eq_nil_iff_forall_not_mem]
    intro names member
    have there := back member
    rw [nothing] at there
    contradiction

/-- If the cache is not found itself, the same files are found again, and opened they are the same. -/
theorem findFiles_eq (solid : before.Solid root) (shelved : ∀ name ∈ shelf, IsEntryName name)
    {patterns : List String}
    (overlooks : before.Overlooks root.path patterns (Place.path (shelf ++ [cacheFileName])))
    (overlooks' : after.Overlooks root.path patterns (Place.path (shelf ++ [cacheFileName]))) :
    after.findFiles root.path patterns = before.findFiles root.path patterns ∧
    ∀ paths, before.findFiles root.path patterns = .ok paths → ∀ path ∈ paths,
      (after.openDocument path).toOption = (before.openDocument path).toOption := by
  have temporary : Cache.temporaryPath (Place.path (shelf ++ [cacheFileName])) =
      Place.path (shelf ++ [cacheFileName ++ ".tmp"]) :=
    Place.temporaryPath_path (List.forall_mem_append.mpr
      ⟨fun name member => (shelved name member).toIsFileName, by decide⟩) (by decide)
  cases parsed : patterns.mapM fun text =>
      Glob.parse (String.ofList (text.toList.dropWhile (· == '/'))) with
  | error cause => simp [findFiles, parsed, bind, Except.bind]
  | ok globs =>
    have files (disk : Disk) : disk.findFiles root.path patterns =
        .ok ((disk.discover root.path globs).map (List.foldl Path.child root.path)) := by
      rw [findFiles, parsed]
      rfl
    have apart {disk : Disk} (linkless : disk.Linkless) (solid : disk.Solid root)
        (overlooks : disk.Overlooks root.path patterns (Place.path (shelf ++ [cacheFileName])))
        (names : List String) (member : names ∈ disk.discover root.path globs) :
        root ++ names ≠ shelf ++ [cacheFileName] ∧
        root ++ names ≠ shelf ++ [cacheFileName ++ ".tmp"] := by
      obtain ⟨-, -, -, spelled⟩ := linkless.file_of_mem_discover solid member
      have listed := List.mem_map_of_mem (f := List.foldl Path.child root.path) member
      rw [spelled] at listed
      obtain ⟨own, beside⟩ := overlooks _ (files disk)
      rw [temporary] at beside
      exact ⟨fun same => own (same ▸ listed), fun same => beside (same ▸ listed)⟩
    have same := saved.discover_eq linkless gitfileless unmade solid (apart linkless solid overlooks)
      (apart saved.linkless (saved.solid solid) overlooks')
    rw [files, files, same]
    refine ⟨rfl, fun paths listed path member => ?_⟩
    cases listed
    obtain ⟨names, found, rfl⟩ := List.mem_map.mp member
    obtain ⟨-, -, entries, spelled⟩ := linkless.file_of_mem_discover solid found
    obtain ⟨own, beside⟩ := apart linkless solid overlooks names found
    rw [spelled]
    exact openDocument_congr fun bytes => saved.read_iff linkless entries own beside

end SavedIn
end Disk
end AssemblySymbols
