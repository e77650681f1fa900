import AssemblySymbols.Proofs.Command.RepeatedCommands
import AssemblySymbols.Proofs.Workspace.RepeatedDiscovery

/-! Commands in a workspace of directories and files. They leave to those that follow what they have
looked at themselves, since all that they change is the cache. -/
namespace AssemblySymbols

theorem Place.path_inj {place place' : Place} (named : ∀ name ∈ place, Path.IsFileName name)
    (named' : ∀ name ∈ place', Path.IsFileName name) (same : place.path = place'.path) : place = place' := by
  have components := congrArg Path.components same
  rw [components_path named, components_path named'] at components
  exact List.map_injective_iff.mpr (fun _ _ => Path.Component.name.inj) (List.cons.inj components).2

/-- Below the root stand directories and files only, and no file in place of the data of a repository. -/
structure Disk.Sheltered (disk : Disk) (root : Path) : Prop extends disk.Linkless where
  home : disk.Solid disk.home
  gitfileless : disk.Gitfileless
  found : ∃ place, disk.find? root = .ok (place, .directory)

/-- The cache is kept below the root under names, none of which is that of the data of a repository. -/
def Settings.ShelvesCache (settings : Settings) : Prop :=
  ∃ names, names ≠ [] ∧ (∀ name ∈ names, Disk.IsEntryName name ∧ name ≠ ".git") ∧
    settings.cacheDirectory = "/".intercalate names

theorem Settings.shelvesCache_defaults (delayText? : Option String) : (defaults delayText?).ShelvesCache :=
  ⟨[".asmdex", "cache"], by simp, by decide, by simp [defaults, projectDirectory]⟩

namespace Disk
variable {disk after : Disk} {root place : Place} {path : Path} {settings : Settings}

theorem canonicalPath_eq_ok_iff {final : Path} : disk.canonicalPath path = .ok final ↔
    ∃ place node, disk.find? path = .ok (place, node) ∧ final = place.path := by
  unfold canonicalPath
  cases disk.find? path with
  | error => simp [bind, Except.bind]
  | ok there =>
    obtain ⟨place, node⟩ := there
    simp [bind, Except.bind, pure, Except.pure, Place.path, eq_comm]

namespace Linkless

theorem node?_of_find? (linkless : disk.Linkless) (home : disk.Solid disk.home) {node : Node}
    (found : disk.find? path = .ok (place, node)) : disk.node? place = some node := by
  obtain ⟨-, -, -, walked⟩ := resolve_eq_ok_iff.mp (resolve_of_find? found)
  exact advance_sound (home.startOf _) (linkless.advance_of_walk walked)

theorem solid_of_directory (linkless : disk.Linkless) (directory : disk.node? place = some .directory) :
    disk.Solid place := by
  cases place using List.reverseRecOn with
  | nil => exact disk.solid_nil
  | append_singleton front last =>
    exact (linkless.inside front last (by rw [directory]; rfl)).1.append directory

end Linkless

/-- Where the cache is kept, and what is not made on the way there. -/
theorem cachePath_of_shelves (shelves : settings.ShelvesCache) (linkless : disk.Linkless)
    (solid : disk.Solid root) :
    ∃ shelf, settings.cachePath root.path = Place.path (shelf ++ [Settings.cacheFileName]) ∧
      (∀ name ∈ shelf, IsEntryName name) ∧
      ∀ directory, directory ++ [".git"] <+: shelf →
        disk.node? (directory ++ [".git"]) = some .directory := by
  obtain ⟨names, some_names, own, spelled⟩ := shelves
  have entries : ∀ name ∈ root ++ names, IsEntryName name :=
    List.forall_mem_append.mpr ⟨linkless.named solid, fun name member => (own name member).1⟩
  have files : ∀ name ∈ root ++ names, Path.IsFileName name :=
    fun name member => (entries name member).toIsFileName
  refine ⟨root ++ names, ?_, entries, fun directory inside => ?_⟩
  · rw [Settings.cachePath, spelled, ← Place.child_path files (by decide), ← Place.path_append root files,
      Path.child_intercalate root.path_ne_nil (List.forall_mem_append.mp files).2 some_names]
  · rcases List.prefix_or_prefix_of_prefix inside (List.prefix_append root names) with above | below
    · exact solid _ above
    · rcases List.prefix_concat_iff.mp below with same | ⟨front, rfl⟩
      · exact same ▸ solid.node?
      · rw [List.append_assoc, List.prefix_append_right_inj] at inside
        exact absurd rfl (own ".git" (inside.subset (by simp))).2

theorem findFiles_defaults (disk : Disk) (path : Path) (delayText? : Option String) :
    disk.findFiles path (Settings.defaults delayText?).patterns =
      .ok ((disk.discover path [.anywhere ".asm".toList, .anywhere ".inc".toList]).map
        (List.foldl Path.child path)) := by
  have matched := Settings.matched_defaults delayText?
  rw [matched.patterns, findFiles_eq _ matched.literal]
  rfl

/-- The default patterns find no cache. -/
theorem Linkless.overlooks_defaults (linkless : disk.Linkless) (solid : disk.Solid place) {shelf : Place}
    (entries : ∀ name ∈ shelf, IsEntryName name) (delayText? : Option String) :
    disk.Overlooks place.path (Settings.defaults delayText?).patterns
      (Place.path (shelf ++ [Settings.cacheFileName])) := by
  have files : ∀ name ∈ shelf, Path.IsFileName name :=
    fun name member => (entries name member).toIsFileName
  have apart {last : String} (named : Path.IsFileName last)
      (unlike : ∀ word ∈ [".asm".toList, ".inc".toList],
        ¬ word <:+ last.toList ∧ '/' ∉ word ∧ '\\' ∉ word)
      {names : List String}
      (found : names ∈ disk.discover place.path ([".asm".toList, ".inc".toList].map .anywhere)) :
      names.foldl Path.child place.path ≠ Place.path (shelf ++ [last]) := by
    intro same
    obtain ⟨stands, -, own, spelled⟩ := linkless.file_of_mem_discover solid found
    have split : place ++ names = shelf ++ [last] :=
      Place.path_inj (fun name member => (own name member).toIsFileName)
        (List.forall_mem_append.mpr ⟨files, by simpa using named⟩) (spelled.symm.trans same)
    obtain ⟨-, -, glob, listed, accepts⟩ := (mem_discover stands).mp found
    obtain ⟨word, member, rfl⟩ := List.mem_map.mp listed
    obtain ⟨other, solid, straight⟩ := unlike word member
    have ends := Glob.accepts_anywhere.mp accepts
    cases names using List.reverseRecOn with
    | nil =>
      have empty : word = [] := by simpa [relativeText] using ends
      subst empty
      simp at member
    | append_singleton front final =>
      rw [← List.append_assoc] at split
      cases (List.append_inj' split rfl).2
      exact other ((suffix_relativeText solid straight).mp ends)
  intro paths listed
  rw [findFiles_defaults, Except.ok.injEq] at listed
  subst listed
  rw [Place.temporaryPath_path (List.forall_mem_append.mpr ⟨files, by decide⟩) (by decide)]
  constructor <;> intro member <;> obtain ⟨names, found, same⟩ := List.mem_map.mp member
  · exact apart (by decide) (by decide) found same
  · exact apart (by decide) (by decide) found same

end Disk

theorem Settings.load_of_missing {disk : Disk} {root : Path} {cause : DiskError}
    (missing : disk.read (path root) = .error cause) (delayText? : Option String) :
    load disk root delayText? = defaults delayText? := by
  unfold load
  rw [missing]

theorem Settings.load_congr {disk other : Disk} {root : Path} (same : ∀ bytes,
    other.read (path root) = .ok bytes ↔ disk.read (path root) = .ok bytes) (delayText? : Option String) :
    load other root delayText? = load disk root delayText? := by
  unfold load
  cases read : disk.read (path root) with
  | ok bytes => rw [(same bytes).mpr read]
  | error cause =>
    cases read' : other.read (path root) with
    | ok bytes => cases ((same bytes).mp read').symm.trans read
    | error cause' => rfl

/-- The settings are no part of what a save changes. -/
theorem Disk.SavedIn.load_eq {disk after : Disk} {shelf place : Place}
    (saved : disk.SavedIn shelf Settings.cacheFileName after) (linkless : disk.Linkless)
    (solid : disk.Solid place) (delayText? : Option String) :
    Settings.load after place.path delayText? = Settings.load disk place.path delayText? := by
  have entries : ∀ name ∈ place ++ [".asmdex", "config", "settings.json"], IsEntryName name :=
    List.forall_mem_append.mpr ⟨linkless.named solid, by decide⟩
  have below : [".asmdex", "config", "settings.json"].foldl Path.child place.path =
      Place.path (place ++ [".asmdex", "config", "settings.json"]) :=
    Place.path_append place fun name member => (entries name member).toIsFileName
  have split : place ++ [".asmdex", "config", "settings.json"] =
      place ++ [".asmdex", "config"] ++ ["settings.json"] := by simp
  simp only [List.foldl_cons, List.foldl_nil] at below
  rw [split] at below entries
  refine Settings.load_congr (fun bytes => ?_) _
  rw [Settings.path, Settings.projectDirectory, below]
  exact saved.read_named linkless entries (by decide) (by decide)

/-- If the cache is not found itself, a session opens the same files as before the save. -/
theorem Session.openings?_after {disk after : Disk} {shelf place : Place} {settings : Settings}
    (saved : disk.SavedIn shelf Settings.cacheFileName after) (linkless : disk.Linkless)
    (gitfileless : disk.Gitfileless) (unmade : ∀ directory, directory ++ [".git"] <+: shelf →
      disk.node? (directory ++ [".git"]) = some .directory)
    (solid : disk.Solid place) (shelved : ∀ name ∈ shelf, Disk.IsEntryName name)
    (overlooks : disk.Overlooks place.path settings.patterns
      (Place.path (shelf ++ [Settings.cacheFileName])))
    (overlooks' : after.Overlooks place.path settings.patterns
      (Place.path (shelf ++ [Settings.cacheFileName]))) :
    (start place.path settings after).openings? = (start place.path settings disk).openings? := by
  obtain ⟨same, texts⟩ :=
    saved.findFiles_eq linkless gitfileless unmade solid shelved overlooks overlooks'
  have listed (disk : Disk) : (start place.path settings disk).disk.findFiles
      (start place.path settings disk).root (start place.path settings disk).settings.patterns =
      disk.findFiles place.path settings.patterns := rfl
  rw [openings?, openings?, listed, listed, same]
  cases found : disk.findFiles place.path settings.patterns with
  | error cause => rfl
  | ok paths =>
    refine congrArg some (List.map_congr_left fun path member => ?_)
    change after.opening path = disk.opening path
    rw [Disk.opening, Disk.opening, texts paths found path member]

namespace Invocation
variable {invocation : Invocation} {disk : Disk} {environment : Environment} {session : Session}

/-- Where the root and the cache of an invocation are. -/
theorem shelf_of_sheltered (begun : invocation.begin? disk environment = .ok session)
    (sheltered : disk.Sheltered ⟨invocation.root⟩) (shelves : session.settings.ShelvesCache) :
    ∃ place shelf, disk.find? ⟨invocation.root⟩ = .ok (place, .directory) ∧ disk.Solid place ∧
      session = .start place.path
        (Settings.load disk place.path (environment.get? Settings.delayVariable)) disk ∧
      session.store.cachePath = Place.path (shelf ++ [Settings.cacheFileName]) ∧
      (∀ name ∈ shelf, Disk.IsEntryName name) ∧
      (∀ directory, directory ++ [".git"] <+: shelf →
        disk.node? (directory ++ [".git"]) = some .directory) ∧
      ∀ snapshot, disk.SavedIn shelf Settings.cacheFileName
        ((Cache.save session.store.cachePath snapshot).run disk).2 := by
  have linkless := sheltered.toLinkless
  obtain ⟨root, canonical, made⟩ := begin?_eq_ok_iff.mp begun
  obtain ⟨place, node, found, rfl⟩ := Disk.canonicalPath_eq_ok_iff.mp canonical
  obtain ⟨place', found'⟩ := sheltered.found
  cases found.symm.trans found'
  have solid := linkless.solid_of_directory (linkless.node?_of_find? sheltered.home found)
  have cached : session.store.cachePath = session.settings.cachePath place.path := by
    generalize Settings.load disk place.path (environment.get? Settings.delayVariable) = settings at made
    rw [made]
    rfl
  obtain ⟨shelf, kept, entries, unmade⟩ := Disk.cachePath_of_shelves shelves linkless solid
  have own := cached.trans kept
  refine ⟨place, shelf, found, solid, made, own, entries, unmade, fun snapshot => ?_⟩
  rw [own]
  exact Cache.savedIn_save linkless sheltered.home entries (by decide) (by decide)

/-- Whatever comes of a save, the next invocation looks at the same, unless the cache is itself among the
files that are found. -/
theorem sight?_of_save (begun : invocation.begin? disk environment = .ok session)
    (sheltered : disk.Sheltered ⟨invocation.root⟩) (shelves : session.settings.ShelvesCache)
    (snapshot : Snapshot) :
    let after := ((Cache.save session.store.cachePath snapshot).run disk).2
    disk.Overlooks session.root session.settings.patterns session.store.cachePath →
    after.Overlooks session.root session.settings.patterns session.store.cachePath →
    invocation.sight? after environment = invocation.sight? disk environment := by
  intro after overlooks overlooks'
  have linkless := sheltered.toLinkless
  obtain ⟨place, shelf, found, solid, made, own, entries, unmade, saves⟩ :=
    shelf_of_sheltered begun sheltered shelves
  have saved : disk.SavedIn shelf Settings.cacheFileName after := saves snapshot
  have begun' : invocation.begin? after environment = .ok (.start place.path
      (Settings.load disk place.path (environment.get? Settings.delayVariable)) after) := by
    refine begin?_eq_ok_iff.mpr ⟨_, Disk.canonicalPath_eq_ok_iff.mpr
      ⟨place, .directory, saved.find?_directory linkless found, rfl⟩, ?_⟩
    rw [saved.load_eq linkless solid]
  rw [own] at overlooks overlooks'
  rw [sight?, sight?, begun', begun]
  clear shelves own saves begun begun'
  generalize Settings.load disk place.path (environment.get? Settings.delayVariable) = settings at made ⊢
  subst made
  exact congrArg Except.ok (congrArg (Sight.mk place.path settings) (Session.openings?_after saved
    linkless sheltered.gitfileless unmade solid entries overlooks overlooks'))

/-- With the default settings the cache is never among them. -/
theorem overlooks_of_defaults (begun : invocation.begin? disk environment = .ok session)
    (sheltered : disk.Sheltered ⟨invocation.root⟩)
    (defaults : session.settings = .defaults (environment.get? Settings.delayVariable)) :
    disk.Overlooks session.root session.settings.patterns session.store.cachePath ∧
    ∀ snapshot, ((Cache.save session.store.cachePath snapshot).run disk).2.Overlooks session.root
      session.settings.patterns session.store.cachePath := by
  obtain ⟨place, shelf, -, solid, made, own, entries, -, saves⟩ :=
    shelf_of_sheltered begun sheltered (defaults ▸ Settings.shelvesCache_defaults _)
  have root : session.root = place.path := by
    generalize Settings.load disk place.path (environment.get? Settings.delayVariable) = settings at made
    rw [made]
    rfl
  simp only [own] at saves ⊢
  rw [root, defaults]
  exact ⟨sheltered.toLinkless.overlooks_defaults solid entries _,
    fun snapshot => (saves snapshot).linkless.overlooks_defaults ((saves snapshot).solid solid) entries _⟩

end Invocation

/-! Two disks with one source. -/

/-- One file in the root of a disk. -/
def oneSource : Disk where
  nodes := [(["a.asm"], .file (Text.encode "start:\n".toList))]
  home := []

/-- The same file in a repository, whose data are elsewhere. The way there leads through the directory of
the cache, and once this is there, the file is excluded. -/
def redirectedSource : Disk where
  nodes := [(["a.asm"], .file (Text.encode "start:\n".toList)),
    ([".git"], .file (Text.encode "gitdir: /.asmdex/cache/../../repo".toList)),
    (["repo"], .directory), (["repo", "commondir"], .file (Text.encode ".".toList)),
    (["repo", "info"], .directory), (["repo", "info", "exclude"], .file (Text.encode "*.asm".toList))]
  home := []

theorem sheltered_oneSource : oneSource.Sheltered ⟨"/"⟩ where
  toLinkless := Disk.linkless_of_entries (Disk.isTree_of_entries (by decide) (by decide +kernel))
    (by simp [oneSource])
  home := Disk.solid_nil _
  gitfileless := Disk.gitfileless_of_entries (by decide)
  found := ⟨[], rfl⟩

namespace Disk
variable {disk : Disk} {path : Path}

/-- A disk on which a cache has been saved in the root. -/
def withCache (disk : Disk) (bytes : Text.Bytes) : Disk :=
  { disk with nodes := disk.nodes ++ [([".asmdex"], .directory), ([".asmdex", "cache"], .directory),
      ([".asmdex", "cache", "symbols.json"], .file bytes)] }

theorem firstLine?_of_read {line : String} (read : disk.read path = .ok (Text.encode line.toList))
    (single : IgnoreRules.readableLines (line.toList.map some) = [line.toList]) :
    disk.firstLine? path = some line := by
  rw [firstLine?, read]
  simp [Text.decode_encode, single]

/-- In the root of a disk that is a repository, the exclusions decide if no ignore file does. -/
theorem isIgnored_top (general : disk.ignoreRules ⟨"/.ignore"⟩ = [])
    (versioned : disk.ignoreRules ⟨"/.gitignore"⟩ = []) (repository : disk.isRepository [] = true)
    (name : String) : disk.isIgnored [name] false =
      ((disk.exclusions []).verdict? name false == some .ignored) := by
  have above : Place.above [name] = [[]] := rfl
  have levels : disk.repositoryLevels [[]] = [[]] := by
    simp [repositoryLevels, List.span_eq_takeWhile_dropWhile, repository]
  have children : (Place.path []).child ".ignore" = ⟨"/.ignore"⟩ ∧
      (Place.path []).child ".gitignore" = ⟨"/.gitignore"⟩ := by decide
  have silent : IgnoreRules.verdict? [] name false = none := rfl
  rw [isIgnored, ignoreVerdict?]
  simp [above, levels, children, general, versioned, Place.namesBelow, silent]

theorem find?_top (disk : Disk) : disk.find? ⟨"/"⟩ = .ok ([], .directory) := by
  have arrived : disk.resolve true ⟨"/"⟩ = .ok (.present [] .directory) :=
    resolve_eq_ok_iff.mpr ⟨by decide, by decide, by decide, walk_of_arrived rfl⟩
  rw [find?, arrived]
  rfl

/-- A single source in the root is found unless it is ignored. -/
theorem discover_top {globs : List Glob} (name : String)
    (accepted : ((disk.filesBelow []).filter fun names => globs.any (·.accepts (relativeText names))) =
      [[name]]) :
    disk.discover ⟨"/"⟩ globs = if disk.isIgnored [name] false then [] else [[name]] := by
  have way : disk.reaches [] [name] = !disk.isIgnored [name] false := by simp [reaches]
  simp only [discover, find?_top]
  rw [← List.filter_filter, accepted, List.filter_singleton, way]
  cases disk.isIgnored [name] false
  · exact List.mergeSort_singleton _
  · exact List.mergeSort_nil

theorem discover_oneSource :
    oneSource.discover ⟨"/"⟩ [.anywhere ".asm".toList, .anywhere ".inc".toList] = [["a.asm"]] :=
  (discover_top "a.asm" (by decide +kernel)).trans (if_neg (by decide +kernel))

/-- The data of the repository are not found as long as no cache is there. -/
theorem discover_redirectedSource :
    redirectedSource.discover ⟨"/"⟩ [.anywhere ".asm".toList, .anywhere ".inc".toList] = [["a.asm"]] := by
  have data : redirectedSource.find? ((Place.path []).child ".git") =
      .ok ([".git"], .file (Text.encode "gitdir: /.asmdex/cache/../../repo".toList)) := rfl
  have line : redirectedSource.firstLine? ((Place.path []).child ".git") =
      some "gitdir: /.asmdex/cache/../../repo" := firstLine?_of_read rfl (by decide +kernel)
  have nowhere : redirectedSource.repositoryData? [] = none := by
    unfold repositoryData?
    simp only [data, line]
    rfl
  have unruled : redirectedSource.exclusions [] = [] := by rw [exclusions, nowhere]
  have kept : redirectedSource.isIgnored ["a.asm"] false = false := by
    rw [isIgnored_top rfl rfl rfl, unruled]
    rfl
  exact (discover_top "a.asm" (by decide +kernel)).trans (if_neg (Bool.not_eq_true _ ▸ kept))

/-- Once a cache is there they are, and they exclude the source. -/
theorem discover_redirectedSource_withCache (bytes : Text.Bytes) :
    (redirectedSource.withCache bytes).discover ⟨"/"⟩
      [.anywhere ".asm".toList, .anywhere ".inc".toList] = [] := by
  have data : (redirectedSource.withCache bytes).find? ((Place.path []).child ".git") =
      .ok ([".git"], .file (Text.encode "gitdir: /.asmdex/cache/../../repo".toList)) := rfl
  have line : (redirectedSource.withCache bytes).firstLine? ((Place.path []).child ".git") =
      some "gitdir: /.asmdex/cache/../../repo" := firstLine?_of_read rfl (by decide +kernel)
  have shared : (redirectedSource.withCache bytes).firstLine?
      ⟨"/.asmdex/cache/../../repo/commondir"⟩ = some "." := firstLine?_of_read rfl (by decide +kernel)
  have there : (redirectedSource.withCache bytes).repositoryData? [] =
      some ⟨"/.asmdex/cache/../../repo/."⟩ := by
    unfold repositoryData?
    simp only [data, line]
    exact (congrArg (Option.bind · _) shared).trans (by decide +kernel)
  have spelled : (Path.child ⟨"/.asmdex/cache/../../repo/."⟩ "info").child "exclude" =
      ⟨"/.asmdex/cache/../../repo/./info/exclude"⟩ := by decide
  have read : (redirectedSource.withCache bytes).read ⟨"/.asmdex/cache/../../repo/./info/exclude"⟩ =
      .ok (Text.encode "*.asm".toList) := rfl
  have ruled : (redirectedSource.withCache bytes).exclusions [] =
      .ofSymbols ("*.asm".toList.map some) := by
    rw [exclusions, there]
    simp only [spelled, ignoreRules, read, Text.decode_encode]
  have ignored : IgnoreRules.verdict? (.ofSymbols ("*.asm".toList.map some)) "a.asm" false =
      some .ignored := by decide +kernel
  have files : (redirectedSource.withCache bytes).filesBelow [] = [["a.asm"], [".git"],
      ["repo", "commondir"], ["repo", "info", "exclude"], [".asmdex", "cache", "symbols.json"]] := rfl
  have decided : (redirectedSource.withCache bytes).isIgnored ["a.asm"] false = _ :=
    isIgnored_top rfl rfl rfl "a.asm"
  rw [discover_top "a.asm" (by rw [files]; decide +kernel), decided, ruled, ignored]
  rfl

end Disk

namespace Session
variable {name : String} {disk : Disk} {text : String}

theorem openings?_defaults (root : Path) (delayText? : Option String) (disk : Disk) :
    (start root (.defaults delayText?) disk).openings? =
      some ((disk.discover root [.anywhere ".asm".toList, .anywhere ".inc".toList]).map fun names =>
        disk.opening (names.foldl Path.child root)) := by
  have listed : (start root (.defaults delayText?) disk).disk.findFiles
      (start root (.defaults delayText?) disk).root
      (start root (.defaults delayText?) disk).settings.patterns =
      disk.findFiles root (Settings.defaults delayText?).patterns := rfl
  rw [openings?, listed, Disk.findFiles_defaults]
  exact congrArg some (List.map_map ..)

/-- The session that opens the one source. -/
theorem openings?_oneSource {disk : Disk}
    (found : disk.discover ⟨"/"⟩ [.anywhere ".asm".toList, .anywhere ".inc".toList] = [["a.asm"]])
    (read : disk.read ⟨"/a.asm"⟩ = .ok (Text.encode "start:\n".toList)) :
    (start ⟨"/"⟩ (.defaults none) disk).openings? =
      some [⟨⟨"/a.asm"⟩, [], some ⟨"/a.asm", none, "start:\n"⟩⟩] := by
  have path : ["a.asm"].foldl Path.child ⟨"/"⟩ = ⟨"/a.asm"⟩ := by decide
  rw [openings?_defaults, found, List.map_singleton, path, Disk.opening, Disk.openDocument, read]
  simp [bind, Except.bind, pure, Except.pure, Except.toOption, Text.decodeLossy_encode]

end Session

namespace Invocation
variable {disk : Disk} {environment : Environment} {session : Session}

/-- A scan that follows another one writes the cache as it is and reports the same, if nothing is in the
way of the cache and the first scan has left to the second what it has looked at itself. So it is among
directories and files, where the cache is not found itself. -/
theorem scan_repeats {root : String} {disk' disk'' : Disk} {lines lines' : List String}
    (begun : (Invocation.mk root .scan).begin? disk environment = .ok session)
    (first : run ⟨root, .scan⟩ disk environment = (disk', .ok lines))
    (second : run ⟨root, .scan⟩ disk' environment = (disk'', .ok lines'))
    (undisturbed : Cache.Unobstructed disk session.store.cachePath ∧
        (Invocation.mk root .scan).sight? disk' environment =
          (Invocation.mk root .scan).sight? disk environment ∨
      disk.Sheltered ⟨root⟩ ∧ session.settings.ShelvesCache ∧
        disk.Overlooks session.root session.settings.patterns session.store.cachePath ∧
        disk'.Overlooks session.root session.settings.patterns session.store.cachePath) :
    lines' = lines ∧ ∃ bytes, disk'.read session.store.cachePath = .ok bytes ∧
      disk''.read session.store.cachePath = .ok bytes := by
  rcases undisturbed with ⟨free, same⟩ | ⟨sheltered, shelves, overlooks, overlooks'⟩
  · exact scan_again begun free first same second
  · obtain ⟨place, shelf, -, -, -, own, entries, -, -⟩ := shelf_of_sheltered begun sheltered shelves
    have free : Cache.Unobstructed disk session.store.cachePath := by
      rw [own]
      exact Cache.unobstructed_of_linkless sheltered.toLinkless sheltered.home entries (by decide)
    obtain ⟨saved, -⟩ := (run_scan begun).mp first
    have after := congrArg Prod.snd saved
    dsimp only at after
    subst after
    exact scan_again begun free first (sight?_of_save begun sheltered shelves _ overlooks overlooks') second

/-- An invocation in the root of a disk without settings. -/
theorem begin?_top {cause : DiskError} (command : Command)
    (missing : disk.read (Settings.path ⟨"/"⟩) = .error cause) :
    (Invocation.mk "/" command).begin? disk [] = .ok (.start ⟨"/"⟩ (.defaults none) disk) := by
  refine begin?_eq_ok_iff.mpr ⟨⟨"/"⟩, ?_, ?_⟩
  · exact Disk.canonicalPath_eq_ok_iff.mpr ⟨[], .directory, disk.find?_top, by decide⟩
  · exact congrArg (Session.start ⟨"/"⟩ · disk) (Settings.load_of_missing missing none).symm

theorem scan_repeats_oneSource : ∃ disk' disk'' : Disk,
    run ⟨"/", .scan⟩ oneSource [] = (disk', .ok ["1 files, 1 definitions, 1 documents in index"]) ∧
    run ⟨"/", .scan⟩ disk' [] = (disk'', .ok ["1 files, 1 definitions, 1 documents in index"]) ∧
    ∃ bytes, disk'.read ⟨"/.asmdex/cache/symbols.json"⟩ = .ok bytes ∧
      disk''.read ⟨"/.asmdex/cache/symbols.json"⟩ = .ok bytes := by
  have begun : (Invocation.mk "/" .scan).begin? oneSource [] = .ok (.start ⟨"/"⟩ (.defaults none) oneSource) :=
    begin?_top .scan rfl
  have begun' (bytes : Text.Bytes) : (Invocation.mk "/" .scan).begin? (oneSource.withCache bytes) [] =
      .ok (.start ⟨"/"⟩ (.defaults none) (oneSource.withCache bytes)) := begin?_top .scan rfl
  have saved (snapshot : Snapshot) :
      (Cache.save ⟨"/.asmdex/cache/symbols.json"⟩ snapshot).run oneSource =
        (.ok (), oneSource.withCache (Cache.encode snapshot)) := rfl
  have saved' (snapshot : Snapshot) (bytes : Text.Bytes) :
      (Cache.save ⟨"/.asmdex/cache/symbols.json"⟩ snapshot).run (oneSource.withCache bytes) =
        (.ok (), oneSource.withCache (Cache.encode snapshot)) := rfl
  obtain ⟨snapshot, first⟩ : ∃ snapshot, run ⟨"/", .scan⟩ oneSource [] =
      (oneSource.withCache (Cache.encode snapshot),
        .ok ["1 files, 1 definitions, 1 documents in index"]) := by
    refine ⟨_, (run_scan begun).mpr ⟨saved _, ?_⟩⟩
    rw [Session.openings?_oneSource Disk.discover_oneSource rfl]
    decide +kernel
  have second := (run_scan (begun' (Cache.encode snapshot))).mpr ⟨saved' _ _, rfl⟩
  obtain ⟨overlooks, overlooks'⟩ := overlooks_of_defaults begun sheltered_oneSource rfl
  obtain ⟨same, bytes, read, read'⟩ := scan_repeats begun first second
    (Or.inr ⟨sheltered_oneSource, Settings.shelvesCache_defaults none, overlooks, overlooks' snapshot⟩)
  exact ⟨_, _, first, same ▸ second, bytes, read, read'⟩

/-- The second scan finds nothing, because the first one has made a directory on the way to the data of
the repository. -/
theorem scan_redirectedSource : ∃ disk' disk'' : Disk,
    redirectedSource.findFiles ⟨"/"⟩ (Settings.defaults none).patterns = .ok [⟨"/a.asm"⟩] ∧
    run ⟨"/", .scan⟩ redirectedSource [] = (disk', .ok ["1 files, 1 definitions, 1 documents in index"]) ∧
    run ⟨"/", .scan⟩ disk' [] = (disk'', .ok ["0 files, 0 definitions, 0 documents in index"]) := by
  have begun : (Invocation.mk "/" .scan).begin? redirectedSource [] =
      .ok (.start ⟨"/"⟩ (.defaults none) redirectedSource) := begin?_top .scan rfl
  have begun' (bytes : Text.Bytes) :
      (Invocation.mk "/" .scan).begin? (redirectedSource.withCache bytes) [] =
        .ok (.start ⟨"/"⟩ (.defaults none) (redirectedSource.withCache bytes)) := begin?_top .scan rfl
  have saved (snapshot : Snapshot) :
      (Cache.save ⟨"/.asmdex/cache/symbols.json"⟩ snapshot).run redirectedSource =
        (.ok (), redirectedSource.withCache (Cache.encode snapshot)) := rfl
  have saved' (snapshot : Snapshot) (bytes : Text.Bytes) :
      (Cache.save ⟨"/.asmdex/cache/symbols.json"⟩ snapshot).run (redirectedSource.withCache bytes) =
        (.ok (), redirectedSource.withCache (Cache.encode snapshot)) := rfl
  have listed : redirectedSource.findFiles ⟨"/"⟩ (Settings.defaults none).patterns =
      .ok [⟨"/a.asm"⟩] := by
    rw [Disk.findFiles_defaults, Disk.discover_redirectedSource]
    decide +kernel
  obtain ⟨snapshot, first⟩ : ∃ snapshot, run ⟨"/", .scan⟩ redirectedSource [] =
      (redirectedSource.withCache (Cache.encode snapshot),
        .ok ["1 files, 1 definitions, 1 documents in index"]) := by
    refine ⟨_, (run_scan begun).mpr ⟨saved _, ?_⟩⟩
    rw [Session.openings?_oneSource Disk.discover_redirectedSource rfl]
    decide +kernel
  have opened (bytes : Text.Bytes) :
      (Session.start ⟨"/"⟩ (.defaults none) (redirectedSource.withCache bytes)).openings? = some [] := by
    rw [Session.openings?_defaults, Disk.discover_redirectedSource_withCache]
    rfl
  refine ⟨_, _, listed, first, (run_scan (begun' _)).mpr ⟨saved' _ _, ?_⟩⟩
  let again := Session.start ⟨"/"⟩ (.defaults none) (redirectedSource.withCache (Cache.encode snapshot))
  obtain ⟨indexed, definitions, documents⟩ :=
    Session.ensureInitialized_none_found (show again.initialized = none from rfl) rfl rfl
  rw [opened, indexed, definitions, SymbolIndex.documentCount, documents]
  decide +kernel

end Invocation
end AssemblySymbols
