import AssemblySymbols.Proofs.Session.IncrementalRefresh
import AssemblySymbols.Proofs.Text.Encoding
import AssemblySymbols.Proofs.Workspace.Discovery
import AssemblySymbols.Session.Watch

/-! Which files the scan of a workspace takes and which the watch follows. Both pass over skipped
directories and take the extensions of the settings, but the patterns of discovery tell capitals from
small letters and the filter does not: a file with capitals in its extension is indexed as soon as it
changes, and is gone after the next start. -/
namespace AssemblySymbols

/-- The patterns are those of the extensions, which are words in small letters. -/
structure Settings.Matched (settings : Settings) : Prop where
  patterns : settings.patterns = (settings.extensions.map fun extension => '.' :: extension.toList).map
    fun word => String.ofList ("**/*".toList ++ word)
  plain : ∀ extension ∈ settings.extensions, ∀ c ∈ extension.toList,
    Glob.IsLiteral c ∧ c ≠ '.' ∧ c ≠ '/' ∧ c ≠ '\\'
  folded : ∀ extension ∈ settings.extensions, DocumentFilter.foldCase extension = extension

theorem Settings.matched_defaults (delayText? : Option String) : (defaults delayText?).Matched where
  patterns := by
    have both : ["**/*.asm", "**/*.inc"] = (["asm", "inc"].map fun extension =>
        '.' :: extension.toList).map fun word => String.ofList ("**/*".toList ++ word) := by decide
    exact both
  plain := by
    have both : (["asm", "inc"].all fun extension => extension.toList.all fun c =>
        Glob.IsLiteral c ∧ c ≠ '.' ∧ c ≠ '/' ∧ c ≠ '\\') = true := by decide
    intro extension member c inside
    exact of_decide_eq_true (List.all_eq_true.mp (List.all_eq_true.mp both extension member) c inside)
  folded := by
    have both : ∀ extension ∈ ["asm", "inc"], DocumentFilter.foldCase extension = extension := by decide
    exact both

theorem Settings.Matched.extensions {settings : Settings} (matched : settings.Matched) :
    (DocumentFilter.ofSettings settings).extensions = settings.extensions := by
  refine (List.map_congr_left fun extension member => ?_).trans (List.map_id' _)
  have undotted : extension.toList.dropWhile (· == '.') = extension.toList := by
    rw [List.dropWhile_eq_self_iff]
    intro filled dot
    exact (matched.plain extension member _ (List.getElem_mem filled)).2.1 (by simpa using dot)
  rw [undotted, String.ofList_toList, matched.folded extension member]

theorem Settings.Matched.literal {settings : Settings} (matched : settings.Matched) :
    ∀ word ∈ settings.extensions.map fun extension => '.' :: extension.toList,
      ∀ c ∈ word, Glob.IsLiteral c := by
  intro word member
  obtain ⟨extension, listed, rfl⟩ := List.mem_map.mp member
  exact List.forall_mem_cons.mpr ⟨⟨by decide, by decide, by decide⟩,
    fun c inside => (matched.plain extension listed c inside).1⟩

/-- A relative path ends in one of the extensions, as they are spelled in the settings. -/
def Settings.Matches (settings : Settings) (names : List String) : Prop :=
  ∃ word ∈ settings.extensions.map fun extension => '.' :: extension.toList,
    word <:+ (relativeText names).toList

/-- The extension, if there is one, has no capitals. -/
def Path.hasSmallExtension (path : Path) : Bool :=
  path.extension?.all fun extension => DocumentFilter.foldCase extension = extension

namespace DocumentFilter
variable {filter : DocumentFilter} {root : Path} {names : List String}

/-- A file below the root that the filter accepts and that is not in a skipped directory. -/
def IsSource (filter : DocumentFilter) (root : Path) (names : List String) : Prop :=
  filter.acceptsPath (names.foldl Path.child root) = true ∧
  ∀ name ∈ names.dropLast, name ∉ skippedDirectories

/-- No file that is called like a skipped directory has an extension. -/
theorem not_acceptsPath_of_skipped {path : Path} {name : String} (named : path.fileName? = some name)
    (skipped : name ∈ skippedDirectories) : filter.acceptsPath path = false := by
  have undotted : ∀ name ∈ skippedDirectories, '.' ∉ name.toList.tail := by decide
  have none : path.extension? = none := by
    by_contra other
    obtain ⟨extension, found⟩ := Option.ne_none_iff_exists'.mp other
    obtain ⟨-, stem, some_stem, spelled⟩ := (Path.extension?_eq_some_iff named).mp found
    refine undotted name skipped ?_
    rw [spelled, List.tail_append_of_ne_nil some_stem]
    simp
  rw [acceptsPath, none, Option.any_none]

theorem passesSkipped_descend (some_root : root.text.toList ≠ [])
    (named : ∀ name ∈ names, Path.IsFileName name) :
    passesSkipped (((names.foldl Path.child root).below? root).getD (names.foldl Path.child root)) =
      names.any skippedDirectories.contains := by
  have components := Path.components_descend some_root named
  have inside : root.components.isPrefixOf (names.foldl Path.child root).components := by
    rw [components, List.isPrefixOf_iff_prefix]
    exact List.prefix_append ..
  obtain ⟨rest, below, left⟩ := Path.components_below (Path.components_ne_nil some_root) inside
  rw [components, List.drop_left] at left
  rw [below, Option.getD_some, passesSkipped, left, List.any_map]
  rfl

/-- The watch follows the files that the filter accepts and that are not in a skipped directory. -/
theorem followsPath_iff (some_root : root.text.toList ≠ []) (some_names : names ≠ [])
    (named : ∀ name ∈ names, Path.IsFileName name) :
    filter.followsPath root (names.foldl Path.child root) = true ↔ filter.IsSource root names := by
  obtain ⟨front, last, rfl⟩ := (List.eq_nil_or_concat' names).resolve_left some_names
  rw [followsPath, passesSkipped_descend some_root named, IsSource, List.dropLast_concat,
    List.any_append, Bool.and_eq_true]
  refine and_congr_right fun accepted => ?_
  have unskipped : last ∉ skippedDirectories := by
    intro skipped
    rw [not_acceptsPath_of_skipped (Path.fileName?_descend some_root named) skipped] at accepted
    exact absurd accepted Bool.false_ne_true
  simp [unskipped]

/-- A file that the filter accepts matches a pattern if its extension has no capitals. -/
theorem matches_iff {settings : Settings} (matched : settings.Matched)
    (some_root : root.text.toList ≠ []) (some_names : names ≠ [])
    (named : ∀ name ∈ names, Path.IsFileName name)
    (accepted : (ofSettings settings).acceptsPath (names.foldl Path.child root) = true) :
    settings.Matches names ↔ (names.foldl Path.child root).hasSmallExtension = true := by
  obtain ⟨front, last, rfl⟩ := (List.eq_nil_or_concat' names).resolve_left some_names
  obtain ⟨own, found, folds⟩ := (Option.any_eq_true ..).mp accepted
  rw [matched.extensions, List.contains_iff_mem] at folds
  have ends (extension : String) (member : extension ∈ settings.extensions) :
      '.' :: extension.toList <:+ (relativeText (front ++ [last])).toList ↔ own = extension := by
    have plain := matched.plain extension member
    have undotted : '.' ∉ extension.toList := fun dot => (plain _ dot).2.1 rfl
    have solid : '/' ∉ '.' :: extension.toList := by
      simpa using fun slash => (plain _ slash).2.2.1 rfl
    have straight : '\\' ∉ '.' :: extension.toList := by
      simpa using fun slash => (plain _ slash).2.2.2 rfl
    rw [suffix_relativeText solid straight,
      Path.suffix_iff_of_extension? (Path.fileName?_descend some_root named) found undotted,
      String.toList_inj]
  rw [Path.hasSmallExtension, found, Option.all_some, decide_eq_true_iff]
  simp only [Settings.Matches, List.mem_map, exists_exists_and_eq_and]
  constructor
  · rintro ⟨extension, member, matching⟩
    rw [(ends extension member).mp matching]
    exact matched.folded extension member
  · intro small
    rw [small] at folds
    exact ⟨own, folds, (ends own folds).mpr rfl⟩

end DocumentFilter

namespace Disk
variable {disk : Disk} {root : Path} {place : Place} {names : List String} {bytes : Text.Bytes}

/-- A directory with what is below it, where no ignore file counts for any file. -/
structure PlainTree (disk : Disk) (root : Path) (place : Place) : Prop where
  tree : disk.IsTree
  found : disk.find? root = .ok (place, .directory)
  solid : disk.Solid place
  unruled : ∀ names ∈ disk.filesBelow place, ∀ directory ∈ Place.above (place ++ names),
    disk.Unruled directory

/-- The path is that of a file below the root that no skipped directory is above and that has an
extension of the settings, spelled as it is there. -/
def Discovers (disk : Disk) (settings : Settings) (root : Path) (place : Place) (path : Path) : Prop :=
  ∃ names ∈ disk.filesBelow place, (∀ name ∈ names.dropLast, name ∉ skippedDirectories) ∧
    settings.Matches names ∧ names.foldl Path.child root = path

/-- The text of the file at a path, if it can be opened. -/
def text? (disk : Disk) (path : Path) : Option String :=
  (disk.openDocument path).toOption.map Document.text

theorem opening_eq (disk : Disk) (path : Path) : disk.opening path = .plain disk.text? path := by
  unfold opening Session.Opening.plain text? openDocument
  cases disk.read path <;> rfl

namespace PlainTree

theorem some_root (tree : disk.PlainTree root place) : root.text.toList ≠ [] :=
  (resolve_eq_ok_iff.mp (resolve_of_find? tree.found)).2.1

theorem named (tree : disk.PlainTree root place)
    (file : disk.node? (place ++ names) = some (.file bytes)) :
    names ≠ [] ∧ ∀ name ∈ names, Path.IsFileName name := by
  obtain ⟨some_names, -, named⟩ := tree.tree.file_below tree.solid file
  exact ⟨some_names, fun name member => (named name member).toIsFileName⟩

theorem text?_file (tree : disk.PlainTree root place)
    (file : disk.node? (place ++ names) = some (.file bytes))
    (fits : (names.foldl Path.child root).text.utf8ByteSize ≤ pathLimit) :
    disk.text? (names.foldl Path.child root) = some (String.ofList (Text.decodeLossy bytes)) := by
  obtain ⟨-, solid, named⟩ := tree.tree.file_below tree.solid file
  rw [text?, openDocument, read_descend tree.found named fits solid file]
  rfl

/-- The scan of a new session opens what is to be discovered. -/
theorem openings?_start (tree : disk.PlainTree root place) {settings : Settings}
    (matched : settings.Matched) :
    ∃ files : List Path,
      (Session.start root settings disk).openings? = some (files.map (.plain disk.text?)) ∧
      ∀ file, file ∈ files ↔ disk.Discovers settings root place file := by
  obtain ⟨files, discovered, listed⟩ := mem_findFiles tree.found matched.literal
  rw [← matched.patterns] at discovered
  refine ⟨files, ?_, fun file => (listed file).trans ?_⟩
  · let fresh := Session.start root settings disk
    have found : fresh.disk.findFiles fresh.root fresh.settings.patterns = .ok files := discovered
    rw [Session.openings?, found]
    exact congrArg some (List.map_congr_left fun path _ => opening_eq disk path)
  · refine exists_congr fun names => and_congr_right fun member => ?_
    rw [reaches_iff (tree.unruled names member), Settings.Matches]

/-- A file that is to be followed is discovered only if its extension has no capitals. -/
theorem discovers_iff (tree : disk.PlainTree root place) {settings : Settings}
    (matched : settings.Matched) (file : disk.node? (place ++ names) = some (.file bytes))
    (source : (DocumentFilter.ofSettings settings).IsSource root names) :
    disk.Discovers settings root place (names.foldl Path.child root) ↔
      (names.foldl Path.child root).hasSmallExtension = true := by
  obtain ⟨accepted, unskipped⟩ := source
  constructor
  · rintro ⟨others, below, -, matching, same⟩
    obtain ⟨_, file'⟩ := (mem_filesBelow tree.tree).mp below
    obtain ⟨some_names, named⟩ := tree.named file'
    rw [← same] at accepted ⊢
    exact (DocumentFilter.matches_iff matched tree.some_root some_names named accepted).mp matching
  · intro small
    obtain ⟨some_names, named⟩ := tree.named file
    exact ⟨names, (mem_filesBelow tree.tree).mpr ⟨bytes, file⟩, unskipped,
      (DocumentFilter.matches_iff matched tree.some_root some_names named accepted).mpr small, rfl⟩

/-- Conversely, what is discovered and accepted is to be followed. -/
theorem source_of_discovers (tree : disk.PlainTree root place) {settings : Settings}
    (matched : settings.Matched) {path : Path} (found : disk.Discovers settings root place path)
    (accepted : (DocumentFilter.ofSettings settings).acceptsPath path = true) :
    ∃ names bytes, disk.node? (place ++ names) = some (.file bytes) ∧
      (DocumentFilter.ofSettings settings).IsSource root names ∧
      (names.foldl Path.child root).hasSmallExtension = true ∧ names.foldl Path.child root = path := by
  obtain ⟨names, below, unskipped, matching, rfl⟩ := found
  obtain ⟨bytes, file⟩ := (mem_filesBelow tree.tree).mp below
  obtain ⟨some_names, named⟩ := tree.named file
  exact ⟨names, bytes, file, ⟨accepted, unskipped⟩,
    (DocumentFilter.matches_iff matched tree.some_root some_names named accepted).mp matching, rfl⟩

end PlainTree
end Disk

namespace Watch
variable {session : Session} {disk : Disk} {root path : Path} {settings : Settings} {stopped : Bool}

/-- A change of one file, followed by a pause. -/
theorem settle_changed (session : Session) (path : Path) :
    ((start session).receive (.changed [path])).settle.session =
      if session.filter.followsPath session.root path then (session.refreshPath path).1 else session := by
  unfold start receive settle FileEvent.followedPaths FileEvent.changedPaths
  cases followed : session.filter.followsPath session.root path <;> simp [followed, note]

theorem settle_unfollowed (around : session.surroundings = ⟨root, settings, stopped, disk⟩)
    (unfollowed : ¬ (DocumentFilter.ofSettings settings).followsPath root path = true) :
    ((start session).receive (.changed [path])).settle.session = session := by
  cases around
  exact (settle_changed session path).trans (if_neg unfollowed)

theorem document?_settle_followed (around : session.surroundings = ⟨root, settings, stopped, disk⟩)
    (unhosted : session.hostDocuments = [])
    (followed : (DocumentFilter.ofSettings settings).followsPath root path = true) :
    let touched := ((start session).receive (.changed [path])).settle.session
    touched.index.document? path.text = (disk.text? path).map .ofText ∧
    ∀ uri, uri ≠ path.text → touched.index.document? uri = session.index.document? uri := by
  cases around
  have accepted : session.filter.acceptsPath path = true := (Bool.and_eq_true_iff.mp followed).1
  have settled : ((start session).receive (.changed [path])).settle.session =
      (session.refresh (.plain session.disk.text? path)).1 := by
    rw [← session.disk.opening_eq]
    exact (settle_changed session path).trans (if_pos followed)
  obtain ⟨-, -, documents⟩ := session.refresh_plain session.disk.text? unhosted path
  rw [settled]
  refine ⟨?_, fun uri other => ?_⟩
  · rw [documents, if_pos ⟨rfl, accepted⟩, DocumentFilter.tableOf?, if_pos accepted]
  · rw [documents, if_neg fun own => other own.1]

end Watch

namespace Session
variable {disk : Disk} {root : Path} {place : Place} {names : List String} {bytes : Text.Bytes}
  {settings : Settings}

/-- A session over the files on disk, after its initialization. -/
def opened (root : Path) (settings : Settings) (disk : Disk) : Session :=
  ((start root settings disk).ensureInitialized (start root settings disk).openings?).1

theorem opened_plain (tree : disk.PlainTree root place) (matched : settings.Matched) :
    (opened root settings disk).surroundings = ⟨root, settings, false, disk⟩ ∧
    (opened root settings disk).hostDocuments = [] ∧
    ∃ files : List Path, (∀ file, file ∈ files ↔ disk.Discovers settings root place file) ∧
      ∀ uri, (opened root settings disk).index.document? uri =
        if ⟨uri⟩ ∈ files ∧ (disk.text? ⟨uri⟩).isSome then
          ((DocumentFilter.ofSettings settings).tableOf? disk.text? ⟨uri⟩).or
            ((start root settings disk).warmStart.index.document? uri)
        else none := by
  obtain ⟨files, found, listed⟩ := tree.openings?_start matched
  rw [opened, found]
  obtain ⟨hosted, documents⟩ :=
    (start root settings disk).ensureInitialized_plain disk.text? rfl rfl rfl files
  exact ⟨surroundings_ensureInitialized_plain .., hosted, files, listed, documents⟩

theorem document?_opened (tree : disk.PlainTree root place) (matched : settings.Matched)
    (file : disk.node? (place ++ names) = some (.file bytes))
    (source : (DocumentFilter.ofSettings settings).IsSource root names) :
    (opened root settings disk).index.document? (names.foldl Path.child root).text =
      if (names.foldl Path.child root).hasSmallExtension then
        (disk.text? (names.foldl Path.child root)).map .ofText
      else none := by
  obtain ⟨-, -, files, listed, documents⟩ := opened_plain tree matched
  rw [documents, DocumentFilter.tableOf?, if_pos source.1]
  simp only [(listed _).trans (tree.discovers_iff matched file source)]
  cases disk.text? (names.foldl Path.child root) <;> simp

theorem document?_opened_cold (tree : disk.PlainTree root place) (matched : settings.Matched)
    {cause : DiskError} (noCache : disk.read (settings.cachePath root) = .error cause)
    {uri : String} {table : SymbolTable} :
    (opened root settings disk).index.document? uri = some table ↔
      ∃ names bytes, disk.node? (place ++ names) = some (.file bytes) ∧
        (DocumentFilter.ofSettings settings).IsSource root names ∧
        (names.foldl Path.child root).hasSmallExtension = true ∧
        names.foldl Path.child root = ⟨uri⟩ ∧ (disk.text? ⟨uri⟩).map .ofText = some table := by
  constructor
  · intro indexed
    obtain ⟨-, -, files, listed, documents⟩ := opened_plain tree matched
    have absent : (start root settings disk).warmStart.index.document? uri = none := by
      rw [warmStart_start noCache]
      rfl
    rw [documents, absent, Option.or_none] at indexed
    split at indexed
    · next found =>
      rw [DocumentFilter.tableOf?] at indexed
      split at indexed
      · next accepted =>
        obtain ⟨names, bytes, file, source, small, path⟩ :=
          tree.source_of_discovers matched ((listed _).mp found.1) accepted
        exact ⟨names, bytes, file, source, small, path, indexed⟩
      · cases indexed
    · cases indexed
  · rintro ⟨names, bytes, file, source, small, path, opens⟩
    have indexed := document?_opened tree matched file source
    rwa [if_pos small, path, opens] at indexed

/-- Where links and ignore files have no part, the watch follows a file below the root if and only if
the filter accepts it and no directory between is skipped. As soon as such a file changes, it is in the
index with its text; the next start has it there only if its extension has no capitals, whatever a cache
says. Without a cache the start indexes no other files. -/
theorem scan_agrees_with_watch (tree : disk.PlainTree root place) (delayText? : Option String) :
    let settings := Settings.defaults delayText?
    let filter := DocumentFilter.ofSettings settings
    let session := opened root settings disk
    (∀ names bytes, disk.node? (place ++ names) = some (.file bytes) →
      let path := names.foldl Path.child root
      let touched := ((Watch.start session).receive (.changed [path])).settle.session
      (path.text.utf8ByteSize ≤ Disk.pathLimit →
        disk.text? path = some (String.ofList (Text.decodeLossy bytes))) ∧
      (filter.IsSource root names →
        touched.index.document? path.text = (disk.text? path).map .ofText ∧
        (∀ uri, uri ≠ path.text → touched.index.document? uri = session.index.document? uri) ∧
        session.index.document? path.text =
          if path.hasSmallExtension then (disk.text? path).map .ofText else none) ∧
      (¬ filter.IsSource root names → touched = session)) ∧
    ∀ cause, disk.read (settings.cachePath root) = .error cause →
      ∀ uri table, session.index.document? uri = some table ↔
        ∃ names bytes, disk.node? (place ++ names) = some (.file bytes) ∧
          filter.IsSource root names ∧ (names.foldl Path.child root).hasSmallExtension = true ∧
          names.foldl Path.child root = ⟨uri⟩ ∧ (disk.text? ⟨uri⟩).map .ofText = some table := by
  intro settings filter session
  have matched := Settings.matched_defaults delayText?
  obtain ⟨around, hosted, -⟩ := opened_plain tree matched
  refine ⟨fun names bytes file => ?_,
    fun cause noCache uri table => document?_opened_cold tree matched noCache⟩
  intro path touched
  obtain ⟨some_names, named⟩ := tree.named file
  have followed := filter.followsPath_iff tree.some_root some_names named
  refine ⟨tree.text?_file file, fun source => ?_, fun other => ?_⟩
  · obtain ⟨own, others⟩ := Watch.document?_settle_followed around hosted (followed.mpr source)
    exact ⟨own, others, document?_opened tree matched file source⟩
  · exact Watch.settle_unfollowed around (mt followed.mp other)

/-- Two files in the root of a disk, one with capitals in its extension. -/
def twoSources : Disk where
  nodes := [(["a.asm"], .file (Text.encode "start:".toList)),
    (["B.INC"], .file (Text.encode "size = 1".toList))]
  home := []

theorem plainTree_twoSources : twoSources.PlainTree ⟨"/"⟩ [] where
  tree := Disk.isTree_of_entries (by decide) (by decide +kernel)
  found := rfl
  solid := Disk.solid_nil _
  unruled := by
    have alone : twoSources.Unruled [] :=
      ⟨by decide +kernel, by decide +kernel, by decide +kernel⟩
    have topmost : ∀ names ∈ twoSources.filesBelow [], Place.above ([] ++ names) = [[]] := by decide
    intro names member directory above
    rw [topmost names member, List.mem_singleton] at above
    rwa [above]

/-- The file with capitals is indexed when it changes, and the other one from the start. -/
theorem scan_agrees_with_watch_capitals :
    let session := opened ⟨"/"⟩ (.defaults none) twoSources
    let touched := ((Watch.start session).receive (.changed [⟨"/B.INC"⟩])).settle.session
    session.index.document? "/a.asm" = some (.ofText "start:") ∧
    session.index.document? "/B.INC" = none ∧
    touched.index.document? "/B.INC" = some (.ofText "size = 1") := by
  intro session touched
  have agree := (scan_agrees_with_watch plainTree_twoSources none).1
  have smallPath : ["a.asm"].foldl Path.child ⟨"/"⟩ = ⟨"/a.asm"⟩ := by decide +kernel
  have capitalPath : ["B.INC"].foldl Path.child ⟨"/"⟩ = ⟨"/B.INC"⟩ := by decide +kernel
  obtain ⟨smallText, small, -⟩ := agree ["a.asm"] _ rfl
  obtain ⟨capitalText, capital, -⟩ := agree ["B.INC"] _ rfl
  have smallSource : (DocumentFilter.ofSettings (.defaults none)).IsSource ⟨"/"⟩ ["a.asm"] :=
    ⟨by decide +kernel, fun name => nofun⟩
  have capitalSource : (DocumentFilter.ofSettings (.defaults none)).IsSource ⟨"/"⟩ ["B.INC"] :=
    ⟨by decide +kernel, fun name => nofun⟩
  obtain ⟨-, -, scanned⟩ := small smallSource
  obtain ⟨followed, -, unscanned⟩ := capital capitalSource
  rw [smallText (by decide +kernel), Text.decodeLossy_encode, String.ofList_toList, smallPath,
    if_pos (by decide +kernel)] at scanned
  rw [capitalText (by decide +kernel), Text.decodeLossy_encode, String.ofList_toList,
    capitalPath] at followed
  rw [capitalPath, if_neg (by decide +kernel)] at unscanned
  exact ⟨scanned, unscanned, followed⟩

end Session
end AssemblySymbols
