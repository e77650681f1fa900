import AssemblySymbols.Proofs.Command.ShelteredCaches
import AssemblySymbols.Proofs.Session.DefinitionSites

/-! What the command for a name prints can be given to the command for a place. The path that is printed
leads back to the file, line and column to the name that is defined there, and the query of that name to
the place that it came from. -/
namespace AssemblySymbols

/-! Printed places. -/

theorem eq_of_append_last {α : Type} {c : α} {front front' rest rest' : List α} (solid : c ∉ rest)
    (solid' : c ∉ rest') (same : front ++ c :: rest = front' ++ c :: rest') :
    front = front' ∧ rest = rest' := by
  rcases List.append_eq_append_iff.mp same with ⟨between, longer, split⟩ | ⟨between, longer, split⟩
  · cases between with
    | nil => exact ⟨(List.append_nil front ▸ longer).symm, (List.cons.inj split).2⟩
    | cons first more => exact absurd (by simp [(List.cons.inj split).2]) solid
  · cases between with
    | nil => exact ⟨List.append_nil front' ▸ longer, (List.cons.inj split).2.symm⟩
    | cons first more => exact absurd (by simp [(List.cons.inj split).2]) solid'

theorem toList_toString (n : UInt32) : (toString n).toList = Nat.toDigits 10 n.toNat :=
  Json.toString_toList n.toNat

theorem colon_not_mem_toString (n : UInt32) : ':' ∉ (toString n).toList := by
  intro member
  have digit := Json.isDigit_of_mem_toDigits (toList_toString n ▸ member)
  contradiction

/-- A place that is printed is that of one path, line and column only. -/
theorem place_inj {path path' : String} {line line' column column' : UInt32}
    (same : path ++ ":" ++ toString line ++ ":" ++ toString column =
      path' ++ ":" ++ toString line' ++ ":" ++ toString column') :
    path = path' ∧ line = line' ∧ column = column' := by
  have number {m n : UInt32} (same : (toString m).toList = (toString n).toList) : m = n := by
    rw [toList_toString, toList_toString] at same
    have read := congrArg (Nat.ofDigitChars 10 · 0) same
    exact UInt32.toNat_inj.mp (by simpa using read)
  have cut (path : String) (line column : UInt32) :
      (path ++ ":" ++ toString line ++ ":" ++ toString column).toList =
        (path.toList ++ ':' :: (toString line).toList) ++ ':' :: (toString column).toList := by
    simp
  have spelled := congrArg String.toList same
  rw [cut, cut] at spelled
  obtain ⟨front, columns⟩ :=
    eq_of_append_last (colon_not_mem_toString column) (colon_not_mem_toString column') spelled
  obtain ⟨paths, lines⟩ :=
    eq_of_append_last (colon_not_mem_toString line) (colon_not_mem_toString line') front
  exact ⟨String.toList_inj.mp paths, number lines, number columns⟩

/-- A printed place is that of a site. -/
theorem mem_siteLines {root : Path} {sites : List Site} {path : String} {line column : UInt32}
    (printed : path ++ ":" ++ toString line ++ ":" ++ toString column ∈ siteLines root sites) :
    ∃ site ∈ sites, (Path.relativeTo? ⟨site.uri⟩ root).getD site.uri = path ∧
      site.span.start.line + 1 = line ∧ site.span.start.character + 1 = column := by
  unfold siteLines at printed
  split at printed
  · have colon : ':' ∈ "no definition".toList := by
      rw [← List.mem_singleton.mp printed]
      simp
    contradiction
  · obtain ⟨site, member, text⟩ := List.mem_map.mp printed
    exact ⟨site, member, place_inj text⟩

theorem text_mem_siteLines {root : Path} {sites : List Site} {site : Site} (member : site ∈ sites) :
    site.text root ∈ siteLines root sites := by
  unfold siteLines
  rw [if_neg (by simpa using List.ne_nil_of_mem member)]
  exact List.mem_map_of_mem member

/-! Files that are found. -/

namespace Disk
variable {disk : Disk} {root path : Path} {place : Place} {names : List String} {text : String}

/-- The files below a directory have names without backslashes and texts whose places can be counted. -/
structure Legible (disk : Disk) (directory : Place) : Prop where
  straight : ∀ names ∈ disk.filesBelow directory, ∀ name ∈ names, '\\' ∉ name.toList
  countable : ∀ names bytes, disk.node? (directory ++ names) = some (.file bytes) →
    Countable (String.ofList (Text.decodeLossy bytes))

theorem text?_eq_some_iff : disk.text? path = some text ↔
    disk.openDocument path = .ok ⟨path.text, none, text⟩ := by
  unfold text? openDocument
  cases disk.read path with
  | error => simp [bind, Except.bind, Except.toOption]
  | ok bytes => simp [bind, Except.bind, Except.toOption, pure, Except.pure]

/-- A path that discovery comes to with patterns for extensions is that of a file below a directory. -/
theorem below_of_discovered (disk : Disk) (root : Path) {settings : Settings}
    (matched : settings.Matched) :
    ∃ paths, disk.findFiles root settings.patterns = .ok paths ∧ ∀ path ∈ paths,
      ∃ place names, disk.find? root = .ok (place, .directory) ∧ names ∈ disk.filesBelow place ∧
        names ≠ [] ∧ names.foldl Path.child root = path := by
  refine ⟨_, matched.patterns ▸ findFiles_eq root matched.literal, fun path member => ?_⟩
  obtain ⟨names, found, rfl⟩ := List.mem_map.mp member
  have some_names (accepted : ((settings.extensions.map fun extension =>
      '.' :: extension.toList).map Glob.anywhere).any (·.accepts (relativeText names)) = true) :
      names ≠ [] := by
    rintro rfl
    obtain ⟨glob, listed, accepts⟩ := List.any_eq_true.mp accepted
    obtain ⟨word, spelled, rfl⟩ := List.mem_map.mp listed
    obtain ⟨extension, -, rfl⟩ := List.mem_map.mp spelled
    have ends := Glob.accepts_anywhere.mp accepts
    simp [relativeText] at ends
  unfold discover at found
  cases stands : disk.find? root with
  | error => simp [stands] at found
  | ok there =>
    obtain ⟨place, node⟩ := there
    cases node with
    | directory =>
      simp only [stands, List.mem_mergeSort, List.mem_filter, Bool.and_eq_true] at found
      exact ⟨place, names, rfl, found.1, some_names found.2.2, rfl⟩
    | file | link =>
      simp only [stands, List.mem_filter, List.mem_singleton] at found
      exact absurd found.1 (some_names found.2)

namespace IsTree

/-- Directories lead to a file below a place, unless it is the place itself. -/
theorem way_below (tree : disk.IsTree) (below : names ∈ disk.filesBelow place) (some_names : names ≠ []) :
    ∃ bytes, disk.node? (place ++ names) = some (.file bytes) ∧
      disk.Solid (place ++ names.dropLast) ∧ ∀ name ∈ names, IsEntryName name := by
  obtain ⟨bytes, file⟩ := (mem_filesBelow tree).mp below
  obtain ⟨front, last, rfl⟩ := (List.eq_nil_or_concat' names).resolve_left some_names
  rw [← List.append_assoc] at file
  obtain ⟨solid, own⟩ := tree.inside _ _ (by rw [file]; rfl)
  rw [List.dropLast_concat]
  refine ⟨bytes, List.append_assoc place front [last] ▸ file, solid, fun name member => ?_⟩
  rcases List.mem_append.mp member with before | same
  · exact tree.named solid name (List.mem_append_right _ before)
  · rwa [List.mem_singleton.mp same]

/-- What is printed of a file that is found leads back to the file. -/
theorem relativeTo?_below (tree : disk.IsTree) (found : disk.find? root = .ok (place, .directory))
    (legible : disk.Legible place) (below : names ∈ disk.filesBelow place) (some_names : names ≠ []) :
    ∃ relative, (names.foldl Path.child root).relativeTo? root = some relative ∧
      root.child relative = names.foldl Path.child root := by
  obtain ⟨-, -, -, named⟩ := tree.way_below below some_names
  have fileNames : ∀ name ∈ names, Path.IsFileName name := fun name member =>
    (named name member).toIsFileName
  have some_root := (resolve_eq_ok_iff.mp (resolve_of_find? found)).2.1
  refine ⟨"/".intercalate names, ?_, Path.child_intercalate some_root fileNames some_names⟩
  have straight : '\\' ∉ ("/".intercalate names).toList := by
    intro member
    rcases Path.mem_intercalate_slash member with slash | ⟨name, listed, inside⟩
    · contradiction
    · exact legible.straight names below name listed inside
  rw [Path.relativeTo?, Path.below?_descend some_root fileNames some_names, Option.map_some,
    Option.some_inj, ← String.toList_inj, String.toList_map]
  refine (List.map_congr_left fun c member => if_neg ?_).trans (List.map_id' _)
  rintro rfl
  exact straight member

theorem countable_below (tree : disk.IsTree) (found : disk.find? root = .ok (place, .directory))
    (legible : disk.Legible place) (below : names ∈ disk.filesBelow place) (some_names : names ≠ [])
    (opened : disk.text? (names.foldl Path.child root) = some text) : Countable text := by
  obtain ⟨bytes, file, solid, named⟩ := tree.way_below below some_names
  rw [text?_eq_some_iff, openDocument] at opened
  cases read : disk.read (names.foldl Path.child root) with
  | error => simp [read, bind, Except.bind] at opened
  | ok bytes' =>
    have fits : (names.foldl Path.child root).text.utf8ByteSize ≤ pathLimit := by
      rw [Disk.read] at read
      cases stands : disk.find? (names.foldl Path.child root) with
      | error => simp [stands, bind, Except.bind] at read
      | ok there => exact (resolve_eq_ok_iff.mp (resolve_of_find? stands)).2.2.1
    have same := (read_descend found named fits solid file).symm.trans read
    cases same
    simp [read, bind, Except.bind, pure, Except.pure] at opened
    exact opened ▸ legible.countable names bytes file

end IsTree
end Disk

namespace Session

theorem disk_shutdown (session : Session) : session.shutdown.disk =
    if session.store.isPending then
      ((Cache.save session.store.cachePath session.index.snapshot).run session.disk).2
    else session.disk := by
  unfold shutdown CachedIndex.flush
  split <;> rfl

variable {session again : Session} {disk disk' : Disk} {root : Path} {settings : Settings} {uri text : String}

/-- What a first look at the files has found is found again by one that sees the same. -/
theorem text?_of_openings (same : again.openings? = session.openings?) {paths : List Path}
    (openings : session.openings? = some (paths.map (.plain session.disk.text?)))
    {path : Path} (listed : path ∈ paths) : again.disk.text? path = session.disk.text? path := by
  obtain ⟨discovered, openings'⟩ := again.openings?_eq
  cases discovered with
  | none => simp [openings', plainly, openings] at same
  | some paths' =>
    rw [openings', plainly, openings, Option.map_some, Option.some_inj] at same
    obtain ⟨path', -, alike⟩ := List.mem_map.mp (same ▸ List.mem_map_of_mem listed)
    have own : path' = path := congrArg Opening.path alike
    have document := congrArg Opening.document alike
    subst own
    have injective : Function.Injective fun text => (⟨path'.text, none, text⟩ : Document) := by
      intro one other
      exact congrArg Document.text
    exact Option.map_injective injective document

/-- Without a cache, a query leads to definitions in files that have been found, accepted and read. -/
theorem definedOn_of_start {cause : DiskError} (noCache : disk.read (settings.cachePath root) = .error cause)
    {paths : List Path} {query : String} {site : Site}
    (member : site ∈ ((start root settings disk).ensureInitialized
      (some (paths.map (.plain disk.text?)))).1.index.definitionsOf query) :
    ⟨site.uri⟩ ∈ paths ∧ (DocumentFilter.ofSettings settings).acceptsPath ⟨site.uri⟩ = true ∧
    ∃ text, disk.text? ⟨site.uri⟩ = some text ∧
      ∃ number line definition, DefinedOn text number line definition site.span := by
  let first := start root settings disk
  have coherent := (first.leadsTo_ensureInitialized (some (paths.map (.plain disk.text?)))).coherent
    SymbolIndex.coherent_empty
  obtain ⟨table, part, key, indexed, stands⟩ := coherent.document?_of_mem_definitionsOf member
  obtain ⟨-, documents⟩ := first.ensureInitialized_plain disk.text? rfl rfl rfl paths
  have absent : first.warmStart.index.document? site.uri = none := by
    rw [warmStart_start noCache]
    rfl
  rw [documents, absent, Option.or_none, DocumentFilter.tableOf?] at indexed
  by_cases found : ⟨site.uri⟩ ∈ paths ∧ (disk.text? ⟨site.uri⟩).isSome = true
  · by_cases accepted : first.filter.acceptsPath ⟨site.uri⟩ = true
    · rw [if_pos found, if_pos accepted] at indexed
      obtain ⟨text, opened, rfl⟩ := Option.map_eq_some_iff.mp indexed
      exact ⟨found.1, accepted, text, opened, SymbolTable.definedOn_of_mem_spansOf stands⟩
    · rw [if_pos found, if_neg accepted] at indexed
      contradiction
  · rw [if_neg found] at indexed
    contradiction

/-- The site of a definition in a file that has been found can be asked for. -/
theorem runAt_site (fresh : session.initialized = none) (running : session.stopped = false)
    (free : session.hostDocuments = []) (coherent : session.index.Coherent)
    {paths : List Path} (openings : session.openings? = some (paths.map (.plain session.disk.text?)))
    (listed : ⟨uri⟩ ∈ paths) (accepted : session.filter.acceptsPath ⟨uri⟩ = true)
    (opened : session.disk.text? ⟨uri⟩ = some text) (countable : Countable text)
    {number : Nat} {written : List Char} {definition : LineDefinition} {span : Span}
    (defined : DefinedOn text number written definition span)
    {file : String} (path : session.root.child file = ⟨uri⟩) :
    let line := span.start.line + 1
    let column := span.start.character + 1
    ∃ rest, (session.runAt file line column).2 =
        .ok ((definition.name ++ " (" ++ toString line ++ ":" ++ toString column ++ "-" ++
          toString (span.stop.character + 1) ++ ")") :: rest) ∧
      Site.text session.root ⟨uri, span⟩ ∈ rest := by
  intro line column
  obtain ⟨numbered, few, short, -⟩ := defined.bounds countable
  have counted (n : UInt32) (small : n.toNat + 1 < UInt32.size) : n + 1 ≠ 0 := by
    intro zero
    have wrapped := congrArg UInt32.toNat zero
    rw [UInt32.toNat_add, UInt32.toNat_one, UInt32.toNat_zero, Nat.mod_eq_of_lt small] at wrapped
    omega
  have place : (⟨line - 1, column - 1⟩ : Position) = span.start := by
    simp only [line, column, UInt32.add_sub_cancel]
  let settled := (session.ensureInitialized session.openings?).1
  have index : settled.index.Coherent := (session.leadsTo_ensureInitialized _).coherent coherent
  have root : settled.root = session.root := by
    simp only [settled, openings]
    exact congrArg Surroundings.root (session.surroundings_ensureInitialized_plain _ paths)
  have indexed : settled.index.document? uri = some (.ofText text) := by
    simp only [settled, openings]
    obtain ⟨-, documents⟩ := session.ensureInitialized_plain session.disk.text? fresh running free paths
    rw [documents, if_pos ⟨listed, by rw [opened]; rfl⟩, DocumentFilter.tableOf?, if_pos accepted, opened]
    rfl
  refine ⟨siteLines session.root (settled.index.definitionsOf definition.name), ?_, ?_⟩
  · rw [runAt, if_neg (by simp [line, column, counted _ (numbered ▸ few), counted _ short]), path,
      Disk.text?_eq_some_iff.mp opened]
    simp only [place, definitionsAt, defined.identifierIn? countable, definitionsOf]
    have again : line - 1 + 1 = line := UInt32.sub_add_cancel line 1
    rw [if_neg Bool.false_ne_true, Identifier.text, again,
      show (session.ensureInitialized session.openings?).1.root = session.root from root]
  · exact text_mem_siteLines (defined.mem_definitionsOf index indexed)

end Session

namespace Disk

theorem legible_oneSource {place : Place} (found : oneSource.find? ⟨"/"⟩ = .ok (place, .directory)) :
    oneSource.Legible place := by
  cases found.symm.trans oneSource.find?_top
  refine ⟨by decide +kernel, fun names bytes file => ?_⟩
  cases names with
  | nil => simp [node?] at file
  | cons name rest =>
    obtain ⟨-, own⟩ := Prod.mk.inj (List.mem_singleton.mp (mem_of_lookup file))
    rw [Node.file.inj own, Text.decodeLossy_encode]
    exact ⟨by decide +kernel, by decide +kernel⟩

end Disk

namespace Invocation

theorem run_goto {root name : String} {disk : Disk} {environment : Environment} {session : Session}
    (begun : (Invocation.mk root (.goto name)).begin? disk environment = .ok session) :
    let settled := (session.ensureInitialized session.openings?).1
    run ⟨root, .goto name⟩ disk environment =
      (settled.shutdown.disk, .ok (siteLines settled.root (settled.index.definitionsOf name))) := by
  intro settled
  rw [run, begun]
  rfl

theorem run_at {root file : String} {line column : UInt32} {disk : Disk} {environment : Environment}
    {session : Session}
    (begun : (Invocation.mk root (.at file line column)).begin? disk environment = .ok session) :
    (run ⟨root, .at file line column⟩ disk environment).2 = (session.runAt file line column).2 := by
  rw [run, begun]
  rfl

/-- All that a query leaves on the disk is a save, if there is one. -/
theorem disk_run_goto {root name : String} {disk : Disk} {environment : Environment} {session : Session}
    (begun : (Invocation.mk root (.goto name)).begin? disk environment = .ok session) :
    (run ⟨root, .goto name⟩ disk environment).1 = disk ∨ ∃ snapshot,
      (run ⟨root, .goto name⟩ disk environment).1 =
        ((Cache.save session.store.cachePath snapshot).run disk).2 := by
  obtain ⟨kept, cachePath⟩ := disk_ensureInitialized begun
  rw [run_goto begun, Session.disk_shutdown, kept, cachePath]
  split
  · exact Or.inr ⟨_, rfl⟩
  · exact Or.inl rfl

/-- Among directories and files an invocation after a query looks at the same as one before it. -/
theorem sight?_run_goto {root name : String} {disk : Disk} {environment : Environment}
    {session : Session} (begun : (Invocation.mk root (.goto name)).begin? disk environment = .ok session)
    (defaults : session.settings = .defaults (environment.get? Settings.delayVariable))
    (sheltered : disk.Sheltered ⟨root⟩) :
    (Invocation.mk root (.goto name)).sight? (run ⟨root, .goto name⟩ disk environment).1 environment =
      (Invocation.mk root (.goto name)).sight? disk environment := by
  obtain ⟨overlooks, overlooks'⟩ := overlooks_of_defaults begun sheltered defaults
  rcases disk_run_goto begun with kept | ⟨snapshot, saved⟩
  · rw [kept]
  · rw [saved]
    exact sight?_of_save begun sheltered (defaults ▸ Settings.shelvesCache_defaults _) snapshot
      overlooks (overlooks' snapshot)

/-- With the default settings and no cache at first, each line that is printed for a name gives a place
that can be asked for, if the disk still shows the same: an identifier is found that starts there, and
among its definitions is the place itself. Among directories and files the disk does. -/
theorem at_of_goto {root name path : String} {disk disk' : Disk} {environment : Environment}
    {session : Session} {cause : DiskError} {lines : List String} {line column : UInt32}
    (begun : (Invocation.mk root (.goto name)).begin? disk environment = .ok session)
    (defaults : session.settings = .defaults (environment.get? Settings.delayVariable))
    (noCache : disk.read session.store.cachePath = .error cause) (tree : disk.IsTree)
    (legible : ∀ place, disk.find? session.root = .ok (place, .directory) → disk.Legible place)
    (ran : run ⟨root, .goto name⟩ disk environment = (disk', .ok lines))
    (undisturbed : (Invocation.mk root (.goto name)).sight? disk' environment =
        (Invocation.mk root (.goto name)).sight? disk environment ∨ disk.Sheltered ⟨root⟩)
    (printed : path ++ ":" ++ toString line ++ ":" ++ toString column ∈ lines) :
    ∃ identifier stop rest, (run ⟨root, .at path line column⟩ disk' environment).2 =
        .ok ((identifier ++ " (" ++ toString line ++ ":" ++ toString column ++ "-" ++ stop ++ ")") ::
          rest) ∧
      path ++ ":" ++ toString line ++ ":" ++ toString column ∈ rest := by
  have same : (Invocation.mk root (.goto name)).sight? disk' environment =
      (Invocation.mk root (.goto name)).sight? disk environment := by
    rcases undisturbed with same | sheltered
    · exact same
    · have kept := sight?_run_goto begun defaults sheltered
      rwa [ran] at kept
  obtain ⟨again, begun', own, settings, made, made', openings'⟩ := begin?_of_sight? begun same
  subst made made'
  let first := Session.start own settings disk
  let second := Session.start own settings disk'
  have matched : settings.Matched :=
    (show settings = _ from defaults) ▸ Settings.matched_defaults _
  obtain ⟨paths, discovered, found⟩ := disk.below_of_discovered own matched
  have openings : first.openings? = some (paths.map (.plain disk.text?)) := by
    have listed : first.disk.findFiles first.root first.settings.patterns = .ok paths := discovered
    rw [Session.openings?, listed]
    exact congrArg some (List.map_congr_left fun path _ => disk.opening_eq path)
  have answered := congrArg Prod.snd ((run_goto begun).symm.trans ran)
  have root := congrArg Surroundings.root (first.surroundings_ensureInitialized_plain disk.text? paths)
  rw [openings] at answered
  rw [← Except.ok.inj answered, show Session.root _ = own from root] at printed
  obtain ⟨⟨uri, span⟩, member, shown, rfl, rfl⟩ := mem_siteLines printed
  obtain ⟨listed, accepted, text, opened, number, written, definition, defined⟩ :=
    Session.definedOn_of_start noCache member
  obtain ⟨place, names, stands, below, some_names, spelled⟩ := found _ listed
  obtain ⟨relative, relatively, back⟩ :=
    tree.relativeTo?_below stands (legible place stands) below some_names
  have countable := tree.countable_below stands (legible place stands) below some_names
    (spelled ▸ opened)
  have texts (path : Path) (listed : path ∈ paths) : second.disk.text? path = disk.text? path :=
    Session.text?_of_openings openings' openings listed
  have openings'' : second.openings? = some (paths.map (.plain second.disk.text?)) := by
    refine (openings'.trans openings).trans (congrArg some (List.map_congr_left fun path listed => ?_))
    rw [Session.Opening.plain, Session.Opening.plain, texts path listed]
  rw [spelled] at relatively back
  rw [relatively, Option.getD_some] at shown
  subst shown
  obtain ⟨rest, printed', again⟩ := second.runAt_site rfl rfl rfl SymbolIndex.coherent_empty openings''
    listed accepted ((texts _ listed).trans opened) countable defined back
  refine ⟨definition.name, toString (span.stop.character + 1), rest, ?_, ?_⟩
  · exact (run_at begun').trans printed'
  · have shown : (Path.relativeTo? ⟨uri⟩ second.root).getD uri = relative := by
      rw [show Path.relativeTo? ⟨uri⟩ second.root = some relative from relatively, Option.getD_some]
    rwa [Site.text, shown] at again

theorem at_of_goto_oneSource : ∃ disk' : Disk,
    run ⟨"/", .goto "start"⟩ oneSource [] = (disk', .ok ["a.asm:1:1"]) ∧
    ∃ identifier stop rest, (run ⟨"/", .at "a.asm" 1 1⟩ disk' []).2 =
        .ok ((identifier ++ " (" ++ toString (1 : UInt32) ++ ":" ++ toString (1 : UInt32) ++ "-" ++ stop ++
          ")") :: rest) ∧
      "a.asm" ++ ":" ++ toString (1 : UInt32) ++ ":" ++ toString (1 : UInt32) ∈ rest := by
  have begun : (Invocation.mk "/" (.goto "start")).begin? oneSource [] =
      .ok (.start ⟨"/"⟩ (.defaults none) oneSource) := begin?_top _ rfl
  have answered : (run ⟨"/", .goto "start"⟩ oneSource []).2 = .ok ["a.asm:1:1"] := by
    rw [run_goto begun, Session.openings?_oneSource Disk.discover_oneSource rfl]
    decide +kernel
  have noCache : oneSource.read (Session.start ⟨"/"⟩ (.defaults none) oneSource).store.cachePath =
      .error .notFound := rfl
  have ran : run ⟨"/", .goto "start"⟩ oneSource [] =
      ((run ⟨"/", .goto "start"⟩ oneSource []).1, .ok ["a.asm:1:1"]) := Prod.ext rfl answered
  exact ⟨_, ran, at_of_goto begun rfl noCache sheltered_oneSource.toIsTree
    (fun _ => Disk.legible_oneSource) ran (Or.inr sheltered_oneSource) (List.mem_singleton.mpr (by decide))⟩

/-- Once the cache is there, the source is excluded, and its name has no definition any more. -/
theorem at_redirectedSource : ∃ disk' : Disk,
    run ⟨"/", .goto "start"⟩ redirectedSource [] = (disk', .ok ["a.asm:1:1"]) ∧
    (run ⟨"/", .at "a.asm" 1 1⟩ disk' []).2 = .ok ["start (1:1-6)", "no definition"] := by
  have begun : (Invocation.mk "/" (.goto "start")).begin? redirectedSource [] =
      .ok (.start ⟨"/"⟩ (.defaults none) redirectedSource) := begin?_top _ rfl
  have ran := run_goto begun
  rw [Session.openings?_oneSource Disk.discover_redirectedSource rfl] at ran
  let settled := ((Session.start ⟨"/"⟩ (.defaults none) redirectedSource).ensureInitialized
    (some [⟨⟨"/a.asm"⟩, [], some ⟨"/a.asm", none, "start:\n"⟩⟩])).1
  have printed : siteLines settled.root (settled.index.definitionsOf "start") = ["a.asm:1:1"] := by
    decide +kernel
  have pending : settled.store.isPending = true := by decide +kernel
  obtain ⟨bytes, after⟩ : ∃ bytes, settled.shutdown.disk = redirectedSource.withCache bytes := by
    have kept : settled.disk = redirectedSource ∧
        settled.store.cachePath = ⟨"/.asmdex/cache/symbols.json"⟩ :=
      Session.disk_ensureInitialized_plainly (fun _ => some "start:\n") (some [⟨"/a.asm"⟩]) rfl rfl
    rw [Session.disk_shutdown, if_pos pending, kept.1, kept.2]
    exact ⟨_, rfl⟩
  refine ⟨settled.shutdown.disk, ran.trans (Prod.ext rfl (congrArg Except.ok printed)), ?_⟩
  have begun' : (Invocation.mk "/" (.at "a.asm" 1 1)).begin? (redirectedSource.withCache bytes) [] =
      .ok (.start ⟨"/"⟩ (.defaults none) (redirectedSource.withCache bytes)) := begin?_top _ rfl
  let again := Session.start ⟨"/"⟩ (.defaults none) (redirectedSource.withCache bytes)
  have found : again.openings? = some [] := by
    rw [Session.openings?_defaults, Disk.discover_redirectedSource_withCache]
    rfl
  have nothing : (again.ensureInitialized (some [])).1.index.definitionsOf "start" = [] := by
    rw [List.eq_nil_iff_forall_not_mem]
    intro site member
    have coherent := (again.leadsTo_ensureInitialized (some [])).coherent SymbolIndex.coherent_empty
    obtain ⟨table, _, _, indexed, -⟩ := coherent.document?_of_mem_definitionsOf member
    obtain ⟨-, -, documents⟩ :=
      Session.ensureInitialized_none_found (show again.initialized = none from rfl) rfl rfl
    simp [SymbolIndex.document?, documents] at indexed
  have opened : again.disk.openDocument (again.root.child "a.asm") =
      .ok ⟨"/a.asm", none, "start:\n"⟩ := by
    have path : again.root.child "a.asm" = ⟨"/a.asm"⟩ :=
      show Path.child ⟨"/"⟩ "a.asm" = _ by decide
    have read : again.disk.read ⟨"/a.asm"⟩ = .ok (Text.encode "start:\n".toList) := rfl
    rw [path, Disk.openDocument, read]
    simp [bind, Except.bind, pure, Except.pure, Text.decodeLossy_encode]
  have cursor : Session.identifierIn? "start:\n" ⟨0, 0⟩ = some ⟨"start", 0, 5⟩ := by decide +kernel
  rw [after, run_at begun', Session.runAt, if_neg (by decide), opened]
  simp only [UInt32.sub_self, cursor, Session.definitionsAt, Session.definitionsOf]
  have unanswered : (again.ensureInitialized again.openings?).1.index.definitionsOf "start" = [] :=
    found ▸ nothing
  rw [if_neg Bool.false_ne_true, unanswered]
  rfl

end Invocation

end AssemblySymbols
