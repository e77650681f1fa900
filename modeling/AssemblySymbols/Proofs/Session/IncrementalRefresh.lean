import AssemblySymbols.Proofs.Session.IndexRuns
import AssemblySymbols.Proofs.Session.PlainScans
import AssemblySymbols.Proofs.Symbol.Reordering
import Mathlib.Logic.Function.Basic

/-! Refreshing the files that change against scanning all of them again. A refresh looks at the path
before it opens the file, the scan looks at the document afterwards; both decide alike, so the index
always mirrors the files as they are. -/
namespace AssemblySymbols
open Session (Opening)
open SymbolIndex (LeadsTo)

structure WorkspaceFile where
  text : String
  readable : Bool
deriving DecidableEq, Repr

/-- The files of a workspace by their paths. -/
abbrev WorkspaceFiles := Path → Option WorkspaceFile

namespace WorkspaceFiles

/-- The text that opening a path gives. -/
def read (files : WorkspaceFiles) (path : Path) : Option String :=
  (files path).bind fun file => if file.readable then some file.text else none

/-- The paths are those of the files, each of them once. -/
structure ListedBy (files : WorkspaceFiles) (paths : List Path) : Prop where
  once : paths.Nodup
  all : ∀ path, path ∈ paths ↔ (files path).isSome

end WorkspaceFiles

/-- What happens in a workspace. -/
inductive WorkspaceEvent where
  /-- The file at a path is created, edited, made readable or not, or deleted, and the path is
  refreshed. -/
  | touched (path : Path) (file : Option WorkspaceFile)
  | passed (milliseconds : Nat)

/-- A session that follows the events in its workspace. -/
structure Followed where
  session : Session
  files : WorkspaceFiles

namespace Followed

def follow (followed : Followed) : WorkspaceEvent → Followed
  | .touched path file =>
    let files : WorkspaceFiles := Function.update followed.files path file
    ⟨(followed.session.refresh (.plain files.read path)).1, files⟩
  | .passed milliseconds => ⟨followed.session.advance milliseconds, followed.files⟩

end Followed

namespace Session
variable {session : Session} {read read' : Path → Option String}

/-- A new session, initialized over the files at some paths. -/
def scanning (root : Path) (settings : Settings) (disk : Disk) (files : WorkspaceFiles)
    (paths : List Path) : Session :=
  ((start root settings disk).ensureInitialized (some (paths.map (.plain files.read)))).1

/-- The index holds the table of every file that can be read and that the filter accepts, and nothing
else. -/
structure Mirrors (session : Session) (read : Path → Option String) : Prop where
  hosted : session.hostDocuments = []
  coherent : session.index.Coherent
  documents : ∀ uri, session.index.document? uri = session.filter.tableOf? read ⟨uri⟩

theorem filter_scanning (root : Path) (settings : Settings) (disk : Disk) (files : WorkspaceFiles)
    (paths : List Path) :
    (scanning root settings disk files paths).filter = .ofSettings settings :=
  congrArg (fun around : Surroundings => DocumentFilter.ofSettings around.settings)
    (surroundings_ensureInitialized_plain files.read (start root settings disk) paths)

theorem warmStart_start {root : Path} {settings : Settings} {disk : Disk} {cause : DiskError}
    (noCache : disk.read (settings.cachePath root) = .error cause) :
    (start root settings disk).warmStart = start root settings disk := by
  have failed : (start root settings disk).store.load = .error (.disk cause) := by
    rw [CachedIndex.load, Cache.load]
    simp only [start, CachedIndex.start, noCache]
  rw [warmStart, failed]

theorem mirrors_scanning {root : Path} {settings : Settings} {disk : Disk} {cause : DiskError}
    (noCache : disk.read (settings.cachePath root) = .error cause) {files : WorkspaceFiles}
    {paths : List Path} (listed : files.ListedBy paths) :
    (scanning root settings disk files paths).Mirrors files.read := by
  let begun := start root settings disk
  obtain ⟨hosted, documents⟩ := begun.ensureInitialized_plain files.read rfl rfl rfl paths
  have filter := filter_scanning root settings disk files paths
  have coherent := (begun.leadsTo_ensureInitialized (some (paths.map (.plain files.read)))).coherent
    SymbolIndex.coherent_empty
  refine ⟨hosted, coherent, fun uri => ?_⟩
  refine (documents uri).trans ?_
  rw [warmStart_start noCache, filter, show begun.filter = .ofSettings settings from rfl]
  have absent : begun.index.document? uri = none := rfl
  rw [absent, Option.or_none]
  unfold DocumentFilter.tableOf?
  cases read : files.read ⟨uri⟩ with
  | none => simp
  | some text =>
    have there : (files ⟨uri⟩).isSome := by
      by_contra missing
      rw [WorkspaceFiles.read, Option.not_isSome_iff_eq_none.mp missing] at read
      contradiction
    rw [if_pos ⟨(listed.all _).mpr there, rfl⟩]

/-- A refresh puts the file at its path in place of what was known of it. -/
theorem refresh_plain (read : Path → Option String) (unhosted : session.hostDocuments = []) (path : Path) :
    (session.refresh (.plain read path)).1.filter = session.filter ∧
    (session.refresh (.plain read path)).1.hostDocuments = [] ∧
    ∀ uri, (session.refresh (.plain read path)).1.index.document? uri =
      if uri = path.text ∧ session.filter.acceptsPath path then session.filter.tableOf? read path
      else session.index.document? uri := by
  by_cases accepted : session.filter.acceptsPath path
  · have watched : session.watches path := by
      simp [watches, isHosted, unhosted, accepted]
    obtain ⟨frame, holdings⟩ := session.refresh_eq (.plain read path) watched
    have filter := congrArg Frame.filter (frame.trans session.frame.after_nil)
    have free : path.text ∉ session.holdings.hosted := by
      rw [show session.holdings.hosted = [] from unhosted]
      exact List.not_mem_nil
    have refreshed : (session.refresh (.plain read path)).1.holdings =
        ⟨(session.filter.tableOf? read path).elim (session.index.remove path.text)
          (session.index.replace path.text), session.hostDocuments⟩ := by
      rw [holdings, DocumentFilter.tableOf?, if_pos accepted, Opening.plain]
      cases read path with
      | none => exact if_neg free
      | some text => exact if_neg free
    refine ⟨filter, (congrArg Holdings.hosted refreshed).trans unhosted, fun uri => ?_⟩
    refine (congrArg (·.index.document? uri) refreshed).trans ?_
    simp only [accepted, and_true]
    cases session.filter.tableOf? read path with
    | none => exact SymbolIndex.document?_remove ..
    | some table => exact SymbolIndex.document?_replace ..
  · have unwatched : (session.refresh (.plain read path)).1 = session := by
      rw [refresh, if_neg]
      simp [Opening.plain, watches, accepted]
    rw [unwatched]
    exact ⟨rfl, unhosted, fun uri => by simp [accepted]⟩

/-- A file that the filter does not accept counts for nothing before its change and after. -/
theorem Mirrors.refresh (mirrors : session.Mirrors read) {path : Path}
    (others : ∀ other, other ≠ path → read' other = read other) :
    (session.refresh (.plain read' path)).1.Mirrors read' := by
  obtain ⟨filter, hosted, documents⟩ := refresh_plain read' mirrors.hosted path
  refine ⟨hosted, (session.leadsTo_refresh _).coherent mirrors.coherent, fun uri => ?_⟩
  rw [documents, filter]
  by_cases own : uri = path.text
  · subst own
    by_cases accepted : session.filter.acceptsPath path
    · rw [if_pos ⟨rfl, accepted⟩]
    · rw [if_neg (fun both => accepted both.2), mirrors.documents]
      simp [DocumentFilter.tableOf?, accepted]
  · have other : (⟨uri⟩ : Path) ≠ path := fun same => own (congrArg Path.text same)
    rw [if_neg (fun both => own both.1), mirrors.documents, DocumentFilter.tableOf?,
      DocumentFilter.tableOf?, others _ other]

end Session

namespace Followed
variable {followed : Followed}

theorem mirrors_follow (mirrors : followed.session.Mirrors followed.files.read)
    (event : WorkspaceEvent) :
    (followed.follow event).session.Mirrors (followed.follow event).files.read ∧
    (followed.follow event).session.filter = followed.session.filter := by
  cases event with
  | touched path file =>
    let files : WorkspaceFiles := Function.update followed.files path file
    have others : ∀ other, other ≠ path → files.read other = followed.files.read other := by
      intro other apart
      have kept : files other = followed.files other := Function.update_of_ne apart ..
      rw [WorkspaceFiles.read, WorkspaceFiles.read, kept]
    exact ⟨mirrors.refresh others, (Session.refresh_plain files.read mirrors.hosted path).1⟩
  | passed milliseconds =>
    have index : (followed.session.advance milliseconds).index = followed.session.index :=
      followed.session.store.index_advance milliseconds
    refine ⟨⟨mirrors.hosted, ?_, fun uri => ?_⟩, rfl⟩
    · exact (LeadsTo.of_eq index).coherent mirrors.coherent
    · exact (congrArg (·.document? uri) index).trans (mirrors.documents uri)

theorem mirrors_follows (mirrors : followed.session.Mirrors followed.files.read)
    (events : List WorkspaceEvent) :
    (events.foldl follow followed).session.Mirrors (events.foldl follow followed).files.read ∧
    (events.foldl follow followed).session.filter = followed.session.filter := by
  induction events generalizing followed with
  | nil => exact ⟨mirrors, rfl⟩
  | cons event rest ih =>
    obtain ⟨first, filter⟩ := mirrors_follow mirrors event
    obtain ⟨last, filter'⟩ := ih first
    exact ⟨last, filter'.trans filter⟩

/-- After any changes in a workspace that are refreshed one by one, the index holds the tables that a
new session finds by scanning all files, and so answers every question as that session does, but for the
order of places. Neither session starts from a cache, and each discovers every file once. -/
theorem refreshed_eq_rescanned {root : Path} {settings : Settings} {disk disk' : Disk}
    {cause cause' : DiskError} (noCache : disk.read (settings.cachePath root) = .error cause)
    (noCache' : disk'.read (settings.cachePath root) = .error cause')
    {files : WorkspaceFiles} {paths paths' : List Path} (listed : files.ListedBy paths)
    (events : List WorkspaceEvent)
    (listed' : (events.foldl follow
      ⟨Session.scanning root settings disk files paths, files⟩).files.ListedBy paths') :
    let ended := events.foldl follow ⟨Session.scanning root settings disk files paths, files⟩
    let rescanned := Session.scanning root settings disk' ended.files paths'
    (∀ uri, ended.session.index.document? uri = rescanned.index.document? uri) ∧
    (∀ query, ended.session.index.kindOf? query = rescanned.index.kindOf? query) ∧
    ∀ query, (ended.session.index.definitionsOf query).Perm (rescanned.index.definitionsOf query) := by
  intro ended rescanned
  let begun : Followed := ⟨Session.scanning root settings disk files paths, files⟩
  have started : begun.session.Mirrors begun.files.read := Session.mirrors_scanning noCache listed
  obtain ⟨mirrors, filter⟩ := mirrors_follows started events
  have mirrors' : rescanned.Mirrors ended.files.read := Session.mirrors_scanning noCache' listed'
  have same : ended.session.filter = rescanned.filter := by
    rw [Session.filter_scanning root settings disk' ended.files paths']
    exact filter.trans (Session.filter_scanning root settings disk files paths)
  have documents : ∀ uri, ended.session.index.document? uri = rescanned.index.document? uri := by
    intro uri
    rw [mirrors'.documents, ← same]
    exact mirrors.documents uri
  have reordered : SymbolIndex.Reordered ended.session.index rescanned.index :=
    .of_document? mirrors.coherent mirrors'.coherent documents
  exact ⟨documents, reordered.kindOf?, reordered.definitionsOf⟩

/-- Two files come into an empty workspace, and one of them can no longer be read in the end. -/
theorem refreshed_eq_rescanned_unreadable :
    let events : List WorkspaceEvent :=
      [.touched ⟨"a.asm"⟩ (some ⟨"start:\n", true⟩), .touched ⟨"b.inc"⟩ (some ⟨"size = 1\n", true⟩),
        .passed 1000, .touched ⟨"a.asm"⟩ (some ⟨"other:\n", false⟩)]
    let ended := events.foldl follow
      ⟨Session.scanning ⟨"/"⟩ (.defaults none) .empty (fun _ => none) [], fun _ => none⟩
    let rescanned :=
      Session.scanning ⟨"/"⟩ (.defaults none) .empty ended.files [⟨"a.asm"⟩, ⟨"b.inc"⟩]
    ∀ uri, ended.session.index.document? uri = rescanned.index.document? uri := by
  intro events
  have noCache : Disk.empty.read ((Settings.defaults none).cachePath ⟨"/"⟩) = .error .notFound := by
    decide +kernel
  have nothing : WorkspaceFiles.ListedBy (fun _ => none) [] := ⟨.nil, by simp⟩
  have both : (events.foldl follow
      ⟨Session.scanning ⟨"/"⟩ (.defaults none) .empty (fun _ => none) [], fun _ => none⟩).files.ListedBy
      [⟨"a.asm"⟩, ⟨"b.inc"⟩] := by
    refine ⟨by decide, fun path => ?_⟩
    simp only [events, List.foldl_cons, List.foldl_nil, follow, Function.update_apply]
    by_cases first : path = ⟨"a.asm"⟩ <;> by_cases second : path = ⟨"b.inc"⟩ <;> simp [first, second]
  exact (refreshed_eq_rescanned noCache noCache nothing events both).1

end Followed
end AssemblySymbols
