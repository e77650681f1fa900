import AssemblySymbols.Proofs.Session.PlainScans
import AssemblySymbols.Proofs.Session.Reloading
import AssemblySymbols.Proofs.Session.SequentialRuns

/-! Scans that a shutdown interrupts. The signal is looked at when the scan turns to a file and when it
has read one, so what has been taken in up to there stays, what has not been reached is as the cache
left it, and nothing is pruned. A scan without files has no place to look at the signal. -/
namespace AssemblySymbols
open Session (HostCall Opening)

theorem CachedIndex.quiet_flush (store : CachedIndex) :
    store.flush.1.isPending = false ∧ store.flush.1.saver.generation = store.saver.generation := by
  unfold flush
  by_cases pending : store.isPending = true
  · rw [if_pos pending]
    exact ⟨rfl, rfl⟩
  · rw [if_neg pending]
    exact ⟨Bool.not_eq_true _ ▸ pending, rfl⟩

namespace Scan

/-- The end of an initialization: what has changed is saved, and the outcome is kept. -/
def conclude (scan : Scan) : Scan :=
  { scan with
    session :=
      { scan.session.saveChange (0 < scan.stats.indexed || 0 < scan.stats.pruned) with
        initialized := some scan.stats } }

theorem holdings_conclude (scan : Scan) : scan.conclude.session.holdings = scan.session.holdings :=
  (scan.session.requestSave_if _).2

theorem saver_conclude {scan : Scan} (stopped : scan.session.stopped = true) :
    scan.conclude.session.store.saver = scan.session.store.saver := by
  unfold conclude Session.saveChange Session.requestSave
  rw [if_pos stopped, ite_self]

/-- A scan that turns to a file after a shutdown takes in nothing any more. -/
theorem files_of_stopped {scan : Scan} (stopped : scan.session.stopped = true)
    (openings : List Opening) :
    scan.files openings = if openings = [] then scan else scan.cancel := by
  cases openings with
  | nil => rfl
  | cons opening rest => rw [files, if_pos stopped, if_neg (List.cons_ne_nil opening rest)]

end Scan

namespace Session

/-- The warm start keeps what is indexed and adds what only the cache knows. -/
theorem document?_warmStart (session : Session) (uri : String) :
    session.warmStart.index.document? uri =
      (session.index.document? uri).or (session.store.reloaded.document? uri) := by
  unfold CachedIndex.reloaded
  cases loaded : session.store.load with
  | ok snapshot =>
    rw [index_warmStart loaded, SymbolIndex.document?_restore]
    exact congrArg _ (SymbolIndex.document?_restore_empty snapshot uri).symm
  | error cause =>
    have ignored : session.warmStart = session := by rw [warmStart, loaded]
    rw [ignored]
    exact (Option.or_none ..).symm

theorem saver_warmStart (session : Session) :
    session.warmStart.store.saver = session.store.saver := by
  unfold warmStart
  split <;> rfl

theorem stopped_serving {root : Path} {settings : Settings} {disk : Disk} {requests : List Request}
    (ended : .call .shutdown ∈ requests) : (serving root settings disk requests).stopped = true := by
  suffices called : ∀ session : Session, .shutdown ∈ session.hostCalls requests by
    have frame := (start root settings disk).frame_serves requests
    have stopped := congrArg Frame.stopped frame
    rwa [Frame.after, List.contains_iff_mem.mpr (called _), Bool.or_true] at stopped
  induction requests with
  | nil => contradiction
  | cons request rest ih =>
    intro session
    rw [hostCalls, List.mem_append]
    rcases List.mem_cons.mp ended with rfl | later
    · exact .inl (List.mem_singleton_self _)
    · exact .inr (ih later _)

theorem ensureInitialized_eq {session : Session} (fresh : session.initialized = none)
    (discovered : Option (List Opening)) :
    session.ensureInitialized discovered =
      ((session.initialScan discovered).conclude.session, (session.initialScan discovered).stats) := by
  rw [ensureInitialized, fresh]
  rfl

theorem initialScan_of_stopped {session : Session} (stopped : session.stopped = true)
    (discovered : Option (List Opening)) :
    session.initialScan discovered =
      let begun := Scan.start session.warmStart (discovered.getD []).length
      if discovered.getD [] ≠ [] then begun.cancel
      else if discovered.isSome then begun.prune else begun := by
  have ended (found : Nat) : (Scan.start session.warmStart found).session.stopped = true :=
    (congrArg Frame.stopped session.frame_warmStart).trans stopped
  unfold initialScan scanWorkspace
  rcases discovered with _ | openings
  · rfl
  · by_cases none : openings = []
    · subst none
      rfl
    · simp only [Option.getD_some, Scan.files_of_stopped (ended _), if_neg none, if_pos none]
      rfl

/-- After a shutdown an initialization opens no file. If any is found, it reports that it is cancelled and
leaves what the warm start has left: what was indexed, and of the rest what the cache knows. The same
is left if discovery fails, but then nothing is reported as cancelled. If discovery finds no file, nothing
is reported either, and all documents are pruned that the editor does not hold. -/
theorem ensureInitialized_after_shutdown (root : Path) (settings : Settings) (start disk : Disk)
    (requests : List Request) (ended : .call .shutdown ∈ requests)
    (discovered : Option (List Opening)) :
    let before := (serving root settings start requests).withDisk disk
    let outcome := before.ensureInitialized discovered
    (∀ uri, before.warmStart.index.document? uri =
      (before.index.document? uri).or (before.store.reloaded.document? uri)) ∧
    (before.initialScan discovered).opened = [] ∧ outcome.2.indexed = 0 ∧
    (outcome.2.cancelled = true ↔ discovered.getD [] ≠ []) ∧
    (discovered ≠ some [] → outcome.2.pruned = 0 ∧ outcome.1.index = before.warmStart.index) ∧
    (discovered = some [] →
      outcome.2.pruned = before.warmStart.index.uris.countP (· ∉ before.hostDocuments) ∧
      outcome.1.index.documents =
        before.warmStart.index.documents.filter (·.1 ∈ before.hostDocuments)) := by
  intro before outcome
  have stopped : before.stopped = true := stopped_serving ended
  have fresh : before.initialized = none := (serving_frame root settings start requests).2
  have warm := before.document?_warmStart
  have hosted := before.hostDocuments_warmStart
  have scanned := before.initialScan_of_stopped stopped discovered
  have ends : outcome = _ := ensureInitialized_eq fresh discovered
  have index : outcome.1.index = (before.initialScan discovered).session.index := by
    rw [ends]
    exact congrArg Holdings.index (Scan.holdings_conclude _)
  have stats : outcome.2 = (before.initialScan discovered).stats := by rw [ends]
  rw [index, stats, scanned]
  rcases discovered with _ | _ | ⟨opening, rest⟩
  · exact ⟨warm, rfl, rfl, by simp [Scan.start, ScanStats.start], fun _ => ⟨rfl, rfl⟩,
      fun found => absurd found (by simp)⟩
  · refine ⟨warm, rfl, rfl, ?_, fun found => absurd rfl found, fun _ => ⟨?_, ?_⟩⟩
    · simp [Scan.prune, Scan.start, ScanStats.start]
    · have stale : (Scan.start before.warmStart 0).stale =
          before.warmStart.index.uris.filter (· ∉ before.hostDocuments) := by
        refine List.filter_congr fun uri _ => ?_
        simp [Scan.start, isHosted, hosted]
      rw [List.countP_eq_length_filter, ← stale]
      rfl
    · have settled := (Scan.start before.warmStart 0).survey.documents_settle
      refine settled.trans (List.filter_congr fun entry _ => ?_)
      simp [Scan.survey, Scan.start, Session.holdings, hosted]
  · exact ⟨warm, rfl, rfl, by simp [Scan.cancel], fun _ => ⟨rfl, rfl⟩,
      fun found => absurd found (by simp)⟩

/-- A workspace that knows one file from the cache. -/
def cachedWorkspace (requests : List Request) : Session :=
  (serving ⟨"/"⟩ (.defaults none) .empty requests).withDisk
    (.ofCache (SymbolIndex.empty.indexText "old.asm" "old:\n").snapshot)

theorem index_cachedWorkspace {requests : List Request}
    (path : (cachedWorkspace requests).store.cachePath = ⟨"/.asmdex/cache/symbols.json"⟩) :
    (cachedWorkspace requests).warmStart.index = ((cachedWorkspace requests).index.restore
      (SymbolIndex.empty.indexText "old.asm" "old:\n").snapshot).1 := by
  apply index_warmStart
  rw [CachedIndex.load, path]
  exact Cache.load_eq (Disk.read_ofCache _) (by decide +kernel)

/-- With its file gone, the workspace has nothing to scan, and the document is pruned all the same. -/
theorem ensureInitialized_cachedWorkspace :
    let before := cachedWorkspace [.call .shutdown]
    before.stopped = true ∧ before.warmStart.index.document? "old.asm" = some (.ofText "old:\n") ∧
    (before.ensureInitialized (some [])).2.cancelled = false ∧
    (before.ensureInitialized (some [])).2.pruned = 1 ∧
    (before.ensureInitialized (some [])).1.index.documents = [] := by
  intro before
  have ended : Request.call .shutdown ∈ [Request.call .shutdown] := List.mem_singleton_self _
  obtain ⟨-, -, -, cancelled, -, nothing⟩ := ensureInitialized_after_shutdown ⟨"/"⟩ (.defaults none)
    .empty (.ofCache (SymbolIndex.empty.indexText "old.asm" "old:\n").snapshot) _ ended (some [])
  obtain ⟨pruned, left⟩ := nothing rfl
  have index : before.warmStart.index = _ := index_cachedWorkspace (by decide +kernel)
  refine ⟨rfl, ?_, Bool.not_eq_true _ ▸ mt cancelled.mp (not_not.mpr rfl), ?_, ?_⟩
  · rw [index]
    decide +kernel
  · refine pruned.trans ?_
    change before.warmStart.index.uris.countP _ = 1
    rw [index]
    decide +kernel
  · refine left.trans ?_
    change before.warmStart.index.documents.filter _ = []
    rw [index]
    decide +kernel

end Session

/-- The table of a document comes from the last file of its name that can be read and is accepted. -/
def DocumentFilter.lastOf? (filter : DocumentFilter) (openings : List Opening) (uri : String) :
    Option Document :=
  ((openings.filterMap (·.document)).filter fun document =>
    filter.accepts document && document.uri == uri).getLast?

/-- Where in a scan the editor shuts the session down: before the scan turns to a file, or while it opens
the file. -/
inductive Moment where
  | before | during

/-- The shutdown is noticed when the file has been read or, if it cannot be, before the next one. -/
def Moment.Noticed (moment : Moment) (next : Opening) (rest : List Opening) : Prop :=
  moment = .during → next.document.isSome ∨ rest ≠ []

/-- What is still opened. -/
def Moment.opened (next : Opening) : Moment → List Opening
  | before => []
  | during => [next]

namespace Scan

def shutdown (scan : Scan) : Scan := { scan with session := scan.session.shutdown }

/-- Goes on with `next` and the files after it, while the editor shuts the session down and does nothing
else. -/
def filesShuttingDown (scan : Scan) (moment : Moment) (next : Opening) (rest : List Opening) : Scan :=
  match moment with
  | .before => scan.shutdown.files (next :: rest)
  | .during => scan.files ({ next with calls := [.shutdown] } :: rest)

end Scan

/-- An initialization in which the editor shuts the session down when the files in `front` have been
scanned. -/
def Session.initializeShuttingDown (session : Session) (moment : Moment) (front : List Opening)
    (next : Opening) (rest : List Opening) : Scan :=
  let begun := Scan.start session.warmStart (front ++ next :: rest).length
  let scan := (begun.files front).filesShuttingDown moment next rest
  (if scan.stats.cancelled then scan else scan.prune).conclude

/-- The other scan has gone on with these paths, and neither the editor nor a shutdown has had a part in
it. -/
structure Scan.Advanced (scan : Scan) (paths : List Path) (next : Scan) : Prop where
  frame : next.session.frame = scan.session.frame
  saver : next.session.store.saver = scan.session.store.saver
  pruned : next.stats.pruned = scan.stats.pruned
  opened : next.opened = scan.opened ++ paths

namespace Scan
variable {scan : Scan}

theorem Advanced.trans {next last : Scan} {paths more : List Path} (first : scan.Advanced paths next)
    (second : next.Advanced more last) : scan.Advanced (paths ++ more) last where
  frame := second.frame.trans first.frame
  saver := second.saver.trans first.saver
  pruned := second.pruned.trans first.pruned
  opened := by rw [second.opened, first.opened, List.append_assoc]

theorem advanced_install (scan : Scan) (uri : String) (table : SymbolTable) :
    scan.Advanced [] (scan.install uri table) := by
  unfold install Session.installFile
  split
  · exact ⟨rfl, rfl, rfl, (List.append_nil _).symm⟩
  · next installed =>
    split at installed
    · cases installed
    · cases installed
      exact ⟨rfl, rfl, rfl, (List.append_nil _).symm⟩

theorem advanced_take (scan : Scan) (document : Document) :
    scan.Advanced [] (scan.take document) := by
  have seen : scan.Advanced [] (scan.see document.uri) := ⟨rfl, rfl, rfl, (List.append_nil _).symm⟩
  unfold take
  dsimp only
  split
  · split
    · exact ⟨rfl, rfl, rfl, (List.append_nil _).symm⟩
    · exact seen.trans (advanced_install _ document.uri _)
  · exact ⟨rfl, rfl, rfl, (List.append_nil _).symm⟩

theorem advanced_step (scan : Scan) {opening : Opening} (quiet : opening.calls = []) :
    scan.Advanced [opening.path] (scan.step opening) := by
  have opened : scan.Advanced [opening.path] (scan.openFile opening) := by
    have called : (scan.openFile opening).session = scan.session := by
      rw [openFile, Session.applyCalls, quiet, List.foldl_nil]
    exact ⟨congrArg Session.frame called, congrArg (·.store.saver) called, rfl, rfl⟩
  unfold step
  cases opening.document with
  | none => exact ⟨opened.frame, opened.saver, opened.pruned, opened.opened⟩
  | some document => exact opened.trans (advanced_take _ document)

theorem advanced_files {front : List Opening} (quiet : ∀ opening ∈ front, opening.calls = [])
    (running : scan.session.stopped = false) :
    scan.Advanced (front.map (·.path)) (scan.files front) := by
  induction front generalizing scan with
  | nil => exact ⟨rfl, rfl, rfl, (List.append_nil _).symm⟩
  | cons opening rest ih =>
    obtain ⟨first, later⟩ := List.forall_mem_cons.mp quiet
    have stepped := scan.advanced_step first
    have running' : (scan.step opening).session.stopped = false :=
      (congrArg Frame.stopped stepped.frame).trans running
    have opened : (scan.openFile opening).session.stopped = false := by
      rwa [openFile, Session.applyCalls, first, List.foldl_nil]
    rw [files_cons scan opening rest running, opened, Bool.and_false, if_neg Bool.false_ne_true]
    exact stepped.trans (ih later running')

theorem files_append (scan : Scan) (front rest : List Opening) :
    scan.files (front ++ rest) = (scan.files front).files rest := by
  -- a scan that has been cancelled is that of a session shut down, and cancelling it again adds nothing
  have cancelled {scan : Scan} (stopped : scan.session.stopped = true) :
      scan.cancel = scan.cancel.files rest := by
    have stopped' : scan.cancel.session.stopped = true := stopped
    rw [files_of_stopped stopped']
    split <;> rfl
  induction front generalizing scan with
  | nil => rfl
  | cons opening front ih =>
    cases stopped : scan.session.stopped with
    | true =>
      rw [List.cons_append, files, files, if_pos stopped, if_pos stopped]
      exact cancelled stopped
    | false =>
      rw [List.cons_append, files_cons scan _ _ stopped, files_cons scan _ _ stopped]
      split
      · next caught => exact cancelled (Bool.and_eq_true_iff.mp caught).2
      · exact ih _

/-- From the shutdown on nothing is taken in. -/
theorem filesShuttingDown_eq (running : scan.session.stopped = false) {moment : Moment} {next : Opening}
    {rest : List Opening} (noticed : moment.Noticed next rest) :
    let halted := scan.filesShuttingDown moment next rest
    halted.session = scan.session.shutdown ∧ halted.stats.cancelled = true ∧
    halted.stats.pruned = scan.stats.pruned ∧
    halted.opened = scan.opened ++ (moment.opened next).map (·.path) := by
  cases moment with
  | before =>
    have stopped : scan.shutdown.session.stopped = true := rfl
    rw [filesShuttingDown, files_of_stopped stopped, if_neg (List.cons_ne_nil next rest)]
    exact ⟨rfl, rfl, rfl, (List.append_nil _).symm⟩
  | during =>
    obtain ⟨path, _, document⟩ := next
    have stopped : (scan.openFile ⟨path, [.shutdown], document⟩).session.stopped = true := rfl
    rw [filesShuttingDown, files_cons scan _ rest running, stopped, Bool.and_true]
    cases document with
    | some document => exact ⟨rfl, rfl, rfl, rfl⟩
    | none =>
      have more : rest ≠ [] := (noticed rfl).resolve_left (by simp)
      have stopped' : (scan.step ⟨path, [.shutdown], none⟩).session.stopped = true := rfl
      rw [Option.isSome_none, if_neg Bool.false_ne_true, files_of_stopped stopped', if_neg more]
      exact ⟨rfl, rfl, rfl, rfl⟩

end Scan

namespace DocumentFilter

theorem lastOf?_cons (filter : DocumentFilter) (opening : Opening) (rest : List Opening) (uri : String) :
    filter.lastOf? (opening :: rest) uri =
      (filter.lastOf? rest uri).or (filter.lastOf? [opening] uri) := by
  have split : (opening :: rest).filterMap (·.document) =
      [opening].filterMap (·.document) ++ rest.filterMap (·.document) :=
    List.filterMap_append (l := [opening])
  rw [lastOf?, split, List.filter_append, List.getLast?_append]
  rfl

end DocumentFilter

namespace Survey
variable {survey : Survey} {filter : DocumentFilter}

theorem visit_quiet {opening : Opening} (quiet : opening.calls = []) :
    (survey.visit filter opening).holdings.hosted = survey.holdings.hosted ∧
    ∀ uri, (survey.visit filter opening).holdings.index.document? uri =
      (if uri ∈ survey.holdings.hosted then none
        else (filter.lastOf? [opening] uri).map fun document => .ofText document.text).or
        (survey.holdings.index.document? uri) := by
  obtain ⟨path, _, document⟩ := opening
  cases quiet
  unfold visit DocumentFilter.lastOf?
  rcases document with _ | document
  · exact ⟨rfl, by simp⟩
  · simp only [List.foldl_nil, List.filterMap_cons, List.filterMap_nil]
    by_cases accepted : filter.accepts document
    · simp only [accepted, if_true]
      refine ⟨Holdings.hosted_install .., fun uri => ?_⟩
      by_cases own : document.uri = uri
      · subst own
        by_cases hosted : document.uri ∈ survey.holdings.hosted
        · simp [Holdings.install, hosted]
        · simp [Holdings.document?_install_own hosted, hosted, accepted]
      · simp [Holdings.document?_install_other own, own]
    · simp [accepted]

/-- Later files of the same name win. -/
theorem visits_quiet {openings : List Opening} (quiet : ∀ opening ∈ openings, opening.calls = []) :
    (openings.foldl (visit filter) survey).holdings.hosted = survey.holdings.hosted ∧
    ∀ uri, (openings.foldl (visit filter) survey).holdings.index.document? uri =
      (if uri ∈ survey.holdings.hosted then none
        else (filter.lastOf? openings uri).map fun document => .ofText document.text).or
        (survey.holdings.index.document? uri) := by
  induction openings generalizing survey with
  | nil => exact ⟨rfl, fun uri => by simp [DocumentFilter.lastOf?]⟩
  | cons opening rest ih =>
    obtain ⟨first, later⟩ := List.forall_mem_cons.mp quiet
    obtain ⟨hosted, visited⟩ := @visit_quiet survey filter opening first
    obtain ⟨hosted', visited'⟩ := @ih (survey.visit filter opening) later
    refine ⟨hosted'.trans hosted, fun uri => ?_⟩
    rw [List.foldl_cons, visited', visited, hosted, filter.lastOf?_cons opening rest]
    split
    · rfl
    · rw [Option.map_or, Option.or_assoc]

end Survey

theorem Session.holdings_shutdown (session : Session) : session.shutdown.holdings = session.holdings :=
  congrArg (Holdings.mk · session.hostDocuments) (CachedIndex.index_flush _)

namespace SharedSession
variable {scan : Scan} {refreshes : List Refresh} {completed : List (Change String)}

theorem reaches_filesShuttingDown (going : scan.stats.cancelled = false) (moment : Moment)
    (next : Opening) (rest : List Opening) :
    ∃ changes, Reaches
      ⟨scan, .scanning ((next :: rest).map (·.path)), refreshes, none, completed⟩
      ⟨scan.filesShuttingDown moment next rest,
        if (scan.filesShuttingDown moment next rest).stats.cancelled then .closing else .scanning [],
        refreshes, none, completed ++ changes⟩ := by
  cases moment with
  | before =>
    let shared : SharedSession :=
      ⟨scan, .scanning ((next :: rest).map (·.path)), refreshes, none, completed⟩
    have closed := reaches_shutdown shared
    rw [after_nil] at closed
    have going' : scan.shutdown.stats.cancelled = false := going
    obtain ⟨changes, scanned⟩ :=
      @reaches_files scan.shutdown refreshes completed (next :: rest) [] going'
    rw [List.append_nil] at scanned
    exact ⟨changes, closed.trans scanned⟩
  | during =>
    obtain ⟨changes, scanned⟩ := @reaches_files scan refreshes completed
      ({ next with calls := [.shutdown] } :: rest) [] going
    rw [List.append_nil] at scanned
    exact ⟨changes, scanned⟩

/-- The tasks come to such an initialization, whatever refreshes wait meanwhile. -/
theorem reaches_initializeShuttingDown {front : List Opening}
    (quiet : ∀ opening ∈ front, opening.calls = []) (running : scan.session.stopped = false)
    (moment : Moment) (next : Opening) (rest : List Opening) :
    ∃ changes, Reaches ⟨scan, .idle, refreshes, none, completed⟩
      ⟨scan.session.initializeShuttingDown moment front next rest, .done, refreshes, none,
        completed ++ changes⟩ := by
  let paths := (front ++ next :: rest).map (·.path)
  let begun := Scan.start scan.session.warmStart (front ++ next :: rest).length
  have warm : Reaches ⟨scan, .idle, refreshes, none, completed⟩ _ := reaches_warmStart
  have found : Reaches ⟨{ scan with session := scan.session.warmStart }, .discovering, refreshes, none,
      completed⟩ ⟨.start scan.session.warmStart paths.length, .scanning paths, refreshes, none,
      completed⟩ := reaches_stage (.discover paths)
  rw [List.length_map] at found
  have going : begun.session.stopped = false :=
    (congrArg Frame.stopped scan.session.frame_warmStart).trans running
  obtain ⟨changes, scanned⟩ := @reaches_files begun refreshes completed front
    ((next :: rest).map (·.path)) rfl
  have unbroken : (begun.files front).stats.cancelled = false := by
    rw [Scan.cancelled_files, going, interrupted_quiet quiet]
    rfl
  rw [unbroken, ← List.map_append] at scanned
  obtain ⟨more, halted⟩ := @reaches_filesShuttingDown (begun.files front) refreshes
    (completed ++ changes) unbroken moment next rest
  rw [List.append_assoc] at halted
  refine ⟨changes ++ more, (((warm.trans found).trans scanned).trans halted).trans ?_⟩
  unfold Session.initializeShuttingDown
  cases cancelled : ((begun.files front).filesShuttingDown moment next rest).stats.cancelled with
  | true =>
    rw [if_pos rfl]
    dsimp only
    rw [if_pos cancelled]
    exact reaches_stage .close
  | false =>
    rw [if_neg Bool.false_ne_true]
    dsimp only
    rw [if_neg (Bool.not_eq_true _ ▸ cancelled)]
    exact ((reaches_stage .finish).trans (reaches_stage .prune)).trans (reaches_stage .close)

end SharedSession

namespace Session

theorem initializeShuttingDown_during {session : Session} (fresh : session.initialized = none)
    (front : List Opening) (next : Opening) (rest : List Opening) :
    let outcome := session.initializeShuttingDown .during front next rest
    session.ensureInitialized (some (front ++ { next with calls := [.shutdown] } :: rest)) =
      (outcome.session, outcome.stats) := by
  have length : (front ++ { next with calls := [.shutdown] } :: rest).length =
      (front ++ next :: rest).length := by
    rw [List.length_append, List.length_append, List.length_cons, List.length_cons]
  have scanned := Scan.files_append (.start session.warmStart (front ++ next :: rest).length) front
    ({ next with calls := [.shutdown] } :: rest)
  rw [ensureInitialized_eq fresh]
  unfold initialScan scanWorkspace initializeShuttingDown Scan.filesShuttingDown
  simp only [Option.getD_some, Option.isSome_some, Bool.true_and, length, scanned]
  generalize (Scan.files _ front).files _ = halted
  cases halted.stats.cancelled <;> rfl

/-- The effect of a shutdown that comes upon a scan, when nothing else is called meanwhile. The tasks of a
session come to this whatever refreshes wait, and the initialization itself does if the shutdown comes
while a file is opened. The scan reports that it is cancelled. The files before that point have been taken
in, so far as they can be read and are accepted, the last of each name, and none for a document of the
editor; every other document is as the warm start has left it. No further file is opened, nothing is
pruned, and the initialization requests no save. -/
theorem initializeShuttingDown_partial {session : Session} (fresh : session.initialized = none)
    (running : session.stopped = false) {front : List Opening}
    (quiet : ∀ opening ∈ front, opening.calls = []) {moment : Moment} {next : Opening}
    {rest : List Opening} (noticed : moment.Noticed next rest) :
    let outcome := session.initializeShuttingDown moment front next rest
    (∀ refreshes completed, ∃ changes, SharedSession.Reaches
      ⟨.start session 0, .idle, refreshes, none, completed⟩
      ⟨outcome, .done, refreshes, none, completed ++ changes⟩) ∧
    (moment = .during →
      session.ensureInitialized (some (front ++ { next with calls := [.shutdown] } :: rest)) =
        (outcome.session, outcome.stats)) ∧
    outcome.stats.cancelled = true ∧
    (∀ uri, outcome.session.index.document? uri =
      (if uri ∈ session.hostDocuments then none
        else (session.filter.lastOf? front uri).map fun document => .ofText document.text).or
        (session.warmStart.index.document? uri)) ∧
    outcome.session.hostDocuments = session.hostDocuments ∧
    outcome.opened = (front ++ moment.opened next).map (·.path) ∧
    outcome.stats.pruned = 0 ∧
    outcome.session.store.saver.generation = session.store.saver.generation ∧
    outcome.session.store.isPending = false := by
  intro outcome
  let begun := Scan.start session.warmStart (front ++ next :: rest).length
  let reached := begun.files front
  have going : begun.session.stopped = false :=
    (congrArg Frame.stopped session.frame_warmStart).trans running
  have advanced : begun.Advanced (front.map (·.path)) reached := Scan.advanced_files quiet going
  have reachable : reached.session.stopped = false :=
    (congrArg Frame.stopped advanced.frame).trans going
  let halted := reached.filesShuttingDown moment next rest
  obtain ⟨closed, cancelled, pruned, opened⟩ : halted.session = reached.session.shutdown ∧ _ :=
    Scan.filesShuttingDown_eq reachable noticed
  have concludes : outcome = halted.conclude := by
    have unfolded : outcome = (if halted.stats.cancelled then halted else halted.prune).conclude := rfl
    rw [unfolded, if_pos cancelled]
  have holdings : outcome.session.holdings = reached.survey.holdings := by
    rw [concludes, Scan.holdings_conclude, closed, holdings_shutdown]
    rfl
  have surveyed : reached.survey = front.foldl (Survey.visit begun.session.filter) begun.survey :=
    begun.survey_files front (going ▸ interrupted_quiet quiet)
  obtain ⟨hosted, visited⟩ := @Survey.visits_quiet begun.survey begun.session.filter front quiet
  rw [← surveyed, ← holdings] at hosted visited
  have filter : begun.session.filter = session.filter := congrArg Frame.filter session.frame_warmStart
  have hosted' : begun.survey.holdings.hosted = session.hostDocuments := session.hostDocuments_warmStart
  have saver : outcome.session.store.saver = reached.session.store.flush.1.saver := by
    have stopped : halted.session.stopped = true := by rw [closed]; rfl
    rw [concludes, Scan.saver_conclude stopped, closed]
    rfl
  obtain ⟨idle, generation⟩ := reached.session.store.quiet_flush
  rw [filter, hosted'] at visited
  refine ⟨fun refreshes completed => ?_, ?_, ?_, visited, hosted.trans hosted', ?_, ?_, ?_, ?_⟩
  · exact SharedSession.reaches_initializeShuttingDown quiet running moment next rest
  · rintro rfl
    exact initializeShuttingDown_during fresh front next rest
  · rw [concludes]
    exact cancelled
  · rw [concludes, List.map_append]
    exact opened.trans (congrArg (· ++ _) advanced.opened)
  · rw [concludes]
    exact pruned.trans advanced.pruned
  · rw [saver, generation, advanced.saver]
    exact congrArg Saver.generation session.saver_warmStart
  · exact (congrArg Saver.isPending saver).trans idle

/-- A shutdown while a file is opened that is gone, with one more to come: the file before has been taken
in, and the document of the cache, whose file would have come last, is kept. -/
theorem initializeShuttingDown_cachedWorkspace :
    let before := cachedWorkspace []
    let front : List Opening := [⟨⟨"a.asm"⟩, [], some ⟨"a.asm", none, "start:\n"⟩⟩]
    let next : Opening := ⟨⟨"b.asm"⟩, [], none⟩
    let rest : List Opening := [⟨⟨"old.asm"⟩, [], some ⟨"old.asm", none, "new:\n"⟩⟩]
    let outcome := before.initializeShuttingDown .during front next rest
    before.initialized = none ∧ before.stopped = false ∧ Moment.during.Noticed next rest ∧
    outcome.stats.cancelled = true ∧ outcome.stats.pruned = 0 ∧
    outcome.opened = [⟨"a.asm"⟩, ⟨"b.asm"⟩] ∧
    outcome.session.index.document? "a.asm" = some (.ofText "start:\n") ∧
    outcome.session.index.document? "old.asm" = some (.ofText "old:\n") := by
  intro before front next rest outcome
  have noticed : Moment.during.Noticed next rest := fun _ => .inr (List.cons_ne_nil _ _)
  obtain ⟨-, -, cancelled, visited, -, opened, pruned, -⟩ :=
    @initializeShuttingDown_partial before rfl rfl front (by simp [front]) .during next rest noticed
  have index : before.warmStart.index = _ := index_cachedWorkspace (by decide +kernel)
  refine ⟨rfl, rfl, noticed, cancelled, pruned, opened, ?_, ?_⟩
  · rw [visited, index]
    decide +kernel
  · rw [visited, index]
    decide +kernel

end Session

end AssemblySymbols
