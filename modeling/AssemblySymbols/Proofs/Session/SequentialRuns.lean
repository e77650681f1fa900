import AssemblySymbols.Proofs.Session.Interleaving

/-! A session that serves one request after another is one whose tasks happen not to overtake each
other, so whatever holds of the states that the tasks come to holds of it. -/
namespace AssemblySymbols
open Session (HostCall Opening)

namespace CachedIndex

theorem fire_eq (store : CachedIndex) (timer : Timer) :
    store.fire timer =
      { store with saver := (store.fire timer).saver, disk := (store.fire timer).disk } := by
  unfold fire
  split <;> rfl

/-- Time changes neither the index nor the place of the cache. -/
theorem advance_eq (store : CachedIndex) (milliseconds : Nat) :
    store.advance milliseconds =
      { store with
        saver := (store.advance milliseconds).saver
        disk := (store.advance milliseconds).disk } := by
  suffices general : ∀ (due : List Timer) (store : CachedIndex),
      due.foldl fire store =
        { store with saver := (due.foldl fire store).saver, disk := (due.foldl fire store).disk } by
    exact general _ _
  intro due
  induction due with
  | nil => exact fun _ => rfl
  | cons timer rest ih =>
    intro store
    rw [List.foldl_cons, ih (store.fire timer), store.fire_eq timer]

end CachedIndex

namespace Session

theorem modifyIndex_of_same {session : Session} {change : SymbolIndex → SymbolIndex}
    (same : change session.index = session.index) : session.modifyIndex change = session := by
  have kept : change session.store.index = session.store.index := same
  rw [modifyIndex, CachedIndex.modify, kept]

theorem complete_drop (session : Session) (uri : String) :
    (session.unmark uri).complete (.drop uri) = (session.removeDocument uri).1 := by
  have still : (session.unmark uri).index = session.index := rfl
  rw [complete, saveChange, removeDocument, still]
  by_cases indexed : session.index.contains uri
  · rw [if_pos indexed, if_pos indexed]
  · have kept := SymbolIndex.remove_of_not_contains (Bool.not_eq_true _ ▸ indexed)
    rw [if_neg indexed, if_neg indexed, modifyIndex_of_same (still ▸ kept)]

theorem shutdown_eq (session : Session) :
    session.shutdown =
      { session with
        stopped := true
        store := { session.store with
          saver := session.shutdown.store.saver, disk := session.shutdown.store.disk } } := by
  unfold shutdown CachedIndex.flush
  split <;> rfl

end Session

namespace SharedSession

/-- The state after some task has gone from one session to another and calls have come to their end. -/
def after (shared : SharedSession) (session : Session) (changes : List (Change String)) :
    SharedSession :=
  { shared.withSession session with completed := shared.completed ++ changes }

variable {shared : SharedSession}

theorem after_nil (shared : SharedSession) (session : Session) :
    shared.after session [] = shared.withSession session := by
  rw [after, List.append_nil]
  rfl

theorem after_after (shared : SharedSession) (one other : Session)
    (changes more : List (Change String)) :
    (shared.after one changes).after other more = shared.after other (changes ++ more) := by
  rw [after, after, after, ← List.append_assoc]
  rfl

/-! Requests that are served without a pause are runs of the tasks. -/

theorem reaches_outside (shared : SharedSession) {session : Session} {saver : Saver} {disk : Disk}
    (same : session = { shared.session with
      store := { shared.session.store with saver := saver, disk := disk } }) :
    shared.Reaches (shared.after session []) := by
  have step : shared.Step _ := .outside saver disk
  rw [after_nil, same]
  exact step.reaches

/-- A call that has left its mark goes on at once. -/
theorem reaches_complete (free : shared.call = none) (session : Session) (change : Change String) :
    SharedSession.Reaches { shared.withSession session with call := some change }
      (shared.after (session.complete change) [change]) := by
  obtain ⟨scan, stage, refreshes, _, completed⟩ := shared
  cases free
  let waiting : SharedSession :=
    ⟨{ scan with session := session }, stage, refreshes, some change, completed⟩
  have step : waiting.Step _ := .complete rfl
  exact step.reaches

theorem reaches_index (free : shared.call = none) (cancelled : Nat → Bool) (document : Document) :
    shared.Reaches
      (shared.after (shared.session.indexDocumentUnless cancelled document).1
        (if (shared.session.indexDocumentUnless cancelled document).2 then
          [.put document.uri document.text] else [])) := by
  unfold Session.indexDocumentUnless
  by_cases accepted : shared.session.filter.accepts document
  · rw [if_pos accepted]
    cases scanned : SymbolTable.ofTextUnless? cancelled document.text with
    | none =>
      rw [if_neg Bool.false_ne_true, after_nil]
      exact Relation.ReflTransGen.refl
    | some table =>
      cases SymbolTable.ofTextUnless?_eq scanned
      have marked := (Step.mark document cancelled free accepted scanned).reaches
      exact marked.trans (reaches_complete free _ _)
  · rw [if_neg accepted, if_neg Bool.false_ne_true, after_nil]
    exact Relation.ReflTransGen.refl

theorem reaches_remove (free : shared.call = none) (uri : String) :
    shared.Reaches (shared.after (shared.session.removeDocument uri).1 [.drop uri]) := by
  have unmarked := (Step.unmark uri free).reaches
  rw [← Session.complete_drop]
  exact unmarked.trans (reaches_complete free _ _)

theorem reaches_shutdown (shared : SharedSession) :
    shared.Reaches (shared.after shared.session.shutdown []) := by
  have stopped : shared.Step _ := .stop
  refine stopped.reaches.trans ?_
  have flushed := reaches_outside (shared.withSession { shared.session with stopped := true })
    (Session.shutdown_eq shared.session)
  rwa [after_nil] at flushed ⊢

theorem reaches_applyCall (free : shared.call = none) (call : HostCall) :
    shared.Reaches (shared.after (shared.session.applyCall call)
      (call.change? shared.session.filter).toList) := by
  cases call with
  | index document =>
    have indexed := reaches_index free (fun _ => false) document
    have outcome : (shared.session.indexDocument document).2 =
        shared.session.filter.accepts document := by
      rw [Session.indexDocument_eq]
      cases shared.session.filter.accepts document <;> rfl
    rw [← Session.indexDocument, outcome] at indexed
    rw [Session.applyCall, HostCall.change?]
    convert indexed using 2
    split <;> rfl
  | remove uri => exact reaches_remove free uri
  | shutdown => exact reaches_shutdown shared

theorem reaches_calls (free : shared.call = none) (calls : List HostCall) :
    shared.Reaches (shared.after (calls.foldl Session.applyCall shared.session)
      (calls.filterMap (·.change? shared.session.filter))) := by
  induction calls generalizing shared with
  | nil =>
    rw [List.filterMap_nil, after_nil]
    exact Relation.ReflTransGen.refl
  | cons call rest ih =>
    let changes := (call.change? shared.session.filter).toList
    let between := shared.after (shared.session.applyCall call) changes
    have first : shared.Reaches between := reaches_applyCall free call
    have stillFree : between.call = none := free
    have filter : between.session.filter = shared.session.filter :=
      congrArg Frame.filter (shared.session.frame_applyCall call)
    have last := ih stillFree
    rw [filter, after_after] at last
    have all : changes ++ rest.filterMap (·.change? shared.session.filter) =
        (call :: rest).filterMap (·.change? shared.session.filter) := by
      rw [List.filterMap_cons]
      cases changed : call.change? shared.session.filter <;> simp [changes, changed]
    exact all ▸ first.trans last

/-- A refresh whose turn comes as soon as it has read its file. -/
theorem reaches_settled {path : Path} {read : Refresh} {session : Session}
    (reading : Refresh.Step shared.session (.opening path) shared.session (some read))
    (settling : Refresh.Step shared.session read session none) :
    SharedSession.Reaches { shared with refreshes := shared.refreshes ++ [.opening path] }
      (shared.withSession session) := by
  let watching : SharedSession := { shared with refreshes := shared.refreshes ++ [.opening path] }
  have waiting : watching.refreshes = shared.refreshes ++ .opening path :: [] := rfl
  have first := Step.refresh waiting reading
  let holding : SharedSession := { shared with refreshes := shared.refreshes ++ [read] ++ [] }
  have listed : holding.refreshes = shared.refreshes ++ read :: [] := List.append_nil _
  have last := Step.refresh listed settling
  rw [Option.toList_none, List.append_nil, List.append_nil] at last
  exact first.reaches.trans last.reaches

theorem reaches_refresh (free : shared.call = none) (opening : Opening) :
    shared.Reaches (shared.after (shared.session.refresh opening).1
      (((Request.refresh opening).calls shared.session).filterMap
        (·.change? shared.session.filter))) := by
  unfold Session.refresh Request.calls
  by_cases watched : shared.session.watches opening.path
  · simp only [if_pos watched]
    let watching : SharedSession :=
      { shared with refreshes := shared.refreshes ++ [.opening opening.path] }
    have begun : shared.Reaches watching := (Step.watch watched).reaches
    have stillFree : watching.call = none := free
    refine (begun.trans (reaches_calls stillFree opening.calls)).trans ?_
    let changes := opening.calls.filterMap (·.change? shared.session.filter)
    let called := shared.after (shared.session.applyCalls opening) changes
    cases opening.document with
    | some document =>
      have reading : Refresh.Step called.session (.opening opening.path) called.session _ :=
        .read document
      exact reaches_settled reading .install
    | none =>
      have reading : Refresh.Step called.session (.opening opening.path) called.session _ := .gone
      exact reaches_settled reading .drop
  · simp only [if_neg watched]
    rw [List.filterMap_nil, after_nil]
    exact Relation.ReflTransGen.refl

theorem reaches_serve (free : shared.call = none) (request : Request) :
    shared.Reaches (shared.after (shared.session.serve request)
      ((request.calls shared.session).filterMap (·.change? shared.session.filter))) := by
  cases request with
  | call call => exact reaches_calls free [call]
  | indexUnless cancelled document =>
    rw [Session.serve, Session.indexDocumentUnless_eq]
    exact reaches_calls free _
  | refresh opening => exact reaches_refresh free opening
  | saveNow => exact reaches_outside shared rfl
  | advance milliseconds =>
    have same := shared.session.store.advance_eq milliseconds
    exact reaches_outside shared (congrArg (fun store => { shared.session with store := store }) same)

theorem reaches_serves (free : shared.call = none) (requests : List Request) :
    ∃ changes, shared.Reaches (shared.after (requests.foldl Session.serve shared.session) changes) := by
  induction requests generalizing shared with
  | nil => exact ⟨[], after_nil shared shared.session ▸ Relation.ReflTransGen.refl⟩
  | cons request rest ih =>
    have first := reaches_serve free request
    obtain ⟨changes, last⟩ := @ih (shared.after (shared.session.serve request) _) free
    rw [after_after] at last
    exact ⟨_, first.trans last⟩

variable {scan : Scan} {refreshes : List Refresh} {completed : List (Change String)}

theorem reaches_stage {stage next : Stage} {scan' : Scan} (step : Stage.Step stage scan next scan') :
    Reaches ⟨scan, stage, refreshes, none, completed⟩ ⟨scan', next, refreshes, none, completed⟩ := by
  let shared : SharedSession := ⟨scan, stage, refreshes, none, completed⟩
  have moved : shared.Step _ := .startUp step
  exact moved.reaches

/-- A document that is taken in as soon as it is read. -/
theorem reaches_take {path : Path} {rest : List Path} (document : Document)
    (running : scan.session.stopped = false) :
    Reaches ⟨scan, .opening path rest, refreshes, none, completed⟩
      ⟨(scan.openFile ⟨path, [], some document⟩).take document, .scanning rest, refreshes, none,
        completed⟩ := by
  let opened := scan.openFile ⟨path, [], some document⟩
  have still : (opened.see document.uri).session = scan.session := rfl
  simp only [Scan.take, opened, still, running, SymbolTable.ofTextUnless?_never]
  by_cases accepted : scan.session.filter.accepts document
  · rw [if_pos accepted]
    have scanned := SymbolTable.ofTextUnless?_never document.text
    exact (reaches_stage (.build document _ running accepted scanned)).trans (reaches_stage .install)
  · rw [if_neg accepted]
    exact reaches_stage (.refuse document running (Bool.not_eq_true _ ▸ accepted))

/-- The calls that come while a file is opened are served in between. -/
theorem reaches_opening {path : Path} {rest : List Path} (calls : List HostCall) :
    ∃ changes, Reaches ⟨scan, .opening path rest, refreshes, none, completed⟩
      ⟨{ scan with session := calls.foldl Session.applyCall scan.session }, .opening path rest,
        refreshes, none, completed ++ changes⟩ := by
  let shared : SharedSession := ⟨scan, .opening path rest, refreshes, none, completed⟩
  have free : shared.call = none := rfl
  exact ⟨_, reaches_calls free calls⟩

theorem reaches_files (openings : List Opening) (later : List Path)
    (going : scan.stats.cancelled = false) :
    ∃ changes, Reaches
      ⟨scan, .scanning (openings.map (·.path) ++ later), refreshes, none, completed⟩
      ⟨scan.files openings,
        if (scan.files openings).stats.cancelled then .closing else .scanning later, refreshes, none,
        completed ++ changes⟩ := by
  induction openings generalizing scan completed with
  | nil =>
    have none : (scan.files []).stats.cancelled = false := going
    rw [none]
    exact ⟨[], (List.append_nil completed).symm ▸ Relation.ReflTransGen.refl⟩
  | cons opening rest ih =>
    cases stopped : scan.session.stopped with
    | true =>
      have cancelled : scan.files (opening :: rest) = scan.cancel := by rw [Scan.files, if_pos stopped]
      rw [cancelled]
      exact ⟨[], (List.append_nil completed).symm ▸ reaches_stage (.stop stopped)⟩
    | false =>
      obtain ⟨path, calls, document⟩ := opening
      let called : Scan := { scan with session := calls.foldl Session.applyCall scan.session }
      have opened := @reaches_opening scan refreshes completed path (rest.map (·.path) ++ later) calls
      obtain ⟨changes, opened⟩ := opened
      have begun := (reaches_stage (.next stopped)).trans opened
      rw [scan.files_cons _ rest stopped]
      cases document with
      | none =>
        have failed := begun.trans (reaches_stage .fail)
        have rest := @ih (called.openFile ⟨path, [], none⟩).countFailed (completed ++ changes) going
        obtain ⟨more, finished⟩ := rest
        rw [List.append_assoc] at finished
        exact ⟨changes ++ more, failed.trans finished⟩
      | some document =>
        rw [Option.isSome_some, Bool.true_and]
        cases caught : (scan.openFile ⟨path, calls, some document⟩).session.stopped with
        | true => exact ⟨changes, begun.trans (reaches_stage (.interrupt document caught))⟩
        | false =>
          rw [if_neg Bool.false_ne_true]
          let taken := (called.openFile ⟨path, [], some document⟩).take document
          have still : taken.stats.cancelled = false :=
            ((called.openFile ⟨path, [], some document⟩).take_eq document caught).2.1.trans going
          have took := begun.trans (reaches_take document caught)
          obtain ⟨more, finished⟩ := @ih taken (completed ++ changes) still
          rw [List.append_assoc] at finished
          exact ⟨changes ++ more, took.trans finished⟩

theorem reaches_warmStart :
    Reaches ⟨scan, .idle, refreshes, none, completed⟩
      ⟨{ scan with session := scan.session.warmStart }, .discovering, refreshes, none, completed⟩ := by
  have begun : Reaches ⟨scan, .idle, refreshes, none, completed⟩ _ := reaches_stage .begin
  unfold Session.warmStart
  cases loaded : scan.session.store.load with
  | ok snapshot => exact begun.trans ((reaches_stage (.load loaded)).trans (reaches_stage .seed))
  | error error => exact begun.trans (reaches_stage (.ignore loaded))

theorem reaches_scanWorkspace (discovered : Option (List Opening)) :
    ∃ changes, Reaches ⟨scan, .discovering, refreshes, none, completed⟩
      ⟨scan.session.scanWorkspace discovered, .closing, refreshes, none, completed ++ changes⟩ := by
  unfold Session.scanWorkspace
  cases discovered with
  | none => exact ⟨[], (List.append_nil completed).symm ▸ reaches_stage .undiscovered⟩
  | some openings =>
    let begun := Scan.start scan.session openings.length
    have found : Reaches ⟨scan, .discovering, refreshes, none, completed⟩
        ⟨.start scan.session (openings.map (·.path)).length, .scanning (openings.map (·.path)),
          refreshes, none, completed⟩ := reaches_stage (.discover _)
    rw [List.length_map] at found
    have going : begun.stats.cancelled = false := rfl
    obtain ⟨changes, scanned⟩ := @reaches_files begun refreshes completed openings [] going
    rw [List.append_nil] at scanned
    refine ⟨changes, (found.trans scanned).trans ?_⟩
    simp only [Option.getD_some, Option.isSome_some, Bool.true_and]
    cases cancelled : (begun.files openings).stats.cancelled with
    | true =>
      rw [if_pos rfl, if_neg (by simp)]
      exact Relation.ReflTransGen.refl
    | false =>
      rw [if_neg Bool.false_ne_true, if_pos (by simp)]
      exact (reaches_stage .finish).trans (reaches_stage .prune)

/-- An initialization from which no task takes over is a run of the tasks. -/
theorem reaches_ensureInitialized (fresh : scan.session.initialized = none)
    (discovered : Option (List Opening)) :
    ∃ changes, Reaches ⟨scan, .idle, refreshes, none, completed⟩
      ⟨{ scan.session.initialScan discovered with
          session := (scan.session.ensureInitialized discovered).1 },
        .done, refreshes, none, completed ++ changes⟩ := by
  have warm : Reaches ⟨scan, .idle, refreshes, none, completed⟩ _ := reaches_warmStart
  obtain ⟨changes, scanned⟩ := reaches_scanWorkspace discovered
  refine ⟨changes, (warm.trans scanned).trans ?_⟩
  rw [Session.ensureInitialized, fresh]
  exact reaches_stage .close

end SharedSession

/-- What a session comes to that serves requests and is then initialized, one thing after another, the
tasks come to as well. -/
theorem SharedSession.reaches_initialized (root : Path) (settings : Settings) (disk : Disk)
    (requests : List Request) (discovered : Option (List Opening)) :
    ∃ shared, (start root settings disk).Reaches shared ∧
      shared.session = ((Session.serving root settings disk requests).ensureInitialized discovered).1 := by
  have free : (start root settings disk).call = none := rfl
  obtain ⟨changes, served⟩ := reaches_serves free requests
  let scan : Scan := .start (.serving root settings disk requests) 0
  have fresh : scan.session.initialized = none := (Session.serving_frame root settings disk requests).2
  obtain ⟨more, initialized⟩ := reaches_ensureInitialized fresh discovered
  exact ⟨_, served.trans initialized, rfl⟩

end AssemblySymbols
