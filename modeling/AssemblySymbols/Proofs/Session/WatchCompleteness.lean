import AssemblySymbols.Proofs.Session.WatchRuns

/-! What the index holds when the watch is over. A change that comes between the reading of a file and
its installation makes the index out of date for a while, but its event is still to be received, and
with it comes a refresh that starts later. -/
namespace AssemblySymbols

/-- What a document will be once a refresh that has found its file is through. -/
def Refresh.expect (index : SymbolIndex) (uri : String) : Refresh → Option SymbolTable
  | opening _ => index.document? uri
  | installing own table => if uri = own then some table else index.document? uri
  | dropping own => if uri = own then none else index.document? uri

theorem Refresh.expect_found (index : SymbolIndex) (uri : String) (path : Path) (text? : Option String) :
    (found path text?).expect index uri =
      if uri = path.text then text?.map .ofText else index.document? uri := by
  cases text? <;> rfl

theorem Refresh.Step.document? {session after : Session} {refresh : Refresh}
    (unhosted : session.hostDocuments = []) (step : Refresh.Step session refresh after none) :
    after.hostDocuments = [] ∧ ∀ uri, after.index.document? uri = refresh.expect session.index uri := by
  have free (uri : String) : session.isHosted uri = false := by simp [Session.isHosted, unhosted]
  cases step with
  | @install uri table =>
    have installed : session.installFile uri table = (session.modifyIndex (·.replace uri table), true) := by
      simp [Session.installFile, free]
    obtain ⟨-, holdings⟩ := Session.requestSave_if (session.modifyIndex (·.replace uri table)) true
    rw [installed]
    refine ⟨(congrArg Holdings.hosted holdings).trans unhosted, fun asked => ?_⟩
    exact (congrArg (·.index.document? asked) holdings).trans
      (SymbolIndex.document?_replace session.index uri table asked)
  | @drop uri =>
    obtain ⟨-, dropped⟩ := session.dropFile_eq uri
    obtain ⟨-, holdings⟩ := Session.requestSave_if (session.dropFile uri).1 (session.dropFile uri).2
    have discarded : session.holdings.discard uri = ⟨session.index.remove uri, session.hostDocuments⟩ := by
      rw [Holdings.discard, if_neg]
      · rfl
      · rw [show session.holdings.hosted = [] from unhosted]
        exact List.not_mem_nil
    have after := holdings.trans (dropped.trans discarded)
    refine ⟨(congrArg Holdings.hosted after).trans unhosted, fun asked => ?_⟩
    exact (congrArg (·.index.document? asked) after).trans
      (SymbolIndex.document?_remove session.index uri asked)

namespace WatchNote
variable {kept : FileEvent → List Path} {log : List WatchNote} {entry : WatchNote} {path : Path}

/-- The paths of interest are spelled in one way each. -/
def OneSpelling (kept : FileEvent → List Path) (log : List WatchNote) : Prop :=
  ∀ event path event' path', .told event ∈ log → path ∈ kept event → .told event' ∈ log →
    path' ∈ kept event' → path.components = path'.components → path = path'

/-- Every change of a file is followed by an event for it. -/
def Announced (log : List WatchNote) : Prop :=
  ∀ later path earlier, log = later ++ .changed path :: earlier →
    ∃ event, .told event ∈ later ∧ ∃ other ∈ event.changedPaths, other.components = path.components

/-- A change of the file is not followed by an event yet. -/
def Unannounced (log : List WatchNote) (path : Path) : Prop :=
  ∃ later changedPath earlier, log = later ++ .changed changedPath :: earlier ∧
    changedPath.components = path.components ∧
    ∀ event, .told event ∈ later → ∀ other ∈ event.changedPaths, other.components ≠ path.components

theorem OneSpelling.of_subset {more : List WatchNote} (spelled : OneSpelling kept more)
    (fewer : log ⊆ more) : OneSpelling kept log :=
  fun event path event' path' told follows told' follows' =>
    spelled event path event' path' (fewer told) follows (fewer told') follows'

theorem Unannounced.cons (unannounced : Unannounced log path)
    (untold : ∀ event, entry = .told event → ∀ other ∈ event.changedPaths,
      other.components ≠ path.components) : Unannounced (entry :: log) path := by
  obtain ⟨later, changedPath, earlier, split, same, silent⟩ := unannounced
  refine ⟨entry :: later, changedPath, earlier, by rw [split, List.cons_append], same, ?_⟩
  intro event told
  rcases List.mem_cons.mp told with here | before
  · exact untold event here.symm
  · exact silent event before

theorem announced_nil : Announced [] := by
  intro later path earlier split
  simp at split

theorem Announced.cons (announced : Announced log) (unchanged : ∀ path, entry ≠ .changed path) :
    Announced (entry :: log) := by
  intro later path earlier split
  rcases split_cons split with ⟨-, here, -⟩ | ⟨newer, rfl, before⟩
  · exact absurd here (unchanged path)
  · obtain ⟨event, told, other⟩ := announced newer path earlier before
    exact ⟨event, List.mem_cons_of_mem _ told, other⟩

/-- A change is announced as soon as its event comes. -/
theorem Announced.tell (announced : Announced log) {event : FileEvent}
    (inside : path ∈ event.changedPaths) : Announced (.told event :: .changed path :: log) := by
  intro later other earlier split
  rcases split_cons split with ⟨-, here, -⟩ | ⟨behind, rfl, split'⟩
  · contradiction
  rcases split_cons split' with ⟨rfl, here, -⟩ | ⟨newer, rfl, before⟩
  · cases here
    exact ⟨event, List.mem_cons_self, path, inside, rfl⟩
  · obtain ⟨event', told, announcing⟩ := announced newer other earlier before
    exact ⟨event', List.mem_cons_of_mem _ (List.mem_cons_of_mem _ told), announcing⟩

theorem Announced.not_unannounced (announced : Announced log) : ¬ Unannounced log path := by
  rintro ⟨later, changedPath, earlier, split, same, silent⟩
  obtain ⟨event, told, other, inside, spelled⟩ := announced later changedPath earlier split
  exact silent event told other inside (spelled.trans same)

end WatchNote

namespace WatchLoop
variable {filter : DocumentFilter} {root : Path} {begun : Session} {loop next : WatchLoop}

/-- What a document will be once the refresh under way is through. -/
def prospect (loop : WatchLoop) (uri : String) : Option SymbolTable :=
  loop.stage.current.elim (loop.session.index.document? uri)
    (Refresh.expect loop.session.index uri)

/-- The index has not seen the path as it was when its last event came, but will. -/
def Due (filter : DocumentFilter) (root : Path) (loop : WatchLoop) (path : Path) : Prop :=
  path ∈ loop.waiting ∨ loop.stage.current = some (.opening path) ∨
  ∃ event ∈ loop.queue, ∃ other ∈ event.followedPaths filter root, other.components = path.components

/-- How the index stands to the files as long as nobody else changes documents. -/
structure Follows (filter : DocumentFilter) (root : Path) (begun : Session) (loop : WatchLoop) : Prop where
  unhosted : loop.session.hostDocuments = []
  opened : ∀ path, loop.stage.current = some (.opening path) →
    WatchNote.Known (·.followedPaths filter root) loop.log path
  known : ∀ path, WatchNote.Known (·.followedPaths filter root) loop.log path →
    loop.Due filter root path ∨ WatchNote.Unannounced loop.log path ∨
    loop.prospect path.text = (loop.files.read path).map .ofText
  unknown : ∀ uri, (∀ path, WatchNote.Known (·.followedPaths filter root) loop.log path → path.text ≠ uri) →
    loop.prospect uri = begun.index.document? uri

theorem Sound.known_told (sound : loop.Sound filter root) {path : Path}
    (known : WatchNote.Known (·.followedPaths filter root) loop.log path) :
    ∃ event, .told event ∈ loop.log ∧ path ∈ event.followedPaths filter root := by
  obtain ⟨event, received, follows⟩ := known
  exact ⟨event, (sound.told event).mpr (.inl received), follows⟩

/-- Known paths with the same components are the same. -/
theorem Sound.known_eq (sound : loop.Sound filter root)
    (spelled : WatchNote.OneSpelling (·.followedPaths filter root) loop.log) {path other : Path}
    (known : WatchNote.Known (·.followedPaths filter root) loop.log path)
    (known' : WatchNote.Known (·.followedPaths filter root) loop.log other)
    (same : path.components = other.components) : path = other := by
  obtain ⟨event, told, follows⟩ := sound.known_told known
  obtain ⟨event', told', follows'⟩ := sound.known_told known'
  exact spelled event path event' other told follows told' follows' same

theorem prospect_of_idle (idle : loop.stage.current = none) (uri : String) :
    loop.prospect uri = loop.session.index.document? uri := by
  rw [prospect, idle]
  rfl

theorem follows_start (unhosted : begun.hostDocuments = []) (files : WorkspaceFiles) :
    (start begun files).Follows filter root begun where
  unhosted := unhosted
  opened := nofun
  known := by
    rintro path ⟨event, received, -⟩
    exact absurd received List.not_mem_nil
  unknown := fun _ _ => rfl

namespace Follows

/-- Steps that neither change what will become of a document nor give up a path. -/
theorem still (follows : loop.Follows filter root begun) (files : next.files = loop.files)
    (log : next.log = loop.log) (queue : next.queue = loop.queue)
    (unhosted : next.session.hostDocuments = [])
    (waiting : ∀ path ∈ loop.waiting, path ∈ next.waiting)
    (opening : ∀ path, next.stage.current = some (.opening path) ↔
      loop.stage.current = some (.opening path))
    (prospect : ∀ uri, next.prospect uri = loop.prospect uri) : next.Follows filter root begun where
  unhosted := unhosted
  opened := fun path open' => log ▸ follows.opened path ((opening path).mp open')
  known := by
    intro path known
    rw [log] at known ⊢
    rw [files, prospect]
    refine (follows.known path known).imp_left fun due => ?_
    rcases due with waits | open' | queued
    · exact .inl (waiting path waits)
    · exact .inr (.inl ((opening path).mpr open'))
    · exact .inr (.inr (queue ▸ queued))
  unknown := by
    intro uri unknown
    rw [log] at unknown
    rw [prospect]
    exact follows.unknown uri unknown

/-- Steps from an idle stage to an idle one that leave the session alone and give up no path. -/
theorem idly (follows : loop.Follows filter root begun) (files : next.files = loop.files)
    (log : next.log = loop.log) (queue : next.queue = loop.queue) (session : next.session = loop.session)
    (idle : loop.stage.current = none) (idle' : next.stage.current = none)
    (waiting : ∀ path ∈ loop.waiting, path ∈ next.waiting) : next.Follows filter root begun := by
  refine follows.still files log queue (session ▸ follows.unhosted) waiting (fun path => ?_) fun uri => ?_
  · rw [idle, idle']
  · rw [prospect_of_idle idle, prospect_of_idle idle', session]

theorem change (follows : loop.Follows filter root begun) {path : Path} {files : WorkspaceFiles}
    (others : ∀ other, other.components ≠ path.components → files other = loop.files other) :
    Follows filter root begun { loop with files := files, log := .changed path :: loop.log } where
  unhosted := follows.unhosted
  opened := fun other open' => (follows.opened other open').cons _
  known := by
    intro other known
    rcases follows.known other (known.of_cons (by simp)) with due | unannounced | same
    · exact .inl due
    · exact .inr (.inl (unannounced.cons (by simp)))
    · by_cases own : other.components = path.components
      · exact .inr (.inl ⟨[], path, loop.log, rfl, own.symm, fun _ => nofun⟩)
      · have kept : loop.files.read other = files.read other := by
          rw [WorkspaceFiles.read, WorkspaceFiles.read, others other own]
        exact .inr (.inr (same.trans (congrArg _ kept)))
  unknown := fun uri unknown => follows.unknown uri fun other known => unknown other (known.cons _)

theorem tell (follows : loop.Follows filter root begun) (event : FileEvent) :
    Follows filter root begun
      { loop with queue := loop.queue ++ [event], log := .told event :: loop.log } where
  unhosted := follows.unhosted
  opened := fun path open' => (follows.opened path open').cons _
  known := by
    intro path known
    have before := known.of_cons (by simp)
    rcases follows.known path before with due | unannounced | same
    · refine .inl (due.imp_right (Or.imp_right ?_))
      rintro ⟨earlier, queued, other⟩
      exact ⟨earlier, List.mem_append_left _ queued, other⟩
    · by_cases announced : ∃ other ∈ event.changedPaths, other.components = path.components
      · obtain ⟨other, inside, same⟩ := announced
        obtain ⟨earlier, -, followed⟩ := before
        have followed' : filter.followsPath root other = true := by
          rw [filter.followsPath_congr same]
          exact (List.mem_filter.mp followed).2
        exact .inl (.inr (.inr
          ⟨event, by simp, other, List.mem_filter.mpr ⟨inside, followed'⟩, same⟩))
      · refine .inr (.inl (unannounced.cons fun told here => ?_))
        cases here
        exact fun other inside same => announced ⟨other, inside, same⟩
    · exact .inr (.inr same)
  unknown := fun uri unknown => follows.unknown uri fun other known => unknown other (known.cons _)

theorem receive (follows : loop.Follows filter root begun) (sound : loop.Sound filter root)
    (collecting : loop.stage = .collecting) {event : FileEvent} {later : List FileEvent}
    (first : loop.queue = event :: later)
    (spelled : WatchNote.OneSpelling (·.followedPaths filter root) (.received event :: loop.log)) :
    Follows filter root begun
      { loop with
        watch := loop.watch.receive event
        queue := later
        log := .received event :: loop.log } := by
  let next : WatchLoop :=
    { loop with
      watch := loop.watch.receive event
      queue := later
      log := .received event :: loop.log }
  have sound' : next.Sound filter root := sound.receive collecting first
  have changes := sound.changes_receive event
  -- A path that comes under another spelling is the same path.
  have noted : ∀ path, WatchNote.Known (·.followedPaths filter root) next.log path →
      ∀ other ∈ event.followedPaths filter root, other.components = path.components →
        path ∈ next.waiting := by
    intro path known other inside same
    obtain ⟨found, member, same'⟩ := Watch.spelled_notes loop.watch.changes inside
    have waits : found ∈ next.waiting := List.mem_append_left _ (changes ▸ member)
    have equal := sound'.known_eq spelled (sound'.waiting found waits) known (same'.trans same)
    exact equal ▸ waits
  exact {
    unhosted := follows.unhosted
    opened := fun path open' => by
      have idle : loop.stage.current = some (.opening path) := open'
      rw [collecting] at idle
      contradiction
    known := by
      intro path known
      by_cases inside : path ∈ event.followedPaths filter root
      · exact .inl (.inl (noted path known path inside rfl))
      have before : WatchNote.Known (·.followedPaths filter root) loop.log path := by
        obtain ⟨earlier, received, followed⟩ := known
        rcases List.mem_cons.mp received with here | received
        · cases here
          exact absurd followed inside
        · exact ⟨earlier, received, followed⟩
      rcases follows.known path before with (waits | open' | queued) | unannounced | same
      · have inChanges : path ∈ loop.watch.changes := waiting_collecting collecting ▸ waits
        exact .inl (.inl (List.mem_append_left _ (changes ▸ Watch.mem_notes_of_mem inChanges _)))
      · exact .inl (.inr (.inl open'))
      · obtain ⟨earlier, queued, other, kept, same⟩ := queued
        rcases List.mem_cons.mp (first ▸ queued) with rfl | waits
        · exact .inl (.inl (noted path known other kept same))
        · exact .inl (.inr (.inr ⟨earlier, waits, other, kept, same⟩))
      · exact .inr (.inl (unannounced.cons (by simp)))
      · exact .inr (.inr same)
    unknown := fun uri unknown => follows.unknown uri fun other known => unknown other (known.cons _) }

theorem pass (follows : loop.Follows filter root begun) (sound : loop.Sound filter root) {path : Path}
    {rest : List Path} {last : Bool} (applying : loop.stage = .applying (path :: rest) none last) :
    (loop.pass path rest last).Follows filter root begun := by
  obtain ⟨before, after⟩ := sound.waiting_pass applying
  have passing : WatchNote.Known (·.followedPaths filter root) loop.log path :=
    sound.waiting path (before ▸ List.mem_cons_self)
  have watched : loop.session.watches path = true := by
    obtain ⟨event, -, followed⟩ := passing
    have accepted := (Bool.and_eq_true_iff.mp (List.mem_filter.mp followed).2).1
    simp [Session.watches, Session.isHosted, follows.unhosted, sound.filtered, accepted]
  have current : (loop.pass path rest last).stage.current = some (.opening path) :=
    if_pos watched
  have idle : loop.stage.current = none := by rw [applying]; rfl
  have prospect (uri : String) : (loop.pass path rest last).prospect uri = loop.prospect uri := by
    rw [prospect_of_idle idle, WatchLoop.prospect, current]
    rfl
  exact {
    unhosted := follows.unhosted
    opened := fun other open' => by
      cases current.symm.trans open'
      exact passing.cons _
    known := by
      intro other known
      rcases follows.known other (known.of_cons (by simp)) with (waits | open' | queued) | rest
      · rcases List.mem_cons.mp (before ▸ waits) with rfl | later
        · exact .inl (.inr (.inl current))
        · exact .inl (.inl (by rwa [after]))
      · rw [idle] at open'
        contradiction
      · exact .inl (.inr (.inr queued))
      · refine .inr (rest.imp (·.cons (by simp)) fun same => ?_)
        rw [prospect]
        exact same
    unknown := fun uri unknown => (prospect uri).trans
      (follows.unknown uri fun other known => unknown other (known.cons _)) }

theorem find (follows : loop.Follows filter root begun) {path : Path} {rest : List Path} {last : Bool}
    (applying : loop.stage = .applying rest (some (.opening path)) last) :
    Follows filter root begun
      { loop with stage := .applying rest (some (.found path (loop.files.read path))) last } := by
  let next : WatchLoop :=
    { loop with stage := .applying rest (some (.found path (loop.files.read path))) last }
  have before : loop.stage.current = some (.opening path) := by rw [applying]; rfl
  have passing := follows.opened path before
  have prospect (uri : String) : next.prospect uri =
      if uri = path.text then (loop.files.read path).map .ofText else loop.prospect uri := by
    rw [WatchLoop.prospect, WatchLoop.prospect, before]
    exact Refresh.expect_found loop.session.index uri path (loop.files.read path)
  exact {
    unhosted := follows.unhosted
    opened := fun other open' => absurd (Option.some.inj open') (Refresh.found_ne_opening path _ other)
    known := by
      intro other known
      by_cases own : other = path
      · subst own
        exact .inr (.inr ((prospect other.text).trans (if_pos rfl)))
      have apart : other.text ≠ path.text := fun same => own (by cases other; cases path; exact congrArg _ same)
      rcases follows.known other known with (waits | open' | queued) | rest
      · rw [WatchLoop.waiting, applying] at waits
        exact .inl (.inl waits)
      · cases before.symm.trans open'
        exact absurd rfl own
      · exact .inl (.inr (.inr queued))
      · refine .inr (rest.imp_right fun same => ?_)
        rw [show next.prospect other.text = _ from prospect other.text, if_neg apart]
        exact same
    unknown := by
      intro uri unknown
      rw [show WatchLoop.prospect _ uri = _ from prospect uri, if_neg (unknown path passing).symm]
      exact follows.unknown uri unknown }

end Follows

theorem Step.follows (step : loop.Step next) (sound : loop.Sound filter root)
    (undisturbed : .disturbed ∉ next.log)
    (spelled : WatchNote.OneSpelling (·.followedPaths filter root) next.log)
    (follows : loop.Follows filter root begun) : next.Follows filter root begun := by
  cases step with
  | change path others => exact follows.change others
  | tell event unclosed => exact follows.tell event
  | close =>
    exact follows.still rfl rfl rfl follows.unhosted (fun _ => id) (fun _ => .rfl) fun _ => rfl
  | receive collecting first => exact follows.receive sound collecting first spelled
  | @pause batch collecting collected order | @drained batch collecting collected order closed empty =>
    refine follows.idly rfl rfl rfl rfl (by rw [collecting]; rfl) rfl fun path waits => ?_
    exact order.mem_iff.mpr (waiting_collecting collecting ▸ waits)
  | leave collecting settled closed empty =>
    refine follows.idly rfl rfl rfl rfl (by rw [collecting]; rfl) rfl fun path waits => ?_
    rwa [waiting, collecting] at waits
  | pass applying => exact follows.pass sound applying
  | find applying => exact follows.find applying
  | @apply refresh rest last session applying step =>
    obtain ⟨unhosted, documents⟩ := step.document? follows.unhosted
    have current : loop.stage.current = some refresh := by rw [applying]; rfl
    refine follows.still rfl rfl rfl unhosted (fun path waits => ?_) (fun path => ?_) fun uri => ?_
    · rwa [waiting, applying] at waits
    · rw [current]
      cases step <;> simp [WatchStage.current]
    · rw [prospect, prospect, current]
      exact documents uri
  | @applied last applying =>
    have idle' : (if last then WatchStage.finished else .collecting).current = none := by cases last <;> rfl
    refine follows.idly rfl rfl rfl rfl (by rw [applying]; rfl) idle' fun path waits => ?_
    rw [waiting, applying, WatchStage.rest, List.append_nil] at waits
    exact List.mem_append_left _ waits
  | aside sameRoot sameSettings same =>
    refine follows.still rfl rfl rfl ((congrArg Holdings.hosted same).trans follows.unhosted)
      (fun _ => id) (fun _ => .rfl) fun uri => ?_
    have indexed := congrArg Holdings.index same
    exact congrArg (fun index : SymbolIndex =>
      loop.stage.current.elim (index.document? uri) (Refresh.expect index uri)) indexed
  | disturb sameRoot sameSettings => exact absurd List.mem_cons_self undisturbed

/-- Notes are added and never taken away. -/
theorem Step.log_suffix (step : loop.Step next) : loop.log <:+ next.log := by
  cases step with
  | change | tell | receive | pass | disturb => exact List.suffix_cons ..
  | close | pause | drained | leave | find | apply | applied | aside => exact List.suffix_refl _

theorem Reaches.follows (reaches : loop.Reaches next) (sound : loop.Sound filter root)
    (undisturbed : .disturbed ∉ next.log)
    (spelled : WatchNote.OneSpelling (·.followedPaths filter root) next.log)
    (follows : loop.Follows filter root begun) : next.Follows filter root begun := by
  induction reaches with
  | refl => exact follows
  | tail first step ih =>
    have earlier := step.log_suffix.subset
    have undisturbed' := fun disturbed => undisturbed (earlier disturbed)
    have spelled' := spelled.of_subset earlier
    exact step.follows (Reaches.sound first sound) undisturbed spelled (ih undisturbed' spelled')

/-- When the watch is over, nothing waits in any of the places where something may be due. -/
theorem Sound.finished (sound : loop.Sound filter root) (finished : loop.stage = .finished) :
    loop.waiting = [] ∧ loop.queue = [] ∧
    ∀ event, .told event ∈ loop.log ↔ .received event ∈ loop.log := by
  obtain ⟨-, empty⟩ := sound.ended (by rw [finished]; rfl)
  refine ⟨?_, empty, fun event => ?_⟩
  · rw [WatchLoop.waiting, sound.drained (by simp [finished]), finished]
    rfl
  · simpa [empty] using sound.told event

theorem Follows.finished (follows : loop.Follows filter root begun) (sound : loop.Sound filter root)
    (finished : loop.stage = .finished) (announced : WatchNote.Announced loop.log) :
    (∀ event path, .told event ∈ loop.log → path ∈ event.followedPaths filter root →
      loop.session.index.document? path.text = (loop.files.read path).map .ofText) ∧
    ∀ uri,
      (∀ event path, .told event ∈ loop.log → path ∈ event.followedPaths filter root → path.text ≠ uri) →
      loop.session.index.document? uri = begun.index.document? uri := by
  obtain ⟨nothing, empty, told⟩ := sound.finished finished
  have idle : loop.stage.current = none := by rw [finished]; rfl
  refine ⟨fun event path toldEvent follow => ?_, fun uri unknown => ?_⟩
  · rw [← prospect_of_idle idle]
    rcases follows.known path ⟨event, (told event).mp toldEvent, follow⟩ with
      (waits | open' | ⟨other, queued, -⟩) | unannounced | same
    · simp [nothing] at waits
    · rw [idle] at open'
      contradiction
    · simp [empty] at queued
    · exact absurd unannounced announced.not_unannounced
    · exact same
  · rw [← prospect_of_idle idle]
    refine follows.unknown uri ?_
    rintro path ⟨event, received, follow⟩
    exact unknown event path ((told event).mpr received) follow

/-- Nothing that has been received is left out and nothing else is refreshed. If nobody else changes
documents, the index shows the files of interest as they are in the end, and any other run with the same
events and the same files in the end leaves the same tables, whatever its pauses and the orders of its
batches. A document is named by its path, so paths are one document exactly if they are spelled alike. -/
theorem watch_loses_nothing {session : Session} {files : WorkspaceFiles}
    (run : (start session files).Reaches loop) (finished : loop.stage = .finished) :
    let kept := fun event : FileEvent => event.followedPaths session.filter session.root
    (∀ later event earlier, loop.log = later ++ .received event :: earlier → ∀ path ∈ kept event,
      ∃ spelled, spelled.components = path.components ∧ .passed spelled ∈ later) ∧
    (∀ later path earlier, loop.log = later ++ .passed path :: earlier →
      ∃ event, .received event ∈ earlier ∧ path ∈ kept event) ∧
    (∀ event, .told event ∈ loop.log → .received event ∈ loop.log) ∧
    (session.hostDocuments = [] → .disturbed ∉ loop.log → WatchNote.Announced loop.log →
      WatchNote.OneSpelling kept loop.log →
      (∀ event path, .told event ∈ loop.log → path ∈ kept event →
        loop.session.index.document? path.text = (loop.files.read path).map .ofText) ∧
      (∀ uri, (∀ event path, .told event ∈ loop.log → path ∈ kept event → path.text ≠ uri) →
        loop.session.index.document? uri = session.index.document? uri) ∧
      ∀ (files' : WorkspaceFiles) (other : WatchLoop), (start session files').Reaches other →
        other.stage = .finished → .disturbed ∉ other.log → WatchNote.Announced other.log →
        (∀ event, .told event ∈ other.log ↔ .told event ∈ loop.log) →
        (∀ event path, .told event ∈ loop.log → path ∈ kept event →
          other.files.read path = loop.files.read path) →
        ∀ uri, other.session.index.document? uri = loop.session.index.document? uri) := by
  intro kept
  have sound := run.sound (sound_start session files)
  obtain ⟨nothing, -, told⟩ := sound.finished finished
  refine ⟨fun later event earlier split path follow => ?_, sound.justified,
    fun event => (told event).mp, fun unhosted undisturbed announced spelled => ?_⟩
  · obtain ⟨spelled, same, passed | waits⟩ := sound.answered later event earlier split path follow
    · exact ⟨spelled, same, passed⟩
    · simp [nothing] at waits
  have follows := run.follows (sound_start session files) undisturbed spelled
    (follows_start unhosted files)
  obtain ⟨shown, kept'⟩ := follows.finished sound finished announced
  refine ⟨shown, kept', fun files' other run' finished' undisturbed' announced' events texts uri => ?_⟩
  have spelled' : WatchNote.OneSpelling kept other.log :=
    fun event path event' path' told follow told' follow' =>
      spelled event path event' path' ((events event).mp told) follow ((events event').mp told') follow'
  have follows' := run'.follows (sound_start session files') undisturbed' spelled'
    (follows_start unhosted files')
  obtain ⟨shown', kept''⟩ := follows'.finished (run'.sound (sound_start session files')) finished' announced'
  by_cases known : ∃ event path, .told event ∈ loop.log ∧ path ∈ kept event ∧ path.text = uri
  · obtain ⟨event, path, told, follow, rfl⟩ := known
    rw [shown event path told follow, shown' event path ((events event).mpr told) follow,
      texts event path told follow]
  · have unknown : ∀ event path, .told event ∈ loop.log → path ∈ kept event → path.text ≠ uri :=
      fun event path told follow same => known ⟨event, path, told, follow, same⟩
    rw [kept' uri unknown, kept'' uri fun event path told =>
      unknown event path ((events event).mp told)]

/-- One source in the root. -/
def oneSource (text : String) : WorkspaceFiles := fun path =>
  if path.components = [.root, .name "a.asm"] then some ⟨text, true⟩ else none

/-- A file is edited while its refresh waits for the index. -/
theorem watch_loses_nothing_edited :
    let path : Path := ⟨"/a.asm"⟩
    let event := FileEvent.changed [path]
    ∃ loop : WatchLoop,
      (start (.start ⟨"/"⟩ (.defaults none) .empty) (oneSource "start:")).Reaches loop ∧
      loop.stage = .finished ∧
      loop.log = [.passed path, .received event, .told event, .changed path,
        .passed path, .received event, .told event] ∧
      loop.session.index.document? path.text = some (.ofText "other:") := by
  intro path event
  let session := Session.start ⟨"/"⟩ (.defaults none) .empty
  let refreshed := (session.refresh (.plain (oneSource "start:").read path)).1
  let ended := (refreshed.refresh (.plain (oneSource "other:").read path)).1
  have followed : session.filter.followsPath session.root path = true := by decide +kernel
  have watched : session.watches path = true := by decide +kernel
  have around : refreshed.surroundings = session.surroundings :=
    (Refresh.step_plain watched (oneSource "start:").read).surroundings
  have root : refreshed.root = session.root := congrArg Surroundings.root around
  have settings : refreshed.settings = session.settings := congrArg Surroundings.settings around
  have followed' : refreshed.filter.followsPath refreshed.root path = true := by
    rw [Session.filter, root, settings]
    exact followed
  let loop (watch : Watch) (text : String) (queue : List FileEvent) (closed : Bool)
      (stage : WatchStage) (log : List WatchNote) : WatchLoop :=
    ⟨watch, oneSource text, queue, closed, stage, log⟩
  let log : List WatchNote := [.passed path, .received event, .told event]
  let log' : List WatchNote := .received event :: .told event :: .changed path :: log
  let found := Refresh.found path ((oneSource "start:").read path)
  let told := loop ⟨session, []⟩ "start:" [event] false .collecting [.told event]
  let received :=
    loop ⟨session, [path]⟩ "start:" [] false .collecting [.received event, .told event]
  let batch :=
    loop ⟨session, []⟩ "start:" [] false (.applying [path] none false) [.received event, .told event]
  let opening := loop ⟨session, []⟩ "start:" [] false (.applying [] (some (.opening path)) false) log
  let waiting := loop ⟨session, []⟩ "start:" [] false (.applying [] (some found) false) log
  have first : told.Reaches waiting := by
    have receives : told.Step received := .receive_one rfl rfl rfl followed
    have pauses : received.Step batch := .pause rfl (List.cons_ne_nil path []) (.refl _)
    have opens : batch.Step opening := .open_watched rfl watched
    have finds : opening.Step waiting := .find rfl
    exact .tail (.tail (.tail (.single receives) pauses) opens) finds
  let edited := loop ⟨session, []⟩ "other:" [] false (.applying [] (some found) false) (.changed path :: log)
  let toldAgain := loop ⟨session, []⟩ "other:" [event] false (.applying [] (some found) false)
    (.told event :: .changed path :: log)
  let installed := loop ⟨refreshed, []⟩ "other:" [event] false (.applying [] none false)
    (.told event :: .changed path :: log)
  let collecting := loop ⟨refreshed, []⟩ "other:" [event] false .collecting
    (.told event :: .changed path :: log)
  let receivedAgain := loop ⟨refreshed, [path]⟩ "other:" [] false .collecting log'
  have second : waiting.Reaches receivedAgain := by
    have edits : waiting.Step edited := by
      refine .change path fun other apart => ?_
      have missing (text : String) : oneSource text other = none :=
        if_neg fun same => apart (same.trans (by decide +kernel))
      exact (missing "other:").trans (missing "start:").symm
    have tells : edited.Step toldAgain := .tell event rfl
    have installs : toldAgain.Step installed :=
      .apply rfl (Refresh.step_plain watched (oneSource "start:").read)
    have applied : installed.Step collecting := @Step.applied installed false rfl
    have receives : collecting.Step receivedAgain := .receive_one rfl rfl rfl followed'
    exact .tail (.tail (.tail (.tail (.single edits) tells) installs) applied) receives
  let closed := loop ⟨refreshed, [path]⟩ "other:" [] true .collecting log'
  let lastBatch := loop ⟨refreshed, []⟩ "other:" [] true (.applying [path] none true) log'
  let refreshedAgain :=
    loop ⟨ended, []⟩ "other:" [] true (.applying [] none true) (.passed path :: log')
  let finished := loop ⟨ended, []⟩ "other:" [] true .finished (.passed path :: log')
  have third : receivedAgain.Reaches finished := by
    have closes : receivedAgain.Step closed := .close
    have drains : closed.Step lastBatch :=
      .drained rfl (List.cons_ne_nil path []) (.refl _) rfl rfl
    have refreshes : lastBatch.Reaches refreshedAgain := reaches_refresh rfl
    have leaves : refreshedAgain.Step finished := @Step.applied refreshedAgain true rfl
    exact .tail (.trans (.tail (.single closes) drains) refreshes) leaves
  have tells : (start session (oneSource "start:")).Step told := .tell event rfl
  have run : (start session (oneSource "start:")).Reaches finished :=
    .trans (.trans (.trans (.single tells) first) second) third
  have events : ∀ other, .told other ∈ finished.log → other = event := by
    intro other toldOther
    simpa [finished, loop, log', log] using toldOther
  have announced : WatchNote.Announced finished.log := by
    have begun : WatchNote.Announced log :=
      ((WatchNote.announced_nil.cons (by simp)).cons (by simp)).cons (by simp)
    exact ((begun.tell List.mem_cons_self).cons (by simp)).cons (by simp)
  have spelled : WatchNote.OneSpelling (·.followedPaths session.filter session.root) finished.log := by
    have only : ∀ other, .told other ∈ finished.log → ∀ path' ∈ other.followedPaths session.filter session.root,
        path' = path := by
      intro other toldOther path' follow
      cases events other toldOther
      exact List.mem_singleton.mp (List.mem_filter.mp follow).1
    intro one path₁ two path₂ told₁ follow₁ told₂ follow₂ same
    rw [only one told₁ path₁ follow₁, only two told₂ path₂ follow₂]
  obtain ⟨-, -, -, shown⟩ := watch_loses_nothing run rfl
  obtain ⟨documents, -⟩ := shown rfl (by simp [finished, loop, log', log]) announced spelled
  refine ⟨finished, run, rfl, rfl, ?_⟩
  rw [documents event path (by simp [finished, loop, log', log])
    (List.mem_filter.mpr ⟨List.mem_cons_self, followed⟩)]
  rw [show finished.files.read path = some "other:" by decide +kernel]
  rfl

end WatchLoop
end AssemblySymbols
