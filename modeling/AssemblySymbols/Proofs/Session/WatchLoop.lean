import AssemblySymbols.Proofs.Paths
import AssemblySymbols.Proofs.Session.IncrementalRefresh
import AssemblySymbols.Proofs.Session.Interleaving
import AssemblySymbols.Session.Watch

/-! The task that follows the changes on disk. Events wait in a channel, and the task takes them one by
one. After a pause it gives each path collected so far to a refresh, in any order. Files change and
events come at any time, also while a refresh has read its file and waits for the index. -/
namespace AssemblySymbols

/-- What is noted of a watch. -/
inductive WatchNote where
  /-- The file at a path has changed. -/
  | changed (path : Path)
  /-- An event has come into the channel. -/
  | told (event : FileEvent)
  /-- An event has been taken from the channel. -/
  | received (event : FileEvent)
  /-- A path has been given to a refresh. -/
  | passed (path : Path)
  /-- Another task has changed documents or taken them over. -/
  | disturbed

inductive WatchStage where
  | collecting
  /-- The paths that remain of a batch, and the refresh under way. The last batch comes when the channel
  is closed. -/
  | applying (rest : List Path) (current : Option Refresh) (last : Bool)
  | finished

namespace WatchStage

def rest : WatchStage → List Path
  | applying rest _ _ => rest
  | collecting | finished => []

def current : WatchStage → Option Refresh
  | applying _ current _ => current
  | collecting | finished => none

/-- No event will be taken any more. -/
def isLast : WatchStage → Bool
  | applying _ _ last => last
  | collecting => false
  | finished => true

end WatchStage

structure WatchLoop where
  watch : Watch
  files : WorkspaceFiles
  queue : List FileEvent
  closed : Bool
  stage : WatchStage
  /-- The last note at the head. -/
  log : List WatchNote

/-- What a refresh does with a file that it has opened. -/
def Refresh.found (path : Path) : Option String → Refresh
  | some text => .installing path.text (.ofText text)
  | none => .dropping path.text

namespace WatchLoop

def start (session : Session) (files : WorkspaceFiles) : WatchLoop :=
  ⟨.start session, files, [], false, .collecting, []⟩

def session (loop : WatchLoop) : Session := loop.watch.session

/-- The collected paths that no refresh has got yet. -/
def waiting (loop : WatchLoop) : List Path := loop.watch.changes ++ loop.stage.rest

/-- The task starts its refresh of a path, which comes to nothing at once if it is not watched. -/
def pass (loop : WatchLoop) (path : Path) (rest : List Path) (last : Bool) : WatchLoop :=
  { loop with
    stage := .applying rest (if loop.session.watches path then some (.opening path) else none) last
    log := .passed path :: loop.log }

/-- The collected paths become a batch. -/
def drain (loop : WatchLoop) (batch : List Path) (last : Bool) : WatchLoop :=
  { loop with
    watch := { loop.watch with changes := [] }
    stage := .applying batch none last }

/-- The steps of the watch and of what is around it. A file may be spelled in several ways. -/
inductive Step (loop : WatchLoop) : WatchLoop → Prop where
  | change (path : Path) {files : WorkspaceFiles}
      (others : ∀ other, other.components ≠ path.components → files other = loop.files other) :
    Step loop { loop with files := files, log := .changed path :: loop.log }
  | tell (event : FileEvent) (unclosed : loop.closed = false) :
    Step loop { loop with queue := loop.queue ++ [event], log := .told event :: loop.log }
  | close : Step loop { loop with closed := true }
  | receive {event : FileEvent} {later : List FileEvent} (collecting : loop.stage = .collecting)
      (first : loop.queue = event :: later) :
    Step loop
      { loop with
        watch := loop.watch.receive event
        queue := later
        log := .received event :: loop.log }
  | pause {batch : List Path} (collecting : loop.stage = .collecting)
      (collected : loop.watch.changes ≠ []) (order : batch.Perm loop.watch.changes) :
    Step loop (loop.drain batch false)
  | drained {batch : List Path} (collecting : loop.stage = .collecting)
      (collected : loop.watch.changes ≠ []) (order : batch.Perm loop.watch.changes)
      (closed : loop.closed = true) (empty : loop.queue = []) :
    Step loop (loop.drain batch true)
  | leave (collecting : loop.stage = .collecting) (settled : loop.watch.changes = [])
      (closed : loop.closed = true) (empty : loop.queue = []) :
    Step loop { loop with stage := .finished }
  | pass {path : Path} {rest : List Path} {last : Bool}
      (applying : loop.stage = .applying (path :: rest) none last) :
    Step loop (loop.pass path rest last)
  | find {path : Path} {rest : List Path} {last : Bool}
      (applying : loop.stage = .applying rest (some (.opening path)) last) :
    Step loop
      { loop with stage := .applying rest (some (.found path (loop.files.read path))) last }
  | apply {refresh : Refresh} {rest : List Path} {last : Bool} {session : Session}
      (applying : loop.stage = .applying rest (some refresh) last)
      (step : Refresh.Step loop.session refresh session none) :
    Step loop
      { loop with
        watch := { loop.watch with session := session }
        stage := .applying rest none last }
  | applied {last : Bool} (applying : loop.stage = .applying [] none last) :
    Step loop { loop with stage := if last then .finished else .collecting }
  /-- Saves, time, shutdowns and questions, which change no document. -/
  | aside {session : Session} (root : session.root = loop.session.root)
      (settings : session.settings = loop.session.settings)
      (same : session.holdings = loop.session.holdings) :
    Step loop { loop with watch := { loop.watch with session := session } }
  | disturb {session : Session} (root : session.root = loop.session.root)
      (settings : session.settings = loop.session.settings) :
    Step loop
      { loop with
        watch := { loop.watch with session := session }
        log := .disturbed :: loop.log }

def Reaches : WatchLoop → WatchLoop → Prop := Relation.ReflTransGen Step

end WatchLoop

/-- Whether a path is followed depends on its components only. -/
theorem DocumentFilter.followsPath_congr {path other : Path} (same : path.components = other.components)
    (filter : DocumentFilter) (root : Path) : filter.followsPath root path = filter.followsPath root other := by
  have extension : path.extension? = other.extension? := by
    rw [Path.extension?, Path.extension?, Path.fileName?, Path.fileName?, same]
  rw [followsPath, followsPath, acceptsPath, acceptsPath, extension, passesSkipped, passesSkipped,
    Path.components_below?_congr same]

namespace Watch
variable {path other : Path} {paths changes : List Path}

theorem mem_of_mem_note (member : path ∈ note changes other) : path = other ∨ path ∈ changes := by
  unfold note at member
  split at member
  · exact .inr member
  · exact List.mem_cons.mp member

theorem mem_note_of_mem (member : path ∈ changes) (other : Path) : path ∈ note changes other := by
  unfold note
  split
  · exact member
  · exact List.mem_cons_of_mem _ member

theorem spelled_note (changes : List Path) (path : Path) :
    ∃ spelled ∈ note changes path, spelled.components = path.components := by
  unfold note
  split
  · next noted =>
    obtain ⟨spelled, member, same⟩ := List.any_eq_true.mp noted
    exact ⟨spelled, member, by simpa using same⟩
  · exact ⟨path, List.mem_cons_self, rfl⟩

theorem mem_of_mem_notes (member : path ∈ paths.foldl note changes) : path ∈ paths ∨ path ∈ changes := by
  induction paths generalizing changes with
  | nil => exact .inr member
  | cons first rest ih =>
    rcases ih member with late | early
    · exact .inl (List.mem_cons_of_mem _ late)
    · rcases mem_of_mem_note early with rfl | before
      · exact .inl List.mem_cons_self
      · exact .inr before

theorem mem_notes_of_mem (member : path ∈ changes) (paths : List Path) :
    path ∈ paths.foldl note changes := by
  induction paths generalizing changes with
  | nil => exact member
  | cons first rest ih => exact ih (mem_note_of_mem member first)

theorem spelled_notes (changes : List Path) (noted : path ∈ paths) :
    ∃ spelled ∈ paths.foldl note changes, spelled.components = path.components := by
  induction paths generalizing changes with
  | nil => contradiction
  | cons first rest ih =>
    rcases List.mem_cons.mp noted with rfl | later
    · obtain ⟨spelled, member, same⟩ := spelled_note changes path
      exact ⟨spelled, mem_notes_of_mem member rest, same⟩
    · exact ih _ later

end Watch

/-! Notes. -/

namespace WatchNote
variable {kept : FileEvent → List Path} {log : List WatchNote} {entry : WatchNote}
  {waiting waiting' : List Path} {event : FileEvent} {path : Path}

theorem split_cons {note : WatchNote} {later earlier : List WatchNote}
    (split : entry :: log = later ++ note :: earlier) :
    (later = [] ∧ entry = note ∧ log = earlier) ∨
    ∃ newer, later = entry :: newer ∧ log = newer ++ note :: earlier := by
  rcases List.cons_eq_append_iff.mp split with ⟨none, same⟩ | ⟨newer, first, rest⟩
  · obtain ⟨here, behind⟩ := List.cons.inj same
    exact .inl ⟨none, here.symm, behind.symm⟩
  · exact .inr ⟨newer, first, rest⟩

/-- An event has been received that keeps the path. -/
def Known (kept : FileEvent → List Path) (log : List WatchNote) (path : Path) : Prop :=
  ∃ event, .received event ∈ log ∧ path ∈ kept event

theorem Known.cons (known : Known kept log path) (entry : WatchNote) : Known kept (entry :: log) path := by
  obtain ⟨event, received, follows⟩ := known
  exact ⟨event, List.mem_cons_of_mem _ received, follows⟩

theorem Known.of_cons (unreceived : ∀ event, entry ≠ .received event)
    (known : Known kept (entry :: log) path) : Known kept log path := by
  obtain ⟨event, received, follows⟩ := known
  rcases List.mem_cons.mp received with same | before
  · exact absurd same.symm (unreceived event)
  · exact ⟨event, before, follows⟩

/-- What has been received is passed on later, or waits for it. -/
def Answered (kept : FileEvent → List Path) (log : List WatchNote) (waiting : List Path) : Prop :=
  ∀ later event earlier, log = later ++ .received event :: earlier → ∀ path ∈ kept event,
    ∃ spelled, spelled.components = path.components ∧ (.passed spelled ∈ later ∨ spelled ∈ waiting)

/-- Every path that is passed on is known from before. -/
def Justified (kept : FileEvent → List Path) (log : List WatchNote) : Prop :=
  ∀ later path earlier, log = later ++ .passed path :: earlier → Known kept earlier path

namespace Answered

theorem mono (answered : Answered kept log waiting) (more : ∀ path ∈ waiting, path ∈ waiting') :
    Answered kept log waiting' := by
  intro later event earlier split path follows
  obtain ⟨spelled, same, found⟩ := answered later event earlier split path follows
  exact ⟨spelled, same, found.imp_right (more spelled)⟩

theorem cons (answered : Answered kept log waiting) (unreceived : ∀ event, entry ≠ .received event)
    (left : ∀ path ∈ waiting, entry = .passed path ∨ path ∈ waiting') :
    Answered kept (entry :: log) waiting' := by
  intro later event earlier split path follows
  rcases split_cons split with ⟨-, here, -⟩ | ⟨newer, rfl, before⟩
  · exact absurd here (unreceived event)
  · obtain ⟨spelled, same, passed | stays⟩ := answered newer event earlier before path follows
    · exact ⟨spelled, same, .inl (List.mem_cons_of_mem _ passed)⟩
    · refine ⟨spelled, same, (left spelled stays).imp_left fun passed => ?_⟩
      exact passed ▸ List.mem_cons_self

theorem receive (answered : Answered kept log waiting) (more : ∀ path ∈ waiting, path ∈ waiting')
    (noted : ∀ path ∈ kept event, ∃ spelled ∈ waiting', spelled.components = path.components) :
    Answered kept (.received event :: log) waiting' := by
  intro later other earlier split path follows
  rcases split_cons split with ⟨-, here, -⟩ | ⟨newer, rfl, before⟩
  · cases here
    obtain ⟨spelled, member, same⟩ := noted path follows
    exact ⟨spelled, same, .inr member⟩
  · obtain ⟨spelled, same, found⟩ := answered newer other earlier before path follows
    exact ⟨spelled, same, found.imp (List.mem_cons_of_mem _) (more spelled)⟩

end Answered

theorem Justified.cons (justified : Justified kept log)
    (known : ∀ path, entry = .passed path → Known kept log path) : Justified kept (entry :: log) := by
  intro later path earlier split
  rcases split_cons split with ⟨-, here, rfl⟩ | ⟨newer, -, before⟩
  · exact known path here
  · exact justified newer path earlier before

end WatchNote

theorem Refresh.Step.surroundings {session after : Session} {refresh : Refresh} {left : Option Refresh}
    (step : Refresh.Step session refresh after left) : after.surroundings = session.surroundings := by
  have saved (session : Session) (changed : Bool) :
      (session.saveChange changed).surroundings = session.surroundings := by
    cases changed with
    | true => exact session.surroundings_requestSave
    | false => rfl
  cases step with
  | read | gone => rfl
  | install => exact (saved ..).trans (session.surroundings_installFile ..)
  | @drop uri =>
    refine (saved ..).trans ?_
    unfold Session.dropFile
    split <;> rfl

namespace WatchLoop
variable {filter : DocumentFilter} {root : Path} {loop next : WatchLoop}

/-- What holds all along. -/
structure Sound (filter : DocumentFilter) (root : Path) (loop : WatchLoop) : Prop where
  rooted : loop.session.root = root
  filtered : loop.session.filter = filter
  told : ∀ event, .told event ∈ loop.log ↔ .received event ∈ loop.log ∨ event ∈ loop.queue
  waiting : ∀ path ∈ loop.waiting, WatchNote.Known (·.followedPaths filter root) loop.log path
  answered : WatchNote.Answered (·.followedPaths filter root) loop.log loop.waiting
  justified : WatchNote.Justified (·.followedPaths filter root) loop.log
  drained : loop.stage ≠ .collecting → loop.watch.changes = []
  ended : loop.stage.isLast = true → loop.closed = true ∧ loop.queue = []

theorem sound_start (session : Session) (files : WorkspaceFiles) :
    (start session files).Sound session.filter session.root where
  rooted := rfl
  filtered := rfl
  told := by simp [start]
  waiting := by simp [start, WatchLoop.waiting, Watch.start, WatchStage.rest]
  answered := by simp [start, WatchNote.Answered]
  justified := by simp [start, WatchNote.Justified]
  drained := fun other => absurd rfl other
  ended := by simp [start, WatchStage.isLast]

theorem waiting_collecting (collecting : loop.stage = .collecting) : loop.waiting = loop.watch.changes := by
  rw [WatchLoop.waiting, collecting, WatchStage.rest, List.append_nil]

namespace Sound

/-- Before a refresh its path is the first that waits, and behind it the others wait. -/
theorem waiting_pass (sound : loop.Sound filter root) {path : Path} {rest : List Path} {last : Bool}
    (applying : loop.stage = .applying (path :: rest) none last) :
    loop.waiting = path :: rest ∧ (loop.pass path rest last).waiting = rest := by
  have drained : loop.watch.changes = [] := sound.drained (by simp [applying])
  refine ⟨?_, ?_⟩
  · rw [WatchLoop.waiting, drained, applying]
    rfl
  · rw [WatchLoop.waiting, show (loop.pass path rest last).watch.changes = [] from drained]
    rfl

theorem changes_receive (sound : loop.Sound filter root) (event : FileEvent) :
    (loop.watch.receive event).changes =
      (event.followedPaths filter root).foldl Watch.note loop.watch.changes := by
  rw [← sound.filtered, ← sound.rooted]
  rfl

/-- Notes that concern neither events nor refreshes. -/
theorem note (sound : loop.Sound filter root) {entry : WatchNote} {files : WorkspaceFiles}
    (untold : ∀ event, entry ≠ .told event) (unreceived : ∀ event, entry ≠ .received event)
    (unpassed : ∀ path, entry ≠ .passed path) :
    Sound filter root { loop with files := files, log := entry :: loop.log } where
  rooted := sound.rooted
  filtered := sound.filtered
  told := by
    intro event
    rw [List.mem_cons, List.mem_cons, or_iff_right (untold event).symm,
      or_iff_right (unreceived event).symm]
    exact sound.told event
  waiting := fun path member => (sound.waiting path member).cons _
  answered := sound.answered.cons unreceived fun path member => .inr member
  justified := sound.justified.cons fun path passed => absurd passed (unpassed path)
  drained := sound.drained
  ended := sound.ended

theorem tell (sound : loop.Sound filter root) (unclosed : loop.closed = false) (event : FileEvent) :
    Sound filter root
      { loop with queue := loop.queue ++ [event], log := .told event :: loop.log } where
  rooted := sound.rooted
  filtered := sound.filtered
  told := by
    intro other
    have before := sound.told other
    simp only [List.mem_cons, WatchNote.told.injEq, reduceCtorEq, false_or, List.mem_append,
      List.not_mem_nil, before, @or_comm (other = event), or_assoc]
  waiting := fun path member => (sound.waiting path member).cons _
  answered := sound.answered.cons (fun _ => nofun) fun path member => .inr member
  justified := sound.justified.cons fun _ => nofun
  drained := sound.drained
  ended := fun last => by simpa [unclosed] using (sound.ended last).1

/-- A change of the session that leaves its root and its settings. -/
theorem inSession (sound : loop.Sound filter root) {session : Session}
    (sameRoot : session.root = loop.session.root)
    (sameSettings : session.settings = loop.session.settings) :
    Sound filter root { loop with watch := { loop.watch with session := session } } where
  rooted := sameRoot.trans sound.rooted
  filtered := (congrArg DocumentFilter.ofSettings sameSettings).trans sound.filtered
  told := sound.told
  waiting := sound.waiting
  answered := sound.answered
  justified := sound.justified
  drained := sound.drained
  ended := sound.ended

/-- A change of the stage in which no path gets lost. -/
theorem inStage (sound : loop.Sound filter root) {stage : WatchStage} (rest : stage.rest = loop.stage.rest)
    (drained : stage ≠ .collecting → loop.watch.changes = [])
    (ended : stage.isLast = true → loop.closed = true ∧ loop.queue = []) :
    Sound filter root { loop with stage := stage } := by
  have waiting : ({ loop with stage := stage } : WatchLoop).waiting = loop.waiting :=
    congrArg (loop.watch.changes ++ ·) rest
  exact {
    rooted := sound.rooted
    filtered := sound.filtered
    told := sound.told
    waiting := waiting ▸ sound.waiting
    answered := waiting ▸ sound.answered
    justified := sound.justified
    drained := drained
    ended := ended }

theorem drain (sound : loop.Sound filter root) (collecting : loop.stage = .collecting) {batch : List Path}
    (order : batch.Perm loop.watch.changes) {last : Bool}
    (ended : last = true → loop.closed = true ∧ loop.queue = []) :
    (loop.drain batch last).Sound filter root := by
  have waiting : (loop.drain batch last).waiting = batch := rfl
  have before := waiting_collecting collecting
  exact {
    rooted := sound.rooted
    filtered := sound.filtered
    told := sound.told
    waiting := fun path member =>
      sound.waiting path (before ▸ order.mem_iff.mp (waiting ▸ member))
    answered := sound.answered.mono fun path member =>
      waiting ▸ order.mem_iff.mpr (before ▸ member)
    justified := sound.justified
    drained := fun _ => rfl
    ended := ended }

theorem receive (sound : loop.Sound filter root) (collecting : loop.stage = .collecting)
    {event : FileEvent} {later : List FileEvent} (first : loop.queue = event :: later) :
    Sound filter root
      { loop with
        watch := loop.watch.receive event
        queue := later
        log := .received event :: loop.log } := by
  have changes := sound.changes_receive event
  have before := waiting_collecting collecting
  have after := waiting_collecting
    (show WatchLoop.stage { loop with
      watch := loop.watch.receive event
      queue := later
      log := .received event :: loop.log } = .collecting from collecting)
  exact {
    rooted := sound.rooted
    filtered := sound.filtered
    told := by
      intro other
      have before := sound.told other
      rw [first, List.mem_cons, or_left_comm] at before
      simpa [or_assoc] using before
    waiting := by
      intro path member
      rcases Watch.mem_of_mem_notes (changes ▸ after ▸ member) with new | old
      · exact ⟨event, List.mem_cons_self, new⟩
      · exact (sound.waiting path (before ▸ old)).cons _
    answered := by
      refine sound.answered.receive (fun path member => ?_) fun path follows => ?_
      · rw [after, changes]
        exact Watch.mem_notes_of_mem (before ▸ member) _
      · obtain ⟨spelled, member, same⟩ := Watch.spelled_notes loop.watch.changes follows
        exact ⟨spelled, by rwa [after, changes], same⟩
    justified := sound.justified.cons fun path passed => nomatch passed
    drained := fun busy => absurd collecting busy
    ended := fun last => by
      rw [collecting] at last
      contradiction }

theorem pass (sound : loop.Sound filter root) {path : Path} {rest : List Path} {last : Bool}
    (applying : loop.stage = .applying (path :: rest) none last) :
    (loop.pass path rest last).Sound filter root := by
  obtain ⟨before, after⟩ := sound.waiting_pass applying
  have known : ∀ other ∈ path :: rest, WatchNote.Known (·.followedPaths filter root) loop.log other :=
    before ▸ sound.waiting
  exact {
    rooted := sound.rooted
    filtered := sound.filtered
    told := fun event => by simpa [WatchLoop.pass] using sound.told event
    waiting := fun other member => (known other (List.mem_cons_of_mem _ (by rwa [after] at member))).cons _
    answered := by
      refine sound.answered.cons (fun event => nofun) fun other member => ?_
      rcases List.mem_cons.mp (before ▸ member) with rfl | later
      · exact .inl rfl
      · exact .inr (by rwa [after])
    justified := by
      refine sound.justified.cons fun other passed => ?_
      cases passed
      exact known path List.mem_cons_self
    drained := fun _ => sound.drained (by simp [applying])
    ended := fun ends => sound.ended (by rw [applying]; exact ends) }

end Sound

theorem Step.sound (step : loop.Step next) (sound : loop.Sound filter root) : next.Sound filter root := by
  cases step with
  | change path others => exact sound.note (fun _ => nofun) (fun _ => nofun) (fun _ => nofun)
  | tell event unclosed => exact sound.tell unclosed event
  | close => exact { sound with ended := fun last => ⟨rfl, (sound.ended last).2⟩ }
  | receive collecting first => exact sound.receive collecting first
  | pause collecting collected order => exact sound.drain collecting order nofun
  | drained collecting collected order closed empty =>
    exact sound.drain collecting order fun _ => ⟨closed, empty⟩
  | leave collecting settled closed empty =>
    exact sound.inStage (by rw [collecting]; rfl) (fun _ => settled) fun _ => ⟨closed, empty⟩
  | pass applying => exact sound.pass applying
  | find applying =>
    exact sound.inStage (by rw [applying]; rfl) (fun _ => sound.drained (by simp [applying]))
      fun last => sound.ended (by rw [applying]; exact last)
  | apply applying step =>
    have around := step.surroundings
    exact (sound.inSession (congrArg Surroundings.root around)
      (congrArg Surroundings.settings around)).inStage (by rw [applying]; rfl)
      (fun _ => sound.drained (by simp [applying])) fun last => sound.ended (by rw [applying]; exact last)
  | @applied last applying =>
    have empty : loop.watch.changes = [] := sound.drained (by simp [applying])
    refine sound.inStage ?_ (fun _ => empty) fun ends => sound.ended ?_
    · cases last <;> rw [applying] <;> rfl
    · cases last with
      | false => contradiction
      | true => rw [applying]; rfl
  | aside sameRoot sameSettings same => exact sound.inSession sameRoot sameSettings
  | disturb sameRoot sameSettings =>
    exact (sound.inSession sameRoot sameSettings).note (fun _ => nofun) (fun _ => nofun) (fun _ => nofun)

theorem Reaches.sound (reaches : loop.Reaches next) (sound : loop.Sound filter root) :
    next.Sound filter root := by
  induction reaches with
  | refl => exact sound
  | tail _ step ih => exact step.sound ih

end WatchLoop

end AssemblySymbols
