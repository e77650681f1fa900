import AssemblySymbols.Proofs.Session.SequentialRuns
import AssemblySymbols.Proofs.Session.SaveTasks

/-! A whole session with its saves: calls of the editor and refreshes in any number, the initialization,
shutdowns, and the tasks that write the cache one at a time under a lock. Each gives way wherever it waits,
for a file, for the index, for its delay or for the lock, and a step is what one of them does between two
such points. Look-ups have no steps of their own: they wait for the initialization and then only read. -/
namespace AssemblySymbols
open Session (HostCall)

/-- How far the task has come that has the lock. -/
inductive Turn where
  /-- It has taken the pending request, if there was one. -/
  | claimed
  | copied (snapshot : Snapshot)

structure LiveSession where
  /-- The session within the scan that is under way, if one is. -/
  scan : Scan
  stage : Stage
  refreshes : List Refresh
  /-- The calls of the editor that have set or taken their marks and wait for the index. -/
  calls : List (Change String)
  /-- What the calls and refreshes that have come to their end have answered, each for its document. -/
  answers : List (String × Bool)
  /-- The tasks that wait for the lock. -/
  waiting : List Errand
  /-- The task that has it. -/
  holder : Option (Errand × Turn)
  /-- Some shutdown has come to its end. -/
  returned : Bool

/-- Who makes a step. -/
inductive Event where
  /-- A call of the editor or a refresh. -/
  | call
  | startUp
  | time
  /-- A task that saves, short of its write. -/
  | lock (errand : Errand)
  | write (errand : Errand) (succeeded : Bool)
  /-- The editor asks for a save at once. -/
  | saveNow
  | shutdown
  /-- Other programs. -/
  | outside

def Event.IsCall (event : Event) : Prop := event = .call

/-- A step of a save on demand. -/
def Event.IsSaveNow : Event → Prop
  | saveNow | lock .saveNow | write .saveNow _ => True
  | _ => False

/-- A step of the other saves, none of which fails, or of time. -/
def Event.IsSave : Event → Prop
  | time | lock (.timer _) | lock .flush | write (.timer _) true | write .flush true => True
  | _ => False

/-- Only shutdowns wait for a flush. -/
def Errand.isFlush : Errand → Bool
  | flush => true
  | timer _ | saveNow => false

/-- The answer of a call that comes to its end. -/
def Session.answer (session : Session) : Change String → String × Bool
  | .put uri _ => (uri, true)
  | .drop uri => (uri, session.index.contains uri)

/-- The answer of a refresh, if this is its last step. -/
def Refresh.answer? (session : Session) : Refresh → Option (String × Bool)
  | opening _ => none
  | installing uri table => some (uri, (session.installFile uri table).2)
  | dropping uri => some (uri, (session.dropFile uri).2)

namespace LiveSession

def start (root : Path) (settings : Settings) (disk : Disk) : LiveSession :=
  ⟨.start (.start root settings disk) 0, .idle, [], [], [], [], none, false⟩

def session (live : LiveSession) : Session := live.scan.session

def store (live : LiveSession) : CachedIndex := live.session.store

def withSession (live : LiveSession) (session : Session) : LiveSession :=
  { live with scan := { live.scan with session := session } }

def withStore (live : LiveSession) (store : CachedIndex) : LiveSession :=
  live.withSession { live.session with store := store }

/-- The steps of all tasks. Which files there are and what they hold is up to the disk. How long a delay
takes is up to the clock, so that the timer of any request, also of one that has been replaced or served,
may come for the lock at any time. Nor is there an order among those that wait for it. -/
inductive Step (live : LiveSession) : Event → LiveSession → Prop where
  | refuse (document : Document) (cancelled : Nat → Bool)
      (refused : (live.session.indexDocumentUnless cancelled document).2 = false) :
    Step live .call { live with answers := live.answers ++ [(document.uri, false)] }
  | mark {table : SymbolTable} (document : Document) (cancelled : Nat → Bool)
      (accepted : live.session.filter.accepts document)
      (scanned : SymbolTable.ofTextUnless? cancelled document.text = some table) :
    Step live .call
      { live.withSession (live.session.mark document.uri) with
        calls := live.calls ++ [.put document.uri document.text] }
  | unmark (uri : String) :
    Step live .call
      { live.withSession (live.session.unmark uri) with calls := live.calls ++ [.drop uri] }
  | complete {earlier later : List (Change String)} {change : Change String}
      (listed : live.calls = earlier ++ change :: later) :
    Step live .call
      { live.withSession (live.session.complete change) with
        calls := earlier ++ later
        answers := live.answers ++ [live.session.answer change] }
  | pass {path : Path} (unwatched : live.session.watches path = false) :
    Step live .call { live with answers := live.answers ++ [(path.text, false)] }
  | watch {path : Path} (watched : live.session.watches path) :
    Step live .call { live with refreshes := live.refreshes ++ [.opening path] }
  | refresh {earlier later : List Refresh} {refresh : Refresh} {session : Session}
      {left : Option Refresh} (listed : live.refreshes = earlier ++ refresh :: later)
      (step : Refresh.Step live.session refresh session left) :
    Step live .call
      { live.withSession session with
        refreshes := earlier ++ left.toList ++ later
        answers := live.answers ++ (refresh.answer? live.session).toList }
  | startUp {stage : Stage} {scan : Scan} (step : Stage.Step live.stage live.scan stage scan) :
    Step live .startUp { live with stage := stage, scan := scan }
  | pause (time : Nat) :
    Step live .time (live.withStore { live.store with saver := live.store.saver.passTo time })
  | elapse {generation : Nat} (requested : generation ≤ live.store.saver.generation) :
    Step live .time { live with waiting := live.waiting ++ [.timer generation] }
  | saveNow : Step live .saveNow { live with waiting := live.waiting ++ [.saveNow] }
  | shutdown :
    Step live .shutdown
      { live.withSession { live.session with stopped := true } with
        waiting := live.waiting ++ [.flush] }
  | claim {earlier later : List Errand} {errand : Errand} {store : CachedIndex}
      (listed : live.waiting = earlier ++ errand :: later) (free : live.holder = none)
      (claims : errand.claim? live.store = some store) :
    Step live (.lock errand)
      { live.withStore store with waiting := earlier ++ later, holder := some (errand, .claimed) }
  | decline {earlier later : List Errand} {errand : Errand}
      (listed : live.waiting = earlier ++ errand :: later) (free : live.holder = none)
      (nothing : errand.claim? live.store = none) :
    Step live (.lock errand)
      { live with waiting := earlier ++ later, returned := live.returned || errand.isFlush }
  | copy {errand : Errand} (holds : live.holder = some (errand, .claimed)) :
    Step live (.lock errand)
      { live with holder := some (errand, .copied live.session.index.snapshot) }
  | write {errand : Errand} {snapshot : Snapshot} {outcome : Except DiskError Unit} {disk : Disk}
      (holds : live.holder = some (errand, .copied snapshot))
      (wrote : (Cache.save live.store.cachePath snapshot).run live.store.disk = (outcome, disk)) :
    Step live (.write errand outcome.isOk)
      { live.withStore { live.store with disk := disk } with
        holder := none
        returned := live.returned || errand.isFlush }
  | outside (disk : Disk) : Step live .outside (live.withStore { live.store with disk := disk })

/-- Some sequence of steps, all by those who may make one, leads from one state to the other. -/
def ReachesBy (may : Event → Prop) : LiveSession → LiveSession → Prop :=
  Relation.ReflTransGen fun live next => ∃ event, may event ∧ live.Step event next

def Reaches : LiveSession → LiveSession → Prop := ReachesBy fun _ => True

variable {may more : Event → Prop} {live next last : LiveSession}

theorem Step.reachesBy {event : Event} (step : live.Step event next) (allowed : may event) :
    live.ReachesBy may next :=
  Relation.ReflTransGen.single ⟨event, allowed, step⟩

theorem ReachesBy.trans (first : live.ReachesBy may next) (second : next.ReachesBy may last) :
    live.ReachesBy may last :=
  Relation.ReflTransGen.trans first second

/-- What each step keeps, a run keeps. -/
theorem ReachesBy.keeps {holds : LiveSession → Prop} (reached : live.ReachesBy may next)
    (begun : holds live)
    (kept : ∀ {event before after}, may event → Step before event after → holds before → holds after) :
    holds next := by
  induction reached with
  | refl => exact begun
  | tail _ last ih =>
    obtain ⟨event, allowed, step⟩ := last
    exact kept allowed step ih

theorem ReachesBy.mono (reached : live.ReachesBy may next) (imp : ∀ event, may event → more event) :
    live.ReachesBy more next :=
  reached.keeps .refl fun allowed step earlier => earlier.trans (step.reachesBy (imp _ allowed))

theorem ReachesBy.reaches (reached : live.ReachesBy may next) : live.Reaches next :=
  reached.mono fun _ _ => trivial

/-! What is done without a pause is a run of steps. -/

/-- A call or a refresh has come to its end. -/
def answered (live : LiveSession) (uri : String) (outcome : Session × Bool) : LiveSession :=
  { live.withSession outcome.1 with answers := live.answers ++ [(uri, outcome.2)] }

theorem reaches_complete (live : LiveSession) (session : Session) (change : Change String) :
    ReachesBy Event.IsCall { live.withSession session with calls := live.calls ++ [change] }
      (live.answered change.uri (session.complete change, (session.answer change).2)) := by
  let waiting : LiveSession := { live.withSession session with calls := live.calls ++ [change] }
  have listed : waiting.calls = live.calls ++ change :: [] := rfl
  have reached : waiting.ReachesBy Event.IsCall _ := (Step.complete listed).reachesBy rfl
  have answer : session.answer change = (change.uri, (session.answer change).2) := by cases change <;> rfl
  rw [List.append_nil] at reached
  rw [answered, ← answer]
  exact reached

theorem reaches_index (live : LiveSession) (document : Document) (cancelled : Nat → Bool) :
    live.ReachesBy Event.IsCall
      (live.answered document.uri (live.session.indexDocumentUnless cancelled document)) := by
  have refused (same : live.session.indexDocumentUnless cancelled document = (live.session, false)) :
      live.ReachesBy Event.IsCall
        (live.answered document.uri (live.session.indexDocumentUnless cancelled document)) := by
    rw [same]
    exact (Step.refuse document cancelled (congrArg Prod.snd same)).reachesBy rfl
  by_cases accepted : live.session.filter.accepts document
  · cases scanned : SymbolTable.ofTextUnless? cancelled document.text with
    | none => exact refused (by rw [Session.indexDocumentUnless, if_pos accepted, scanned])
    | some table =>
      have whole := SymbolTable.ofTextUnless?_eq scanned
      have marked : live.ReachesBy Event.IsCall _ :=
        (Step.mark document cancelled accepted scanned).reachesBy rfl
      rw [Session.indexDocumentUnless, if_pos accepted, scanned, whole]
      exact marked.trans (reaches_complete live (live.session.mark document.uri)
        (.put document.uri document.text))
  · exact refused (by rw [Session.indexDocumentUnless, if_neg accepted])

theorem reaches_remove (live : LiveSession) (uri : String) :
    live.ReachesBy Event.IsCall (live.answered uri (live.session.removeDocument uri)) := by
  have unmarked : live.ReachesBy Event.IsCall _ := (Step.unmark uri).reachesBy rfl
  have answer : (live.session.removeDocument uri).2 = live.session.index.contains uri := by
    unfold Session.removeDocument
    cases live.session.index.contains uri <;> rfl
  have completed := reaches_complete live (live.session.unmark uri) (.drop uri)
  rw [Session.complete_drop] at completed
  have same : live.session.removeDocument uri =
      ((live.session.removeDocument uri).1, live.session.index.contains uri) := by rw [← answer]
  rw [same]
  exact unmarked.trans completed

/-- A refresh whose turn comes as soon as it knows what has become of its file. -/
theorem reaches_settled {path : Path} {read : Refresh} {uri : String} {outcome : Session × Bool}
    (watched : live.session.watches path)
    (reading : Refresh.Step live.session (.opening path) live.session (some read))
    (settling : Refresh.Step live.session read outcome.1 none)
    (answer : read.answer? live.session = some (uri, outcome.2)) :
    live.ReachesBy Event.IsCall (live.answered uri outcome) := by
  let watching : LiveSession := { live with refreshes := live.refreshes ++ [.opening path] }
  have begun : live.ReachesBy Event.IsCall watching := (Step.watch watched).reachesBy rfl
  have waiting : watching.refreshes = live.refreshes ++ .opening path :: [] := rfl
  have first : watching.ReachesBy Event.IsCall _ := (Step.refresh waiting reading).reachesBy rfl
  let holding : LiveSession :=
    { live with refreshes := live.refreshes ++ [read] ++ [], answers := live.answers ++ [] }
  have listed : holding.refreshes = live.refreshes ++ read :: [] := List.append_nil _
  have last : holding.ReachesBy Event.IsCall _ := (Step.refresh listed settling).reachesBy rfl
  have answer' : read.answer? holding.session = some (uri, outcome.2) := answer
  rw [answer', Option.toList_none, List.append_nil, List.append_nil] at last
  have unanswered : holding.answers = live.answers := List.append_nil _
  rw [unanswered] at last
  exact begun.trans (first.trans last)

/-- A refresh into which no call of the editor comes. -/
theorem reaches_refresh (live : LiveSession) (path : Path) (document : Option Document) :
    ∃ uri, live.ReachesBy Event.IsCall
      (live.answered uri (live.session.refresh ⟨path, [], document⟩)) := by
  by_cases watched : live.session.watches path
  · rw [Session.refresh, if_pos watched]
    cases document with
    | some document =>
      exact ⟨document.uri, reaches_settled watched (.read document) .install rfl⟩
    | none => exact ⟨path.text, reaches_settled watched .gone .drop rfl⟩
  · rw [Session.refresh, if_neg watched]
    exact ⟨path.text, (Step.pass (Bool.not_eq_true _ ▸ watched)).reachesBy rfl⟩

/-- A task that gets the lock and has it to its end does what its errand does without a pause. -/
theorem reaches_perform {earlier later : List Errand} {errand : Errand}
    (listed : live.waiting = earlier ++ errand :: later) (free : live.holder = none)
    (lock : may (.lock errand))
    (write : ∀ claimed, errand.claim? live.store = some claimed →
      may (.write errand claimed.persist.2.isOk)) :
    live.ReachesBy may
      { live.withStore (errand.perform live.store) with
        waiting := earlier ++ later
        holder := none
        returned := live.returned || errand.isFlush } := by
  unfold Errand.perform
  cases claims : errand.claim? live.store with
  | none =>
    have declined := (Step.decline listed free claims).reachesBy lock
    rw [← free]
    exact declined
  | some store =>
    let claiming : LiveSession :=
      { live.withStore store with waiting := earlier ++ later, holder := some (errand, .claimed) }
    have claimed : live.Step (.lock errand) claiming := .claim listed free claims
    let copying : LiveSession :=
      { claiming with holder := some (errand, .copied store.index.snapshot) }
    have copied : claiming.Step (.lock errand) copying := .copy rfl
    have allowed := write store claims
    unfold CachedIndex.persist at allowed ⊢
    rcases saved : (Cache.save store.cachePath store.index.snapshot).run store.disk with ⟨outcome, disk⟩
    rw [saved] at allowed
    have written := @Step.write copying errand _ outcome disk rfl saved
    have reached := (claimed.reachesBy lock).trans ((copied.reachesBy lock).trans
      (written.reachesBy allowed))
    simp only [saved]
    exact reached

/-- A shutdown whose flush gets the lock at once. -/
theorem reaches_shutdown (free : live.holder = none) :
    live.Reaches { live.withSession live.session.shutdown with holder := none, returned := true } := by
  let called : LiveSession :=
    { live.withSession { live.session with stopped := true } with waiting := live.waiting ++ [.flush] }
  have calls : live.Reaches called := Step.shutdown.reachesBy trivial
  have listed : called.waiting = live.waiting ++ .flush :: [] := rfl
  have flushes : called.Reaches _ := reaches_perform listed free trivial fun _ _ => trivial
  rw [Errand.perform_flush, List.append_nil, Errand.isFlush, Bool.or_true] at flushes
  exact calls.trans flushes

/-- A call of the editor, while nobody has the lock. -/
theorem reaches_applyCall (free : live.holder = none) (call : HostCall) :
    ∃ next, live.Reaches next ∧ next.session = live.session.applyCall call ∧ next.holder = none := by
  cases call with
  | index document =>
    exact ⟨_, (reaches_index live document fun _ => false).reaches, rfl, free⟩
  | remove uri => exact ⟨_, (reaches_remove live uri).reaches, rfl, free⟩
  | shutdown => exact ⟨_, reaches_shutdown free, rfl, rfl⟩

end LiveSession
end AssemblySymbols
