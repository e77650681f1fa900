import AssemblySymbols.Proofs.Session.Requests
import Mathlib.Logic.Relation

/-! A session that tasks share: the calls of the editor, the initialization and refreshes of files. A
task gives way wherever it waits for a file or for the index, so what it has found out may be out of
date when it goes on. A step is what one task does between two such points. -/
namespace AssemblySymbols
open Session (HostCall Opening)

/-- How far the initialization has come, with what it carries along. -/
inductive Stage where
  | idle
  | loading
  | seeding (snapshot : Snapshot)
  | discovering
  | scanning (rest : List Path)
  | opening (path : Path) (rest : List Path)
  | installing (uri : String) (table : SymbolTable) (rest : List Path)
  | pruning
  | closing
  | done

namespace Session

/-- Requests a save if something has changed. -/
def saveChange (session : Session) (changed : Bool) : Session :=
  if changed then session.requestSave else session

/-- What a call of the editor does that has set or taken its mark and waited for the index. -/
def complete (session : Session) : Change String → Session
  | .put uri text => (session.modifyIndex (·.replace uri (.ofText text))).requestSave
  | .drop uri => (session.modifyIndex (·.remove uri)).saveChange (session.index.contains uri)

end Session

/-- The steps of the initialization. Which files there are and what they hold is up to the disk, and a
shutdown may come between any two lines of a text. -/
inductive Stage.Step : Stage → Scan → Stage → Scan → Prop where
  | begin {scan : Scan} : Step .idle scan .loading scan
  | load {scan : Scan} {snapshot : Snapshot} (loaded : scan.session.store.load = .ok snapshot) :
    Step .loading scan (.seeding snapshot) scan
  | ignore {scan : Scan} {error : CacheError} (failed : scan.session.store.load = .error error) :
    Step .loading scan .discovering scan
  | seed {scan : Scan} {snapshot : Snapshot} :
    Step (.seeding snapshot) scan .discovering
      { scan with session := scan.session.modifyIndex fun index => (index.restore snapshot).1 }
  | discover {scan : Scan} (paths : List Path) :
    Step .discovering scan (.scanning paths) (.start scan.session paths.length)
  | undiscovered {scan : Scan} : Step .discovering scan .closing (.start scan.session 0)
  | stop {scan : Scan} {path : Path} {rest : List Path} (stopped : scan.session.stopped) :
    Step (.scanning (path :: rest)) scan .closing scan.cancel
  | next {scan : Scan} {path : Path} {rest : List Path} (running : scan.session.stopped = false) :
    Step (.scanning (path :: rest)) scan (.opening path rest) scan
  | fail {scan : Scan} {path : Path} {rest : List Path} :
    Step (.opening path rest) scan (.scanning rest) (scan.openFile ⟨path, [], none⟩).countFailed
  | interrupt {scan : Scan} {path : Path} {rest : List Path} (document : Document)
      (stopped : scan.session.stopped) :
    Step (.opening path rest) scan .closing (scan.openFile ⟨path, [], some document⟩).cancel
  | refuse {scan : Scan} {path : Path} {rest : List Path} (document : Document)
      (running : scan.session.stopped = false) (refused : scan.session.filter.accepts document = false) :
    Step (.opening path rest) scan (.scanning rest)
      ((scan.openFile ⟨path, [], some document⟩).see document.uri).countSkipped
  | abandon {scan : Scan} {path : Path} {rest : List Path} (document : Document)
      (cancelled : Nat → Bool) (running : scan.session.stopped = false)
      (accepted : scan.session.filter.accepts document)
      (stopped : SymbolTable.ofTextUnless? cancelled document.text = none) :
    Step (.opening path rest) scan .closing
      ((scan.openFile ⟨path, [], some document⟩).see document.uri).cancel
  | build {scan : Scan} {path : Path} {rest : List Path} {table : SymbolTable} (document : Document)
      (cancelled : Nat → Bool) (running : scan.session.stopped = false)
      (accepted : scan.session.filter.accepts document)
      (scanned : SymbolTable.ofTextUnless? cancelled document.text = some table) :
    Step (.opening path rest) scan (.installing document.uri table rest)
      ((scan.openFile ⟨path, [], some document⟩).see document.uri)
  | install {scan : Scan} {uri : String} {table : SymbolTable} {rest : List Path} :
    Step (.installing uri table rest) scan (.scanning rest) (scan.install uri table)
  | finish {scan : Scan} : Step (.scanning []) scan .pruning scan
  | prune {scan : Scan} : Step .pruning scan .closing scan.prune
  | close {scan : Scan} :
    Step .closing scan .done
      { scan with
        session :=
          { scan.session.saveChange (0 < scan.stats.indexed || 0 < scan.stats.pruned) with
            initialized := some scan.stats } }

/-- A refresh that waits for its file or, with what it has found, for the index. -/
inductive Refresh where
  | opening (path : Path)
  | installing (uri : String) (table : SymbolTable)
  | dropping (uri : String)

/-- The steps of a refresh, after the last of which nothing is left to do. -/
inductive Refresh.Step (session : Session) : Refresh → Session → Option Refresh → Prop where
  | read {path : Path} (document : Document) :
    Step session (.opening path) session (some (.installing document.uri (.ofText document.text)))
  | gone {path : Path} : Step session (.opening path) session (some (.dropping path.text))
  | install {uri : String} {table : SymbolTable} :
    Step session (.installing uri table)
      ((session.installFile uri table).1.saveChange (session.installFile uri table).2) none
  | drop {uri : String} :
    Step session (.dropping uri) ((session.dropFile uri).1.saveChange (session.dropFile uri).2) none

structure SharedSession where
  /-- The session within the scan that is under way, if one is. -/
  scan : Scan
  stage : Stage
  refreshes : List Refresh
  /-- The call of the editor that has set or taken its mark and waits for the index. -/
  call : Option (Change String)
  /-- The calls that have had an effect and come to their end. -/
  completed : List (Change String)

namespace SharedSession

def start (root : Path) (settings : Settings) (disk : Disk) : SharedSession :=
  ⟨.start (.start root settings disk) 0, .idle, [], none, []⟩

def session (shared : SharedSession) : Session := shared.scan.session

def withSession (shared : SharedSession) (session : Session) : SharedSession :=
  { shared with scan := { shared.scan with session := session } }

/-- The steps of all tasks. The editor makes one call after another, and refreshes may be any number.
Saves, time and other programs change the saver and the disk at will. -/
inductive Step (shared : SharedSession) : SharedSession → Prop where
  | mark {table : SymbolTable} (document : Document) (cancelled : Nat → Bool)
      (free : shared.call = none) (accepted : shared.session.filter.accepts document)
      (scanned : SymbolTable.ofTextUnless? cancelled document.text = some table) :
    Step shared
      { shared.withSession (shared.session.mark document.uri) with
        call := some (.put document.uri document.text) }
  | unmark (uri : String) (free : shared.call = none) :
    Step shared
      { shared.withSession (shared.session.unmark uri) with call := some (.drop uri) }
  | complete {change : Change String} (waiting : shared.call = some change) :
    Step shared
      { shared.withSession (shared.session.complete change) with
        call := none
        completed := shared.completed ++ [change] }
  | startUp {stage : Stage} {scan : Scan} (step : Stage.Step shared.stage shared.scan stage scan) :
    Step shared { shared with stage := stage, scan := scan }
  | watch {path : Path} (watched : shared.session.watches path) :
    Step shared { shared with refreshes := shared.refreshes ++ [.opening path] }
  | refresh {earlier later : List Refresh} {refresh : Refresh} {session : Session}
      {left : Option Refresh} (listed : shared.refreshes = earlier ++ refresh :: later)
      (step : Refresh.Step shared.session refresh session left) :
    Step shared
      { shared.withSession session with refreshes := earlier ++ left.toList ++ later }
  | stop : Step shared (shared.withSession { shared.session with stopped := true })
  | outside (saver : Saver) (disk : Disk) :
    Step shared
      (shared.withSession
        { shared.session with
          store := { shared.session.store with saver := saver, disk := disk } })

/-- Some sequence of steps leads from one state to the other. -/
def Reaches : SharedSession → SharedSession → Prop := Relation.ReflTransGen Step

theorem Reaches.trans {one other last : SharedSession} (first : one.Reaches other)
    (second : other.Reaches last) : one.Reaches last :=
  Relation.ReflTransGen.trans first second

theorem Step.reaches {one other : SharedSession} (step : one.Step other) : one.Reaches other :=
  Relation.ReflTransGen.single step

end SharedSession
end AssemblySymbols
