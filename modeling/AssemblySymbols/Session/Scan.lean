import AssemblySymbols.Session.Basic

/-! Initialization: the index is seeded from the cache, then every file of the workspace is scanned,
and what is left from the cache without a file goes. -/
namespace AssemblySymbols

/-- A scan under way. -/
structure Scan where
  session : Session
  stats : ScanStats
  /-- Documents that have been opened. -/
  seen : List String
  /-- Files that have been opened or tried. -/
  opened : List Path

namespace Scan

def start (session : Session) (discovered : Nat) : Scan := ⟨session, .start discovered, [], []⟩

def cancel (scan : Scan) : Scan := { scan with stats := { scan.stats with cancelled := true } }

def countFailed (scan : Scan) : Scan :=
  { scan with stats := { scan.stats with failed := scan.stats.failed + 1 } }

def countSkipped (scan : Scan) : Scan :=
  { scan with stats := { scan.stats with skipped := scan.stats.skipped + 1 } }

/-- Opens a file, while the editor goes on. -/
def openFile (scan : Scan) (opening : Session.Opening) : Scan :=
  { scan with
    session := scan.session.applyCalls opening
    opened := scan.opened ++ [opening.path] }

def see (scan : Scan) (uri : String) : Scan := { scan with seen := scan.seen.insert uri }

/-- Puts a table into the index. -/
def install (scan : Scan) (uri : String) (table : SymbolTable) : Scan :=
  match scan.session.installFile uri table with
  | (_, false) => scan.countSkipped
  | (session, true) =>
    { scan with
      session := session
      stats := { scan.stats with
        indexed := scan.stats.indexed + 1
        definitions := scan.stats.definitions + table.definitionCount } }

/-- Takes an opened document into the index, if the filter accepts it. -/
def take (scan : Scan) (document : Document) : Scan :=
  let scan := scan.see document.uri
  if scan.session.filter.accepts document then
    match SymbolTable.ofTextUnless? (fun _ => scan.session.stopped) document.text with
    | none => scan.cancel
    | some table => scan.install document.uri table
  else scan.countSkipped

/-- Scans files one after another until the session is shut down. -/
def files (scan : Scan) : List Session.Opening → Scan
  | [] => scan
  | opening :: rest =>
    if scan.session.stopped then scan.cancel
    else
      let scan := scan.openFile opening
      match opening.document with
      | none => scan.countFailed.files rest
      | some document =>
        if scan.session.stopped then scan.cancel else (scan.take document).files rest

/-- Documents that neither a file nor the editor accounts for. -/
def stale (scan : Scan) : List String :=
  scan.session.index.uris.filter fun uri => !scan.seen.contains uri && !scan.session.isHosted uri

/-- Removes what is stale. -/
def prune (scan : Scan) : Scan :=
  { scan with
    session := scan.session.modifyIndex fun index => scan.stale.foldl SymbolIndex.remove index
    stats := { scan.stats with pruned := scan.stale.length } }

end Scan

namespace Session

/-- Seeds the index from the cache. A cache that cannot be used counts as none. -/
def warmStart (session : Session) : Session :=
  match session.store.load with
  | .ok snapshot => session.modifyIndex fun index => (index.restore snapshot).1
  | .error _ => session

/-- Scans the files of the workspace. If they could not be discovered, nothing is pruned. -/
def scanWorkspace (session : Session) (discovered : Option (List Opening)) : Scan :=
  let openings := discovered.getD []
  let scan := (Scan.start session openings.length).files openings
  if discovered.isSome && !scan.stats.cancelled then scan.prune else scan

/-- Runs the initialization, as far as the opening of files goes. -/
def initialScan (session : Session) (discovered : Option (List Opening)) : Scan :=
  session.warmStart.scanWorkspace discovered

/-- Initializes a session that is not yet. -/
def ensureInitialized (session : Session) (discovered : Option (List Opening)) :
    Session × ScanStats :=
  match session.initialized with
  | some stats => (session, stats)
  | none =>
    let scan := session.initialScan discovered
    let changed := 0 < scan.stats.indexed || 0 < scan.stats.pruned
    let session := if changed then scan.session.requestSave else scan.session
    ({ session with initialized := some scan.stats }, scan.stats)

end Session
end AssemblySymbols
