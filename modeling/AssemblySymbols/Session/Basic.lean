import AssemblySymbols.Session.CachedIndex
import AssemblySymbols.Source.Identifier
import AssemblySymbols.Workspace.Document

/-! A session over one workspace. The editor that hosts it hands over documents, whose text is newer
than that on disk: what the editor has indexed stays until the editor removes it. -/
namespace AssemblySymbols

/-- What became of the files of a workspace. -/
structure ScanStats where
  discovered : Nat
  indexed : Nat
  failed : Nat
  /-- Files outside of the filter and files that the editor has indexed. -/
  skipped : Nat
  /-- Definitions in the tables that the scan has put into the index. -/
  definitions : Nat
  /-- Documents of the cache whose files are gone. -/
  pruned : Nat
  cancelled : Bool
deriving DecidableEq, Repr

def ScanStats.start (discovered : Nat) : ScanStats := ⟨discovered, 0, 0, 0, 0, 0, false⟩

structure Session where
  root : Path
  settings : Settings
  store : CachedIndex
  /-- The documents that the editor has indexed and not removed since. -/
  hostDocuments : List String
  /-- The outcome of the initialization, which happens once. -/
  initialized : Option ScanStats
  /-- The session is shut down and requests no saves any more. -/
  stopped : Bool

namespace Session

def start (root : Path) (settings : Settings) (disk : Disk) : Session where
  root := root
  settings := settings
  store := .start (settings.cachePath root) settings.saveDelay.toNat disk
  hostDocuments := []
  initialized := none
  stopped := false

def filter (session : Session) : DocumentFilter := .ofSettings session.settings

def index (session : Session) : SymbolIndex := session.store.index

def disk (session : Session) : Disk := session.store.disk

def withDisk (session : Session) (disk : Disk) : Session :=
  { session with store := { session.store with disk := disk } }

def isHosted (session : Session) (uri : String) : Bool := session.hostDocuments.contains uri

def mark (session : Session) (uri : String) : Session :=
  { session with hostDocuments := session.hostDocuments.insert uri }

def unmark (session : Session) (uri : String) : Session :=
  { session with hostDocuments := session.hostDocuments.filter (· ≠ uri) }

def modifyIndex (session : Session) (change : SymbolIndex → SymbolIndex) : Session :=
  { session with store := session.store.modify change }

/-- Requests a save, unless the session is shut down. -/
def requestSave (session : Session) : Session :=
  if session.stopped then session else { session with store := session.store.schedule }

/-- Puts the table of a file into the index, unless the editor has indexed the document. -/
def installFile (session : Session) (uri : String) (table : SymbolTable) : Session × Bool :=
  if session.isHosted uri then (session, false)
  else (session.modifyIndex (·.replace uri table), true)

/-- Removes the document of a file that is gone, unless the editor has indexed it. -/
def dropFile (session : Session) (uri : String) : Session × Bool :=
  if session.isHosted uri || !session.index.contains uri then (session, false)
  else (session.modifyIndex (·.remove uri), true)

/-- Indexes a document for the editor and says whether it has been indexed. It is not if the filter
refuses it or if a look at `cancelled` before one of its lines stops the scan. -/
def indexDocumentUnless (session : Session) (cancelled : Nat → Bool) (document : Document) :
    Session × Bool :=
  if session.filter.accepts document then
    match SymbolTable.ofTextUnless? cancelled document.text with
    | none => (session, false)
    | some table =>
      (((session.mark document.uri).modifyIndex (·.replace document.uri table)).requestSave, true)
  else (session, false)

def indexDocument (session : Session) (document : Document) : Session × Bool :=
  session.indexDocumentUnless (fun _ => false) document

/-- Forgets a document and says whether it was indexed. -/
def removeDocument (session : Session) (uri : String) : Session × Bool :=
  if session.index.contains uri then
    (((session.unmark uri).modifyIndex (·.remove uri)).requestSave, true)
  else (session.unmark uri, false)

/-- Ends the session, completing a save that is pending. -/
def shutdown (session : Session) : Session :=
  { session with stopped := true, store := session.store.flush.1 }

/-- What the editor may do while the session waits for a file. -/
inductive HostCall where
  | index (document : Document)
  | remove (uri : String)
  | shutdown
deriving DecidableEq, Repr

def applyCall (session : Session) : HostCall → Session
  | .index document => (session.indexDocument document).1
  | .remove uri => (session.removeDocument uri).1
  | .shutdown => session.shutdown

/-- The opening of a file: the calls of the editor that come in the meantime, and the document, if it
can be read. -/
structure Opening where
  path : Path
  calls : List HostCall
  document : Option Document
deriving DecidableEq, Repr

def applyCalls (session : Session) (opening : Opening) : Session :=
  opening.calls.foldl applyCall session

/-- A file can have changed something in the index. -/
def watches (session : Session) (path : Path) : Bool :=
  !session.isHosted path.text && session.filter.acceptsPath path

/-- Brings the index in line with a file and says whether the index has changed. -/
def refresh (session : Session) (opening : Opening) : Session × Bool :=
  if session.watches opening.path then
    let session := session.applyCalls opening
    let (session, changed) := match opening.document with
      | some document => session.installFile document.uri (.ofText document.text)
      | none => session.dropFile opening.path.text
    (if changed then session.requestSave else session, changed)
  else (session, false)

def saveNow (session : Session) : Session × Except DiskError Unit :=
  let (store, outcome) := session.store.saveNow
  ({ session with store := store }, outcome)

def advance (session : Session) (milliseconds : Nat) : Session :=
  { session with store := session.store.advance milliseconds }

end Session
end AssemblySymbols
