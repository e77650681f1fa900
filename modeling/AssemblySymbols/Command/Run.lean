import AssemblySymbols.Command.Arguments
import AssemblySymbols.Command.Environment
import AssemblySymbols.Session.Watch
import AssemblySymbols.Text.Quoted

/-! Running commands. A command works on a session of its root, which is shut down at its end whether
or not it has succeeded. -/
namespace AssemblySymbols

inductive CommandError where
  /-- The root of the workspace cannot be found. -/
  | root (cause : DiskError)
  | settingsExist (path : Path)
  | settingsNotSaved (cause : DiskError)
  | positionNotFromOne
  | document (cause : DiskError)
  | cacheNotSaved (cause : DiskError)
deriving DecidableEq, Repr

namespace DiskError

/-- An error with all that is known of it. -/
def details (error : DiskError) : String :=
  let message := String.ofList (Text.quote error.description.toList)
  match error.code? with
  | some code =>
    "Os \x7b code: " ++ toString code ++ ", kind: " ++ error.kindName ++ ", message: " ++ message ++
      " \x7d"
  | none => "Error \x7b kind: " ++ error.kindName ++ ", message: " ++ message ++ " \x7d"

end DiskError

namespace CommandError

def quoted (text : String) : String := String.ofList (Text.quote text.toList)

def details : CommandError → String
  | root cause => cause.details
  | settingsExist path => quoted (path.text ++ " already exists")
  | settingsNotSaved cause => quoted cause.message
  | positionNotFromOne => quoted "line and column are 1-based"
  | document cause | cacheNotSaved cause => "Io(" ++ cause.details ++ ")"

/-- The line that is written about an error. -/
def message (error : CommandError) : String := "Error: " ++ error.details ++ "\n"

end CommandError

namespace Site

/-- A site as it is printed: its path from the root if it is below it, line and column from one. -/
def text (root : Path) (site : Site) : String :=
  let path := (Path.relativeTo? ⟨site.uri⟩ root).getD site.uri
  path ++ ":" ++ toString (site.span.start.line + 1) ++ ":" ++ toString (site.span.start.character + 1)

end Site

def siteLines (root : Path) (sites : List Site) : List String :=
  if sites.isEmpty then ["no definition"] else sites.map (Site.text root)

namespace Identifier

/-- An identifier as it is printed, with its line and columns from one. -/
def text (identifier : Identifier) (line : UInt32) : String :=
  identifier.name ++ " (" ++ toString (line + 1) ++ ":" ++ toString (identifier.start + 1) ++ "-" ++
    toString (identifier.stop + 1) ++ ")"

end Identifier

/-- The lines that a command prints, or why it fails. -/
abbrev Report := Except CommandError (List String)

namespace Session

def runInit (session : Session) (force : Bool) : Session × Report :=
  let path := Settings.path session.root
  if session.disk.pathExists path && !force then (session, .error (.settingsExist path))
  else
    let (outcome, disk) := (session.settings.save session.root).run session.disk
    (session.withDisk disk,
      match outcome with
      | .ok () => .ok ["wrote " ++ path.text]
      | .error cause => .error (.settingsNotSaved cause))

def runScan (session : Session) : Session × Report :=
  let (session, stats) := session.ensureInitialized session.openings?
  let (session, outcome) := session.saveNow
  (session,
    match outcome with
    | .ok () => .ok [toString stats.indexed ++ " files, " ++ toString stats.definitions ++
        " definitions, " ++ toString session.index.documentCount ++ " documents in index"]
    | .error cause => .error (.cacheNotSaved cause))

def runKind (session : Session) (name : String) : Session × Report :=
  let (session, kind) := session.kindOf? session.openings? false name
  (session, .ok [(kind.map Kind.text).getD "undefined"])

def runGoto (session : Session) (name : String) : Session × Report :=
  let (session, sites) := session.definitionsOf session.openings? false name
  (session, .ok (siteLines session.root sites))

def runAt (session : Session) (file : String) (line column : UInt32) : Session × Report :=
  if line = 0 || column = 0 then (session, .error .positionNotFromOne)
  else match session.disk.openDocument (session.root.child file) with
    | .error cause => (session, .error (.document cause))
    | .ok document =>
      let position : Position := ⟨line - 1, column - 1⟩
      match identifierIn? document.text position with
      | none => (session, .ok ["no identifier"])
      | some identifier =>
        let (session, sites) :=
          session.definitionsAt session.openings? false document.text position
        (session, .ok (identifier.text position.line :: siteLines session.root sites))

/-- Runs a command up to its end; watching is begun only. -/
def run (session : Session) : Command → Session × Report
  | .init force => session.runInit force
  | .scan => session.runScan
  | .kind name => session.runKind name
  | .goto name => session.runGoto name
  | .at file line column => session.runAt file line column
  | .watch _ => ((session.ensureInitialized session.openings?).1, .ok [])

end Session

namespace Invocation

/-- The session that an invocation works on. -/
def begin? (invocation : Invocation) (disk : Disk) (environment : Environment) :
    Except CommandError Session :=
  match disk.canonicalPath ⟨invocation.root⟩ with
  | .error cause => .error (.root cause)
  | .ok root => .ok (.ofRoot disk root (environment.get? Settings.delayVariable))

/-- Runs an invocation from its begin to its end. -/
def run (invocation : Invocation) (disk : Disk) (environment : Environment) : Disk × Report :=
  match invocation.begin? disk environment with
  | .error error => (disk, .error error)
  | .ok session =>
    let (session, report) := session.run invocation.command
    (session.shutdown.disk, report)

end Invocation
end AssemblySymbols
