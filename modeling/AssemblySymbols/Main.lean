import AssemblySymbols.Command.Shell
import Std.Async.Signal

/-! The program. -/
namespace AssemblySymbols.Shell

/-- The variables that the files of the working directory may ask for. -/
def readEnvironment (disk : Disk) : IO Environment := do
  let texts := disk.nodes.filterMap fun (_, node) =>
    match node with
    | .file bytes => some (String.ofList (Text.decodeLossy bytes))
    | _ => none
  let words := texts.flatMap fun text =>
    (text.map fun c => if Environment.isKeyChar c then c else ' ').splitOn " "
  let mut environment : Environment := []
  for name in Settings.delayVariable :: words.eraseDups do
    if let some value ← IO.getEnv name then environment := environment.add name value
  return environment

/-- Reads all that an invocation may need, cache and named file included. -/
def readFor (invocation : Invocation) (disk : Disk) (environment : Environment) : IO Disk := do
  let disk ← addWorkspace disk invocation.root
  match invocation.begin? disk environment with
  | .error _ => return disk
  | .ok session =>
    let disk ← addFile disk session.store.cachePath
    let disk ← addFile disk (Cache.temporaryPath session.store.cachePath)
    match invocation.command with
    | .at file _ _ => addFile disk (session.root.child file)
    | _ => return disk

/-- Follows the changes on disk until `stopped`. -/
partial def follow (invocation : Invocation) (home : Disk) (environment : Environment)
    (pause : UInt64) (stopped : IO Bool) (watch : Watch) : IO Session := do
  if ← stopped then return watch.session
  let began ← IO.monoMsNow
  IO.sleep (max 10 (min pause.toNat 60000)).toUInt32
  let fresh ← readFor invocation home environment
  let paths := differences watch.session.disk fresh
  let watch := { watch with session := watch.session.withDisk fresh }
  let watch := if paths.isEmpty then watch.settle else watch.receive (.changed paths)
  let session := watch.session.advance ((← IO.monoMsNow) - began)
  update fresh session.disk
  follow invocation home environment pause stopped { watch with session := session }

/-- Watches a workspace until the program is interrupted. -/
def watchUntilInterrupted (invocation : Invocation) (home : Disk) (environment : Environment)
    (pause : UInt64) (session : Session) : IO Session := do
  let waiter ← Std.Async.Signal.Waiter.mk .sigint false
  let signal ← waiter.wait
  follow invocation home environment pause (IO.hasFinished signal) (.start session)

def usage : String :=
  "Usage: [--root ROOT] init [--force] | scan | kind NAME | goto NAME | " ++
    "at FILE LINE COLUMN | watch [--debounce-ms MS]"

def runInvocation (invocation : Invocation) (home : Disk) : IO Report := do
  let environment := (← readEnvironment home).addWorkingFile home
  let disk ← readFor invocation home environment
  match invocation.begin? disk environment, invocation.command with
  | .ok session, .watch pause =>
    let (session, report) := session.run invocation.command
    let session ← watchUntilInterrupted invocation home environment pause session
    update (← readFor invocation home environment) session.shutdown.disk
    return report
  | _, _ =>
    let (after, report) := invocation.run disk environment
    update disk after
    return report

end AssemblySymbols.Shell

open AssemblySymbols in
def main (arguments : List String) : IO UInt32 := do
  match Invocation.parse arguments with
  | .error .helpRequested =>
    IO.println Shell.usage
    return 0
  | .error _ =>
    IO.eprintln Shell.usage
    return 2
  | .ok invocation =>
    match ← Shell.runInvocation invocation (← Shell.readHome) with
    | .ok lines =>
      for line in lines do IO.println line
      return 0
    | .error error =>
      IO.eprint error.message
      return 1
