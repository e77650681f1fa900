import AssemblySymbols.Command.Run
import AssemblySymbols.Proofs.Session.RepeatedScans
import AssemblySymbols.Proofs.Session.ScanAndWatch

/-! Commands that follow one another on the same disk. -/
namespace AssemblySymbols
open Session (Opening)

/-- What an invocation looks at: the root of its workspace with the settings, and the files that are
found below it with their texts. -/
structure Sight where
  root : Path
  settings : Settings
  openings : Option (List Opening)

def Session.sight (session : Session) : Sight := ⟨session.root, session.settings, session.openings?⟩

def Invocation.sight? (invocation : Invocation) (disk : Disk) (environment : Environment) :
    Except CommandError Sight :=
  (invocation.begin? disk environment).map Session.sight

namespace Session

/-- What is opened are the files that discovery finds, each with its text. -/
theorem openings?_eq (session : Session) :
    ∃ discovered, session.openings? = plainly session.disk.text? discovered := by
  unfold openings? plainly
  cases session.disk.findFiles session.root session.settings.patterns with
  | error => exact ⟨none, rfl⟩
  | ok paths =>
    exact ⟨some paths, congrArg some (List.map_congr_left fun path _ => session.disk.opening_eq path)⟩

/-- What a scan writes and when it succeeds. -/
theorem runScan_eq (session : Session) :
    let scanned := session.ensureInitialized session.openings?
    let saved := (Cache.save scanned.1.store.cachePath scanned.1.index.snapshot).run scanned.1.disk
    session.runScan.1.shutdown.disk = saved.2 ∧
    ∀ lines, session.runScan.2 = .ok lines ↔ saved.1 = .ok () ∧
      lines = [toString scanned.2.indexed ++ " files, " ++ toString scanned.2.definitions ++
        " definitions, " ++ toString scanned.1.index.documentCount ++ " documents in index"] := by
  intro scanned saved
  refine ⟨rfl, fun lines => ?_⟩
  have written : scanned.1.saveNow.2 = saved.1 := rfl
  have kept : scanned.1.saveNow.1.index = scanned.1.index := rfl
  rw [runScan, show session.ensureInitialized session.openings? = scanned from rfl]
  dsimp only
  rw [written, kept]
  rcases saved.1 with error | _
  · simp
  · simp [eq_comm]

end Session

namespace Invocation
variable {invocation : Invocation} {disk disk' : Disk} {environment : Environment} {session : Session}

theorem begin?_eq_ok_iff : invocation.begin? disk environment = .ok session ↔
    ∃ root, disk.canonicalPath ⟨invocation.root⟩ = .ok root ∧
      session = .start root
        (Settings.load disk root (environment.get? Settings.delayVariable)) disk := by
  unfold begin?
  cases disk.canonicalPath ⟨invocation.root⟩ with
  | error => simp
  | ok root => simp [Session.ofRoot, eq_comm]

/-- What an invocation opens it only reads. -/
theorem disk_ensureInitialized (begun : invocation.begin? disk environment = .ok session) :
    (session.ensureInitialized session.openings?).1.disk = disk ∧
      (session.ensureInitialized session.openings?).1.store.cachePath = session.store.cachePath := by
  obtain ⟨_, _, rfl⟩ := begin?_eq_ok_iff.mp begun
  obtain ⟨discovered, openings⟩ := Session.openings?_eq (.start _ _ disk)
  rw [openings]
  exact Session.disk_ensureInitialized_plainly _ discovered rfl rfl

/-- Invocations that look at the same work on sessions that differ in their disks alone. -/
theorem begin?_of_sight? (begun : invocation.begin? disk environment = .ok session)
    (same : invocation.sight? disk' environment = invocation.sight? disk environment) :
    ∃ session', invocation.begin? disk' environment = .ok session' ∧ ∃ root settings,
      session = .start root settings disk ∧ session' = .start root settings disk' ∧
      session'.openings? = session.openings? := by
  rw [sight?, sight?, begun] at same
  cases begun' : invocation.begin? disk' environment with
  | error => simp [begun', Except.map] at same
  | ok session' =>
    simp only [begun', Except.map, Except.ok.injEq, Session.sight, Sight.mk.injEq] at same
    obtain ⟨sameRoot, sameSettings, openings⟩ := same
    obtain ⟨root, _, made⟩ := begin?_eq_ok_iff.mp begun
    obtain ⟨root', _, made'⟩ := begin?_eq_ok_iff.mp begun'
    generalize Settings.load disk root (environment.get? Settings.delayVariable) = settings at made
    generalize Settings.load disk' root' (environment.get? Settings.delayVariable) = settings' at made'
    subst made made'
    cases (show root' = root from sameRoot)
    cases (show settings' = settings from sameSettings)
    exact ⟨_, rfl, root, settings, rfl, rfl, openings⟩

/-- When a scan succeeds, what it saves and what it reports. -/
theorem run_scan {root : String} {lines : List String}
    (begun : (Invocation.mk root .scan).begin? disk environment = .ok session) :
    let scanned := session.ensureInitialized session.openings?
    run ⟨root, .scan⟩ disk environment = (disk', .ok lines) ↔
      (Cache.save session.store.cachePath scanned.1.index.snapshot).run disk = (.ok (), disk') ∧
      lines = [toString scanned.2.indexed ++ " files, " ++ toString scanned.2.definitions ++
        " definitions, " ++ toString scanned.1.index.documentCount ++ " documents in index"] := by
  intro scanned
  obtain ⟨kept, cachePath⟩ := disk_ensureInitialized begun
  obtain ⟨written, reported⟩ := session.runScan_eq
  rw [kept, cachePath] at written reported
  have ended : run ⟨root, .scan⟩ disk environment =
      (session.runScan.1.shutdown.disk, session.runScan.2) := by
    rw [run, begun]
    rfl
  rw [ended, Prod.mk.injEq, Prod.ext_iff, reported, written]
  constructor
  · rintro ⟨after, saved, line⟩
    exact ⟨⟨saved, after⟩, line⟩
  · rintro ⟨⟨saved, after⟩, line⟩
    exact ⟨after, saved, line⟩

/-- A scan that follows another one, and looks at the same, writes the cache as it is and reports the
same. -/
theorem scan_again {root : String} {disk'' : Disk} {lines lines' : List String}
    (begun : (Invocation.mk root .scan).begin? disk environment = .ok session)
    (free : Cache.Unobstructed disk session.store.cachePath)
    (first : run ⟨root, .scan⟩ disk environment = (disk', .ok lines))
    (same : (Invocation.mk root .scan).sight? disk' environment =
      (Invocation.mk root .scan).sight? disk environment)
    (second : run ⟨root, .scan⟩ disk' environment = (disk'', .ok lines')) :
    lines' = lines ∧ ∃ bytes, disk'.read session.store.cachePath = .ok bytes ∧
      disk''.read session.store.cachePath = .ok bytes := by
  obtain ⟨session', begun', own, settings, made, made', openings'⟩ := begin?_of_sight? begun same
  subst made made'
  obtain ⟨discovered, openings⟩ := (Session.start own settings disk).openings?_eq
  obtain ⟨saved, reported⟩ := (run_scan begun).mp first
  obtain ⟨saved', reported'⟩ := (run_scan begun').mp second
  obtain ⟨read, free'⟩ := Cache.read_of_save free saved
  have read' := (Cache.read_of_save free' saved').1
  rw [openings', openings] at saved' reported' read'
  rw [openings] at saved reported read
  obtain ⟨reordered, indexed, definitions⟩ := Session.repeats_start _ _ (Cache.load_of_save free saved).1
  rw [reordered.snapshot] at read'
  rw [reported', reported, indexed, definitions, reordered.documentCount]
  exact ⟨rfl, _, read, read'⟩

end Invocation
end AssemblySymbols
