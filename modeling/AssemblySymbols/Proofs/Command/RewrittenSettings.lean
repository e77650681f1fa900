import AssemblySymbols.Proofs.Command.ShelteredCaches
import AssemblySymbols.Proofs.Command.GotoAndAt
import AssemblySymbols.Proofs.Disk.WrittenFiles
import AssemblySymbols.Proofs.SettingsFormat

/-! The settings file of a workspace. What is saved is loaded again, and a file that exists can be
replaced by what is loaded of it. -/
namespace AssemblySymbols
open Json

namespace Settings
variable {settings : Settings} {disk after : Disk} {root : Path} {bytes : Text.Bytes}

theorem fileName?_path (some_root : root.text.toList ≠ []) :
    (path root).fileName? = some "settings.json" :=
  @Path.fileName?_descend root [".asmdex", "config"] "settings.json" some_root (by decide)

theorem load_of_read (readable : disk.read (path root) = .ok bytes) (delayText? : Option String) :
    load disk root delayText? = read (defaults delayText?) bytes := by
  unfold load
  rw [readable]

theorem read_of_save (saved : (settings.save root).run disk = (.ok (), after)) :
    after.read (path root) = .ok (Text.encode settings.text.toList) := by
  rw [save, DiskAction.run_bind] at saved
  rcases made : (DiskAction.makeParent (path root)).run disk with ⟨error | ⟨⟩, ready⟩
  · rw [made] at saved
    cases saved
  · rw [made] at saved
    dsimp only at saved
    rw [DiskAction.write, DiskAction.run_change] at saved
    cases wrote : ready.write (path root) (Text.encode settings.text.toList) with
    | error error =>
      rw [wrote] at saved
      cases saved
    | ok written =>
      rw [wrote] at saved
      cases saved
      exact Disk.read_of_write wrote

theorem load_of_save (saved : (settings.save root).run disk = (.ok (), after)) (delayText? : Option String) :
    load after root delayText? = settings :=
  (load_of_read (read_of_save saved) delayText?).trans (read_encode_text settings (defaults delayText?))

/-- A settings file that can be read can be replaced. -/
theorem save_of_read (some_root : root.text.toList ≠ []) (readable : disk.read (path root) = .ok bytes)
    (settings : Settings) : ∃ after, (settings.save root).run disk = (.ok (), after) := by
  obtain ⟨place, found, wrote⟩ := Disk.write_of_read readable (Text.encode settings.text.toList)
  refine ⟨disk.put place (.file (Text.encode settings.text.toList)), ?_⟩
  rw [save, DiskAction.run_bind, DiskAction.run_makeParent (fileName?_path some_root) found]
  dsimp only
  rw [DiskAction.write, DiskAction.run_change, wrote]

end Settings

/-- What an initialization by force writes, and when it succeeds. -/
theorem Session.runInit_force (session : Session) :
    let saved := (session.settings.save session.root).run session.disk
    (session.runInit true).1 = session.withDisk saved.2 ∧
    ∀ lines, (session.runInit true).2 = .ok lines ↔
      saved.1 = .ok () ∧ lines = ["wrote " ++ (Settings.path session.root).text] := by
  intro saved
  have outcome : (session.settings.save session.root).run session.disk = saved := rfl
  rw [runInit, Bool.not_true, Bool.and_false, outcome]
  rcases saved with ⟨error | ⟨⟩, written⟩
  · simp
  · simp [eq_comm]

namespace Invocation
variable {name : String} {disk after : Disk} {environment : Environment} {session : Session}

/-- The settings that an invocation writes are those that it has loaded. -/
theorem run_init (begun : (Invocation.mk name (.init true)).begin? disk environment = .ok session) :
    session.root.text.toList ≠ [] ∧
    ∀ lines, run ⟨name, .init true⟩ disk environment = (after, .ok lines) ↔
      ((Settings.load disk session.root (environment.get? Settings.delayVariable)).save session.root).run disk =
        (.ok (), after) ∧ lines = ["wrote " ++ (Settings.path session.root).text] := by
  obtain ⟨root, canonical, made⟩ := begin?_eq_ok_iff.mp begun
  obtain ⟨place, node, -, rfl⟩ := Disk.canonicalPath_eq_ok_iff.mp canonical
  have fresh : session.root = place.path ∧
      session.settings = Settings.load disk place.path (environment.get? Settings.delayVariable) ∧
      session.disk = disk ∧ session.store.isPending = false := by
    generalize Settings.load disk place.path (environment.get? Settings.delayVariable) = settings at made ⊢
    rw [made]
    exact ⟨rfl, rfl, rfl, rfl⟩
  obtain ⟨own, loaded, still, idle⟩ := fresh
  obtain ⟨written, reported⟩ := session.runInit_force
  rw [loaded, own, still] at written reported
  rw [own]
  refine ⟨place.path_ne_nil, fun lines => ?_⟩
  have unpending (later : Disk) : (session.withDisk later).shutdown.disk = later := by
    rw [Session.disk_shutdown]
    exact if_neg (Bool.not_eq_true _ ▸ idle)
  have ended : run ⟨name, .init true⟩ disk environment =
      ((session.runInit true).1.shutdown.disk, (session.runInit true).2) := by
    rw [run, begun]
    dsimp only
    rw [Session.run]
  rw [ended, written, unpending, Prod.mk.injEq, reported, Prod.ext_iff]
  constructor
  · rintro ⟨same, saved, line⟩
    exact ⟨⟨saved, same⟩, line⟩
  · rintro ⟨⟨saved, same⟩, line⟩
    exact ⟨same, saved, line⟩

end Invocation

namespace Settings

/-- Settings that have been saved are loaded as they were. An object that holds some of their fields, in
whatever order and among whatever others, is loaded as these fields with the defaults for the rest. So the
settings file can be replaced by what is loaded of it, which changes nothing of this. -/
theorem saved_and_completed (settings : Settings) (disk : Disk) (root : Path) (delayText? : Option String) :
    (∀ after, (settings.save root).run disk = (.ok (), after) → load after root delayText? = settings) ∧
    (∀ (given : String → Bool) (fields : List (String × Json)),
      (fields.filter (fieldNames.contains ·.1)).Perm (settings.fields.filter (given ·.1)) →
      (∀ bytes, disk.read (path root) = .ok bytes → parse? (Text.decode bytes) = some (ofFields fields) →
        load disk root delayText? = picked given settings (defaults delayText?)) ∧
      ((∀ field ∈ fields, Legible field.2) → ∀ layout : Layout, layout.Blank →
        parse? (Text.decode (Text.encode (layout.write 0 (ofFields fields)))) = some (ofFields fields))) ∧
    ∀ name environment session,
      (Invocation.mk name (.init true)).begin? disk environment = .ok session →
      let loaded := load disk session.root (environment.get? delayVariable)
      (∀ after lines, Invocation.run ⟨name, .init true⟩ disk environment = (after, .ok lines) →
        load after session.root (environment.get? delayVariable) = loaded ∧
        after.read (path session.root) = .ok (Text.encode loaded.text.toList)) ∧
      ∀ bytes, disk.read (path session.root) = .ok bytes →
        ∃ after lines, Invocation.run ⟨name, .init true⟩ disk environment = (after, .ok lines) := by
  refine ⟨fun after saved => load_of_save saved delayText?, fun given fields same => ⟨?_, ?_⟩, ?_⟩
  · intro bytes readable spelled
    exact (load_of_read readable delayText?).trans (read_of_given spelled same)
  · intro legible layout blank
    rw [Text.decode_encode]
    exact parse?_write blank (.object legible)
  · intro name environment session begun loaded
    constructor
    · intro after lines ran
      obtain ⟨saved, -⟩ := ((Invocation.run_init begun).2 lines).mp ran
      exact ⟨load_of_save saved _, read_of_save saved⟩
    · intro bytes readable
      obtain ⟨after, saved⟩ := save_of_read (@Invocation.run_init _ _ disk _ _ begun).1 readable loaded
      exact ⟨after, _, ((Invocation.run_init begun).2 _).mpr ⟨saved, rfl⟩⟩

/-- A workspace whose settings file holds the last and the first of the fields, and one that is unknown. -/
def partlySet : Disk where
  nodes := [([".asmdex"], .directory), ([".asmdex", "config"], .directory),
    ([".asmdex", "config", "settings.json"], .file (Text.encode (Json.indented (ofFields
      [("extensions", ofTexts ["s"]), ("theme", .null), ("save_debounce_ms", ofNat 25)])).toList))]
  home := []

/-- Another delay is in the environment, where it stays without effect. -/
theorem saved_and_completed_partlySet :
    let environment := [("ASMDEX_SAVE_DEBOUNCE_MS", "7")]
    let loaded : Settings := ⟨25, ".asmdex/cache", ["**/*.asm", "**/*.inc"], ["fasm", "fasmg"], ["s"]⟩
    let odd : Settings := ⟨18446744073709551615, "\"\\\n\u0001é😀", [], [""], ["a", "a"]⟩
    (∃ after, (odd.save ⟨"/"⟩).run .empty = (.ok (), after) ∧ load after ⟨"/"⟩ (some "7") = odd) ∧
    load partlySet ⟨"/"⟩ (some "7") = loaded ∧
    ∃ after lines, Invocation.run ⟨"/", .init true⟩ partlySet environment = (after, .ok lines) ∧
      load after ⟨"/"⟩ (some "7") = loaded := by
  intro environment loaded odd
  have ok : ((odd.save ⟨"/"⟩).run .empty).1 = .ok () := by decide +kernel
  have stored : (odd.save ⟨"/"⟩).run .empty = (.ok (), ((odd.save ⟨"/"⟩).run .empty).2) := Prod.ext ok rfl
  obtain ⟨saves, -, -⟩ := saved_and_completed odd .empty ⟨"/"⟩ (some "7")
  obtain ⟨-, completes, rewrites⟩ := saved_and_completed loaded partlySet ⟨"/"⟩ (some "7")
  obtain ⟨reads, parses⟩ := completes (["save_debounce_ms", "extensions"].contains ·)
    [("extensions", ofTexts ["s"]), ("theme", .null), ("save_debounce_ms", ofNat 25)] (.swap _ _ [])
  have legible : ∀ field ∈ [("extensions", ofTexts ["s"]), ("theme", .null), ("save_debounce_ms", ofNat 25)],
      Legible field.2 := by
    simp only [List.forall_mem_cons]
    exact ⟨.array (by simpa using .text "s"), .null, .nat 25, by simp⟩
  have read : partlySet.read (path ⟨"/"⟩) = .ok (Text.encode (Json.indented (ofFields
      [("extensions", ofTexts ["s"]), ("theme", .null), ("save_debounce_ms", ofNat 25)])).toList) := rfl
  have partly : load partlySet ⟨"/"⟩ (some "7") = loaded := by
    refine (reads _ read ?_).trans ?_
    · rw [Json.indented, String.toList_ofList]
      exact parses legible _ Layout.blank_indented
    · decide
  have begun : (Invocation.mk "/" (.init true)).begin? partlySet environment =
      .ok (.start ⟨"/"⟩ (load partlySet ⟨"/"⟩ (some "7")) partlySet) :=
    Invocation.begin?_eq_ok_iff.mpr ⟨⟨"/"⟩, Disk.canonicalPath_eq_ok_iff.mpr
      ⟨[], .directory, partlySet.find?_top, by decide⟩, rfl⟩
  obtain ⟨keeps, succeeds⟩ := rewrites "/" environment _ begun
  obtain ⟨after, lines, ran⟩ := succeeds _ read
  exact ⟨⟨_, stored, saves _ stored⟩, partly, after, lines, ran, (keeps after lines ran).1.trans partly⟩

end Settings
end AssemblySymbols
