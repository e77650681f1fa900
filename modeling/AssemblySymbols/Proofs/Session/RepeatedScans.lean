import AssemblySymbols.Proofs.Session.Durability
import AssemblySymbols.Proofs.Session.IndexRuns
import AssemblySymbols.Proofs.Session.PlainScans

/-! The same files scanned again, on top of what the scan before has left in the cache. What a scan
counts depends on the files alone, and whatever it has kept of an older cache it keeps of its own, so the
second scan comes to the same index and the same counts. -/
namespace AssemblySymbols
open Session (Opening)

/-- The scans have counted alike, and their sessions differ at most in what is indexed and saved. -/
structure Scan.Abreast (scan other : Scan) : Prop where
  stats : scan.stats = other.stats
  frame : scan.session.frame = other.session.frame
  hosted : scan.session.hostDocuments = other.session.hostDocuments

namespace Scan.Abreast
variable {scan other : Scan}

theorem install (abreast : scan.Abreast other) (uri : String) (table : SymbolTable) :
    (scan.install uri table).Abreast (other.install uri table) := by
  have alike : scan.session.isHosted uri = other.session.isHosted uri := by
    rw [Session.isHosted, Session.isHosted, abreast.hosted]
  unfold Scan.install Session.installFile
  cases hosted : other.session.isHosted uri with
  | true =>
    rw [if_pos (alike.trans hosted), if_pos rfl]
    exact ⟨by rw [countSkipped, countSkipped, abreast.stats], abreast.frame, abreast.hosted⟩
  | false =>
    rw [if_neg (by simp [alike, hosted]), if_neg Bool.false_ne_true]
    exact ⟨by simp only [abreast.stats], abreast.frame, abreast.hosted⟩

theorem take (abreast : scan.Abreast other) (document : Document) :
    (scan.take document).Abreast (other.take document) := by
  have filter : scan.session.filter = other.session.filter := congrArg Frame.filter abreast.frame
  have stopped : scan.session.stopped = other.session.stopped := congrArg Frame.stopped abreast.frame
  have seen : (scan.see document.uri).Abreast (other.see document.uri) :=
    ⟨abreast.stats, abreast.frame, abreast.hosted⟩
  have still (scan : Scan) : (scan.see document.uri).session = scan.session := rfl
  unfold Scan.take
  simp only [still, filter, stopped]
  by_cases accepted : other.session.filter.accepts document = true
  · rw [if_pos accepted, if_pos accepted]
    cases SymbolTable.ofTextUnless? (fun _ => other.session.stopped) document.text with
    | none => exact ⟨by simp only [cancel, seen.stats], abreast.frame, abreast.hosted⟩
    | some table => exact seen.install document.uri table
  · rw [if_neg accepted, if_neg accepted]
    exact ⟨by simp only [countSkipped, seen.stats], abreast.frame, abreast.hosted⟩

theorem files_plain (abreast : scan.Abreast other) (read : Path → Option String) (paths : List Path) :
    (scan.files (paths.map (.plain read))).Abreast (other.files (paths.map (.plain read))) := by
  induction paths generalizing scan other with
  | nil => exact abreast
  | cons path rest ih =>
    have stopped : scan.session.stopped = other.session.stopped :=
      congrArg Frame.stopped abreast.frame
    have opened : (scan.openFile (.plain read path)).Abreast (other.openFile (.plain read path)) :=
      ⟨abreast.stats, abreast.frame, abreast.hosted⟩
    have cancelled {one another : Scan} (abreast : one.Abreast another) :
        one.cancel.Abreast another.cancel :=
      ⟨by simp only [cancel, abreast.stats], abreast.frame, abreast.hosted⟩
    rw [List.map_cons, files, files, stopped]
    cases ended : other.session.stopped with
    | true => exact cancelled abreast
    | false =>
      rw [if_neg Bool.false_ne_true, if_neg Bool.false_ne_true]
      have running : (scan.openFile (.plain read path)).session.stopped = false := stopped.trans ended
      have running' : (other.openFile (.plain read path)).session.stopped = false := ended
      have document : (Opening.plain read path).document =
          (read path).map fun text => ⟨path.text, none, text⟩ := rfl
      cases given : read path with
      | none =>
        simp only [document, given, Option.map_none]
        exact ih ⟨by simp only [countFailed, opened.stats], opened.frame, opened.hosted⟩
      | some text =>
        simp only [document, given, Option.map_some, running, running', if_neg Bool.false_ne_true]
        exact ih (opened.take _)

end Scan.Abreast

namespace Session
variable {session again : Session} (read : Path → Option String) (discovered : Option (List Path))

/-- The openings of the paths that have been discovered, if they could be. -/
def plainly : Option (List Opening) := discovered.map fun paths => paths.map (.plain read)

theorem stats_ensureInitialized (fresh : session.initialized = none) (openings : Option (List Opening)) :
    (session.ensureInitialized openings).2 = (session.initialScan openings).stats := by
  rw [ensureInitialized, fresh]

/-- When no files are found, nothing is counted and nothing stays. -/
theorem ensureInitialized_none_found (fresh : session.initialized = none)
    (running : session.stopped = false) (free : session.hostDocuments = []) :
    (session.ensureInitialized (some [])).2.indexed = 0 ∧
    (session.ensureInitialized (some [])).2.definitions = 0 ∧
    (session.ensureInitialized (some [])).1.index.documents = [] := by
  obtain ⟨-, gone⟩ := ensureInitialized_plain (fun _ => none) fresh running free []
  have nothing (uri : String) :
      (session.ensureInitialized (some [])).1.index.document? uri = none :=
    (gone uri).trans (if_neg (by simp))
  rw [stats_ensureInitialized fresh]
  refine ⟨rfl, rfl, List.eq_nil_iff_forall_not_mem.mpr ?_⟩
  rintro ⟨uri, table⟩ member
  have other := List.lookup_eq_none_iff.mp (nothing uri) _ member
  simp at other

/-- What is counted as indexed depends on neither the index nor the cache. -/
theorem counts_ensureInitialized (fresh : session.initialized = none)
    (frame : again.frame = session.frame) (hosted : again.hostDocuments = session.hostDocuments) :
    (again.ensureInitialized (plainly read discovered)).2.indexed =
      (session.ensureInitialized (plainly read discovered)).2.indexed ∧
    (again.ensureInitialized (plainly read discovered)).2.definitions =
      (session.ensureInitialized (plainly read discovered)).2.definitions := by
  have fresh' : again.initialized = none := (congrArg Frame.initialized frame).trans fresh
  rw [stats_ensureInitialized fresh, stats_ensureInitialized fresh']
  have begun (count : Nat) :
      (Scan.start again.warmStart count).Abreast (Scan.start session.warmStart count) := by
    refine ⟨rfl, ?_, ?_⟩
    · exact again.frame_warmStart.trans (frame.trans session.frame_warmStart.symm)
    · exact again.hostDocuments_warmStart.trans (hosted.trans session.hostDocuments_warmStart.symm)
  unfold initialScan scanWorkspace plainly
  cases discovered with
  | none => exact ⟨rfl, rfl⟩
  | some paths =>
    have scanned := ((begun (paths.map (Opening.plain read)).length).files_plain read paths).stats
    simp only [Option.map_some, Option.getD_some, Option.isSome_some, Bool.true_and, scanned]
    split
    · exact ⟨by simp only [Scan.prune, scanned], by simp only [Scan.prune, scanned]⟩
    · rw [scanned]
      exact ⟨rfl, rfl⟩

theorem surroundings_ensureInitialized_plainly (session : Session) :
    (session.ensureInitialized (plainly read discovered)).1.surroundings = session.surroundings := by
  cases discovered with
  | some paths => exact surroundings_ensureInitialized_plain read session paths
  | none =>
    cases fresh : session.initialized with
    | some stats => rw [ensureInitialized, fresh]
    | none =>
      rw [ensureInitialized, fresh]
      exact session.surroundings_warmStart

/-- The initialization saves nothing by itself. -/
theorem disk_ensureInitialized_plainly (fresh : session.initialized = none)
    (running : session.stopped = false) :
    (session.ensureInitialized (plainly read discovered)).1.disk = session.disk ∧
    (session.ensureInitialized (plainly read discovered)).1.store.cachePath = session.store.cachePath := by
  have around := session.surroundings_ensureInitialized_plainly read discovered
  have running' := (congrArg Surroundings.stopped around).trans running
  have seeded : session.warmStart.store.cachePath = session.store.cachePath := by
    unfold warmStart
    split <;> rfl
  exact ⟨congrArg Surroundings.disk around, (notes_ensureInitialized fresh running').cachePath.trans seeded⟩

/-- If nothing can be discovered, the index is what the cache gives. -/
theorem document?_undiscovered (fresh : session.initialized = none) (uri : String) :
    (session.ensureInitialized none).1.index.document? uri =
      session.warmStart.index.document? uri := by
  rw [ensureInitialized, fresh]
  rfl

/-- A scan that starts from what a scan of the same files has come to stays there. -/
theorem document?_again (fresh : session.initialized = none) (running : session.stopped = false)
    (free : session.hostDocuments = []) (frame : again.frame = session.frame)
    (hosted : again.hostDocuments = session.hostDocuments)
    (seeded : ∀ uri, again.warmStart.index.document? uri =
      (session.ensureInitialized (plainly read discovered)).1.index.document? uri) (uri : String) :
    (again.ensureInitialized (plainly read discovered)).1.index.document? uri =
      (session.ensureInitialized (plainly read discovered)).1.index.document? uri := by
  have fresh' : again.initialized = none := (congrArg Frame.initialized frame).trans fresh
  have running' : again.stopped = false := (congrArg Frame.stopped frame).trans running
  have filter : again.filter = session.filter := congrArg Frame.filter frame
  cases discovered with
  | none => exact (document?_undiscovered fresh' uri).trans (seeded uri)
  | some paths =>
    obtain ⟨-, first⟩ := ensureInitialized_plain read fresh running free paths
    obtain ⟨-, second⟩ := ensureInitialized_plain read fresh' running' (hosted.trans free) paths
    have start := seeded uri
    unfold plainly at start ⊢
    rw [Option.map_some] at start ⊢
    rw [second, start, first, filter]
    by_cases present : ⟨uri⟩ ∈ paths ∧ (read ⟨uri⟩).isSome = true
    · simp only [if_pos present, ← Option.or_assoc, Option.or_self]
    · simp only [if_neg present]

/-- The second of two scans of the same files that starts from the cache of the first. -/
theorem repeats_start {root : Path} {settings : Settings} {disk disk' : Disk}
    (cached : Cache.load disk' (settings.cachePath root) =
      .ok ((start root settings disk).ensureInitialized (plainly read discovered)).1.index.snapshot) :
    let first := (start root settings disk).ensureInitialized (plainly read discovered)
    let second := (start root settings disk').ensureInitialized (plainly read discovered)
    SymbolIndex.Reordered second.1.index first.1.index ∧
      second.2.indexed = first.2.indexed ∧ second.2.definitions = first.2.definitions := by
  intro first second
  have coherent (disk : Disk) : ((start root settings disk).ensureInitialized
      (plainly read discovered)).1.index.Coherent :=
    ((start root settings disk).leadsTo_ensureInitialized _).coherent SymbolIndex.coherent_empty
  have seeded (uri : String) : (start root settings disk').warmStart.index.document? uri =
      first.1.index.document? uri := by
    have loaded : (start root settings disk').store.load = .ok first.1.index.snapshot := cached
    rw [warmStart, loaded]
    exact (SymbolIndex.restore_snapshot (coherent disk)).1.document? uri
  refine ⟨.of_document? (coherent disk') (coherent disk) ?_, ?_⟩
  · exact document?_again read discovered rfl rfl rfl rfl rfl seeded
  · exact counts_ensureInitialized read discovered rfl rfl rfl

end Session
end AssemblySymbols
