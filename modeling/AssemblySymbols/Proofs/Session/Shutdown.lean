import AssemblySymbols.Proofs.Session.ParallelRuns

/-! Shutdowns are final. From the step in which a shutdown is called no task requests a save any more, and
the flush that it waits for takes the last request; so once it has returned, all that the saves still do is
to find that there is nothing for them. The index goes on as if there had been no shutdown. -/
namespace AssemblySymbols

namespace Session

/-- Of what a save depends on, at most a request for one has come, and none if the session is stopped. -/
structure Leaves (before after : Session) : Prop where
  stopped : after.stopped = before.stopped
  disk : after.disk = before.disk
  cachePath : after.store.cachePath = before.store.cachePath
  saver : before.stopped = true → after.store.saver = before.store.saver

variable {before after session : Session}

theorem Leaves.refl (session : Session) : session.Leaves session := ⟨rfl, rfl, rfl, fun _ => rfl⟩

theorem Leaves.saveChange (leaves : before.Leaves after) (changed : Bool) :
    before.Leaves (after.saveChange changed) := by
  unfold Session.saveChange requestSave
  split
  · split
    · exact leaves
    · next running =>
      exact ⟨leaves.stopped, leaves.disk, leaves.cachePath,
        fun stopped => absurd (leaves.stopped.trans stopped) running⟩
  · exact leaves

theorem leaves_modifyIndex (session : Session) (change : SymbolIndex → SymbolIndex) :
    session.Leaves (session.modifyIndex change) := ⟨rfl, rfl, rfl, fun _ => rfl⟩

theorem leaves_complete (session : Session) (change : Change String) :
    session.Leaves (session.complete change) := by
  cases change with
  | put uri text => exact (session.leaves_modifyIndex _).saveChange true
  | drop uri => exact (session.leaves_modifyIndex _).saveChange _

theorem leaves_installFile (session : Session) (uri : String) (table : SymbolTable) :
    session.Leaves (session.installFile uri table).1 := by
  unfold installFile
  split
  · exact .refl session
  · exact session.leaves_modifyIndex _

theorem leaves_dropFile (session : Session) (uri : String) :
    session.Leaves (session.dropFile uri).1 := by
  unfold dropFile
  split
  · exact .refl session
  · exact session.leaves_modifyIndex _

end Session

theorem Scan.leaves_install (scan : Scan) (uri : String) (table : SymbolTable) :
    scan.session.Leaves (scan.install uri table).session := by
  have leaves := scan.session.leaves_installFile uri table
  unfold install
  rcases outcome : scan.session.installFile uri table with ⟨session, _ | _⟩
  · exact .refl scan.session
  · rwa [outcome] at leaves

theorem Stage.Step.leaves {stage next : Stage} {scan scan' : Scan} (step : Step stage scan next scan') :
    scan.session.Leaves scan'.session := by
  cases step with
  | seed => exact scan.session.leaves_modifyIndex _
  | install => exact scan.leaves_install _ _
  | prune => exact scan.session.leaves_modifyIndex _
  | close =>
    have leaves := (Session.Leaves.refl scan.session).saveChange
      (0 < scan.stats.indexed || 0 < scan.stats.pruned)
    exact ⟨leaves.stopped, leaves.disk, leaves.cachePath, leaves.saver⟩
  | _ => exact .refl scan.session

theorem Refresh.Step.leaves {session session' : Session} {refresh : Refresh} {left : Option Refresh}
    (step : Step session refresh session' left) : session.Leaves session' := by
  cases step with
  | read | gone => exact .refl session
  | install => exact (session.leaves_installFile _ _).saveChange _
  | drop => exact (session.leaves_dropFile _).saveChange _

namespace Errand
variable {store claimed : CachedIndex} {errand : Errand}

theorem eq_flush_of_isFlush (isFlush : errand.isFlush = true) : errand = .flush := by
  cases errand with
  | flush => rfl
  | timer | saveNow => contradiction

/-- Without a request only a save on demand finds something to do. -/
theorem eq_saveNow_of_claim? (quiet : store.isPending = false)
    (claims : errand.claim? store = some claimed) : errand = .saveNow := by
  cases errand with
  | saveNow => rfl
  | timer generation =>
    obtain ⟨saver, -, -, -, own⟩ := claim?_eq claims
    rw [CachedIndex.isPending, Saver.isPending, own generation rfl] at quiet
    contradiction
  | flush =>
    rw [claim?, quiet, if_neg Bool.false_ne_true] at claims
    contradiction

end Errand

namespace LiveSession
variable {live next last : LiveSession} {event : Event}

/-- Calls, refreshes and the initialization have no part in the saves but for their requests. -/
structure Works (live next : LiveSession) : Prop where
  session : live.session.Leaves next.session
  waiting : next.waiting = live.waiting
  holder : next.holder = live.holder
  returned : next.returned = live.returned

theorem Step.works (step : live.Step event next) (working : event = .call ∨ event = .startUp) :
    live.Works next := by
  cases step with
  | refuse | pass | watch | mark | unmark => exact ⟨⟨rfl, rfl, rfl, fun _ => rfl⟩, rfl, rfl, rfl⟩
  | complete => exact ⟨live.session.leaves_complete _, rfl, rfl, rfl⟩
  | refresh _ step => exact ⟨step.leaves, rfl, rfl, rfl⟩
  | startUp step => exact ⟨step.leaves, rfl, rfl, rfl⟩
  | _ => exact absurd working (by simp)

/-- Those that wait for the lock are the one that gets it and those that stay. -/
theorem mem_waiting {earlier later : List Errand} {errand other : Errand}
    (listed : live.waiting = earlier ++ errand :: later) :
    other ∈ live.waiting ↔ other = errand ∨ other ∈ earlier ++ later := by
  rw [listed]
  simp only [List.mem_append, List.mem_cons]
  tauto

/-! ### What a shutdown ends -/

/-- A flush waits for the lock only after its shutdown has been called. Once one has claimed, and all the
more once one has come to its end, there is no request left, so that only a save on demand can claim. -/
structure Guarded (live : LiveSession) : Prop where
  called : .flush ∈ live.waiting → live.session.stopped = true
  claimed : ∀ turn, live.holder = some (.flush, turn) →
    live.session.stopped = true ∧ live.store.isPending = false
  returned : live.returned = true →
    live.session.stopped = true ∧ live.store.isPending = false ∧
      ∀ errand turn, live.holder = some (errand, turn) → errand = .saveNow

theorem guarded_start (root : Path) (settings : Settings) (disk : Disk) :
    (start root settings disk).Guarded := by
  refine ⟨fun waits => ?_, fun turn holds => ?_, fun returned => ?_⟩
  · exact absurd waits List.not_mem_nil
  · contradiction
  · contradiction

/-- All that matters is as it was, but for a request if the session is not stopped. -/
theorem Guarded.of_same (guarded : live.Guarded) (stopped : next.session.stopped = live.session.stopped)
    (saver : live.session.stopped = true → next.store.saver.pending = live.store.saver.pending)
    (waiting : .flush ∈ next.waiting → .flush ∈ live.waiting) (holder : next.holder = live.holder)
    (returned : next.returned = live.returned) : next.Guarded := by
  have quiet (halted : live.session.stopped = true) (quiet : live.store.isPending = false) :
      next.store.isPending = false := by
    rw [CachedIndex.isPending, Saver.isPending, saver halted]
    exact quiet
  refine ⟨fun waits => stopped.trans (guarded.called (waiting waits)), fun turn holds => ?_, fun done => ?_⟩
  · obtain ⟨halted, none⟩ := guarded.claimed turn (holder.symm.trans holds)
    exact ⟨stopped.trans halted, quiet halted none⟩
  · obtain ⟨halted, none, only⟩ := guarded.returned (returned.symm.trans done)
    exact ⟨stopped.trans halted, quiet halted none, fun errand turn holds =>
      only errand turn (holder.symm.trans holds)⟩

theorem Guarded.works (guarded : live.Guarded) (works : live.Works next) : next.Guarded :=
  guarded.of_same works.session.stopped
    (fun stopped => congrArg Saver.pending (works.session.saver stopped))
    (fun waits => works.waiting ▸ waits) works.holder works.returned

theorem Guarded.claim (guarded : live.Guarded) {earlier later : List Errand} {errand : Errand}
    {store : CachedIndex} (listed : live.waiting = earlier ++ errand :: later)
    (claims : errand.claim? live.store = some store) :
    Guarded
      { live.withStore store with waiting := earlier ++ later, holder := some (errand, .claimed) } := by
  obtain ⟨saver, rfl, gone, -, -⟩ := Errand.claim?_eq claims
  have quiet : saver.isPending = false := by rw [Saver.isPending, gone, Option.isSome_none]
  refine ⟨fun waits => guarded.called ((mem_waiting listed).mpr (.inr waits)), fun turn holds => ?_,
    fun done => ?_⟩
  · cases holds
    exact ⟨guarded.called ((mem_waiting listed).mpr (.inl rfl)), quiet⟩
  · obtain ⟨stopped, none, -⟩ := guarded.returned done
    refine ⟨stopped, quiet, fun other turn holds => ?_⟩
    cases holds
    exact Errand.eq_saveNow_of_claim? none claims

theorem Guarded.decline (guarded : live.Guarded) {earlier later : List Errand} {errand : Errand}
    (listed : live.waiting = earlier ++ errand :: later) (free : live.holder = none)
    (nothing : errand.claim? live.store = none) :
    Guarded
      { live with waiting := earlier ++ later, returned := live.returned || errand.isFlush } := by
  refine ⟨fun waits => guarded.called ((mem_waiting listed).mpr (.inr waits)), guarded.claimed,
    fun done => ?_⟩
  rcases Bool.or_eq_true_iff.mp done with before | now
  · exact guarded.returned before
  · have flush := Errand.eq_flush_of_isFlush now
    have isCall : errand.IsCall := flush ▸ trivial
    have quiet := Errand.isPending_of_claim?_none isCall nothing
    exact ⟨guarded.called ((mem_waiting listed).mpr (.inl flush.symm)), quiet,
      fun other turn holds => absurd (free.symm.trans holds) nofun⟩

theorem Guarded.copy (guarded : live.Guarded) {errand : Errand}
    (holds : live.holder = some (errand, .claimed)) (snapshot : Snapshot) :
    Guarded { live with holder := some (errand, .copied snapshot) } := by
  refine ⟨guarded.called, fun turn holds' => ?_, fun done => ?_⟩
  · cases holds'
    exact guarded.claimed _ holds
  · obtain ⟨stopped, quiet, only⟩ := guarded.returned done
    refine ⟨stopped, quiet, fun other turn holds' => ?_⟩
    cases holds'
    exact only _ _ holds

theorem Guarded.write (guarded : live.Guarded) {errand : Errand} {turn : Turn}
    (holds : live.holder = some (errand, turn)) (disk : Disk) :
    Guarded
      { live.withStore { live.store with disk := disk } with
        holder := none
        returned := live.returned || errand.isFlush } := by
  refine ⟨guarded.called, fun turn none => absurd none nofun, fun done => ?_⟩
  have ended : live.session.stopped = true ∧ live.store.isPending = false := by
    rcases Bool.or_eq_true_iff.mp done with before | now
    · obtain ⟨stopped, quiet, -⟩ := guarded.returned before
      exact ⟨stopped, quiet⟩
    · exact guarded.claimed turn (Errand.eq_flush_of_isFlush now ▸ holds)
  exact ⟨ended.1, ended.2, fun other turn none => absurd none nofun⟩

theorem Guarded.step (guarded : live.Guarded) (step : live.Step event next) : next.Guarded := by
  have work (working : event = .call ∨ event = .startUp) := guarded.works (step.works working)
  cases step with
  | refuse | mark | unmark | complete | pass | watch | refresh => exact work (.inl rfl)
  | startUp => exact work (.inr rfl)
  | pause | outside => exact guarded.of_same rfl (fun _ => rfl) id rfl rfl
  | elapse | saveNow => exact guarded.of_same rfl (fun _ => rfl) (fun waits => by simpa using waits) rfl rfl
  | shutdown =>
    exact ⟨fun _ => rfl, fun turn holds => ⟨rfl, (guarded.claimed turn holds).2⟩,
      fun done => ⟨rfl, (guarded.returned done).2⟩⟩
  | claim listed free claims => exact guarded.claim listed claims
  | decline listed free nothing => exact guarded.decline listed free nothing
  | copy holds => exact guarded.copy holds _
  | write holds wrote => exact guarded.write holds _

theorem guarded_of_reaches (root : Path) (settings : Settings) (disk : Disk)
    (reached : (start root settings disk).Reaches live) : live.Guarded :=
  reached.keeps (guarded_start root settings disk) fun _ step guarded => guarded.step step

/-- A shutdown is over: nothing is requested, nobody but a save on demand may be under way, and the disk is
as it was left. -/
structure Over (disk : Disk) (cachePath : Path) (live : LiveSession) : Prop where
  stopped : live.session.stopped = true
  quiet : live.store.isPending = false
  holder : ∀ errand turn, live.holder = some (errand, turn) → errand = .saveNow
  disk : live.session.disk = disk
  cachePath : live.store.cachePath = cachePath

theorem Over.step {disk : Disk} {cachePath : Path} (ended : live.Over disk cachePath)
    (step : live.Step event next) (other : ¬ event.IsSaveNow) (own : event ≠ .outside) :
    next.Over disk cachePath := by
  have work (working : event = .call ∨ event = .startUp) : next.Over disk cachePath := by
    obtain ⟨leaves, -, holder, -⟩ := step.works working
    have saver : next.store.saver = live.store.saver := leaves.saver ended.stopped
    refine ⟨leaves.stopped.trans ended.stopped, ?_, holder ▸ ended.holder, leaves.disk.trans ended.disk,
      leaves.cachePath.trans ended.cachePath⟩
    rw [CachedIndex.isPending, saver]
    exact ended.quiet
  cases step with
  | refuse | mark | unmark | complete | pass | watch | refresh => exact work (.inl rfl)
  | startUp => exact work (.inr rfl)
  | pause | elapse | decline => exact ⟨ended.stopped, ended.quiet, ended.holder, ended.disk, ended.cachePath⟩
  | shutdown => exact ⟨rfl, ended.quiet, ended.holder, ended.disk, ended.cachePath⟩
  | claim _ _ claims =>
    cases Errand.eq_saveNow_of_claim? ended.quiet claims
    exact absurd trivial other
  | copy holds | write holds =>
    cases ended.holder _ _ holds
    exact absurd trivial other
  | saveNow => exact absurd trivial other
  | outside => exact absurd rfl own

theorem Over.reaches {disk : Disk} {cachePath : Path} (ended : live.Over disk cachePath)
    (reached : live.ReachesBy (fun event => ¬ event.IsSaveNow ∧ event ≠ .outside) next) :
    next.Over disk cachePath :=
  reached.keeps ended fun plain step ended => ended.step step plain.1 plain.2

/-! ### What a shutdown leaves behind -/

/-- The index is not lost as long as no save fails: it is requested, about to be copied, copied, or in the
cache. A save on demand that has the lock keeps all others from coming to their ends. -/
structure Flushing (index : SymbolIndex) (live : LiveSession) : Prop where
  unchanged : live.session.index = index
  free : Cache.Unobstructed live.session.disk live.store.cachePath
  blocked : ∀ turn, live.holder = some (.saveNow, turn) → live.returned = false
  kept : live.store.isPending = true ∨
    (∃ errand, live.holder = some (errand, .claimed)) ∨
    (∃ errand, live.holder = some (errand, .copied index.snapshot)) ∨
    live.holder = none ∧ live.store.load = .ok index.snapshot

theorem Flushing.step {index : SymbolIndex} (flushing : live.Flushing index)
    (step : live.Step event next) (saves : event.IsSave) : next.Flushing index := by
  obtain ⟨unchanged, free, blocked, kept⟩ := flushing
  cases step with
  | pause | elapse => exact ⟨unchanged, free, blocked, kept⟩
  | decline _ idle => exact ⟨unchanged, free, fun turn holds => absurd (idle.symm.trans holds) nofun, kept⟩
  | @claim _ _ errand _ _ _ claims =>
    obtain ⟨saver, rfl, -⟩ := Errand.claim?_eq claims
    refine ⟨unchanged, free, fun turn holds => ?_, .inr (.inl ⟨errand, rfl⟩)⟩
    cases holds
    exact saves.elim
  | @copy errand holds =>
    refine ⟨unchanged, free, fun turn holds' => ?_, .inr (.inr (.inl ⟨errand, by rw [unchanged]⟩))⟩
    cases holds'
    exact saves.elim
  | @write errand snapshot outcome disk holds wrote =>
    cases outcome with
    | error => cases errand <;> exact saves.elim
    | ok =>
      obtain ⟨loaded, free'⟩ := Cache.load_of_save free wrote
      refine ⟨unchanged, free', fun turn none => absurd none nofun, ?_⟩
      rcases kept with pending | ⟨_, claimed⟩ | ⟨_, copied⟩ | ⟨none, -⟩
      · exact .inl pending
      · exact absurd (holds.symm.trans claimed) (by simp)
      · cases holds.symm.trans copied
        exact .inr (.inr (.inr ⟨rfl, loaded⟩))
      · exact absurd (holds.symm.trans none) nofun
  | _ => exact saves.elim

theorem Flushing.reaches {index : SymbolIndex} (flushing : live.Flushing index)
    (reached : live.ReachesBy Event.IsSave next) : next.Flushing index :=
  reached.keeps flushing fun saves step flushing => flushing.step step saves

/-- When the flush has come to its end, the index is in the cache. -/
theorem Flushing.load {index : SymbolIndex} (flushing : live.Flushing index) (guarded : live.Guarded)
    (returned : live.returned = true) : live.store.load = .ok index.snapshot := by
  obtain ⟨-, quiet, only⟩ := guarded.returned returned
  have idle (errand : Errand) (turn : Turn) : live.holder ≠ some (errand, turn) := by
    intro holds
    cases only errand turn holds
    exact absurd ((flushing.blocked turn holds).symm.trans returned) Bool.false_ne_true
  rcases flushing.kept with pending | ⟨errand, claimed⟩ | ⟨errand, copied⟩ | ⟨-, loaded⟩
  · exact absurd (quiet.symm.trans pending) Bool.false_ne_true
  · exact absurd claimed (idle errand _)
  · exact absurd copied (idle errand _)
  · exact loaded

/-- The session as it would go on without its shutdown. -/
def resumed (live : LiveSession) : LiveSession := live.withSession { live.session with stopped := false }

theorem asIf_resumed (live : LiveSession) : live.AsIf live.resumed :=
  ⟨⟨rfl, rfl, rfl⟩, rfl, rfl, rfl⟩

/-- From any state that a session comes to, with whatever is under way: once a shutdown has returned, no
save is ever pending and nothing is written again, whatever time passes and whatever goes on or is called
but saves on demand. Calls and refreshes do to the index and to the editor's documents, and answer, what
they would without the shutdown, and conversely. If a save is pending when the shutdown is called and
nothing but saves goes on until it returns, with all writes succeeding and no link in their way, then the
cache loads as the snapshot of the index. -/
theorem shutdown_final (root : Path) (settings : Settings) (disk : Disk) {before called : LiveSession}
    (reached : (start root settings disk).Reaches before) (calls : before.Step .shutdown called) :
    (∀ closed later, called.Reaches closed → closed.returned = true →
      closed.ReachesBy (fun event => ¬ event.IsSaveNow ∧ event ≠ .outside) later →
        later.store.isPending = false ∧
        later.session.disk = closed.session.disk ∧ later.store.cachePath = closed.store.cachePath ∧
        (∀ last, later.ReachesBy (· ≠ .startUp) last →
          ∃ twin, later.resumed.ReachesBy Event.IsCall twin ∧ last.AsIf twin) ∧
        ∀ twin, later.resumed.ReachesBy (· ≠ .startUp) twin →
          ∃ last, later.ReachesBy Event.IsCall last ∧ twin.AsIf last) ∧
    ∀ closed, before.store.isPending = true →
      Cache.Unobstructed before.session.disk before.store.cachePath →
      called.ReachesBy Event.IsSave closed → closed.returned = true →
        closed.store.load = .ok before.session.index.snapshot := by
  have begun := reached.trans (calls.reachesBy trivial)
  constructor
  · intro closed later returns returned goes
    have guarded := guarded_of_reaches root settings disk (begun.trans returns)
    obtain ⟨stopped, quiet, only⟩ := guarded.returned returned
    have closes : closed.Over closed.session.disk closed.store.cachePath :=
      ⟨stopped, quiet, only, rfl, rfl⟩
    have ended := closes.reaches goes
    exact ⟨ended.quiet, ended.disk, ended.cachePath, fun last run => later.asIf_resumed.run run,
      fun twin run => later.asIf_resumed.symm.run run⟩
  · intro closed pending free saves returned
    have guarded := guarded_of_reaches root settings disk reached
    have flushing : called.Flushing before.session.index := by
      have unreturned : before.returned = false := by
        by_contra ended
        obtain ⟨-, quiet, -⟩ := guarded.returned (Bool.not_eq_false _ ▸ ended)
        exact absurd (quiet.symm.trans pending) Bool.false_ne_true
      cases calls
      exact ⟨rfl, free, fun _ _ => unreturned, .inl pending⟩
    exact (flushing.reaches saves).load
      (guarded_of_reaches root settings disk (begun.trans saves.reaches)) returned

/-- The editor has indexed a document, and the delay of its save has begun. -/
def indexed (disk : Disk) : LiveSession :=
  let begun := start ⟨"/"⟩ (.defaults none) disk
  begun.answered "a.asm"
    (begun.session.indexDocumentUnless (fun _ => false) ⟨"a.asm", none, "start:\n"⟩)

/-- Then it shuts the session down. -/
def stopping (disk : Disk) : LiveSession :=
  { (indexed disk).withSession { (indexed disk).session with stopped := true } with waiting := [.flush] }

theorem reaches_indexed (disk : Disk) : (start ⟨"/"⟩ (.defaults none) disk).Reaches (indexed disk) :=
  (reaches_index _ ⟨"a.asm", none, "start:\n"⟩ fun _ => false).reaches

/-- The flush has had its turn at once. -/
def flushed (disk : Disk) : LiveSession :=
  { (stopping disk).withStore (stopping disk).store.flush.1 with waiting := [], returned := true }

theorem reaches_flushed {disk : Disk} (written : (stopping disk).store.cancel.persist.2 = .ok ()) :
    (stopping disk).ReachesBy Event.IsSave (flushed disk) := by
  have listed : (stopping disk).waiting = [] ++ .flush :: [] := rfl
  have writes : ∀ claimed, Errand.flush.claim? (stopping disk).store = some claimed →
      Event.IsSave (.write .flush claimed.persist.2.isOk) := by
    intro claimed claims
    cases claims
    rw [written]
    trivial
  have reached := reaches_perform listed rfl trivial writes
  rw [Errand.perform_flush] at reached
  exact reached

/-- After the shutdown another document is indexed, and the timer of the request that has been served comes
for the lock. The index goes on, the cache does not. -/
theorem shutdown_final_indexed : ∃ later : LiveSession,
    (start ⟨"/"⟩ (.defaults none) .empty).Reaches (indexed .empty) ∧
    (indexed .empty).Step .shutdown (stopping .empty) ∧
    (stopping .empty).ReachesBy Event.IsSave (flushed .empty) ∧
    (flushed .empty).ReachesBy (fun event => ¬ event.IsSaveNow ∧ event ≠ .outside) later ∧
    later.session.index.document? "b.asm" = some (.ofText "stop:\n") ∧
    later.store.isPending = false ∧ later.session.disk = (flushed .empty).session.disk ∧
    (flushed .empty).store.load = .ok (indexed .empty).session.index.snapshot := by
  have calls : (indexed .empty).Step .shutdown (stopping .empty) := .shutdown
  have written : (stopping .empty).store.cancel.persist.2 = .ok () := by rfl
  have saves := reaches_flushed written
  have path : (indexed .empty).store.cachePath = ⟨"/.asmdex/cache/symbols.json"⟩ := by decide +kernel
  have free : Cache.Unobstructed (indexed .empty).session.disk (indexed .empty).store.cachePath :=
    path ▸ Cache.unobstructed_empty
  obtain ⟨final, loaded⟩ := shutdown_final ⟨"/"⟩ (.defaults none) .empty (reaches_indexed _) calls
  let document : Document := ⟨"b.asm", none, "stop:\n"⟩
  let more : LiveSession := (flushed .empty).answered document.uri
    ((flushed .empty).session.indexDocumentUnless (fun _ => false) document)
  let elapsed : LiveSession := { more with waiting := [.timer 1] }
  let later : LiveSession := { more with waiting := [], returned := true }
  have indexes : (flushed .empty).ReachesBy (fun event => ¬ event.IsSaveNow ∧ event ≠ .outside) more :=
    (reaches_index _ document fun _ => false).mono fun event isCall => by
      cases isCall
      exact ⟨id, by simp⟩
  have elapses : more.Step .time elapsed := .elapse (by decide +kernel)
  have listed : elapsed.waiting = [] ++ .timer 1 :: [] := rfl
  have served : elapsed.store.saver.pending = none := by decide +kernel
  have nothing : (Errand.timer 1).claim? elapsed.store = none := by
    rw [Errand.claim?, Saver.claim?, served, if_neg (by simp), Option.map_none]
  have declines : elapsed.Step (.lock (.timer 1)) later := .decline listed rfl nothing
  have goes := (indexes.trans (elapses.reachesBy ⟨id, by simp⟩)).trans (declines.reachesBy ⟨id, by simp⟩)
  have ended := final (flushed .empty) later saves.reaches rfl goes
  exact ⟨later, reaches_indexed _, calls, saves, goes, by decide +kernel, ended.1, ended.2.1,
    loaded (flushed .empty) rfl free saves rfl⟩

/-- The snapshot goes through the link into the cache and is then replaced by the link itself. The flush
succeeds, but nothing can be read from the cache any more. -/
theorem shutdown_linkedDisk :
    (start ⟨"/"⟩ (.defaults none) Cache.linkedDisk).Reaches (indexed Cache.linkedDisk) ∧
    (indexed Cache.linkedDisk).store.isPending = true ∧
    (indexed Cache.linkedDisk).Step .shutdown (stopping Cache.linkedDisk) ∧
    (stopping Cache.linkedDisk).ReachesBy Event.IsSave (flushed Cache.linkedDisk) ∧
    (flushed Cache.linkedDisk).returned = true ∧
    (flushed Cache.linkedDisk).store.load = .error (.disk .linkLoop) := by
  have written : (stopping Cache.linkedDisk).store.cancel.persist.2 = .ok () := by rfl
  have loops : (stopping Cache.linkedDisk).store.flush.1.load = .error (.disk .linkLoop) := by rfl
  exact ⟨reaches_indexed _, rfl, .shutdown, reaches_flushed written, rfl, loops⟩

end LiveSession
end AssemblySymbols
