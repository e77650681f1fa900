import AssemblySymbols.Proofs.Session.Durability

/-! Whatever is asked of a session, and in whatever order: if all saves succeed, then the cache of an
initialized session holds its index as soon as no save is pending, and once the session is shut down. -/
namespace AssemblySymbols
open Session (HostCall Opening)

/-- What may be asked of a session at any time. The initialization and the questions that bring it
about come with the files that it finds. -/
inductive Demand where
  | request (request : Request)
  | initialization (discovered : Option (List Opening))
  | kindOf (discovered : Option (List Opening)) (cancelled : Bool) (name : String)
  | definitionsOf (discovered : Option (List Opening)) (cancelled : Bool) (name : String)
  | definitionsAt (discovered : Option (List Opening)) (cancelled : Bool) (text : String)
      (position : Position)

namespace Session

def meet (session : Session) : Demand → Session
  | .request request => session.serve request
  | .initialization discovered => (session.ensureInitialized discovered).1
  | .kindOf discovered cancelled name => (session.kindOf? discovered cancelled name).1
  | .definitionsOf discovered cancelled name => (session.definitionsOf discovered cancelled name).1
  | .definitionsAt discovered cancelled text position =>
    (session.definitionsAt discovered cancelled text position).1

/-- Whatever is saved on a demand is written without an error. Only a request for it and the passing of
time bring a save about, as long as the session is not shut down. -/
def Writes (session : Session) : Demand → Prop
  | .request .saveNow => session.saveNow.2 = .ok ()
  | .request (.advance milliseconds) =>
    let time := session.store.saver.clock + milliseconds
    CachedIndex.FiresSucceed { session.store with saver := session.store.saver.passTo time }
      (session.store.saver.dueTimers time)
  | _ => True

def WritesAll : Session → List Demand → Prop
  | _, [] => True
  | session, demand :: rest => session.Writes demand ∧ (session.meet demand).WritesAll rest

variable {session : Session}

theorem Untouched.of_same {after : Session} (initialized : after.initialized = session.initialized)
    (same : session.Untouched ∧ after.index = session.index) : after.Untouched := by
  obtain ⟨⟨fresh, empty⟩, index⟩ := same
  exact ⟨initialized.trans fresh, fun uri => by rw [index, empty]⟩

theorem Durable.serve (durable : session.Durable) {request : Request}
    (written : session.Writes (.request request)) : (session.serve request).Durable := by
  intro running
  have initialized := congrArg Frame.initialized (session.frame_serve request)
  have settle (notes : session.Notes (session.serve request) False) :
      (session.serve request).store.Durable (session.serve request).Untouched :=
    (notes.durable (durable notes.running)).imp (Untouched.of_same initialized)
  cases request with
  | call call => exact settle (notes_applyCall running)
  | indexUnless cancelled document =>
    rw [Session.serve, indexDocumentUnless_eq] at running settle ⊢
    exact settle (notes_calls running)
  | refresh opening => exact settle (notes_refresh running)
  | saveNow => exact ((durable running).saveNow written).2.imp False.elim
  | advance milliseconds =>
    have still : session.stopped = false := running
    let passed := session.store.saver.passTo (session.store.saver.clock + milliseconds)
    have begun := (durable still).withSaver passed id
    have ended := begun.fires written
    refine ended.imp (Untouched.of_same initialized ⟨·, ?_⟩)
    exact session.store.index_advance milliseconds

theorem Durable.ensureInitialized (durable : session.Durable) (discovered : Option (List Opening)) :
    (session.ensureInitialized discovered).1.Durable := by
  cases initialized : session.initialized with
  | some stats =>
    have same : (session.ensureInitialized discovered).1 = session := by
      rw [Session.ensureInitialized, initialized]
    rw [same]
    exact durable
  | none =>
    intro running
    have notes := notes_ensureInitialized initialized running
    have begun : session.stopped = false :=
      (congrArg Frame.stopped session.frame_warmStart).symm.trans notes.running
    exact (notes.durable (durable_warmStart (durable begun))).imp fun excuse => excuse.1.elim

theorem Durable.meet (durable : session.Durable) {demand : Demand} (written : session.Writes demand) :
    (session.meet demand).Durable := by
  cases demand with
  | request request => exact durable.serve written
  | initialization discovered => exact durable.ensureInitialized discovered
  | kindOf discovered cancelled name => exact durable.ensureInitialized discovered
  | definitionsOf discovered cancelled name => exact durable.ensureInitialized discovered
  | definitionsAt discovered cancelled text position =>
    rw [Session.meet, Session.definitionsAt]
    split
    · exact durable.ensureInitialized discovered
    · exact durable

theorem Durable.meets (durable : session.Durable) {demands : List Demand}
    (written : session.WritesAll demands) : (demands.foldl Session.meet session).Durable := by
  induction demands generalizing session with
  | nil => exact durable
  | cons demand rest ih => exact ih (durable.meet written.1) written.2

theorem durable_start {root : Path} {settings : Settings} {disk : Disk}
    (free : Cache.Unobstructed disk (settings.cachePath root)) :
    (start root settings disk).Durable := by
  intro _
  have untouched : (start root settings disk).Untouched := ⟨rfl, fun _ => rfl⟩
  exact ⟨free, SymbolIndex.coherent_empty, Or.inr (Or.inr untouched)⟩

/-- If no link is in the way of writing the cache and all saves succeed, the cache of a session holds the
tables of its index, no more and no less: whenever no save is pending after the initialization, and when
the session has been shut down. -/
theorem document?_reloaded (root : Path) (settings : Settings) (disk : Disk) (demands : List Demand)
    (free : Cache.Unobstructed disk (settings.cachePath root))
    (written : (start root settings disk).WritesAll demands) :
    let session := demands.foldl Session.meet (start root settings disk)
    session.initialized.isSome → session.stopped = false →
      (session.store.isPending = false →
        ∀ uri, session.store.reloaded.document? uri = session.index.document? uri) ∧
      ((session.store.isPending = true → session.store.saveNow.2 = .ok ()) →
        ∀ uri, session.shutdown.store.reloaded.document? uri = session.index.document? uri) := by
  intro session initialized running
  have durable : session.store.Durable session.Untouched := (durable_start free).meets written running
  have touched : ¬ session.Untouched := by
    rintro ⟨fresh, -⟩
    simp [fresh] at initialized
  refine ⟨fun quiet => durable.saved quiet touched, fun flushed => ?_⟩
  cases pending : session.store.isPending with
  | true =>
    have ended : session.shutdown.store = session.store.saveNow.1 := by
      rw [shutdown, CachedIndex.flush, if_pos pending]
    rw [ended]
    exact (durable.saveNow (flushed pending)).1
  | false =>
    have ended : session.shutdown.store = session.store := by
      rw [shutdown, CachedIndex.flush, pending, if_neg Bool.false_ne_true]
    rw [ended]
    exact durable.saved pending touched

/-- A workspace of one file. -/
def oneFile : List Opening := [⟨⟨"a.asm"⟩, [], some ⟨"a.asm", none, "start:\n"⟩⟩]

/-- A session that has scanned it. -/
def scanned (disk : Disk) : Session :=
  ((start ⟨"/"⟩ (.defaults none) disk).ensureInitialized (some oneFile)).1

theorem cachePath_defaults :
    (Settings.defaults none).cachePath ⟨"/"⟩ = ⟨"/.asmdex/cache/symbols.json"⟩ := by
  decide +kernel

theorem dueTimers_scanned : (scanned .empty).store.saver.dueTimers 1000 = [⟨1, 1000⟩] := by
  have due : (scanned .empty).store.saver.timers.filter (·.deadline ≤ 1000) = [⟨1, 1000⟩] := by
    decide +kernel
  rw [Saver.dueTimers, due, List.mergeSort_singleton]

/-- A second after the scan the delay of its save is over. -/
theorem document?_reloaded_scanned :
    ((scanned .empty).advance 1000).store.isPending = false ∧
    ((scanned .empty).advance 1000).store.reloaded.document? "a.asm" =
      some (.ofText "start:\n") ∧
    ((scanned .empty).advance 1000).shutdown.store.reloaded.document? "a.asm" =
      some (.ofText "start:\n") := by
  let demands : List Demand := [.initialization (some oneFile), .request (.advance 1000)]
  let before := (scanned .empty).store
  let passed : CachedIndex :=
    { before with saver := before.saver.passTo (before.saver.clock + 1000) }
  have due : before.saver.dueTimers (before.saver.clock + 1000) = [⟨1, 1000⟩] := dueTimers_scanned
  have advanced : (scanned .empty).advance 1000 =
      { scanned .empty with store := passed.fire ⟨1, 1000⟩ } := by
    rw [advance, CachedIndex.advance, due]
    rfl
  have quiet : ((scanned .empty).advance 1000).store.isPending = false := by
    rw [advanced]
    decide +kernel
  have persisted : (scanned .empty).store.persist.2 = .ok () := by rfl
  have fires : passed.FiresSucceed (before.saver.dueTimers (before.saver.clock + 1000)) := by
    rw [due]
    exact ⟨fun _ => (before.persist_withSaver _).trans persisted, trivial⟩
  have begun : (start ⟨"/"⟩ (.defaults none) .empty).meet (.initialization (some oneFile)) =
      scanned .empty := rfl
  have written : (start ⟨"/"⟩ (.defaults none) .empty).WritesAll demands := by
    rw [WritesAll, begun]
    exact ⟨trivial, fires, trivial⟩
  have free : Cache.Unobstructed .empty ((Settings.defaults none).cachePath ⟨"/"⟩) :=
    cachePath_defaults ▸ Cache.unobstructed_empty
  obtain ⟨saved, flushed⟩ :=
    document?_reloaded ⟨"/"⟩ (.defaults none) .empty demands free written rfl rfl
  have table : ((scanned .empty).advance 1000).index.document? "a.asm" =
      some (.ofText "start:\n") := by
    decide +kernel
  refine ⟨quiet, (saved quiet _).trans table, (flushed ?_ _).trans table⟩
  intro pending
  exact absurd (quiet.symm.trans pending) Bool.false_ne_true

/-- The snapshot goes through the link into the cache and is then replaced by the link itself. The save
succeeds, but nothing can be read from the cache any more. -/
theorem saveNow_linkedDisk :
    let demands : List Demand := [.initialization (some oneFile), .request .saveNow]
    let session := demands.foldl meet (start ⟨"/"⟩ (.defaults none) Cache.linkedDisk)
    (start ⟨"/"⟩ (.defaults none) Cache.linkedDisk).WritesAll demands ∧
    session.initialized.isSome ∧ session.stopped = false ∧ session.store.isPending = false ∧
    session.index.document? "a.asm" = some (.ofText "start:\n") ∧
    session.store.reloaded.document? "a.asm" = none := by
  intro demands session
  have ended : session = (scanned Cache.linkedDisk).saveNow.1 := rfl
  have written : (scanned Cache.linkedDisk).saveNow.2 = .ok () := rfl
  have loops : (scanned Cache.linkedDisk).saveNow.1.store.load = .error (.disk .linkLoop) := rfl
  rw [ended]
  refine ⟨⟨trivial, written, trivial⟩, rfl, rfl, rfl, by decide +kernel, ?_⟩
  rw [CachedIndex.reloaded, loops]
  rfl

end Session
end AssemblySymbols
