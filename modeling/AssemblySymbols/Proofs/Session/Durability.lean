import AssemblySymbols.Proofs.Session.Reloading
import AssemblySymbols.Proofs.Session.Requests
import AssemblySymbols.Session.Query

/-! Whenever no save is pending, a session that is initialized has its index in the cache. A task that
changes the index leaves a request for a save behind, the scan by way of what it counts, and a request
goes only when a save has been made. -/
namespace AssemblySymbols
open Session (HostCall Opening)

namespace Session
variable {before after session : Session} {counted more : Prop}

/-- A session has gone on running, and whatever has changed in its index will be saved: a save is
pending, or something is counted that will call for one. -/
structure Notes (before after : Session) (counted : Prop) : Prop where
  running : before.stopped = false
  disk : after.disk = before.disk
  cachePath : after.store.cachePath = before.store.cachePath
  coherent : before.index.Coherent → after.index.Coherent
  pending : before.store.isPending = true → after.store.isPending = true
  noted : after.store.isPending = true ∨ counted ∨ after.index = before.index

theorem Notes.refl (running : session.stopped = false) : session.Notes session counted :=
  ⟨running, rfl, rfl, id, id, Or.inr (Or.inr rfl)⟩

theorem Notes.trans {last : Session} (first : before.Notes after counted)
    (second : after.Notes last counted) : before.Notes last counted where
  running := first.running
  disk := second.disk.trans first.disk
  cachePath := second.cachePath.trans first.cachePath
  coherent coherent := second.coherent (first.coherent coherent)
  pending pending := second.pending (first.pending pending)
  noted := by
    rcases second.noted with pending | counts | same
    · exact Or.inl pending
    · exact Or.inr (Or.inl counts)
    · rcases first.noted with pending | counts | same'
      · exact Or.inl (second.pending pending)
      · exact Or.inr (Or.inl counts)
      · exact Or.inr (Or.inr (same.trans same'))

theorem Notes.imp (notes : before.Notes after counted) (imp : counted → more) :
    before.Notes after more :=
  { notes with noted := notes.noted.imp id (Or.imp_left imp) }

/-- A request settles the account, whatever has been counted. -/
theorem Notes.requestSave (notes : before.Notes after counted) (running : after.stopped = false) :
    before.Notes after.requestSave False := by
  rw [Session.requestSave, if_neg (by simp [running])]
  exact ⟨notes.running, notes.disk, notes.cachePath, notes.coherent, fun _ => rfl, Or.inl rfl⟩

theorem notes_modifyIndex {change : SymbolIndex → SymbolIndex} (running : session.stopped = false)
    (coherent : session.index.Coherent → (change session.index).Coherent) :
    session.Notes (session.modifyIndex change) True :=
  ⟨running, rfl, rfl, coherent, id, Or.inr (Or.inl trivial)⟩

theorem notes_applyCall {call : HostCall} (running : (session.applyCall call).stopped = false) :
    session.Notes (session.applyCall call) False := by
  have frame := congrArg Frame.stopped (session.frame_applyCall call)
  have stopped : (session.stopped || [call].contains .shutdown) = false := frame.symm.trans running
  have going : session.stopped = false := (Bool.or_eq_false_iff.mp stopped).1
  cases call with
  | index document =>
    rw [applyCall, indexDocument_eq]
    split
    · have marked : session.Notes ((session.mark document.uri).modifyIndex
          (·.replace document.uri (.ofText document.text))) True :=
        ⟨going, rfl, rfl, fun coherent => coherent.replace _ (SymbolTable.compact_ofText _), id,
          Or.inr (Or.inl trivial)⟩
      exact marked.requestSave going
    · exact .refl going
  | remove uri =>
    rw [applyCall, removeDocument]
    split
    · have unmarked : session.Notes ((session.unmark uri).modifyIndex (·.remove uri)) True :=
        ⟨going, rfl, rfl, fun coherent => coherent.remove uri, id, Or.inr (Or.inl trivial)⟩
      exact unmarked.requestSave going
    · exact ⟨going, rfl, rfl, id, id, Or.inr (Or.inr rfl)⟩
  | shutdown => simp at stopped

theorem notes_calls {calls : List HostCall}
    (running : (calls.foldl applyCall session).stopped = false) :
    session.Notes (calls.foldl applyCall session) False := by
  induction calls generalizing session with
  | nil => exact .refl running
  | cons call rest ih =>
    have later := ih running
    exact (notes_applyCall later.running).trans later

theorem notes_installFile (running : session.stopped = false) (uri text : String) :
    session.Notes (session.installFile uri (.ofText text)).1
      ((session.installFile uri (.ofText text)).2 = true) := by
  unfold installFile
  split
  · exact .refl running
  · have replaced : session.Notes (session.modifyIndex (·.replace uri (.ofText text))) True :=
      notes_modifyIndex running fun coherent =>
        coherent.replace uri (SymbolTable.compact_ofText text)
    exact replaced.imp fun _ => rfl

theorem notes_dropFile (running : session.stopped = false) (uri : String) :
    session.Notes (session.dropFile uri).1 ((session.dropFile uri).2 = true) := by
  unfold dropFile
  split
  · exact .refl running
  · have removed : session.Notes (session.modifyIndex (·.remove uri)) True :=
      notes_modifyIndex running fun coherent => coherent.remove uri
    exact removed.imp fun _ => rfl

theorem Notes.settle {changed : Bool} (notes : before.Notes after (changed = true))
    (running : after.stopped = false) :
    before.Notes (if changed then after.requestSave else after) False := by
  cases changed with
  | true => exact notes.requestSave running
  | false => exact notes.imp Bool.false_ne_true

theorem notes_refresh {opening : Opening} (running : (session.refresh opening).1.stopped = false) :
    session.Notes (session.refresh opening).1 False := by
  by_cases watched : session.watches opening.path
  · have frame := congrArg Frame.stopped (session.refresh_eq opening watched).1
    have stopped : (session.applyCalls opening).stopped = false :=
      (congrArg Frame.stopped (session.frame_calls opening.calls)).trans (frame.symm.trans running)
    have called : session.Notes (session.applyCalls opening) False := notes_calls stopped
    rw [refresh, if_pos watched]
    cases opening.document with
    | some document =>
      have installed := notes_installFile stopped document.uri document.text
      have running' := congrArg Frame.stopped
        ((session.applyCalls opening).installFile_eq document.uri document.text).1
      exact called.trans (installed.settle (running'.trans stopped))
    | none =>
      have dropped := notes_dropFile stopped opening.path.text
      have running' := congrArg Frame.stopped
        ((session.applyCalls opening).dropFile_eq opening.path.text).1
      exact called.trans (dropped.settle (running'.trans stopped))
  · rw [refresh, if_neg watched]
    rw [refresh, if_neg watched] at running
    exact .refl running

end Session

namespace Scan
variable {scan : Scan}

theorem notes_install (running : scan.session.stopped = false) (uri text : String) :
    scan.stats.indexed ≤ (scan.install uri (.ofText text)).stats.indexed ∧
    scan.session.Notes (scan.install uri (.ofText text)).session
      (scan.stats.indexed < (scan.install uri (.ofText text)).stats.indexed) := by
  have notes := Session.notes_installFile running uri text
  unfold install
  rcases outcome : scan.session.installFile uri (.ofText text) with ⟨session, _ | _⟩
  · exact ⟨le_refl _, .refl running⟩
  · rw [outcome] at notes
    exact ⟨Nat.le_succ _, notes.imp fun _ => Nat.lt_succ_self _⟩

theorem notes_take (running : scan.session.stopped = false) (document : Document) :
    scan.stats.indexed ≤ (scan.take document).stats.indexed ∧
    scan.session.Notes (scan.take document).session
      (scan.stats.indexed < (scan.take document).stats.indexed) := by
  have still : (scan.see document.uri).session = scan.session := rfl
  unfold take
  simp only [still, running, SymbolTable.ofTextUnless?_never]
  split
  · exact @notes_install (scan.see document.uri) running document.uri document.text
  · exact ⟨le_refl _, .refl running⟩

theorem notes_step {opening : Opening}
    (going : opening.document.isSome = true → (scan.openFile opening).session.stopped = false)
    (running : (scan.step opening).session.stopped = false) :
    scan.stats.indexed ≤ (scan.step opening).stats.indexed ∧
    scan.session.Notes (scan.step opening).session
      (scan.stats.indexed < (scan.step opening).stats.indexed) := by
  have stopped := congrArg Frame.stopped (scan.step_eq opening going).1
  have frame := congrArg Frame.stopped (scan.openFile_eq opening).1
  have still : (scan.openFile opening).session.stopped = false :=
    frame.trans (stopped.symm.trans running)
  have opened : scan.session.Notes (scan.openFile opening).session False := Session.notes_calls still
  unfold step
  cases opening.document with
  | none => exact ⟨le_refl _, opened.imp False.elim⟩
  | some document =>
    obtain ⟨more, taken⟩ := notes_take still document
    exact ⟨more, (opened.imp False.elim).trans taken⟩

/-- A scan counts the tables that it puts in. -/
theorem notes_files {openings : List Opening}
    (running : (scan.files openings).session.stopped = false) :
    scan.stats.indexed ≤ (scan.files openings).stats.indexed ∧
    scan.session.Notes (scan.files openings).session
      (scan.stats.indexed < (scan.files openings).stats.indexed) := by
  induction openings generalizing scan with
  | nil => exact ⟨le_refl _, .refl running⟩
  | cons opening rest ih =>
    have begun : scan.session.stopped = false := by
      by_contra stopped
      rw [files, if_pos (Bool.not_eq_false _ ▸ stopped)] at running
      exact stopped running
    rw [scan.files_cons opening rest begun] at running ⊢
    by_cases caught : opening.document.isSome && (scan.openFile opening).session.stopped
    · have stopped := (Bool.and_eq_true_iff.mp caught).2
      rw [if_pos caught] at running
      exact absurd (running.symm.trans stopped) Bool.false_ne_true
    · rw [if_neg caught] at running ⊢
      have going : opening.document.isSome = true →
          (scan.openFile opening).session.stopped = false := by
        intro read
        simpa [read] using caught
      obtain ⟨more, later⟩ := ih running
      obtain ⟨some, first⟩ := notes_step going later.running
      exact ⟨some.trans more,
        (first.imp (lt_of_lt_of_le · more)).trans (later.imp (lt_of_le_of_lt some))⟩

/-- What is pruned is counted. -/
theorem notes_prune (running : scan.session.stopped = false) :
    scan.session.Notes scan.prune.session (0 < scan.prune.stats.pruned) := by
  have removed : scan.prune.session.index = scan.session.index.applyChanges (scan.stale.map .drop) :=
    SymbolIndex.foldl_remove_eq scan.stale scan.session.index
  refine ⟨running, rfl, rfl, fun coherent => ?_, id, ?_⟩
  · rw [removed]
    exact coherent.applyChanges (by simp)
  · cases stale : scan.stale with
    | nil =>
      rw [stale] at removed
      exact Or.inr (Or.inr removed)
    | cons => exact Or.inr (Or.inl (by simp [prune, stale]))

end Scan

namespace CachedIndex
variable {store : CachedIndex} {excuse : Prop}

/-- A store whose index has not changed is as durable as before. -/
theorem Durable.of_same {after : CachedIndex} (durable : store.Durable excuse)
    (disk : after.disk = store.disk) (cachePath : after.cachePath = store.cachePath)
    (coherent : after.index.Coherent)
    (noted : after.isPending = true ∨ after.index = store.index)
    (pending : store.isPending = true → after.isPending = true) :
    after.Durable (excuse ∧ after.index = store.index) := by
  refine ⟨by rw [disk, cachePath]; exact durable.free, coherent, ?_⟩
  rcases noted with asked | same
  · exact Or.inl asked
  rcases durable.recorded with asked | saved | excused
  · exact Or.inl (pending asked)
  · have reloaded : after.reloaded = store.reloaded := by
      rw [CachedIndex.reloaded, CachedIndex.reloaded, load, load, disk, cachePath]
    refine Or.inr (Or.inl fun uri => ?_)
    rw [reloaded, same]
    exact saved uri
  · exact Or.inr (Or.inr ⟨excused, same⟩)

end CachedIndex

namespace Session
variable {session : Session}

theorem Notes.durable {before after : Session} {excuse : Prop} (notes : before.Notes after False)
    (durable : before.store.Durable excuse) :
    after.store.Durable (excuse ∧ after.index = before.index) := by
  refine durable.of_same notes.disk notes.cachePath (notes.coherent durable.coherent) ?_ notes.pending
  rcases notes.noted with pending | counted | same
  · exact Or.inl pending
  · exact counted.elim
  · exact Or.inr same

/-- Nothing has been indexed, nor has the cache been read. -/
def Untouched (session : Session) : Prop :=
  session.initialized = none ∧ ∀ uri, session.index.document? uri = none

/-- A session that has not been stopped can afford to lose its index, unless it has yet to read the
cache. -/
def Durable (session : Session) : Prop :=
  session.stopped = false → session.store.Durable session.Untouched

theorem notes_scanWorkspace {discovered : Option (List Opening)}
    (running : (session.scanWorkspace discovered).session.stopped = false) :
    session.Notes (session.scanWorkspace discovered).session
      (0 < (session.scanWorkspace discovered).stats.indexed ∨
        0 < (session.scanWorkspace discovered).stats.pruned) := by
  let scan := (Scan.start session (discovered.getD []).length).files (discovered.getD [])
  by_cases whole : discovered.isSome && !scan.stats.cancelled
  · have pruned : session.scanWorkspace discovered = scan.prune := if_pos whole
    rw [pruned] at running ⊢
    have still : scan.session.stopped = false := running
    exact ((Scan.notes_files still).2.imp Or.inl).trans ((Scan.notes_prune still).imp Or.inr)
  · have kept : session.scanWorkspace discovered = scan := if_neg whole
    rw [kept] at running ⊢
    exact (Scan.notes_files running).2.imp Or.inl

/-- The initialization requests a save unless the index is as it was read from the cache. -/
theorem notes_ensureInitialized (fresh : session.initialized = none)
    {discovered : Option (List Opening)}
    (running : (session.ensureInitialized discovered).1.stopped = false) :
    session.warmStart.Notes (session.ensureInitialized discovered).1 False := by
  let scan := session.initialScan discovered
  let changed := 0 < scan.stats.indexed || 0 < scan.stats.pruned
  let closed := if changed then scan.session.requestSave else scan.session
  have outcome : session.ensureInitialized discovered =
      ({ closed with initialized := some scan.stats }, scan.stats) := by
    rw [ensureInitialized, fresh]
  rw [outcome] at running ⊢
  have frame := congrArg Frame.stopped (scan.session.requestSave_if changed).1
  have still : scan.session.stopped = false := frame.symm.trans running
  have scanned : session.warmStart.Notes scan.session (changed = true) :=
    (notes_scanWorkspace still).imp (by simp [changed, scan, initialScan])
  have settled := scanned.settle still
  exact ⟨settled.running, settled.disk, settled.cachePath, settled.coherent, settled.pending,
    settled.noted⟩

/-- Into an empty index the cache brings just what can be read from it, and an index that has been
saved has it all. -/
theorem durable_warmStart (durable : session.store.Durable session.Untouched) :
    session.warmStart.store.Durable False := by
  have coherent : session.warmStart.index.Coherent := by
    unfold warmStart
    split
    · exact durable.coherent.restore _
    · exact durable.coherent
  have kept : session.warmStart.store = { session.store with index := session.warmStart.index } := by
    unfold warmStart
    split <;> rfl
  have tables : ∀ uri, session.warmStart.index.document? uri =
      (session.index.document? uri).or (session.store.reloaded.document? uri) := by
    intro uri
    unfold warmStart CachedIndex.reloaded
    cases session.store.load with
    | ok snapshot =>
      rw [SymbolIndex.document?_restore_empty]
      exact SymbolIndex.document?_restore ..
    | error => exact (Option.or_none).symm
  rw [kept]
  refine ⟨durable.free, coherent, ?_⟩
  rcases durable.recorded with pending | saved | ⟨-, empty⟩
  · exact Or.inl pending
  · refine Or.inr (Or.inl fun uri => ?_)
    have same : session.warmStart.index.document? uri = session.store.reloaded.document? uri := by
      rw [tables, saved uri]
      exact Option.or_self
    exact same.symm
  · refine Or.inr (Or.inl fun uri => ?_)
    have same : session.warmStart.index.document? uri = session.store.reloaded.document? uri := by
      rw [tables, empty, Option.none_or]
    exact same.symm

end Session
end AssemblySymbols
