import AssemblySymbols.Proofs.Symbol.CancelledTables
import AssemblySymbols.Proofs.Symbol.Operations
import AssemblySymbols.Session.Basic

/-! What a session holds: its index and the documents of the editor. Each operation of the session is
one small change of this pair; saves, time and the disk have no part in it. -/
namespace AssemblySymbols

namespace CachedIndex

theorem index_flush (store : CachedIndex) : store.flush.1.index = store.index := by
  unfold flush
  split <;> rfl

theorem index_fire (store : CachedIndex) (timer : Timer) : (store.fire timer).index = store.index := by
  unfold fire
  split <;> rfl

theorem index_advance (store : CachedIndex) (milliseconds : Nat) :
    (store.advance milliseconds).index = store.index := by
  suffices general : ∀ (due : List Timer) (store : CachedIndex),
      (due.foldl fire store).index = store.index from general _ _
  intro due
  induction due with
  | nil => exact fun _ => rfl
  | cons timer rest ih => exact fun store => (ih _).trans (index_fire store timer)

end CachedIndex

structure Holdings where
  index : SymbolIndex
  /-- The documents of the editor. -/
  hosted : List String

/-- What stays as it is while documents come and go, but for shutdowns. -/
structure Frame where
  settings : Settings
  initialized : Option ScanStats
  stopped : Bool

namespace Session

/-- The documents that a call of the editor puts in or takes out, if the filter accepts them. -/
def HostCall.change? (filter : DocumentFilter) : HostCall → Option (Change String)
  | index document => if filter.accepts document then some (.put document.uri document.text) else none
  | remove uri => some (.drop uri)
  | shutdown => none

def holdings (session : Session) : Holdings := ⟨session.index, session.hostDocuments⟩

def frame (session : Session) : Frame := ⟨session.settings, session.initialized, session.stopped⟩

end Session

namespace Frame
open Session (HostCall)

def filter (frame : Frame) : DocumentFilter := .ofSettings frame.settings

def after (frame : Frame) (calls : List HostCall) : Frame :=
  { frame with stopped := frame.stopped || calls.contains .shutdown }

theorem after_nil (frame : Frame) : frame.after [] = frame := by
  simp [after]

theorem after_append (frame : Frame) (calls more : List HostCall) :
    frame.after (calls ++ more) = (frame.after calls).after more := by
  simp [after, Bool.or_assoc]

end Frame

namespace Holdings
open Session (HostCall Opening)

/-- The editor takes a document over or gives it up. -/
def hostChange (holdings : Holdings) : Change String → Holdings
  | .put uri text => ⟨holdings.index.replace uri (.ofText text), holdings.hosted.insert uri⟩
  | .drop uri => ⟨holdings.index.remove uri, holdings.hosted.filter (· ≠ uri)⟩

def call (filter : DocumentFilter) (holdings : Holdings) (call : HostCall) : Holdings :=
  (call.change? filter).elim holdings holdings.hostChange

/-- A file is read. -/
def install (holdings : Holdings) (uri text : String) : Holdings :=
  if uri ∈ holdings.hosted then holdings
  else { holdings with index := holdings.index.replace uri (.ofText text) }

/-- A file is found to be gone. -/
def discard (holdings : Holdings) (uri : String) : Holdings :=
  if uri ∈ holdings.hosted then holdings
  else { holdings with index := holdings.index.remove uri }

end Holdings

theorem SymbolIndex.remove_of_not_contains {index : SymbolIndex} {uri : String}
    (absent : index.contains uri = false) : index.remove uri = index := by
  have none : index.document? uri = none := by simpa [contains] using absent
  rw [remove, none]

namespace Session

@[simp] theorem holdings_requestSave (session : Session) :
    session.requestSave.holdings = session.holdings := by
  unfold requestSave
  split <;> rfl

@[simp] theorem frame_requestSave (session : Session) : session.requestSave.frame = session.frame := by
  unfold requestSave
  split <;> rfl

theorem requestSave_if (session : Session) (changed : Bool) :
    (if changed then session.requestSave else session).frame = session.frame ∧
    (if changed then session.requestSave else session).holdings = session.holdings := by
  cases changed with
  | true => exact ⟨frame_requestSave session, holdings_requestSave session⟩
  | false => exact ⟨rfl, rfl⟩

theorem isHosted_iff {session : Session} {uri : String} :
    session.isHosted uri = true ↔ uri ∈ session.holdings.hosted :=
  List.contains_iff_mem

theorem indexDocument_eq (session : Session) (document : Document) :
    session.indexDocument document =
      if session.filter.accepts document then
        (((session.mark document.uri).modifyIndex
          (·.replace document.uri (.ofText document.text))).requestSave, true)
      else (session, false) := by
  rw [indexDocument, indexDocumentUnless, SymbolTable.ofTextUnless?_never]

theorem holdings_applyCall (session : Session) (call : HostCall) :
    (session.applyCall call).holdings = session.holdings.call session.filter call := by
  cases call with
  | index document =>
    rw [applyCall, indexDocument_eq, Holdings.call, HostCall.change?]
    split
    · exact holdings_requestSave _
    · rfl
  | remove uri =>
    simp only [applyCall, removeDocument]
    split
    · exact holdings_requestSave _
    · next absent =>
      have same := SymbolIndex.remove_of_not_contains (Bool.not_eq_true _ ▸ absent)
      exact congrArg (Holdings.mk · (session.hostDocuments.filter (· ≠ uri))) same.symm
  | shutdown => exact congrArg (Holdings.mk · session.hostDocuments) (CachedIndex.index_flush _)

theorem frame_applyCall (session : Session) (call : HostCall) :
    (session.applyCall call).frame = session.frame.after [call] := by
  cases call with
  | index document =>
    rw [applyCall, indexDocument_eq]
    split
    · exact (frame_requestSave _).trans (by simp [frame, Frame.after, mark, modifyIndex])
    · simp [frame, Frame.after]
  | remove uri =>
    simp only [applyCall, removeDocument]
    split
    · exact (frame_requestSave _).trans (by simp [frame, Frame.after, unmark, modifyIndex])
    · simp [frame, Frame.after, unmark]
  | shutdown => simp [applyCall, shutdown, frame, Frame.after]

theorem frame_calls (session : Session) (calls : List HostCall) :
    (calls.foldl applyCall session).frame = session.frame.after calls := by
  induction calls generalizing session with
  | nil => exact (Frame.after_nil session.frame).symm
  | cons call rest ih =>
    rw [List.foldl_cons, ih, frame_applyCall, ← Frame.after_append, List.singleton_append]

theorem holdings_calls (session : Session) (calls : List HostCall) :
    (calls.foldl applyCall session).holdings =
      calls.foldl (Holdings.call session.filter) session.holdings := by
  induction calls generalizing session with
  | nil => rfl
  | cons call rest ih =>
    have filter : (session.applyCall call).filter = session.filter :=
      congrArg Frame.filter (session.frame_applyCall call)
    rw [List.foldl_cons, ih, filter, holdings_applyCall, List.foldl_cons]

theorem installFile_eq (session : Session) (uri text : String) :
    (session.installFile uri (.ofText text)).1.frame = session.frame ∧
    (session.installFile uri (.ofText text)).1.holdings = session.holdings.install uri text := by
  unfold installFile Holdings.install
  by_cases hosted : session.isHosted uri
  · simp [hosted, isHosted_iff.mp hosted]
  · have free : uri ∉ session.holdings.hosted := mt isHosted_iff.mpr hosted
    rw [if_neg hosted, if_neg free]
    exact ⟨rfl, rfl⟩

theorem dropFile_eq (session : Session) (uri : String) :
    (session.dropFile uri).1.frame = session.frame ∧
    (session.dropFile uri).1.holdings = session.holdings.discard uri := by
  unfold dropFile Holdings.discard
  by_cases hosted : session.isHosted uri
  · simp [hosted, isHosted_iff.mp hosted]
  · have free : uri ∉ session.holdings.hosted := mt isHosted_iff.mpr hosted
    by_cases indexed : session.index.contains uri
    · rw [if_neg (by simp [hosted, indexed]), if_neg free]
      exact ⟨rfl, rfl⟩
    · have absent : session.index.contains uri = false := by simpa using indexed
      rw [if_pos (by simp [absent]), if_neg free]
      have same := SymbolIndex.remove_of_not_contains absent
      exact ⟨rfl, congrArg (Holdings.mk · session.hostDocuments) same.symm⟩

end Session
end AssemblySymbols
