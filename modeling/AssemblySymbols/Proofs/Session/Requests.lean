import AssemblySymbols.Proofs.Session.Consistency

/-! What may be asked of a session before it is initialized. Refreshes read files, and the calls that
come while a file is opened count as the editor's just as those that come between requests. -/
namespace AssemblySymbols
open Session (HostCall Opening)

inductive Request where
  | call (call : HostCall)
  /-- A document to be indexed unless a look at `cancelled` stops the scan of its lines. -/
  | indexUnless (cancelled : Nat → Bool) (document : Document)
  | refresh (opening : Opening)
  | saveNow
  | advance (milliseconds : Nat)

def Request.calls (session : Session) : Request → List HostCall
  | .call hostCall => [hostCall]
  | .indexUnless cancelled document =>
    if (SymbolTable.ofTextUnless? cancelled document.text).isSome then [.index document] else []
  | .refresh opening => if session.watches opening.path then opening.calls else []
  | .saveNow | .advance _ => []

namespace Session

def serve (session : Session) : Request → Session
  | .call call => session.applyCall call
  | .indexUnless cancelled document => (session.indexDocumentUnless cancelled document).1
  | .refresh opening => (session.refresh opening).1
  | .saveNow => session.saveNow.1
  | .advance milliseconds => session.advance milliseconds

/-- The calls of the editor that are served with a sequence of requests. -/
def hostCalls (session : Session) : List Request → List HostCall
  | [] => []
  | request :: rest => request.calls session ++ (session.serve request).hostCalls rest

theorem indexDocumentUnless_eq (session : Session) (cancelled : Nat → Bool) (document : Document) :
    (session.indexDocumentUnless cancelled document).1 =
      ((Request.indexUnless cancelled document).calls session).foldl applyCall session := by
  rw [Request.calls, indexDocumentUnless]
  cases scanned : SymbolTable.ofTextUnless? cancelled document.text with
  | none => split <;> rfl
  | some table =>
    rw [SymbolTable.ofTextUnless?_eq scanned, Option.isSome_some, if_pos rfl, List.foldl_cons,
      List.foldl_nil, applyCall, indexDocument_eq]

/-- A refresh serves the calls that come in the meantime and then brings in what it has read. -/
theorem refresh_eq (session : Session) (opening : Opening) (watched : session.watches opening.path) :
    (session.refresh opening).1.frame = session.frame.after opening.calls ∧
    (session.refresh opening).1.holdings =
      let called := opening.calls.foldl (Holdings.call session.filter) session.holdings
      match opening.document with
      | some document => called.install document.uri document.text
      | none => called.discard opening.path.text := by
  have frame := session.frame_calls opening.calls
  have called := session.holdings_calls opening.calls
  rw [refresh, if_pos watched]
  cases opening.document with
  | some document =>
    let installed := (session.applyCalls opening).installFile document.uri (.ofText document.text)
    obtain ⟨frame', holdings'⟩ := (session.applyCalls opening).installFile_eq document.uri document.text
    obtain ⟨frame'', holdings''⟩ := installed.1.requestSave_if installed.2
    exact ⟨frame''.trans (frame'.trans frame),
      holdings''.trans (holdings'.trans (congrArg (·.install document.uri document.text) called))⟩
  | none =>
    let dropped := (session.applyCalls opening).dropFile opening.path.text
    obtain ⟨frame', holdings'⟩ := (session.applyCalls opening).dropFile_eq opening.path.text
    obtain ⟨frame'', holdings''⟩ := dropped.1.requestSave_if dropped.2
    exact ⟨frame''.trans (frame'.trans frame),
      holdings''.trans (holdings'.trans (congrArg (·.discard opening.path.text) called))⟩

/-- Of all requests only shutdowns touch the frame. -/
theorem frame_serve (session : Session) (request : Request) :
    (session.serve request).frame = session.frame.after (request.calls session) := by
  cases request with
  | call call => exact session.frame_applyCall call
  | indexUnless cancelled document =>
    rw [serve, indexDocumentUnless_eq]
    exact session.frame_calls _
  | refresh opening =>
    rw [serve, Request.calls]
    by_cases watched : session.watches opening.path
    · rw [if_pos watched]
      exact (session.refresh_eq opening watched).1
    · rw [refresh, if_neg watched, if_neg watched, Frame.after_nil]
  | saveNow | advance => exact (Frame.after_nil session.frame).symm

end Session

namespace Holdings.Consistent
variable {session : Session} {changes : List (Change String)}

theorem serve (consistent : session.holdings.Consistent (Change.live changes)) (request : Request) :
    (session.serve request).holdings.Consistent
      (Change.live (changes ++ (request.calls session).filterMap (·.change? session.filter))) := by
  cases request with
  | call call =>
    rw [Session.serve, Session.holdings_applyCall]
    exact consistent.calls session.filter [call]
  | indexUnless cancelled document =>
    rw [Session.serve, Session.indexDocumentUnless_eq, Session.holdings_calls]
    exact consistent.calls session.filter _
  | refresh opening =>
    rw [Request.calls, Session.serve]
    by_cases watched : session.watches opening.path
    · obtain ⟨-, holdings⟩ := session.refresh_eq opening watched
      have called := consistent.calls session.filter opening.calls
      rw [holdings, if_pos watched]
      cases opening.document with
      | some document => exact called.install document.uri document.text
      | none => exact called.discard opening.path.text
    · rw [Session.refresh, if_neg watched, if_neg watched]
      simpa using consistent
  | saveNow =>
    have same : session.saveNow.1.holdings = session.holdings := rfl
    simpa [Request.calls, Session.serve, same] using consistent
  | advance milliseconds =>
    have same : (session.advance milliseconds).holdings = session.holdings :=
      congrArg (Holdings.mk · session.hostDocuments) (session.store.index_advance milliseconds)
    simpa [Request.calls, Session.serve, same] using consistent

theorem serves (consistent : session.holdings.Consistent (Change.live changes))
    (requests : List Request) :
    (requests.foldl Session.serve session).holdings.Consistent
      (Change.live (changes ++ (session.hostCalls requests).filterMap (·.change? session.filter))) := by
  induction requests generalizing session changes with
  | nil => simpa [Session.hostCalls] using consistent
  | cons request rest ih =>
    have filter : (session.serve request).filter = session.filter :=
      congrArg Frame.filter (session.frame_serve request)
    rw [List.foldl_cons, Session.hostCalls, List.filterMap_append, ← List.append_assoc, ← filter]
    exact filter ▸ ih (consistent.serve request)

end Holdings.Consistent

theorem Session.frame_serves (session : Session) (requests : List Request) :
    (requests.foldl serve session).frame = session.frame.after (session.hostCalls requests) := by
  induction requests generalizing session with
  | nil => exact (Frame.after_nil session.frame).symm
  | cons request rest ih =>
    rw [List.foldl_cons, ih, frame_serve, hostCalls, Frame.after_append]

namespace Session

/-- A session that has served requests and is not initialized yet. -/
def serving (root : Path) (settings : Settings) (disk : Disk) (requests : List Request) : Session :=
  requests.foldl serve (.start root settings disk)

/-- The editor's changes that come with requests to a new session. -/
def hostChanges (root : Path) (settings : Settings) (disk : Disk) (requests : List Request) :
    List (Change String) :=
  ((start root settings disk).hostCalls requests).filterMap (·.change? (.ofSettings settings))

theorem serving_frame (root : Path) (settings : Settings) (disk : Disk) (requests : List Request) :
    (serving root settings disk requests).filter = .ofSettings settings ∧
    (serving root settings disk requests).initialized = none := by
  have frame := (start root settings disk).frame_serves requests
  exact ⟨congrArg Frame.filter frame, congrArg Frame.initialized frame⟩

theorem consistent_serving (root : Path) (settings : Settings) (disk : Disk) (requests : List Request) :
    (serving root settings disk requests).holdings.Consistent
      (Change.live (hostChanges root settings disk requests)) := by
  have begun : (start root settings disk).holdings.Consistent (Change.live []) :=
    .start root settings disk
  exact begun.serves requests

end Session
end AssemblySymbols
