import AssemblySymbols.Proofs.Session.Holdings
import AssemblySymbols.Session.Scan

/-! A scan that runs to its end, file by file. What the session holds afterwards is a fold over the
openings, and whether the scan runs to its end depends on the shutdowns among the calls alone. -/
namespace AssemblySymbols
open Session (HostCall Opening)

/-- A scan comes upon a shutdown, before it turns to a file or after it has opened one. -/
def interrupted (stopped : Bool) : List Opening → Bool
  | [] => false
  | opening :: rest =>
    let stopped' := stopped || opening.calls.contains .shutdown
    stopped || (opening.document.isSome && stopped') || interrupted stopped' rest

theorem interrupted_quiet {openings : List Opening} (quiet : ∀ opening ∈ openings, opening.calls = []) :
    interrupted false openings = false := by
  induction openings with
  | nil => rfl
  | cons opening rest ih =>
    obtain ⟨first, later⟩ := List.forall_mem_cons.mp quiet
    simp [interrupted, first, ih later]

/-- How far a scan has come: what the session holds and which documents have been read. -/
structure Survey where
  holdings : Holdings
  seen : List String

namespace Survey

/-- The next file: first the calls that come while it is opened, then its document. -/
def visit (filter : DocumentFilter) (survey : Survey) (opening : Opening) : Survey :=
  let holdings := opening.calls.foldl (Holdings.call filter) survey.holdings
  match opening.document with
  | none => ⟨holdings, survey.seen⟩
  | some document =>
    ⟨if filter.accepts document then holdings.install document.uri document.text else holdings,
      survey.seen.insert document.uri⟩

/-- Neither a file nor the editor accounts for them. -/
def stale (survey : Survey) : List String :=
  survey.holdings.index.uris.filter fun uri =>
    !survey.seen.contains uri && !survey.holdings.hosted.contains uri

/-- What the session holds when the stale documents are gone. -/
def settle (survey : Survey) : Holdings :=
  { survey.holdings with index := survey.stale.foldl SymbolIndex.remove survey.holdings.index }

end Survey

theorem SymbolIndex.documents_foldl_remove (uris : List String) (index : SymbolIndex) :
    (uris.foldl remove index).documents = index.documents.filter (·.1 ∉ uris) := by
  induction uris generalizing index with
  | nil => exact (List.filter_eq_self.mpr (by simp)).symm
  | cons uri rest ih =>
    rw [List.foldl_cons, ih, documents_remove, List.filter_filter]
    apply List.filter_congr
    intro entry _
    by_cases first : entry.1 = uri <;> simp [first]

/-- The documents that survive are those that a file or the editor accounts for. -/
theorem Survey.documents_settle (survey : Survey) :
    survey.settle.index.documents = survey.holdings.index.documents.filter fun entry =>
      entry.1 ∈ survey.seen ∨ entry.1 ∈ survey.holdings.hosted := by
  rw [settle, SymbolIndex.documents_foldl_remove]
  apply List.filter_congr
  intro entry member
  have indexed : entry.1 ∈ survey.holdings.index.uris := List.mem_map.mpr ⟨entry, member, rfl⟩
  by_cases seen : entry.1 ∈ survey.seen <;> by_cases hosted : entry.1 ∈ survey.holdings.hosted <;>
    simp [stale, indexed, seen, hosted]

namespace Scan

def survey (scan : Scan) : Survey := ⟨scan.session.holdings, scan.seen⟩

theorem openFile_eq (scan : Scan) (opening : Opening) :
    (scan.openFile opening).session.frame = scan.session.frame.after opening.calls ∧
    (scan.openFile opening).session.holdings =
      opening.calls.foldl (Holdings.call scan.session.filter) scan.session.holdings :=
  ⟨scan.session.frame_calls opening.calls, scan.session.holdings_calls opening.calls⟩

theorem install_eq (scan : Scan) (uri text : String) :
    (scan.install uri (.ofText text)).session.frame = scan.session.frame ∧
    (scan.install uri (.ofText text)).stats.cancelled = scan.stats.cancelled ∧
    (scan.install uri (.ofText text)).survey = ⟨scan.session.holdings.install uri text, scan.seen⟩ := by
  obtain ⟨frame, holdings⟩ := scan.session.installFile_eq uri text
  rw [← holdings, ← frame]
  unfold install
  rcases outcome : scan.session.installFile uri (.ofText text) with ⟨session, _ | _⟩
  · have kept : session = scan.session := by
      unfold Session.installFile at outcome
      split at outcome <;> simp_all
    exact ⟨congrArg Session.frame kept.symm, rfl,
      congrArg (Survey.mk · scan.seen) (congrArg Session.holdings kept.symm)⟩
  · exact ⟨rfl, rfl, rfl⟩

theorem take_eq (scan : Scan) (document : Document) (running : scan.session.stopped = false) :
    (scan.take document).session.frame = scan.session.frame ∧
    (scan.take document).stats.cancelled = scan.stats.cancelled ∧
    (scan.take document).survey =
      ⟨if scan.session.filter.accepts document then
          scan.session.holdings.install document.uri document.text
        else scan.session.holdings, scan.seen.insert document.uri⟩ := by
  have still : (scan.see document.uri).session = scan.session := rfl
  unfold take
  simp only [still, running, SymbolTable.ofTextUnless?_never]
  by_cases accepted : scan.session.filter.accepts document
  · rw [if_pos accepted, if_pos accepted]
    exact install_eq (scan.see document.uri) document.uri document.text
  · rw [if_neg accepted, if_neg accepted]
    exact ⟨rfl, rfl, rfl⟩

/-- What a running scan has done when it turns to the next file, unless a shutdown has come upon it
with the file in its hands. -/
def step (scan : Scan) (opening : Opening) : Scan :=
  match opening.document with
  | none => (scan.openFile opening).countFailed
  | some document => (scan.openFile opening).take document

theorem files_cons (scan : Scan) (opening : Opening) (rest : List Opening)
    (running : scan.session.stopped = false) :
    scan.files (opening :: rest) =
      if opening.document.isSome && (scan.openFile opening).session.stopped then
        (scan.openFile opening).cancel
      else (scan.step opening).files rest := by
  rw [files, running, if_neg Bool.false_ne_true, step]
  cases document : opening.document with
  | none => rfl
  | some document => rw [Option.isSome_some, Bool.true_and]

theorem step_eq (scan : Scan) (opening : Opening)
    (going : opening.document.isSome = true → (scan.openFile opening).session.stopped = false) :
    (scan.step opening).session.frame = scan.session.frame.after opening.calls ∧
    (scan.step opening).stats.cancelled = scan.stats.cancelled ∧
    (scan.step opening).survey = scan.survey.visit scan.session.filter opening := by
  obtain ⟨frame, holdings⟩ := scan.openFile_eq opening
  have filter : (scan.openFile opening).session.filter = scan.session.filter :=
    congrArg Frame.filter frame
  unfold step Survey.visit
  cases read : opening.document with
  | none => exact ⟨frame, rfl, congrArg (Survey.mk · scan.seen) holdings⟩
  | some document =>
    have running := going (read ▸ rfl)
    obtain ⟨frame', cancelled, survey⟩ := take_eq _ document running
    refine ⟨frame'.trans frame, cancelled, ?_⟩
    rw [survey, filter, holdings]
    rfl

/-- A scan is cancelled exactly if a shutdown comes before its end. -/
theorem cancelled_files (scan : Scan) (openings : List Opening) :
    (scan.files openings).stats.cancelled =
      (scan.stats.cancelled || interrupted scan.session.stopped openings) := by
  induction openings generalizing scan with
  | nil => simp [files, interrupted]
  | cons opening rest ih =>
    cases running : scan.session.stopped with
    | true => simp [files, running, interrupted, cancel]
    | false =>
      have stopped : (scan.openFile opening).session.stopped = opening.calls.contains .shutdown := by
        have after := congrArg Frame.stopped (scan.openFile_eq opening).1
        rwa [Frame.after, Session.frame, Session.frame, running, Bool.false_or] at after
      rw [files_cons scan opening rest running]
      simp only [interrupted, stopped, Bool.false_or]
      cases caught : opening.document.isSome && opening.calls.contains .shutdown with
      | true => simp [cancel]
      | false =>
        have going : opening.document.isSome = true →
            (scan.openFile opening).session.stopped = false := by
          intro read
          rw [stopped]
          simpa [read] using caught
        obtain ⟨frame, cancelled, -⟩ := step_eq scan opening going
        have stopped' : (scan.step opening).session.stopped = opening.calls.contains .shutdown := by
          have after := congrArg Frame.stopped frame
          rwa [Frame.after, Session.frame, Session.frame, running, Bool.false_or] at after
        rw [if_neg Bool.false_ne_true, ih, cancelled, stopped', Bool.false_or]

/-- An uninterrupted scan has visited all files. -/
theorem survey_files (scan : Scan) (openings : List Opening)
    (finished : interrupted scan.session.stopped openings = false) :
    (scan.files openings).survey = openings.foldl (Survey.visit scan.session.filter) scan.survey := by
  induction openings generalizing scan with
  | nil => rfl
  | cons opening rest ih =>
    rw [interrupted, Bool.or_eq_false_iff, Bool.or_eq_false_iff] at finished
    obtain ⟨⟨running, free⟩, finished⟩ := finished
    have stopped : (scan.openFile opening).session.stopped =
        (scan.session.stopped || opening.calls.contains .shutdown) :=
      congrArg Frame.stopped (scan.openFile_eq opening).1
    rw [← stopped] at free
    have going : opening.document.isSome = true → (scan.openFile opening).session.stopped = false := by
      intro read
      simpa [read] using free
    obtain ⟨frame, -, survey⟩ := step_eq scan opening going
    have filter : (scan.step opening).session.filter = scan.session.filter :=
      congrArg Frame.filter frame
    have finished' : interrupted (scan.step opening).session.stopped rest = false :=
      (congrArg (interrupted · rest) (congrArg Frame.stopped frame)).trans finished
    rw [files_cons scan opening rest running, if_neg (Bool.not_eq_true _ ▸ free), ih _ finished',
      filter, survey, List.foldl_cons]

theorem survey_prune (scan : Scan) : scan.prune.session.holdings = scan.survey.settle := rfl

end Scan

namespace Session

theorem frame_warmStart (session : Session) : session.warmStart.frame = session.frame := by
  unfold warmStart
  split <;> rfl

theorem scanWorkspace_eq (session : Session) (openings : List Opening) :
    (session.scanWorkspace (some openings)).stats.cancelled =
      interrupted session.stopped openings ∧
    (interrupted session.stopped openings = false →
      (session.scanWorkspace (some openings)).session.holdings =
        (openings.foldl (Survey.visit session.filter) ⟨session.holdings, []⟩).settle) := by
  have cancelled := (Scan.start session openings.length).cancelled_files openings
  rw [show (Scan.start session openings.length).stats.cancelled = false from rfl, Bool.false_or]
    at cancelled
  unfold scanWorkspace
  simp only [Option.getD_some, Option.isSome_some, Bool.true_and]
  constructor
  · split <;> exact cancelled
  · intro finished
    have survey := (Scan.start session openings.length).survey_files openings finished
    have completed : ((Scan.start session openings.length).files openings).stats.cancelled = false :=
      cancelled.trans finished
    rw [completed, if_pos (by rfl), Scan.survey_prune, survey]
    rfl

theorem cancelled_ensureInitialized {session : Session} (fresh : session.initialized = none)
    (openings : List Opening) :
    (session.ensureInitialized (some openings)).2.cancelled =
      interrupted session.stopped openings := by
  obtain ⟨cancelled, -⟩ := session.warmStart.scanWorkspace_eq openings
  rw [ensureInitialized, fresh]
  have stopped : session.warmStart.stopped = session.stopped :=
    congrArg Frame.stopped session.frame_warmStart
  exact cancelled.trans (congrArg (interrupted · openings) stopped)

theorem holdings_ensureInitialized {session : Session} (fresh : session.initialized = none)
    {openings : List Opening}
    (finished : (session.ensureInitialized (some openings)).2.cancelled = false) :
    (session.ensureInitialized (some openings)).1.holdings =
      (openings.foldl (Survey.visit session.filter) ⟨session.warmStart.holdings, []⟩).settle := by
  obtain ⟨-, surveyed⟩ := session.warmStart.scanWorkspace_eq openings
  have stopped : session.warmStart.stopped = session.stopped :=
    congrArg Frame.stopped session.frame_warmStart
  have filter : session.warmStart.filter = session.filter :=
    congrArg Frame.filter session.frame_warmStart
  rw [cancelled_ensureInitialized fresh, ← stopped] at finished
  rw [← filter, ← surveyed finished, ensureInitialized, fresh]
  let scan := session.initialScan (some openings)
  obtain ⟨-, held⟩ := scan.session.requestSave_if (0 < scan.stats.indexed || 0 < scan.stats.pruned)
  exact held

end Session
end AssemblySymbols
