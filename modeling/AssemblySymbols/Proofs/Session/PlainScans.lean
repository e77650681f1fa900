import AssemblySymbols.Proofs.Session.Survivors

/-! Scans of files on their own, where the editor has no part: each path that is discovered either can
be read or not, and its document is named after it. What such a scan leaves of a document depends on the
file of that name alone and, if it is read and refused, on what the cache knows of it. -/
namespace AssemblySymbols
open Session (Opening)

/-- The opening of a file that gives this text, without calls in the meantime. -/
def Session.Opening.plain (read : Path → Option String) (path : Path) : Opening :=
  ⟨path, [], (read path).map fun text => ⟨path.text, none, text⟩⟩

/-- The table of a file, if it can be read and the filter accepts it. -/
def DocumentFilter.tableOf? (filter : DocumentFilter) (read : Path → Option String) (path : Path) :
    Option SymbolTable :=
  if filter.acceptsPath path then (read path).map .ofText else none

theorem DocumentFilter.accepts_plain (filter : DocumentFilter) (path : Path) (text : String) :
    filter.accepts ⟨path.text, none, text⟩ = filter.acceptsPath path := rfl

/-- What a session works on. -/
structure Surroundings where
  root : Path
  settings : Settings
  stopped : Bool
  disk : Disk

namespace Session

def surroundings (session : Session) : Surroundings :=
  ⟨session.root, session.settings, session.stopped, session.disk⟩

theorem surroundings_requestSave (session : Session) :
    session.requestSave.surroundings = session.surroundings := by
  unfold requestSave
  split <;> rfl

theorem surroundings_installFile (session : Session) (uri : String) (table : SymbolTable) :
    (session.installFile uri table).1.surroundings = session.surroundings := by
  unfold installFile
  split <;> rfl

theorem surroundings_warmStart (session : Session) :
    session.warmStart.surroundings = session.surroundings := by
  unfold warmStart
  split <;> rfl

theorem hostDocuments_warmStart (session : Session) :
    session.warmStart.hostDocuments = session.hostDocuments := by
  unfold warmStart
  split <;> rfl

end Session

variable (filter : DocumentFilter) (read : Path → Option String)

namespace Scan

theorem surroundings_take (scan : Scan) (document : Document) :
    (scan.take document).session.surroundings = scan.session.surroundings := by
  have installed (uri : String) (table : SymbolTable) (scan : Scan) :
      (scan.install uri table).session.surroundings = scan.session.surroundings := by
    have kept := scan.session.surroundings_installFile uri table
    unfold install
    split
    · rfl
    · next outcome => exact (congrArg (·.1.surroundings) outcome).symm.trans kept
  rw [take]
  split
  · split
    · rfl
    · exact installed ..
  · rfl

theorem surroundings_files_plain (scan : Scan) (paths : List Path) :
    (scan.files (paths.map (.plain read))).session.surroundings = scan.session.surroundings := by
  induction paths generalizing scan with
  | nil => rfl
  | cons path rest ih =>
    rw [List.map_cons, files, Opening.plain]
    split
    · rfl
    · cases read path with
      | none => exact ih _
      | some text =>
        dsimp only [Option.map_some]
        split
        · rfl
        · exact (ih _).trans (surroundings_take ..)

end Scan

theorem Session.surroundings_ensureInitialized_plain (session : Session) (paths : List Path) :
    (session.ensureInitialized (some (paths.map (.plain read)))).1.surroundings =
      session.surroundings := by
  cases fresh : session.initialized with
  | some stats => rw [ensureInitialized, fresh]
  | none =>
    let begun := Scan.start session.warmStart (paths.map (Opening.plain read)).length
    have scanned := (begun.surroundings_files_plain read paths).trans session.surroundings_warmStart
    have pruned : (session.initialScan (some (paths.map (.plain read)))).session.surroundings =
        session.surroundings := by
      unfold initialScan scanWorkspace
      dsimp only
      split <;> exact scanned
    rw [ensureInitialized, fresh]
    dsimp only
    split
    · exact (surroundings_requestSave _).trans pruned
    · exact pruned

theorem interrupted_plain (paths : List Path) :
    interrupted false (paths.map (.plain read)) = false := by
  apply interrupted_quiet
  simp [Opening.plain]

namespace Survey

theorem visit_plain {survey : Survey} (free : survey.holdings.hosted = []) (path : Path) :
    (survey.visit filter (.plain read path)).holdings.hosted = [] ∧
    ∀ uri, (survey.visit filter (.plain read path)).holdings.index.document? uri =
      (if ⟨uri⟩ = path then filter.tableOf? read path else none).or
        (survey.holdings.index.document? uri) := by
  unfold visit Opening.plain DocumentFilter.tableOf?
  cases read path with
  | none => exact ⟨free, by simp⟩
  | some text =>
    simp only [Option.map_some, List.foldl_nil, DocumentFilter.accepts_plain]
    by_cases accepted : filter.acceptsPath path
    · simp only [accepted, if_true]
      refine ⟨(Holdings.hosted_install ..).trans free, fun uri => ?_⟩
      by_cases own : (⟨uri⟩ : Path) = path
      · subst own
        rw [if_pos rfl, Option.some_or]
        exact Holdings.document?_install_own (free ▸ List.not_mem_nil) text
      · have other : path.text ≠ uri := by
          rintro rfl
          exact own rfl
        rw [if_neg own, Option.none_or]
        exact Holdings.document?_install_other other text
    · simp [accepted, free]

theorem visits_plain (paths : List Path) {survey : Survey} (free : survey.holdings.hosted = []) :
    ((paths.map (.plain read)).foldl (visit filter) survey).holdings.hosted = [] ∧
    ∀ uri, ((paths.map (.plain read)).foldl (visit filter) survey).holdings.index.document? uri =
      (if ⟨uri⟩ ∈ paths then filter.tableOf? read ⟨uri⟩ else none).or
        (survey.holdings.index.document? uri) := by
  induction paths generalizing survey with
  | nil => exact ⟨free, fun uri => by simp⟩
  | cons path rest ih =>
    obtain ⟨free', visited⟩ := visit_plain filter read free path
    obtain ⟨free'', later⟩ := ih free'
    refine ⟨free'', fun uri => (later uri).trans ?_⟩
    rw [visited]
    by_cases own : (⟨uri⟩ : Path) = path
    · subst own
      by_cases again : (⟨uri⟩ : Path) ∈ rest
      · simp [again, ← Option.or_assoc, Option.or_self]
      · simp [again]
    · simp [own]

variable {read} in
theorem mem_seen_plain {paths : List Path} {holdings : Holdings} {uri : String} :
    uri ∈ ((paths.map (.plain read)).foldl (visit filter) ⟨holdings, []⟩).seen ↔
      ⟨uri⟩ ∈ paths ∧ (read ⟨uri⟩).isSome := by
  rw [mem_seen_visits]
  constructor
  · rintro (none | ⟨document, member, rfl⟩)
    · contradiction
    · obtain ⟨opening, found, opened⟩ := List.mem_filterMap.mp member
      obtain ⟨path, listed, rfl⟩ := List.mem_map.mp found
      obtain ⟨text, given, rfl⟩ := Option.map_eq_some_iff.mp opened
      exact ⟨listed, given ▸ rfl⟩
  · rintro ⟨listed, readable⟩
    obtain ⟨text, given⟩ := Option.isSome_iff_exists.mp readable
    refine Or.inr ⟨⟨uri, none, text⟩, List.mem_filterMap.mpr ⟨_, List.mem_map_of_mem listed, ?_⟩, rfl⟩
    rw [Opening.plain, given, Option.map_some]

theorem settle_plain (paths : List Path) {holdings : Holdings} (free : holdings.hosted = []) :
    let settled := ((paths.map (.plain read)).foldl (visit filter) ⟨holdings, []⟩).settle
    settled.hosted = [] ∧
    ∀ uri, settled.index.document? uri =
      if ⟨uri⟩ ∈ paths ∧ (read ⟨uri⟩).isSome then
        (filter.tableOf? read ⟨uri⟩).or (holdings.index.document? uri)
      else none := by
  let begun : Survey := ⟨holdings, []⟩
  have unhosted : begun.holdings.hosted = [] := free
  obtain ⟨unhosted', visited⟩ := visits_plain filter read paths unhosted
  refine ⟨unhosted', fun uri => ?_⟩
  rw [document?_settle, visited, unhosted']
  simp only [mem_seen_plain filter, begun, List.not_mem_nil, or_false]
  by_cases listed : (⟨uri⟩ : Path) ∈ paths <;> simp only [listed, if_true, true_and, false_and, if_false]

end Survey

namespace Session

/-- After a plain scan of a session that the editor has not used, a document is there if its file has
been read, with the table of its text or, if the filter refuses it, with that of the cache. -/
theorem ensureInitialized_plain {session : Session} (fresh : session.initialized = none)
    (running : session.stopped = false) (free : session.hostDocuments = []) (paths : List Path) :
    (session.ensureInitialized (some (paths.map (.plain read)))).1.hostDocuments = [] ∧
    ∀ uri, (session.ensureInitialized (some (paths.map (.plain read)))).1.index.document? uri =
      if ⟨uri⟩ ∈ paths ∧ (read ⟨uri⟩).isSome then
        (session.filter.tableOf? read ⟨uri⟩).or (session.warmStart.index.document? uri)
      else none := by
  have finished : (session.ensureInitialized (some (paths.map (.plain read)))).2.cancelled = false := by
    rw [cancelled_ensureInitialized fresh, running]
    exact interrupted_plain read paths
  have held := holdings_ensureInitialized fresh finished
  have unhosted : session.warmStart.holdings.hosted = [] := session.hostDocuments_warmStart.trans free
  obtain ⟨unhosted', settled⟩ := Survey.settle_plain session.filter read paths unhosted
  exact ⟨(congrArg Holdings.hosted held).trans unhosted',
    fun uri => (congrArg (·.index.document? uri) held).trans (settled uri)⟩

end Session
end AssemblySymbols
