import AssemblySymbols.Proofs.Session.Consistency
import AssemblySymbols.Proofs.Session.Interleaving

/-! The editor's word against that of all other writers. Every other task looks for the mark in the step
in which it writes, so it never touches a document that the editor holds, whatever order the tasks take
turns in and whatever they find on disk. -/
namespace AssemblySymbols

/-- The last of the changes that concern a document. -/
def Change.last? {α : Type} (changes : List (Change α)) (uri : String) : Option (Change α) :=
  changes.reverse.find? (·.uri = uri)

theorem Change.last?_append {α : Type} (changes : List (Change α)) (change : Change α) (uri : String) :
    last? (changes ++ [change]) uri = if change.uri = uri then some change else last? changes uri := by
  rw [last?, List.reverse_append, List.reverse_singleton, List.singleton_append, List.find?_cons]
  by_cases own : change.uri = uri
  · simp [own]
  · simp [own, last?]

namespace Holdings

/-- Somebody else than the editor may have written: the editor's documents have kept their tables. -/
structure Spares (before after : Holdings) : Prop where
  hosted : after.hosted = before.hosted
  kept : ∀ uri ∈ before.hosted, ∀ table, before.index.document? uri = some table →
    after.index.document? uri = some table

/-- A document is held with the text of the last call on it, or it is free. -/
structure Honours (holdings : Holdings) (completed : List (Change String)) (uri : String) : Prop where
  held : ∀ text, Change.last? completed uri = some (.put uri text) →
    uri ∈ holdings.hosted ∧ holdings.index.document? uri = some (.ofText text)
  free : (∀ text, Change.last? completed uri ≠ some (.put uri text)) → uri ∉ holdings.hosted

variable {before after : Holdings} {completed : List (Change String)} {uri : String}

theorem Spares.of_eq (same : after = before) : before.Spares after := by
  subst same
  exact ⟨rfl, fun _ _ _ found => found⟩

/-- Documents that the editor does not hold may change, and others may be added. -/
theorem Spares.of_changes {changes : List (Change SymbolTable)} (hosted : after.hosted = before.hosted)
    (changed : after.index = before.index.applyChanges changes)
    (others : ∀ change ∈ changes, change.uri ∈ before.hosted →
      before.index.document? change.uri = none) : before.Spares after := by
  refine ⟨hosted, fun uri held table found => ?_⟩
  rw [changed, ← found]
  apply SymbolIndex.document?_applyChanges
  rintro change member rfl
  rw [others change member held] at found
  contradiction

theorem Honours.of_same (honours : before.Honours completed uri)
    (hosted : uri ∈ after.hosted ↔ uri ∈ before.hosted)
    (document : after.index.document? uri = before.index.document? uri) :
    after.Honours completed uri := by
  constructor
  · intro text last
    rw [hosted, document]
    exact honours.held text last
  · intro none
    rw [hosted]
    exact honours.free none

theorem Honours.spared (honours : before.Honours completed uri) (spares : before.Spares after) :
    after.Honours completed uri := by
  constructor
  · intro text last
    obtain ⟨hosted, found⟩ := honours.held text last
    exact ⟨spares.hosted ▸ hosted, spares.kept uri hosted _ found⟩
  · intro none
    rw [spares.hosted]
    exact honours.free none

end Holdings

namespace Session

theorem spares_saveChange {holdings : Holdings} {session : Session}
    (spares : holdings.Spares session.holdings) (changed : Bool) :
    holdings.Spares (session.saveChange changed).holdings := by
  rw [saveChange, (session.requestSave_if changed).2]
  exact spares

theorem spares_restore (session : Session) (snapshot : Snapshot) :
    session.holdings.Spares
      (session.modifyIndex fun index => (index.restore snapshot).1).holdings := by
  refine .of_changes rfl (congrArg Prod.fst (SymbolIndex.restore_eq session.index snapshot)) ?_
  intro change member _
  obtain ⟨record, new, rfl⟩ := List.mem_map.mp member
  have absent := mt SymbolIndex.contains_iff.mp (DocumentRecord.uri_not_known new)
  have missing : session.index.document? record.uri = none := by
    simpa [SymbolIndex.contains] using absent
  exact missing

theorem spares_installFile (session : Session) (uri : String) (table : SymbolTable) :
    session.holdings.Spares (session.installFile uri table).1.holdings := by
  unfold installFile
  by_cases hosted : session.isHosted uri
  · rw [if_pos hosted]
    exact .of_eq rfl
  · rw [if_neg hosted]
    have replaced : session.index.replace uri table = session.index.applyChanges [.put uri table] := rfl
    refine .of_changes rfl replaced (List.forall_mem_singleton.mpr fun held => ?_)
    exact absurd (isHosted_iff.mpr held) hosted

theorem spares_dropFile (session : Session) (uri : String) :
    session.holdings.Spares (session.dropFile uri).1.holdings := by
  rw [(session.dropFile_eq uri).2, Holdings.discard]
  by_cases hosted : uri ∈ session.holdings.hosted
  · rw [if_pos hosted]
    exact .of_eq rfl
  · rw [if_neg hosted]
    have removed : session.index.remove uri = session.index.applyChanges [.drop uri] := rfl
    exact .of_changes rfl removed (List.forall_mem_singleton.mpr fun held => absurd held hosted)

end Session

namespace Scan

theorem spares_install (scan : Scan) (uri : String) (table : SymbolTable) :
    scan.session.holdings.Spares (scan.install uri table).session.holdings := by
  have spares := scan.session.spares_installFile uri table
  unfold install
  rcases outcome : scan.session.installFile uri table with ⟨session, _ | _⟩
  · exact .of_eq rfl
  · rwa [outcome] at spares

theorem spares_prune (scan : Scan) :
    scan.session.holdings.Spares scan.prune.session.holdings := by
  have removed := SymbolIndex.foldl_remove_eq scan.stale scan.session.index
  refine .of_changes rfl removed ?_
  intro change member held
  obtain ⟨uri, stale, rfl⟩ := List.mem_map.mp member
  have marked : scan.session.isHosted uri = true := Session.isHosted_iff.mpr held
  have unmarked := (List.mem_filter.mp stale).2
  simp [marked] at unmarked

end Scan

theorem Stage.Step.spares {stage next : Stage} {scan scan' : Scan} (step : Step stage scan next scan') :
    scan.session.holdings.Spares scan'.session.holdings := by
  cases step with
  | seed => exact scan.session.spares_restore _
  | install => exact scan.spares_install _ _
  | prune => exact scan.spares_prune
  | close => exact Session.spares_saveChange (.of_eq rfl) _
  | _ => exact .of_eq rfl

theorem Refresh.Step.spares {session session' : Session} {refresh : Refresh} {left : Option Refresh}
    (step : Step session refresh session' left) : session.holdings.Spares session'.holdings := by
  cases step with
  | read | gone => exact .of_eq rfl
  | install => exact Session.spares_saveChange (session.spares_installFile _ _) _
  | drop => exact Session.spares_saveChange (session.spares_dropFile _) _

namespace SharedSession
variable {shared next : SharedSession}

/-- The mark of a call that waits is set or taken, and all other documents are as the editor has left
them. -/
structure Orderly (shared : SharedSession) : Prop where
  settled : ∀ uri, (∀ change ∈ shared.call, change.uri ≠ uri) →
    shared.session.holdings.Honours shared.completed uri
  marked : ∀ uri text, shared.call = some (.put uri text) → uri ∈ shared.session.hostDocuments
  unmarked : ∀ uri, shared.call = some (.drop uri) → uri ∉ shared.session.hostDocuments

theorem orderly_start (root : Path) (settings : Settings) (disk : Disk) :
    (start root settings disk).Orderly := by
  refine ⟨fun uri _ => ⟨?_, fun _ => ?_⟩, ?_, ?_⟩
  · intro text last
    contradiction
  · exact List.not_mem_nil
  · intro uri text waiting
    contradiction
  · intro uri waiting
    contradiction

theorem Orderly.spared (orderly : shared.Orderly) (call : next.call = shared.call)
    (completed : next.completed = shared.completed)
    (spares : shared.session.holdings.Spares next.session.holdings) : next.Orderly := by
  have hosted : next.session.hostDocuments = shared.session.hostDocuments := spares.hosted
  refine ⟨?_, ?_, ?_⟩
  · rw [call, completed]
    exact fun uri idle => (orderly.settled uri idle).spared spares
  · rw [call, hosted]
    exact orderly.marked
  · rw [call, hosted]
    exact orderly.unmarked

theorem Orderly.mark (orderly : shared.Orderly) (free : shared.call = none) (uri text : String) :
    Orderly { shared.withSession (shared.session.mark uri) with call := some (.put uri text) } := by
  refine ⟨fun other idle => ?_, ?_, ?_⟩
  · have apart : uri ≠ other := idle _ rfl
    have honours := orderly.settled other (by simp [free])
    refine honours.of_same ?_ rfl
    exact List.mem_insert_iff.trans (or_iff_right apart.symm)
  · rintro other text' ⟨⟩
    exact List.mem_insert_self
  · rintro other ⟨⟩

theorem Orderly.unmark (orderly : shared.Orderly) (free : shared.call = none) (uri : String) :
    Orderly { shared.withSession (shared.session.unmark uri) with call := some (.drop uri) } := by
  refine ⟨fun other idle => ?_, ?_, ?_⟩
  · have apart : uri ≠ other := idle _ rfl
    have honours := orderly.settled other (by simp [free])
    refine honours.of_same ?_ rfl
    exact List.mem_filter.trans (and_iff_left (decide_eq_true apart.symm))
  · rintro other text ⟨⟩
  · rintro other ⟨⟩ hosted
    simpa using (List.mem_filter.mp hosted).2

theorem holdings_complete (session : Session) (change : Change String) :
    (session.complete change).holdings =
      ⟨session.index.applyChange (change.map .ofText), session.hostDocuments⟩ := by
  cases change with
  | put uri text => exact Session.holdings_requestSave _
  | drop uri => exact (Session.requestSave_if _ _).2

theorem Orderly.complete (orderly : shared.Orderly) {change : Change String}
    (waiting : shared.call = some change) :
    Orderly
      { shared.withSession (shared.session.complete change) with
        call := none
        completed := shared.completed ++ [change] } := by
  refine ⟨fun uri _ => ?_, ?_, ?_⟩
  · change (shared.session.complete change).holdings.Honours (shared.completed ++ [change]) uri
    rw [holdings_complete]
    by_cases own : change.uri = uri
    · subst own
      have last := Change.last?_append shared.completed change change.uri
      rw [if_pos rfl] at last
      cases change with
      | put uri text =>
        have hosted := orderly.marked uri text waiting
        refine ⟨fun text' same => ?_, fun none => absurd last (none text)⟩
        cases last.symm.trans same
        exact ⟨hosted, (SymbolIndex.document?_replace ..).trans (if_pos rfl)⟩
      | drop uri =>
        refine ⟨fun text same => ?_, fun _ => orderly.unmarked uri waiting⟩
        cases last.symm.trans same
    · have idle : ∀ change' ∈ shared.call, change'.uri ≠ uri := by
        rintro _ member
        cases waiting.symm.trans member
        exact own
      have before := orderly.settled uri idle
      have last := Change.last?_append shared.completed change uri
      rw [if_neg own] at last
      have apart : (change.map SymbolTable.ofText).uri ≠ uri := by rwa [Change.uri_map]
      have kept := SymbolIndex.document?_applyChange apart shared.session.index
      have honours : Holdings.Honours ⟨shared.session.index.applyChange (change.map .ofText),
          shared.session.hostDocuments⟩ shared.completed uri := before.of_same Iff.rfl kept
      exact ⟨fun text => last ▸ honours.held text, last ▸ honours.free⟩
  · intro uri text waiting
    contradiction
  · intro uri waiting
    contradiction

theorem Orderly.step (orderly : shared.Orderly) (step : shared.Step next) : next.Orderly := by
  cases step with
  | mark document cancelled free accepted scanned => exact orderly.mark free document.uri document.text
  | unmark uri free => exact orderly.unmark free uri
  | complete waiting => exact orderly.complete waiting
  | startUp step => exact orderly.spared rfl rfl step.spares
  | refresh listed step => exact orderly.spared rfl rfl step.spares
  | watch | stop | outside => exact orderly.spared rfl rfl (.of_eq rfl)

theorem orderly_of_reaches (root : Path) (settings : Settings) (disk : Disk)
    (reached : (start root settings disk).Reaches shared) : shared.Orderly := by
  induction reached with
  | refl => exact orderly_start root settings disk
  | tail _ last ih => exact ih.step last

/-- Whenever no call on a document is under way, the last one that had an effect decides: if it has
indexed the document, the editor's mark is there and the index has the table of that text, whatever the
cache, the scan and refreshes have found; otherwise there is no mark. -/
theorem lastCall_prevails (root : Path) (settings : Settings) (disk : Disk)
    (reached : (start root settings disk).Reaches shared) (uri : String)
    (idle : ∀ change ∈ shared.call, change.uri ≠ uri) :
    (∀ text, Change.last? shared.completed uri = some (.put uri text) →
      uri ∈ shared.session.hostDocuments ∧
        shared.session.index.document? uri = some (.ofText text)) ∧
    ((∀ text, Change.last? shared.completed uri ≠ some (.put uri text)) →
      uri ∉ shared.session.hostDocuments) := by
  have honours := (orderly_of_reaches root settings disk reached).settled uri idle
  exact ⟨honours.held, honours.free⟩

/-- A refresh reads an old text of a document that the editor is about to index, and its turn to write
comes after the editor's. -/
theorem lastCall_prevails_refresh : ∃ shared : SharedSession,
    (start ⟨"/"⟩ (.defaults none) .empty).Reaches shared ∧
    shared.refreshes = [] ∧
    "a.asm" ∈ shared.session.hostDocuments ∧
    shared.session.index.document? "a.asm" = some (.ofText "new:\n") := by
  let document : Document := ⟨"a.asm", none, "new:\n"⟩
  let begun := start ⟨"/"⟩ (.defaults none) .empty
  let watching : SharedSession := { begun with refreshes := [.opening ⟨"a.asm"⟩] }
  have watched : begun.Step watching := .watch (by decide +kernel)
  let marking : SharedSession :=
    { watching.withSession (watching.session.mark document.uri) with
      call := some (.put document.uri document.text) }
  have marked : watching.Step marking :=
    .mark document (fun _ => false) rfl (by decide +kernel) (SymbolTable.ofTextUnless?_never _)
  let reading : SharedSession :=
    { marking with refreshes := [.installing "a.asm" (.ofText "old:\n")] }
  have listed : marking.refreshes = [] ++ .opening ⟨"a.asm"⟩ :: [] := rfl
  have read : marking.Step reading := .refresh listed (.read ⟨"a.asm", none, "old:\n"⟩)
  have completed := Step.complete (rfl : reading.call = some (.put document.uri document.text))
  let ended : SharedSession :=
    { reading.withSession (reading.session.complete (.put document.uri document.text)) with
      call := none
      completed := [.put document.uri document.text] }
  have waiting : ended.refreshes = [] ++ .installing "a.asm" (.ofText "old:\n") :: [] := rfl
  have settled := Step.refresh waiting .install
  have reached := watched.reaches.trans (marked.reaches.trans (read.reaches.trans
    (completed.reaches.trans settled.reaches)))
  have prevails := lastCall_prevails ⟨"/"⟩ (.defaults none) .empty reached "a.asm" (by rintro _ ⟨⟩)
  exact ⟨_, reached, rfl, prevails.1 "new:\n" rfl⟩

end SharedSession
end AssemblySymbols
