import AssemblySymbols.Proofs.Session.FaithfulCache

/-! A session does to its index what a run of operations does, cancelled scans and calls of the editor
included. What holds of an index after every run therefore holds in every session. -/
namespace AssemblySymbols
open Session (HostCall Opening)

namespace SymbolIndex

/-- Some operations make the one index of the other. -/
def LeadsTo (index after : SymbolIndex) : Prop :=
  ∃ operations : List Operation, operations.foldl operate index = after

namespace LeadsTo
variable {index after last : SymbolIndex}

theorem refl (index : SymbolIndex) : index.LeadsTo index := ⟨[], rfl⟩

theorem of_eq (same : after = index) : index.LeadsTo after := same ▸ refl index

theorem trans (first : index.LeadsTo after) (second : after.LeadsTo last) : index.LeadsTo last := by
  obtain ⟨operations, rfl⟩ := first
  obtain ⟨more, rfl⟩ := second
  exact ⟨operations ++ more, List.foldl_append⟩

theorem operate (index : SymbolIndex) (operation : Operation) :
    index.LeadsTo (index.operate operation) := ⟨[operation], rfl⟩

theorem removes (index : SymbolIndex) (uris : List String) :
    index.LeadsTo (uris.foldl SymbolIndex.remove index) :=
  ⟨uris.map .remove, List.foldl_map⟩

theorem coherent (leads : index.LeadsTo after) (coherent : index.Coherent) : after.Coherent := by
  obtain ⟨operations, rfl⟩ := leads
  induction operations generalizing index with
  | nil => exact coherent
  | cons operation rest ih =>
    refine ih ?_
    rw [operate_eq]
    exact coherent.applyChanges fun _ _ => compact_of_mem_changes

end LeadsTo
end SymbolIndex

open SymbolIndex (LeadsTo)

namespace Holdings

theorem leadsTo_call (holdings : Holdings) (filter : DocumentFilter) (call : HostCall) :
    holdings.index.LeadsTo (holdings.call filter call).index := by
  unfold Holdings.call
  cases call.change? filter with
  | none => exact .refl _
  | some change =>
    cases change with
    | put uri text => exact .operate _ (.indexText uri text)
    | drop uri => exact .operate _ (.remove uri)

theorem leadsTo_install (holdings : Holdings) (uri text : String) :
    holdings.index.LeadsTo (holdings.install uri text).index := by
  unfold install
  split
  · exact .refl _
  · exact .operate _ (.indexText uri text)

theorem leadsTo_discard (holdings : Holdings) (uri : String) :
    holdings.index.LeadsTo (holdings.discard uri).index := by
  unfold discard
  split
  · exact .refl _
  · exact .operate _ (.remove uri)

end Holdings

namespace Session

theorem leadsTo_calls (session : Session) (calls : List HostCall) :
    session.index.LeadsTo (calls.foldl applyCall session).index := by
  induction calls generalizing session with
  | nil => exact .refl _
  | cons call rest ih =>
    have held := congrArg Holdings.index (session.holdings_applyCall call)
    have called := session.holdings.leadsTo_call session.filter call
    exact called.trans ((LeadsTo.of_eq held).trans (ih _))

theorem leadsTo_refresh (session : Session) (opening : Opening) :
    session.index.LeadsTo (session.refresh opening).1.index := by
  by_cases watched : session.watches opening.path
  · have held := congrArg Holdings.index (session.refresh_eq opening watched).2
    have called := session.leadsTo_calls opening.calls
    rw [show (opening.calls.foldl applyCall session).index = _ from
      congrArg Holdings.index (session.holdings_calls opening.calls)] at called
    refine called.trans (.trans ?_ (.of_eq held))
    cases opening.document with
    | some document => exact Holdings.leadsTo_install _ document.uri document.text
    | none => exact Holdings.leadsTo_discard _ opening.path.text
  · rw [refresh, if_neg watched]
    exact .refl _

theorem leadsTo_serve (session : Session) (request : Request) :
    session.index.LeadsTo (session.serve request).index := by
  cases request with
  | call call => exact session.leadsTo_calls [call]
  | indexUnless cancelled document =>
    rw [serve, indexDocumentUnless_eq]
    exact session.leadsTo_calls _
  | refresh opening => exact session.leadsTo_refresh opening
  | saveNow => exact .refl _
  | advance milliseconds => exact .of_eq (session.store.index_advance milliseconds)

theorem leadsTo_warmStart (session : Session) :
    session.index.LeadsTo session.warmStart.index := by
  unfold warmStart
  split
  · exact .operate _ (.restore _)
  · exact .refl _

end Session

namespace Scan

theorem leadsTo_install (scan : Scan) (uri text : String) :
    scan.session.index.LeadsTo (scan.install uri (.ofText text)).session.index := by
  obtain ⟨-, -, survey⟩ := scan.install_eq uri text
  have held := congrArg (·.holdings.index) survey
  exact (scan.session.holdings.leadsTo_install uri text).trans (.of_eq held)

theorem leadsTo_take (scan : Scan) (document : Document) :
    scan.session.index.LeadsTo (scan.take document).session.index := by
  rw [take]
  split
  · split
    · exact .refl _
    · next scanned =>
      rw [SymbolTable.ofTextUnless?_eq scanned]
      exact (scan.see document.uri).leadsTo_install document.uri document.text
  · exact .refl _

/-- Also if the scan is interrupted. -/
theorem leadsTo_files (scan : Scan) (openings : List Opening) :
    scan.session.index.LeadsTo (scan.files openings).session.index := by
  induction openings generalizing scan with
  | nil => exact .refl _
  | cons opening rest ih =>
    have opened : scan.session.index.LeadsTo (scan.openFile opening).session.index :=
      scan.session.leadsTo_calls opening.calls
    rw [files]
    split
    · exact .refl _
    · dsimp only
      cases opening.document with
      | none => exact opened.trans (ih (scan.openFile opening).countFailed)
      | some document =>
        dsimp only
        split
        · exact opened
        · exact opened.trans ((leadsTo_take _ document).trans (ih _))

end Scan

namespace Session

theorem leadsTo_scanWorkspace (session : Session) (discovered : Option (List Opening)) :
    session.index.LeadsTo (session.scanWorkspace discovered).session.index := by
  have scanned := (Scan.start session (discovered.getD []).length).leadsTo_files (discovered.getD [])
  unfold scanWorkspace
  dsimp only
  split
  · exact scanned.trans (.removes _ _)
  · exact scanned

theorem leadsTo_ensureInitialized (session : Session) (discovered : Option (List Opening)) :
    session.index.LeadsTo (session.ensureInitialized discovered).1.index := by
  unfold ensureInitialized
  cases session.initialized with
  | some stats => exact .refl _
  | none =>
    let scan := session.initialScan discovered
    obtain ⟨-, held⟩ := scan.session.requestSave_if (0 < scan.stats.indexed || 0 < scan.stats.pruned)
    have scanned : session.index.LeadsTo scan.session.index :=
      session.leadsTo_warmStart.trans (session.warmStart.leadsTo_scanWorkspace discovered)
    exact scanned.trans (.of_eq (congrArg Holdings.index held))

theorem leadsTo_meet (session : Session) (demand : Demand) :
    session.index.LeadsTo (session.meet demand).index := by
  cases demand with
  | request request => exact session.leadsTo_serve request
  | initialization discovered => exact session.leadsTo_ensureInitialized discovered
  | kindOf discovered cancelled name => exact session.leadsTo_ensureInitialized discovered
  | definitionsOf discovered cancelled name => exact session.leadsTo_ensureInitialized discovered
  | definitionsAt discovered cancelled text position =>
    rw [meet, definitionsAt]
    split
    · exact session.leadsTo_ensureInitialized discovered
    · exact .refl _

theorem leadsTo_meets (session : Session) (demands : List Demand) :
    session.index.LeadsTo (demands.foldl meet session).index := by
  induction demands generalizing session with
  | nil => exact .refl _
  | cons demand rest ih => exact (session.leadsTo_meet demand).trans (ih _)

end Session
end AssemblySymbols
