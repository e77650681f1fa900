import AssemblySymbols.Proofs.Session.InterruptedScans
import AssemblySymbols.Proofs.Session.ScanAccounts
import AssemblySymbols.Proofs.Symbol.Merging

/-! Where the tables of an index come from, whatever the editor, the refreshes and the initialization do
and in which order. A table is that of a text or of a record in the cache that the initialization has read,
and a table of the second kind outlasts the initialization only for one of few reasons. -/
namespace AssemblySymbols

/-- The table is that of some text. -/
def SymbolTable.IsOfText (table : SymbolTable) : Prop := ∃ text, table = ofText text

namespace SymbolIndex
variable {index after last : SymbolIndex}

/-- One index becomes another by removals and by tables of texts. -/
structure Retains (index after : SymbolIndex) : Prop where
  coherent : index.Coherent → after.Coherent
  origin : ∀ entry ∈ after.documents, entry ∈ index.documents ∨ entry.2.IsOfText

namespace Retains

theorem refl (index : SymbolIndex) : index.Retains index := ⟨id, fun _ => .inl⟩

theorem of_eq (same : after = index) : index.Retains after := same ▸ refl index

theorem trans (first : index.Retains after) (second : after.Retains last) : index.Retains last where
  coherent := second.coherent ∘ first.coherent
  origin entry member := (second.origin entry member).elim (first.origin entry) .inr

theorem remove (index : SymbolIndex) (uri : String) : index.Retains (index.remove uri) where
  coherent coherent := coherent.remove uri
  origin entry member := by
    rw [documents_remove] at member
    exact .inl (List.mem_filter.mp member).1

theorem removes (index : SymbolIndex) (uris : List String) :
    index.Retains (uris.foldl SymbolIndex.remove index) := by
  induction uris generalizing index with
  | nil => exact refl index
  | cons uri rest ih => exact (remove index uri).trans (ih _)

theorem replace (index : SymbolIndex) (uri : String) {table : SymbolTable} (scanned : table.IsOfText) :
    index.Retains (index.replace uri table) where
  coherent coherent := by
    obtain ⟨text, rfl⟩ := scanned
    exact coherent.replace uri (SymbolTable.compact_ofText text)
  origin entry member := by
    rw [documents_replace, List.mem_append, List.mem_singleton] at member
    rcases member with old | rfl
    · exact .inl (List.mem_filter.mp old).1
    · exact .inr scanned

end Retains
end SymbolIndex

open SymbolIndex (Retains)

namespace Session

theorem index_saveChange (session : Session) (changed : Bool) :
    (session.saveChange changed).index = session.index :=
  congrArg Holdings.index (session.requestSave_if changed).2

theorem hosted_saveChange (session : Session) (changed : Bool) :
    (session.saveChange changed).hostDocuments = session.hostDocuments :=
  congrArg Holdings.hosted (session.requestSave_if changed).2

theorem hosted_complete (session : Session) (change : Change String) :
    (session.complete change).hostDocuments = session.hostDocuments := by
  cases change with
  | put uri text => exact congrArg Holdings.hosted (holdings_requestSave _)
  | drop uri => exact hosted_saveChange _ _

theorem retains_complete (session : Session) (change : Change String) :
    session.index.Retains (session.complete change).index := by
  cases change with
  | put uri text =>
    have held := congrArg Holdings.index
      (session.modifyIndex (·.replace uri (.ofText text))).holdings_requestSave
    exact (Retains.replace session.index uri ⟨text, rfl⟩).trans (.of_eq held)
  | drop uri =>
    have held := (session.modifyIndex (·.remove uri)).index_saveChange (session.index.contains uri)
    exact (Retains.remove session.index uri).trans (.of_eq held)

theorem retains_installFile (session : Session) (uri : String) {table : SymbolTable}
    (scanned : table.IsOfText) : session.index.Retains (session.installFile uri table).1.index := by
  unfold installFile
  split
  · exact .refl _
  · exact .replace session.index uri scanned

theorem retains_dropFile (session : Session) (uri : String) :
    session.index.Retains (session.dropFile uri).1.index := by
  unfold dropFile
  split
  · exact .refl _
  · exact .remove session.index uri

end Session

/-- A refresh carries no table but that of a text. -/
def Refresh.Carries (refresh : Refresh) : Prop :=
  ∀ uri table, refresh = .installing uri table → table.IsOfText

/-- Nor does the initialization. -/
def Stage.Carries (stage : Stage) : Prop :=
  ∀ uri table rest, stage = .installing uri table rest → table.IsOfText

theorem Refresh.Step.retains {session session' : Session} {refresh : Refresh} {left : Option Refresh}
    (step : Step session refresh session' left) (carries : refresh.Carries) :
    session.index.Retains session'.index ∧ ∀ next ∈ left, next.Carries := by
  cases step with
  | read document =>
    refine ⟨.refl _, ?_⟩
    rintro _ ⟨⟩ _ _ ⟨⟩
    exact ⟨document.text, rfl⟩
  | gone =>
    refine ⟨.refl _, ?_⟩
    rintro _ ⟨⟩ _ _ ⟨⟩
  | @install uri table =>
    have installed := session.retains_installFile uri (carries uri table rfl)
    exact ⟨installed.trans (.of_eq (Session.index_saveChange _ _)), nofun⟩
  | @drop uri =>
    have dropped := session.retains_dropFile uri
    exact ⟨dropped.trans (.of_eq (Session.index_saveChange _ _)), nofun⟩

theorem Refresh.Step.hosted {session session' : Session} {refresh : Refresh} {left : Option Refresh}
    (step : Step session refresh session' left) : session'.hostDocuments = session.hostDocuments := by
  cases step with
  | read | gone => rfl
  | install =>
    refine (Session.hosted_saveChange _ _).trans ?_
    unfold Session.installFile
    split <;> rfl
  | drop =>
    refine (Session.hosted_saveChange _ _).trans ?_
    unfold Session.dropFile
    split <;> rfl

theorem Scan.retains_install (scan : Scan) (uri : String) {table : SymbolTable} (scanned : table.IsOfText) :
    scan.session.index.Retains (scan.install uri table).session.index := by
  have installed := scan.session.retains_installFile uri scanned
  unfold install
  rcases outcome : scan.session.installFile uri table with ⟨session, _ | _⟩
  · exact .refl _
  · rwa [outcome] at installed

/-- Pruning takes away all documents but those that have been seen or that the editor holds. -/
theorem Scan.seen_or_hosted_of_prune {scan : Scan} {entry : String × SymbolTable}
    (kept : entry ∈ scan.prune.session.index.documents) :
    entry.1 ∈ scan.seen ∨ entry.1 ∈ scan.session.hostDocuments := by
  have still : entry ∈ (scan.stale.foldl SymbolIndex.remove scan.session.index).documents := kept
  rw [SymbolIndex.documents_foldl_remove] at still
  obtain ⟨indexed, fresh⟩ := List.mem_filter.mp still
  have listed : entry.1 ∈ scan.session.index.uris := List.mem_map_of_mem indexed
  by_contra neither
  obtain ⟨unseen, free⟩ := not_or.mp neither
  refine absurd (List.mem_filter.mpr ⟨listed, ?_⟩) (of_decide_eq_true fresh)
  simp [unseen, Session.isHosted, free]

theorem Stage.Step.carries {stage next : Stage} {scan scan' : Scan} (step : Step stage scan next scan') :
    next.Carries := by
  cases step with
  | build document cancelled _ _ scanned =>
    rintro _ _ _ ⟨⟩
    exact ⟨document.text, SymbolTable.ofTextUnless?_eq scanned⟩
  | _ => rintro _ _ _ ⟨⟩

/-- Only the warm start brings tables that are not of texts. -/
theorem Stage.Step.retains {stage next : Stage} {scan scan' : Scan} (step : Step stage scan next scan')
    (carries : stage.Carries) :
    scan.session.index.Retains scan'.session.index ∨
    ∃ snapshot, stage = .seeding snapshot ∧ next = .discovering ∧
      scan'.session.index = (scan.session.index.restore snapshot).1 := by
  cases step with
  | @seed _ snapshot => exact .inr ⟨snapshot, rfl, rfl, rfl⟩
  | install => exact .inl (scan.retains_install _ (carries _ _ _ rfl))
  | prune => exact .inl (.removes _ _)
  | close => exact .inl (.of_eq (scan.session.index_saveChange _))
  | _ => exact .inl (.refl _)

/-- The cache that has been read records this table for the document. -/
def Ledger.Recorded (ledger : Ledger) (uri : String) (table : SymbolTable) : Prop :=
  ∃ snapshot record, ledger.cache = some snapshot ∧ record ∈ snapshot.documents ∧ record.uri = uri ∧
    table = record.toTable

/-- The cache is read once, and then the snapshot is in hand until it has been restored. -/
theorem Stage.Step.cache {stage next : Stage} {scan scan' : Scan} (step : Step stage scan next scan')
    (ledger : Ledger) :
    (stage = .loading ∧ ∃ snapshot, next = .seeding snapshot ∧
      (ledger.note stage scan.session next scan'.session).cache = some snapshot) ∨
    ((ledger.note stage scan.session next scan'.session).cache = ledger.cache ∧
      (∀ snapshot, next ≠ .seeding snapshot) ∧ next ≠ .idle ∧ (next = .loading → stage = .idle)) := by
  cases step with
  | load => exact .inl ⟨rfl, _, rfl, rfl⟩
  | install =>
    refine .inr ⟨?_, by simp, by simp, by simp⟩
    rw [Ledger.note]
    split <;> rfl
  | _ => exact .inr ⟨rfl, by simp, by simp, by simp⟩

namespace LiveSession
variable {live next : LiveSession} {event : Event} {ledger : Ledger}

/-- Where the tables come from that are in the index or on the way there. -/
structure Traced (live : LiveSession) (ledger : Ledger) : Prop where
  coherent : live.session.index.Coherent
  origin : ∀ entry ∈ live.session.index.documents,
    entry.2.IsOfText ∨ ledger.Recorded entry.1 entry.2
  refreshing : ∀ refresh ∈ live.refreshes, refresh.Carries
  installing : live.stage.Carries
  seeding : ∀ snapshot, live.stage = .seeding snapshot → ledger.cache = some snapshot
  unread : live.stage = .idle ∨ live.stage = .loading → ledger.cache = none

/-- What a step does to the index that is not one of the initialization. -/
theorem Step.retains (step : live.Step event next) (traced : live.Traced ledger)
    (apart : event ≠ .startUp) :
    live.session.index.Retains next.session.index ∧ next.stage = live.stage ∧
    ∀ refresh ∈ next.refreshes, refresh.Carries := by
  cases step with
  | startUp => contradiction
  | complete => exact ⟨live.session.retains_complete _, rfl, traced.refreshing⟩
  | watch =>
    refine ⟨.refl _, rfl, fun refresh member => ?_⟩
    rcases List.mem_append.mp member with old | new
    · exact traced.refreshing refresh old
    · cases List.mem_singleton.mp new
      rintro _ _ ⟨⟩
  | refresh listed step =>
    obtain ⟨kept, carried⟩ := step.retains (traced.refreshing _ (by simp [listed]))
    refine ⟨kept, rfl, fun refresh member => ?_⟩
    rcases List.mem_append.mp member with front | later
    · rcases List.mem_append.mp front with earlier | left
      · exact traced.refreshing refresh (by simp [listed, earlier])
      · exact carried refresh (Option.mem_toList.mp left)
    · exact traced.refreshing refresh (by simp [listed, later])
  | claim _ _ claims =>
    obtain ⟨saver, rfl, -⟩ := Errand.claim?_eq claims
    exact ⟨.refl _, rfl, traced.refreshing⟩
  | _ => exact ⟨.refl _, rfl, traced.refreshing⟩

theorem Traced.startUp {stage : Stage} {scan : Scan} (traced : live.Traced ledger)
    (step : Stage.Step live.stage live.scan stage scan) :
    Traced { live with stage := stage, scan := scan }
      (ledger.note live.stage live.session stage scan.session) := by
  have held {uri table} (recorded : ledger.Recorded uri table) :
      (ledger.note live.stage live.session stage scan.session).Recorded uri table := by
    obtain ⟨snapshot, record, read, found⟩ := recorded
    rcases step.cache ledger with ⟨loading, -⟩ | ⟨same, -⟩
    · exact absurd ((traced.unread (.inr loading)).symm.trans read) (by simp)
    · exact ⟨snapshot, record, same.trans read, found⟩
  refine ⟨?_, ?_, traced.refreshing, step.carries, ?_, ?_⟩
  · rcases step.retains traced.installing with kept | ⟨snapshot, -, -, restored⟩
    · exact kept.coherent traced.coherent
    · exact restored ▸ traced.coherent.restore snapshot
  · intro entry member
    rcases step.retains traced.installing with kept | ⟨snapshot, seeding, rfl, restored⟩
    · rcases kept.origin entry member with old | scanned
      · exact (traced.origin entry old).imp_right held
      · exact .inl scanned
    · rw [show session _ = scan.session from rfl, restored, SymbolIndex.documents_restore,
        List.mem_append] at member
      rcases member with old | new
      · exact (traced.origin entry old).imp_right held
      · obtain ⟨record, taken, rfl⟩ := List.mem_map.mp new
        exact .inr (held ⟨snapshot, record, traced.seeding snapshot seeding,
          (DocumentRecord.newOnes_sublist _ _).mem taken, rfl, rfl⟩)
  · rintro snapshot rfl
    rcases step.cache ledger with ⟨-, other, same, read⟩ | ⟨-, unseeded, -⟩
    · exact Stage.seeding.inj same ▸ read
    · exact absurd rfl (unseeded snapshot)
  · intro begun
    rcases step.cache ledger with ⟨-, _, rfl, -⟩ | ⟨same, -, busy, idle⟩
    · rcases begun with begun | begun <;> contradiction
    · have before : live.stage = .idle := idle (begun.resolve_left busy)
      exact same.trans (traced.unread (.inl before))

theorem Step.traced (step : live.Step event next) (traced : live.Traced ledger) :
    next.Traced (ledger.note live.stage live.session next.stage next.session) := by
  by_cases own : event = .startUp
  · subst own
    cases step with
    | startUp step => exact traced.startUp step
  · obtain ⟨kept, same, refreshing⟩ := step.retains traced own
    rw [same, ledger.note_of_same]
    refine ⟨kept.coherent traced.coherent, fun entry member => ?_, refreshing, same ▸ traced.installing,
      same ▸ traced.seeding, same ▸ traced.unread⟩
    exact (kept.origin entry member).elim (traced.origin entry) .inl

/-- The editor holds the document or is about to give it up. -/
def Claimed (live : LiveSession) (uri : String) : Prop :=
  uri ∈ live.session.hostDocuments ∨ .drop uri ∈ live.calls

/-- Why a document may be left over from the cache when the initialization is over. -/
inductive Excused (live : LiveSession) (ledger : Ledger) (uri : String) : Prop where
  /-- The files of the workspace could not be discovered. -/
  | undiscovered (lost : ledger.files = none)
  | cancelled (halted : live.scan.stats.cancelled = true)
  /-- The scan has read a file of this name, whether or not it has accepted it. -/
  | seen (read : uri ∈ live.scan.seen)
  | claimed (claimed : live.Claimed uri)

/-- What is left over has an excuse. -/
def Pruned (live : LiveSession) (ledger : Ledger) : Prop :=
  live.stage.IsOver → ∀ entry ∈ live.session.index.documents,
    entry.2.IsOfText ∨ live.Excused ledger entry.1

/-- A document that the editor gives up goes. -/
theorem Step.claimed {entry : String × SymbolTable} (step : live.Step event next)
    (apart : event ≠ .startUp) (kept : entry ∈ next.session.index.documents)
    (claimed : live.Claimed entry.1) : next.Claimed entry.1 := by
  cases step with
  | startUp => contradiction
  | mark document => exact claimed.imp List.mem_insert_of_mem (List.mem_append_left _)
  | unmark uri =>
    by_cases own : entry.1 = uri
    · exact .inr (own ▸ List.mem_append_right _ (List.mem_singleton_self _))
    · refine claimed.imp (fun hosted => ?_) (List.mem_append_left _)
      exact List.mem_filter.mpr ⟨hosted, decide_eq_true own⟩
  | @complete earlier later change listed =>
    refine claimed.imp (fun hosted => (live.session.hosted_complete change).symm ▸ hosted) fun dropping => ?_
    rw [listed, List.mem_append, List.mem_cons] at dropping
    rcases dropping with before | rfl | after
    · exact List.mem_append_left _ before
    · -- the document would be gone
      rw [show session _ = live.session.complete (.drop entry.1) from rfl, Session.complete,
        Session.index_saveChange] at kept
      have still : entry ∈ (live.session.index.remove entry.1).documents := kept
      rw [SymbolIndex.documents_remove] at still
      exact absurd (List.mem_filter.mp still).2 (by simp)
    · exact List.mem_append_right _ after
  | refresh _ step => exact claimed.imp_left fun hosted => step.hosted.symm ▸ hosted
  | claim _ _ claims =>
    obtain ⟨saver, rfl, -⟩ := Errand.claim?_eq claims
    exact claimed
  | _ => exact claimed

theorem Step.excused {entry : String × SymbolTable} (step : live.Step event next)
    (apart : event ≠ .startUp) (kept : entry ∈ next.session.index.documents)
    (excused : live.Excused ledger entry.1) : next.Excused ledger entry.1 := by
  have still : next.scan.stats = live.scan.stats ∧ next.scan.seen = live.scan.seen := by
    cases step with
    | startUp => contradiction
    | _ => exact ⟨rfl, rfl⟩
  cases excused with
  | undiscovered lost => exact .undiscovered lost
  | cancelled halted => exact .cancelled (still.1 ▸ halted)
  | seen read => exact .seen (still.2 ▸ read)
  | claimed claimed => exact .claimed (step.claimed apart kept claimed)

theorem Pruned.startUp {stage : Stage} {scan : Scan} (pruned : live.Pruned ledger)
    (balances : ledger.Balances live.stage live.scan.stats)
    (step : Stage.Step live.stage live.scan stage scan) :
    Pruned { live with stage := stage, scan := scan }
      (ledger.note live.stage live.session stage scan.session) := by
  intro ended entry member
  obtain ⟨begun, _, _, calls, _, _, _, _⟩ := live
  dsimp only at step balances pruned
  cases step with
  | undiscovered => exact .inr (.undiscovered (balances.early trivial).2)
  | stop | interrupt | abandon => exact .inr (.cancelled rfl)
  | prune =>
    rcases begun.seen_or_hosted_of_prune member with seen | hosted
    · exact .inr (.seen seen)
    · exact .inr (.claimed (.inl hosted))
  | close =>
    have index : begun.conclude.session.index = begun.session.index :=
      congrArg Holdings.index begun.holdings_conclude
    have hosted : begun.conclude.session.hostDocuments = begun.session.hostDocuments :=
      congrArg Holdings.hosted begun.holdings_conclude
    refine (pruned trivial entry (index ▸ member)).imp_right fun excused => ?_
    cases excused with
    | undiscovered lost => exact .undiscovered lost
    | cancelled halted => exact .cancelled halted
    | seen read => exact .seen read
    | claimed claimed => exact .claimed (claimed.imp_left (hosted.symm ▸ ·))
  | _ => exact ended.elim

theorem Step.pruned (step : live.Step event next) (traced : live.Traced ledger)
    (balances : ledger.Balances live.stage live.scan.stats) (pruned : live.Pruned ledger) :
    next.Pruned (ledger.note live.stage live.session next.stage next.session) := by
  by_cases own : event = .startUp
  · subst own
    cases step with
    | startUp step => exact pruned.startUp balances step
  · obtain ⟨kept, same, -⟩ := step.retains traced own
    rw [same, ledger.note_of_same]
    intro ended entry member
    rcases kept.origin entry member with old | scanned
    · exact (pruned (same ▸ ended) entry old).imp_right (step.excused own member)
    · exact .inl scanned

/-- In every state of a session each table is that of a text or recorded in the cache that has been read,
and what is left over from the cache in the end has an excuse. -/
theorem Records.origins {root : Path} {settings : Settings} {disk : Disk} {may : Event → Prop}
    (records : (start root settings disk).Records may live ledger) :
    live.Traced ledger ∧ live.Pruned ledger := by
  induction records with
  | refl =>
    refine ⟨⟨SymbolIndex.coherent_empty, ?_, ?_, ?_, ?_, fun _ => rfl⟩, False.elim⟩
    · intro entry member
      exact absurd member List.not_mem_nil
    · intro refresh member
      exact absurd member List.not_mem_nil
    · rintro _ _ _ ⟨⟩
    · rintro _ ⟨⟩
  | tail earlier _ step ih =>
    exact ⟨step.traced ih.1, step.pruned ih.1 earlier.keeps.1 ih.2⟩

end LiveSession
end AssemblySymbols
