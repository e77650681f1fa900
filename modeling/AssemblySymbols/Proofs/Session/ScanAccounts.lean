import AssemblySymbols.Proofs.Session.RepeatedScans
import AssemblySymbols.Proofs.Session.Shutdown
import AssemblySymbols.Proofs.Symbol.Restoration
import Mathlib.Algebra.Ring.Nat

/-! What an initialization reports, against a ledger of what it has done. The ledger is kept beside the
run, from the stages before and after each step, so the counters of the scan have no part in it. -/
namespace AssemblySymbols
open Session (Opening)

/-- Files with which the scan is through. -/
def ScanStats.accounted (stats : ScanStats) : Nat := stats.indexed + stats.failed + stats.skipped

namespace Stage

/-- Files with which the scan is not through. -/
def left : Stage → Nat
  | scanning rest => rest.length
  | opening _ rest | installing _ _ rest => rest.length + 1
  | idle | loading | seeding _ | discovering | pruning | closing | done => 0

/-- Nothing has been discovered yet. -/
def IsEarly : Stage → Prop
  | idle | loading | seeding _ | discovering => True
  | scanning _ | opening _ _ | installing _ _ _ | pruning | closing | done => False

/-- Nothing is scanned or pruned any more. -/
def IsOver : Stage → Prop
  | closing | done => True
  | idle | loading | seeding _ | discovering | scanning _ | opening _ _ | installing _ _ _ | pruning => False

end Stage

/-- What an initialization has done so far. -/
structure Ledger where
  /-- What it has read from the cache, if it could. -/
  cache : Option Snapshot
  /-- The files that it has discovered, if it could. -/
  files : Option (List Path)
  /-- The tables that it has put into the index, in this order. -/
  installed : List (String × SymbolTable)
  /-- The documents that were there before pruning and not after it. -/
  pruned : List String

/-- What pruning takes away is what is stale. -/
theorem Scan.filter_prune (scan : Scan) :
    (scan.session.index.uris.filter fun uri => !scan.prune.session.index.contains uri) = scan.stale := by
  refine List.filter_congr fun uri indexed => ?_
  have pruned : scan.prune.session.index.contains uri = true ↔ uri ∉ scan.stale := by
    have documents := SymbolIndex.documents_foldl_remove scan.stale scan.session.index
    rw [SymbolIndex.contains_iff, SymbolIndex.uris]
    change uri ∈ (scan.stale.foldl SymbolIndex.remove scan.session.index).documents.map (·.1) ↔ _
    rw [documents]
    obtain ⟨entry, member, rfl⟩ := List.mem_map.mp indexed
    constructor
    · rintro kept
      obtain ⟨other, left, same⟩ := List.mem_map.mp kept
      simpa [← same] using (List.mem_filter.mp left).2
    · exact fun kept => List.mem_map.mpr ⟨entry, List.mem_filter.mpr ⟨member, decide_eq_true kept⟩, rfl⟩
  have stale : uri ∈ scan.stale ↔
      (!scan.seen.contains uri && !scan.session.isHosted uri) = true :=
    List.mem_filter.trans (and_iff_right indexed)
  rw [stale] at pruned
  exact Bool.eq_iff_iff.mpr (by rw [Bool.not_eq_true', ← Bool.not_eq_true, pruned, not_not])

namespace Ledger

def blank : Ledger := ⟨none, none, [], []⟩

/-- A step of some task, noted if it is one of the initialization, as its stages tell. -/
def note (ledger : Ledger) (stage : Stage) (session : Session) (next : Stage) (after : Session) :
    Ledger :=
  match stage, next with
  | .loading, .seeding snapshot => { ledger with cache := some snapshot }
  | .discovering, .scanning files => { ledger with files := some files }
  | .installing uri table _, .scanning _ =>
    if (session.installFile uri table).2 then
      { ledger with installed := ledger.installed ++ [(uri, table)] }
    else ledger
  | .pruning, .closing =>
    { ledger with
      pruned := ledger.pruned ++ session.index.uris.filter fun uri => !after.index.contains uri }
  | _, _ => ledger

theorem note_of_same (ledger : Ledger) (stage : Stage) (session after : Session) :
    ledger.note stage session stage after = ledger := by
  cases stage <;> rfl

/-! ### The counters -/

/-- The counters agree with the ledger, and each discovered file is counted once or still to come, except
for those that a cancelled scan has left. -/
structure Balances (ledger : Ledger) (stage : Stage) (stats : ScanStats) : Prop where
  discovered : stats.discovered = (ledger.files.getD []).length
  indexed : stats.indexed = ledger.installed.length
  definitions : stats.definitions = (ledger.installed.map (·.2.definitionCount)).sum
  pruned : stats.pruned = ledger.pruned.length
  whole : stats.cancelled = false → stats.accounted + stage.left = stats.discovered
  part : stats.cancelled = true → stats.accounted < stats.discovered ∧ stage.IsOver
  unpruned : stats.cancelled = true ∨ ledger.files = none ∨ ¬stage.IsOver → ledger.pruned = []
  early : stage.IsEarly → ledger.installed = [] ∧ ledger.files = none
  found : ¬stage.IsEarly → ¬stage.IsOver → ledger.files ≠ none

namespace Balances
variable {ledger : Ledger} {stage next : Stage} {stats after : ScanStats}

theorem start : blank.Balances .idle (.start 0) :=
  ⟨rfl, rfl, rfl, rfl, fun _ => rfl, fun cancelled => by contradiction, fun _ => rfl, fun _ => ⟨rfl, rfl⟩,
    fun late => absurd trivial late⟩

theorem running (balances : ledger.Balances stage stats) (ongoing : ¬stage.IsOver) :
    stats.cancelled = false :=
  Bool.eq_false_iff.mpr fun cancelled => ongoing (balances.part cancelled).2

/-- A step that counts nothing. -/
theorem move (balances : ledger.Balances stage stats) (cache : Option Snapshot)
    (left : next.left = stage.left) (ended : next.IsOver ↔ stage.IsOver)
    (early : next.IsEarly ↔ stage.IsEarly) : Balances { ledger with cache := cache } next stats where
  discovered := balances.discovered
  indexed := balances.indexed
  definitions := balances.definitions
  pruned := balances.pruned
  whole going := left ▸ balances.whole going
  part cancelled := (balances.part cancelled).imp_right ended.mpr
  unpruned := by
    rw [ended]
    exact balances.unpruned
  early begun := balances.early (early.mp begun)
  found := by
    rw [ended, early]
    exact balances.found

/-- A step by which the scan is through with a file. -/
theorem count (balances : ledger.Balances stage stats) (entries : List (String × SymbolTable))
    (discovered : after.discovered = stats.discovered) (cancelled : after.cancelled = stats.cancelled)
    (pruned : after.pruned = stats.pruned) (indexed : after.indexed = stats.indexed + entries.length)
    (definitions : after.definitions = stats.definitions + (entries.map (·.2.definitionCount)).sum)
    (accounted : after.accounted = stats.accounted + 1) (left : stage.left = next.left + 1)
    (ongoing : ¬stage.IsOver) (late : ¬stage.IsEarly) (late' : ¬next.IsEarly) :
    Balances { ledger with installed := ledger.installed ++ entries } next after where
  discovered := discovered.trans balances.discovered
  indexed := by rw [indexed, balances.indexed, List.length_append]
  definitions := by rw [definitions, balances.definitions, List.map_append, List.sum_append]
  pruned := pruned.trans balances.pruned
  whole going := by
    have whole := balances.whole (cancelled ▸ going)
    rw [accounted, discovered]
    omega
  part halted := absurd (cancelled ▸ halted) (by simp [balances.running ongoing])
  unpruned _ := balances.unpruned (.inr (.inr ongoing))
  early begun := absurd begun late'
  found _ _ := balances.found late ongoing

/-- A step by which the scan gives up with a file in its hands. -/
theorem cancel (balances : ledger.Balances stage stats) (left : 0 < stage.left)
    (ongoing : ¬stage.IsOver) : ledger.Balances .closing { stats with cancelled := true } where
  discovered := balances.discovered
  indexed := balances.indexed
  definitions := balances.definitions
  pruned := balances.pruned
  whole going := by contradiction
  part _ := by
    have whole := balances.whole (balances.running ongoing)
    exact ⟨by simp only [ScanStats.accounted] at whole ⊢; omega, trivial⟩
  unpruned _ := balances.unpruned (.inr (.inr ongoing))
  early begun := begun.elim
  found _ ongoing' := absurd trivial ongoing'

/-- The scan begins to count, if there is anything to scan. -/
theorem discover (balances : ledger.Balances .discovering stats) (files : Option (List Path))
    (left : next.left = (files.getD []).length) (late : ¬next.IsEarly)
    (found : ¬next.IsOver → files ≠ none) :
    Balances { ledger with files := files } next (.start (files.getD []).length) where
  discovered := rfl
  indexed := by
    rw [(balances.early trivial).1]
    rfl
  definitions := by
    rw [(balances.early trivial).1]
    rfl
  pruned := by
    rw [balances.unpruned (.inr (.inr id))]
    rfl
  whole _ := (Nat.zero_add _).trans left
  part cancelled := by contradiction
  unpruned _ := balances.unpruned (.inr (.inr id))
  early begun := absurd begun late
  found _ ongoing := found ongoing

/-- Documents go, all that are counted. -/
theorem prune (balances : ledger.Balances .pruning stats) (gone : List String) :
    Balances { ledger with pruned := ledger.pruned ++ gone } .closing
      { stats with pruned := gone.length } where
  discovered := balances.discovered
  indexed := balances.indexed
  definitions := balances.definitions
  pruned := by rw [balances.unpruned (.inr (.inr id)), List.nil_append]
  whole going := balances.whole going
  part cancelled := absurd cancelled (by simp [balances.running id])
  unpruned := by
    rintro (cancelled | lost | ongoing)
    · exact absurd cancelled (by simp [balances.running id])
    · exact absurd lost (balances.found id id)
    · exact absurd trivial ongoing
  early begun := begun.elim
  found _ ongoing := absurd trivial ongoing

/-- A file is opened or looked at, and that is all. -/
theorem pass (balances : ledger.Balances stage stats) (left : stage.left = next.left + 1)
    (ongoing : ¬stage.IsOver) (late : ¬stage.IsEarly) (late' : ¬next.IsEarly) :
    ledger.Balances next { stats with failed := stats.failed + 1 } ∧
    ledger.Balances next { stats with skipped := stats.skipped + 1 } := by
  constructor
  · have counted : Balances { ledger with installed := ledger.installed ++ [] } next
        { stats with failed := stats.failed + 1 } :=
      balances.count [] rfl rfl rfl rfl rfl (by simp only [ScanStats.accounted]; omega) left ongoing late late'
    rwa [List.append_nil] at counted
  · have counted : Balances { ledger with installed := ledger.installed ++ [] } next
        { stats with skipped := stats.skipped + 1 } :=
      balances.count [] rfl rfl rfl rfl rfl (by simp only [ScanStats.accounted]; omega) left ongoing late late'
    rwa [List.append_nil] at counted

theorem install {scan : Scan} {uri : String} {table : SymbolTable} {rest : List Path}
    (balances : ledger.Balances (.installing uri table rest) scan.stats) :
    (ledger.note (.installing uri table rest) scan.session (.scanning rest)
      (scan.install uri table).session).Balances (.scanning rest) (scan.install uri table).stats := by
  simp only [note, Scan.install]
  rcases outcome : scan.session.installFile uri table with ⟨session, _ | _⟩
  · exact (balances.pass rfl id id id).2
  · refine balances.count [(uri, table)] rfl rfl rfl rfl ?_ ?_ rfl id id id
    · simp
    · simp only [ScanStats.accounted]
      omega

theorem step {scan scan' : Scan} (balances : ledger.Balances stage scan.stats)
    (step : Stage.Step stage scan next scan') :
    (ledger.note stage scan.session next scan'.session).Balances next scan'.stats := by
  cases step with
  | begin | ignore | seed | next | build | finish | close =>
    exact balances.move ledger.cache rfl Iff.rfl Iff.rfl
  | load => exact balances.move _ rfl Iff.rfl Iff.rfl
  | discover files => exact balances.discover (some files) rfl id fun _ => by simp
  | undiscovered =>
    have unfound : ledger.files = none := (balances.early trivial).2
    have same : { ledger with files := none } = ledger := by rw [← unfound]
    have counted : Balances { ledger with files := none } .closing (.start 0) :=
      balances.discover none rfl id (absurd trivial)
    exact same ▸ counted
  | stop | interrupt | abandon => exact balances.cancel (Nat.succ_pos _) id
  | fail => exact (balances.pass rfl id id id).1
  | refuse => exact (balances.pass rfl id id id).2
  | install => exact balances.install
  | prune =>
    rw [note, scan.filter_prune]
    exact balances.prune scan.stale

end Balances

/-! ### An initialization on its own -/

/-- Neither the editor nor a refresh has touched the index, so without a cache it holds what the scan has
put in, and of all of that the documents have been seen. -/
structure Alone (ledger : Ledger) (stage : Stage) (scan : Scan) : Prop where
  unhosted : scan.session.hostDocuments = []
  index : ledger.cache = none → scan.session.index =
    SymbolIndex.empty.applyChanges (ledger.installed.map fun entry => .put entry.1 entry.2)
  seen : ∀ entry ∈ ledger.installed, entry.1 ∈ scan.seen
  cached : ∀ snapshot, stage = .seeding snapshot → ledger.cache ≠ none
  opened : ∀ uri table rest, stage = .installing uri table rest → uri ∈ scan.seen

namespace Alone
variable {ledger : Ledger} {stage next : Stage} {scan scan' : Scan}

theorem of_same (alone : ledger.Alone stage scan)
    (holdings : scan'.session.holdings = scan.session.holdings) (seen : scan'.seen = scan.seen) :
    ledger.Alone stage scan' where
  unhosted := (congrArg Holdings.hosted holdings).trans alone.unhosted
  index none := (congrArg Holdings.index holdings).trans (alone.index none)
  seen := seen ▸ alone.seen
  cached := alone.cached
  opened := seen ▸ alone.opened

/-- A step that leaves the index alone and looks at no more than it has to. -/
theorem move (alone : ledger.Alone stage scan)
    (holdings : scan'.session.holdings = scan.session.holdings)
    (seen : ∀ entry ∈ ledger.installed, entry.1 ∈ scan'.seen)
    (cached : ∀ snapshot, next = .seeding snapshot → ledger.cache ≠ none)
    (opened : ∀ uri table rest, next = .installing uri table rest → uri ∈ scan'.seen) :
    ledger.Alone next scan' where
  unhosted := (congrArg Holdings.hosted holdings).trans alone.unhosted
  index none := (congrArg Holdings.index holdings).trans (alone.index none)
  seen := seen
  cached := cached
  opened := opened

theorem install {uri : String} {table : SymbolTable} {rest : List Path}
    (alone : ledger.Alone (.installing uri table rest) scan) :
    (ledger.note (.installing uri table rest) scan.session (.scanning rest)
      (scan.install uri table).session).Alone (.scanning rest) (scan.install uri table) := by
  have installed : scan.session.installFile uri table =
      (scan.session.modifyIndex (·.replace uri table), true) := by
    rw [Session.installFile, Session.isHosted, alone.unhosted]
    rfl
  simp only [note, Scan.install, installed, if_true]
  refine ⟨alone.unhosted, fun none => ?_, ?_, by simp, by simp⟩
  · rw [List.map_append, SymbolIndex.applyChanges, List.foldl_append]
    exact congrArg (·.replace uri table) (alone.index none)
  · intro entry member
    rcases List.mem_append.mp member with earlier | last
    · exact alone.seen entry earlier
    · cases List.mem_singleton.mp last
      exact alone.opened uri table rest rfl

/-- All that is indexed has been seen. -/
theorem stale_eq_nil (alone : ledger.Alone stage scan) (none : ledger.cache = none) : scan.stale = [] := by
  refine List.filter_eq_nil_iff.mpr fun uri indexed => ?_
  rw [alone.index none, SymbolIndex.uris, SymbolIndex.documents_applyChanges] at indexed
  obtain ⟨entry, live, rfl⟩ := List.mem_map.mp indexed
  obtain ⟨change, made, same⟩ := Change.mem_live_uri live
  obtain ⟨other, member, rfl⟩ := List.mem_map.mp made
  have seen := alone.seen other member
  rw [← same]
  simp [Change.uri, seen]

theorem prune (alone : ledger.Alone .pruning scan) :
    (ledger.note .pruning scan.session .closing scan.prune.session).Alone .closing scan.prune where
  unhosted := alone.unhosted
  index none := by
    have kept : scan.prune.session.index = scan.session.index := by
      change scan.stale.foldl SymbolIndex.remove scan.session.index = _
      rw [alone.stale_eq_nil none]
      rfl
    exact kept.trans (alone.index none)
  seen := alone.seen
  cached := by simp
  opened := by simp

theorem step (alone : ledger.Alone stage scan) (balances : ledger.Balances stage scan.stats)
    (step : Stage.Step stage scan next scan') :
    (ledger.note stage scan.session next scan'.session).Alone next scan' := by
  have early (begun : stage.IsEarly) (seen : List String) :
      ∀ entry ∈ ledger.installed, entry.1 ∈ seen := by
    rw [(balances.early begun).1]
    exact fun _ member => absurd member List.not_mem_nil
  cases step with
  | load => exact ⟨alone.unhosted, by simp [note], alone.seen, by simp [note], by simp⟩
  | seed =>
    have cached := alone.cached _ rfl
    exact ⟨alone.unhosted, fun none => absurd none cached, alone.seen, by simp, by simp⟩
  | discover files =>
    exact ⟨alone.unhosted, alone.index, early trivial _, by simp, by simp⟩
  | undiscovered => exact alone.move rfl (early trivial _) (by simp) (by simp)
  | install => exact alone.install
  | prune => exact alone.prune
  | refuse document | abandon document | build document =>
    have seen : ∀ uri ∈ scan.seen, uri ∈ scan.seen.insert document.uri :=
      fun uri before => List.mem_insert_of_mem before
    refine alone.move rfl (fun entry member => seen _ (alone.seen entry member)) (by simp) ?_
    simp [Scan.see]
  | close =>
    have holdings := (scan.session.requestSave_if (0 < scan.stats.indexed || 0 < scan.stats.pruned)).2
    exact alone.move holdings alone.seen (by simp) (by simp)
  | begin | ignore | next | finish | stop | interrupt | fail =>
    exact alone.move rfl alone.seen (by simp) (by simp)

/-- With distinct names there is a document for each table. -/
theorem documents_eq (alone : ledger.Alone stage scan) (none : ledger.cache = none)
    (distinct : (ledger.installed.map (·.1)).Nodup) : scan.session.index.documents = ledger.installed := by
  rw [alone.index none, SymbolIndex.documents_applyChanges, Change.live_puts distinct]

end Alone
end Ledger

/-! ### Runs of all tasks -/

theorem Session.frame_complete (session : Session) (change : Change String) :
    (session.complete change).frame = session.frame := by
  cases change with
  | put uri text => exact frame_requestSave _
  | drop uri => exact (requestSave_if _ _).1

theorem Session.frame_installFile (session : Session) (uri : String) (table : SymbolTable) :
    (session.installFile uri table).1.frame = session.frame := by
  unfold installFile
  split <;> rfl

theorem Refresh.Step.frame {session session' : Session} {refresh : Refresh} {left : Option Refresh}
    (step : Step session refresh session' left) : session'.frame = session.frame := by
  cases step with
  | read | gone => rfl
  | install => exact (Session.requestSave_if _ _).1.trans (session.frame_installFile _ _)
  | drop => exact (Session.requestSave_if _ _).1.trans (session.dropFile_eq _).1

theorem Scan.frame_install (scan : Scan) (uri : String) (table : SymbolTable) :
    (scan.install uri table).session.frame = scan.session.frame := by
  have frame := scan.session.frame_installFile uri table
  unfold install
  rcases outcome : scan.session.installFile uri table with ⟨session, _ | _⟩
  · rfl
  · rwa [outcome] at frame

/-- What the initialization reports is kept when it is over, and nothing is before. -/
def Scan.Reports (stage : Stage) (scan : Scan) : Prop :=
  ∀ stats, scan.session.initialized = some stats → scan.stats = stats ∧ stage = .done

theorem Stage.Step.reports {stage next : Stage} {scan scan' : Scan} (step : Step stage scan next scan')
    (reports : scan.Reports stage) : scan'.Reports next := by
  intro stats kept
  have unreported (same : scan'.session.initialized = scan.session.initialized) : stage = .done :=
    (reports stats (same ▸ kept)).2
  cases step with
  | close => exact ⟨Option.some.inj kept, rfl⟩
  | install =>
    have frame := scan.frame_install
    have same := unreported (congrArg Frame.initialized (frame _ _))
    contradiction
  | _ =>
    have same := unreported rfl
    contradiction

namespace LiveSession
variable {begun live next : LiveSession} {may : Event → Prop} {event : Event} {ledger : Ledger}

/-- A run of steps, all by those who may make one, with the ledger of its initialization. -/
inductive Records (begun : LiveSession) (may : Event → Prop) : LiveSession → Ledger → Prop where
  | refl : Records begun may begun .blank
  | tail {live next : LiveSession} {event : Event} {ledger : Ledger} (earlier : Records begun may live ledger)
      (allowed : may event) (step : live.Step event next) :
      Records begun may next (ledger.note live.stage live.session next.stage next.session)

theorem ReachesBy.records (reached : begun.ReachesBy may live) : ∃ ledger, begun.Records may live ledger := by
  induction reached with
  | refl => exact ⟨_, .refl⟩
  | tail _ last ih =>
    obtain ⟨ledger, earlier⟩ := ih
    obtain ⟨event, allowed, step⟩ := last
    exact ⟨_, earlier.tail allowed step⟩

theorem Step.balances (step : live.Step event next) (balances : ledger.Balances live.stage live.scan.stats) :
    (ledger.note live.stage live.session next.stage next.session).Balances next.stage next.scan.stats := by
  cases step with
  | startUp step => exact balances.step step
  | _ =>
    change (ledger.note live.stage _ live.stage _).Balances live.stage live.scan.stats
    rwa [ledger.note_of_same]

theorem Step.reports (step : live.Step event next) (reports : live.scan.Reports live.stage) :
    next.scan.Reports next.stage := by
  have kept {session : Session} (frame : session.frame = live.session.frame) :
      (live.withSession session).scan.Reports live.stage :=
    fun stats reported => reports stats ((congrArg Frame.initialized frame).symm.trans reported)
  cases step with
  | startUp step => exact step.reports reports
  | complete => exact kept (live.session.frame_complete _)
  | refresh _ step => exact kept step.frame
  | claim _ _ claims =>
    obtain ⟨saver, rfl, -⟩ := Errand.claim?_eq claims
    exact reports
  | _ => exact reports

/-- Only calls and refreshes share the index with the initialization. -/
theorem Step.alone (step : live.Step event next) (balances : ledger.Balances live.stage live.scan.stats)
    (alone : ledger.Alone live.stage live.scan) (uncalled : event ≠ .call) :
    (ledger.note live.stage live.session next.stage next.session).Alone next.stage next.scan := by
  have kept (same : next.stage = live.stage) (holdings : next.session.holdings = live.session.holdings)
      (seen : next.scan.seen = live.scan.seen) :
      (ledger.note live.stage live.session next.stage next.session).Alone next.stage next.scan := by
    rw [same, ledger.note_of_same]
    exact alone.of_same holdings seen
  cases step with
  | startUp step => exact alone.step balances step
  | refuse | mark | unmark | complete | pass | watch | refresh => contradiction
  | claim _ _ claims =>
    obtain ⟨saver, rfl, -⟩ := Errand.claim?_eq claims
    exact kept rfl rfl rfl
  | _ => exact kept rfl rfl rfl

theorem Records.keeps {root : Path} {settings : Settings} {disk : Disk}
    (records : (start root settings disk).Records may live ledger) :
    ledger.Balances live.stage live.scan.stats ∧ live.scan.Reports live.stage := by
  induction records with
  | refl => exact ⟨.start, fun _ reported => by contradiction⟩
  | tail _ _ step ih => exact ⟨step.balances ih.1, step.reports ih.2⟩

theorem Records.alone {root : Path} {settings : Settings} {disk : Disk}
    (records : (start root settings disk).Records may live ledger) (uncalled : ¬may .call) :
    ledger.Alone live.stage live.scan := by
  induction records with
  | refl => exact ⟨rfl, fun _ => rfl, by simp [Ledger.blank], by rintro _ ⟨⟩, by rintro _ _ _ ⟨⟩⟩
  | tail earlier allowed step ih =>
    exact step.alone earlier.keeps.1 ih fun call => uncalled (call ▸ allowed)

/-- What an initialization has reported, whatever calls, refreshes, shutdowns and saves have come in
between and whatever files and cache it has found. Unless it was cancelled, each discovered file is counted
once, as indexed, failed or skipped, and if it was, some are not counted. The definitions are those of the
tables that the scan has put in, the pruned documents are those that were gone after pruning, and there are
none if the scan was cancelled or discovery failed. If the initialization has been on its own, without a
cache and with documents of distinct names, its counts are those of the index. -/
theorem stats_accounted (root : Path) (settings : Settings) (disk : Disk)
    (records : (start root settings disk).Records may live ledger) {stats : ScanStats}
    (reported : live.session.initialized = some stats) :
    stats.discovered = (ledger.files.getD []).length ∧
    (stats.cancelled = false → stats.indexed + stats.failed + stats.skipped = stats.discovered) ∧
    (stats.cancelled = true → stats.indexed + stats.failed + stats.skipped < stats.discovered) ∧
    stats.definitions = (ledger.installed.map (·.2.definitionCount)).sum ∧
    stats.pruned = ledger.pruned.length ∧
    (stats.cancelled = true ∨ ledger.files = none → stats.pruned = 0) ∧
    (¬may .call → ledger.cache = none → (ledger.installed.map (·.1)).Nodup →
      live.session.index.documentCount = stats.indexed ∧
      live.session.index.definitionCount = stats.definitions) := by
  obtain ⟨balances, reports⟩ := records.keeps
  obtain ⟨rfl, done⟩ := reports stats reported
  rw [done] at balances
  refine ⟨balances.discovered, balances.whole, fun cancelled => (balances.part cancelled).1,
    balances.definitions, balances.pruned, fun lost => ?_, fun uncalled none distinct => ?_⟩
  · rw [balances.pruned, balances.unpruned (lost.imp_right .inl), List.length_nil]
  · have documents : live.session.index.documents = ledger.installed :=
      (records.alone uncalled).documents_eq none distinct
    constructor
    · rw [SymbolIndex.documentCount, documents, balances.indexed]
    · rw [SymbolIndex.definitionCount, documents, balances.definitions, List.sum_eq_foldr,
        List.foldr_map]

/-- Of two files one can be read. -/
theorem stats_accounted_twoFiles : ∃ (live : LiveSession) (ledger : Ledger) (stats : ScanStats),
    (start ⟨"/"⟩ (.defaults none) .empty).Records (· = .startUp) live ledger ∧
    live.session.initialized = some stats ∧ stats.discovered = 2 ∧
    stats.indexed + stats.failed + stats.skipped = 2 ∧
    live.session.index.documentCount = stats.indexed := by
  let document : Document := ⟨"a.asm", none, "start:\n"⟩
  let begun := start ⟨"/"⟩ (.defaults none) .empty
  have loading : begun.Records (· = .startUp) _ _ := Records.refl.tail rfl (.startUp .begin)
  have unloaded : begun.session.store.load = .error (.disk .notFound) := by decide +kernel
  have discovering := loading.tail rfl (.startUp (.ignore unloaded))
  have found := discovering.tail rfl (.startUp (.discover [⟨"a.asm"⟩, ⟨"b.asm"⟩]))
  have opening := found.tail rfl (.startUp (.next rfl))
  have building := opening.tail rfl (.startUp (.build document (fun _ => false) rfl (by decide +kernel)
    (SymbolTable.ofTextUnless?_never _)))
  have installed := building.tail rfl (.startUp .install)
  have second := installed.tail rfl (.startUp (.next rfl))
  have failed := second.tail rfl (.startUp .fail)
  have finished := failed.tail rfl (.startUp .finish)
  have pruned := finished.tail rfl (.startUp .prune)
  have closed := pruned.tail rfl (.startUp .close)
  obtain ⟨discovered, whole, -, -, -, -, alone⟩ :=
    stats_accounted ⟨"/"⟩ (.defaults none) .empty closed rfl
  exact ⟨_, _, _, closed, rfl, rfl, whole rfl, (alone (by simp) rfl (by decide +kernel)).1⟩

end LiveSession

/-! ### Initializations without a pause -/

namespace Scan

/-- A scan has gone on and is through with so many more files. -/
structure Counts (scan : Scan) (more : Nat) (next : Scan) : Prop where
  accounted : next.stats.accounted = scan.stats.accounted + more
  discovered : next.stats.discovered = scan.stats.discovered
  pruned : next.stats.pruned = scan.stats.pruned

theorem counts_install (scan : Scan) (uri : String) (table : SymbolTable) :
    scan.Counts 1 (scan.install uri table) := by
  unfold install
  rcases scan.session.installFile uri table with ⟨session, _ | _⟩
  · exact ⟨rfl, rfl, rfl⟩
  · exact ⟨by simp only [ScanStats.accounted]; omega, rfl, rfl⟩

theorem counts_step (scan : Scan) (opening : Opening)
    (going : opening.document.isSome = true → (scan.openFile opening).session.stopped = false) :
    scan.Counts 1 (scan.step opening) := by
  unfold step
  cases read : opening.document with
  | none => exact ⟨by simp only [openFile, countFailed, ScanStats.accounted]; omega, rfl, rfl⟩
  | some document =>
    have running : ((scan.openFile opening).see document.uri).session.stopped = false := going (read ▸ rfl)
    simp only [take, running, SymbolTable.ofTextUnless?_never]
    split
    · have installed := ((scan.openFile opening).see document.uri).counts_install document.uri
      exact ⟨(installed _).accounted, (installed _).discovered, (installed _).pruned⟩
    · exact ⟨rfl, rfl, rfl⟩

/-- A scan that is not cancelled is through with all files, and one that is with fewer. -/
theorem counts_files (scan : Scan) (openings : List Opening) (going : scan.stats.cancelled = false) :
    ∃ more, scan.Counts more (scan.files openings) ∧
      ((scan.files openings).stats.cancelled = false → more = openings.length) ∧
      ((scan.files openings).stats.cancelled = true → more < openings.length) := by
  induction openings generalizing scan with
  | nil => exact ⟨0, ⟨rfl, rfl, rfl⟩, fun _ => rfl, fun halted => absurd (going.symm.trans halted) Bool.false_ne_true⟩
  | cons opening rest ih =>
    cases stopped : scan.session.stopped with
    | true =>
      rw [files, if_pos stopped]
      exact ⟨0, ⟨rfl, rfl, rfl⟩, fun going => by contradiction, fun _ => Nat.succ_pos _⟩
    | false =>
      rw [files_cons scan opening rest stopped]
      split
      · exact ⟨0, ⟨rfl, rfl, rfl⟩, fun going => by contradiction, fun _ => Nat.succ_pos _⟩
      · next free =>
        have running : opening.document.isSome = true → (scan.openFile opening).session.stopped = false := by
          intro read
          simpa [read] using free
        obtain ⟨-, cancelled, -⟩ := step_eq scan opening running
        have first := scan.counts_step opening running
        obtain ⟨more, rest, whole, part⟩ := ih (scan.step opening) (cancelled.trans going)
        refine ⟨more + 1, ⟨?_, rest.discovered.trans first.discovered, rest.pruned.trans first.pruned⟩,
          fun going => congrArg (· + 1) (whole going), fun halted => Nat.succ_lt_succ (part halted)⟩
        rw [rest.accounted, first.accounted, Nat.add_assoc, Nat.add_comm 1]

end Scan

/-- The same of an initialization that goes from its beginning to its end at once, but for the calls that
come while it opens a file. -/
theorem Session.ensureInitialized_accounted {session : Session} (fresh : session.initialized = none)
    (discovered : Option (List Opening)) :
    let stats := (session.ensureInitialized discovered).2
    stats.discovered = (discovered.getD []).length ∧
    (stats.cancelled = false → stats.accounted = stats.discovered) ∧
    (stats.cancelled = true → stats.accounted < stats.discovered) ∧
    (stats.cancelled = true ∨ discovered = none → stats.pruned = 0) := by
  let begun := Scan.start session.warmStart (discovered.getD []).length
  obtain ⟨more, counts, whole, part⟩ := begun.counts_files (discovered.getD []) rfl
  have accounted : (begun.files (discovered.getD [])).stats.accounted = more :=
    counts.accounted.trans (Nat.zero_add more)
  have all : (begun.files (discovered.getD [])).stats.discovered = (discovered.getD []).length :=
    counts.discovered
  rw [stats_ensureInitialized fresh, initialScan, scanWorkspace]
  dsimp only
  split
  · next pruning =>
    obtain ⟨found, going⟩ := Bool.and_eq_true_iff.mp pruning
    have finished : (begun.files (discovered.getD [])).stats.cancelled = false := by simpa using going
    refine ⟨all, fun _ => accounted.trans ((whole finished).trans all.symm),
      fun halted => absurd (finished.symm.trans halted) Bool.false_ne_true, ?_⟩
    rintro (halted | lost)
    · exact absurd (finished.symm.trans halted) Bool.false_ne_true
    · simp [lost] at found
  · refine ⟨all, fun going => accounted.trans ((whole going).trans all.symm), fun halted => ?_,
      fun _ => counts.pruned⟩
    exact accounted.trans_lt ((part halted).trans_eq all.symm)

end AssemblySymbols
