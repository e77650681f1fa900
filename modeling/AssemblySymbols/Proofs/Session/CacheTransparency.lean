import AssemblySymbols.Proofs.Session.CacheFile
import AssemblySymbols.Proofs.Session.Requests

/-! Initialization with a cache beside initialization without one. What sets the two apart at any time
is documents that only the cache knows; whatever happens to one of them makes them the same on both
sides, and the end of the scan removes the rest. -/
namespace AssemblySymbols
open Session (HostCall Opening)

/-- Two holdings that differ in `leftover` alone, documents that one of them has from the cache. -/
structure Holdings.Shadows (leftover : List String) (cached plain : Holdings) : Prop where
  hosted : cached.hosted = plain.hosted
  documents : plain.index.documents = cached.index.documents.filter (·.1 ∉ leftover)
  free : ∀ uri ∈ leftover, uri ∉ plain.hosted

namespace Holdings.Shadows
variable {leftover : List String} {cached plain : Holdings}

theorem documents_applyChange (shadows : Shadows leftover cached plain) (change : Change SymbolTable) :
    (plain.index.applyChange change).documents =
      (cached.index.applyChange change).documents.filter
        (·.1 ∉ leftover.filter (· ≠ change.uri)) := by
  rw [SymbolIndex.documents_applyChange, SymbolIndex.documents_applyChange, shadows.documents,
    List.filter_append, List.filter_filter, List.filter_filter]
  congr 1
  · apply List.filter_congr
    intro entry _
    by_cases own : entry.1 = change.uri <;> simp [own]
  · refine (List.filter_eq_self.mpr fun entry member => ?_).symm
    obtain ⟨other, single, same⟩ := Change.mem_live_uri member
    cases List.mem_singleton.mp single
    simp [same]

theorem hostChange (shadows : Shadows leftover cached plain) (change : Change String) :
    Shadows (leftover.filter (· ≠ change.uri)) (cached.hostChange change) (plain.hostChange change) := by
  have documents := shadows.documents_applyChange (change.map SymbolTable.ofText)
  cases change with
  | put uri text =>
    refine ⟨congrArg (List.insert uri) shadows.hosted, documents, ?_⟩
    intro other member
    obtain ⟨old, different⟩ := List.mem_filter.mp member
    have apart : other ≠ uri := of_decide_eq_true different
    rw [Holdings.hostChange, List.mem_insert_iff]
    exact not_or.mpr ⟨apart, shadows.free other old⟩
  | drop uri =>
    refine ⟨congrArg (List.filter (· ≠ uri)) shadows.hosted, documents, ?_⟩
    intro other member kept
    exact shadows.free other (List.mem_filter.mp member).1 (List.mem_filter.mp kept).1

theorem calls (shadows : Shadows leftover cached plain) (filter : DocumentFilter)
    (calls : List HostCall) :
    ∃ leftover' ⊆ leftover, Shadows leftover' (calls.foldl (Holdings.call filter) cached)
      (calls.foldl (Holdings.call filter) plain) := by
  induction calls generalizing leftover cached plain with
  | nil => exact ⟨leftover, List.Subset.refl _, shadows⟩
  | cons call rest ih =>
    simp only [List.foldl_cons]
    unfold Holdings.call
    cases call.change? filter with
    | none => exact ih shadows
    | some change =>
      obtain ⟨leftover', smaller, shadows'⟩ := ih (shadows.hostChange change)
      refine ⟨leftover', fun _ member => ?_, shadows'⟩
      exact List.filter_sublist.subset (smaller member)

theorem install (shadows : Shadows leftover cached plain) (uri text : String) :
    ∃ leftover' ⊆ leftover, uri ∉ leftover' ∧
      Shadows leftover' (cached.install uri text) (plain.install uri text) := by
  unfold Holdings.install
  rw [shadows.hosted]
  by_cases hosted : uri ∈ plain.hosted
  · rw [if_pos hosted, if_pos hosted]
    exact ⟨leftover, List.Subset.refl _, fun member => shadows.free uri member hosted, shadows⟩
  · rw [if_neg hosted, if_neg hosted]
    refine ⟨leftover.filter (· ≠ uri), List.filter_sublist.subset, by simp, ?_⟩
    refine ⟨rfl, shadows.documents_applyChange (.put uri (.ofText text)), ?_⟩
    intro other member
    exact shadows.free other (List.mem_filter.mp member).1

end Holdings.Shadows

/-- The same of a scan under way, where no file has accounted for a document in `leftover`. -/
structure Survey.Shadows (leftover : List String) (cached plain : Survey) : Prop where
  holdings : Holdings.Shadows leftover cached.holdings plain.holdings
  seen : cached.seen = plain.seen
  unseen : ∀ uri ∈ leftover, uri ∉ plain.seen

namespace Survey.Shadows
variable {leftover : List String} {cached plain : Survey}

theorem visit (shadows : Shadows leftover cached plain) {filter : DocumentFilter} {opening : Opening}
    (accepted : ∀ document ∈ opening.document, filter.accepts document) :
    ∃ leftover', Shadows leftover' (cached.visit filter opening) (plain.visit filter opening) := by
  obtain ⟨leftover', smaller, called⟩ := shadows.holdings.calls filter opening.calls
  have unseen : ∀ uri ∈ leftover', uri ∉ plain.seen :=
    fun uri member => shadows.unseen uri (smaller member)
  unfold Survey.visit
  cases read : opening.document with
  | none => exact ⟨leftover', called, shadows.seen, unseen⟩
  | some document =>
    simp only [accepted document read, if_true]
    obtain ⟨leftover'', smaller', gone, installed⟩ := called.install document.uri document.text
    refine ⟨leftover'', installed, congrArg (List.insert document.uri) shadows.seen, ?_⟩
    intro uri member
    have apart : uri ≠ document.uri := by
      rintro rfl
      exact gone member
    rw [List.mem_insert_iff]
    exact not_or.mpr ⟨apart, unseen uri (smaller' member)⟩

theorem visits (shadows : Shadows leftover cached plain) {filter : DocumentFilter}
    {openings : List Opening}
    (accepted : ∀ document ∈ openings.filterMap (·.document), filter.accepts document) :
    ∃ leftover', Shadows leftover' (openings.foldl (Survey.visit filter) cached)
      (openings.foldl (Survey.visit filter) plain) := by
  induction openings generalizing leftover cached plain with
  | nil => exact ⟨leftover, shadows⟩
  | cons opening rest ih =>
    have first : ∀ document ∈ opening.document, filter.accepts document := by
      intro document read
      exact accepted document (List.mem_filterMap.mpr ⟨opening, List.mem_cons_self, read⟩)
    obtain ⟨leftover', visited⟩ := shadows.visit first
    refine ih visited fun document member => accepted document ?_
    obtain ⟨opening', later, read⟩ := List.mem_filterMap.mp member
    exact List.mem_filterMap.mpr ⟨opening', List.mem_cons_of_mem _ later, read⟩

/-- Nothing sets the two apart when the stale documents are gone. -/
theorem settle (shadows : Shadows leftover cached plain) :
    cached.settle.index.documents = plain.settle.index.documents := by
  rw [Survey.documents_settle, Survey.documents_settle, shadows.holdings.documents, shadows.seen,
    shadows.holdings.hosted, List.filter_filter]
  apply List.filter_congr
  intro entry _
  by_cases left : entry.1 ∈ leftover
  · simp [left, shadows.unseen _ left, shadows.holdings.free _ left]
  · simp [left]

end Survey.Shadows

namespace Session
variable {session : Session} {held : List (String × String)} {changes : List (Change String)}

/-- What a restoration adds is not the editor's. -/
theorem shadows_warmStart (consistent : session.holdings.Consistent held) :
    ∃ leftover, Survey.Shadows leftover ⟨session.warmStart.holdings, []⟩ ⟨session.holdings, []⟩ := by
  unfold warmStart
  split
  · next snapshot _ =>
    have restored := congrArg Prod.fst (SymbolIndex.restore_eq session.index snapshot)
    let changes :=
      (DocumentRecord.newOnes session.index.uris snapshot.documents).map DocumentRecord.change
    have new : ∀ uri ∈ changes.map Change.uri, uri ∉ session.index.uris := by
      intro uri member
      obtain ⟨_, changeMember, rfl⟩ := List.mem_map.mp member
      obtain ⟨record, recordMember, rfl⟩ := List.mem_map.mp changeMember
      exact DocumentRecord.uri_not_known recordMember
    have covered : ∀ change ∈ changes, change.uri ∈ changes.map Change.uri :=
      fun change member => List.mem_map.mpr ⟨change, member, rfl⟩
    have others := SymbolIndex.others_applyChanges covered session.index
    refine ⟨changes.map Change.uri, ⟨rfl, ?_, ?_⟩, rfl, by simp⟩
    · change session.index.documents = (session.index.restore snapshot).1.documents.filter _
      rw [restored, others]
      refine (List.filter_eq_self.mpr fun entry member => ?_).symm
      have old : entry.1 ∈ session.index.uris := List.mem_map.mpr ⟨entry, member, rfl⟩
      exact decide_eq_true fun added => new _ added old
    · exact fun uri added hosted => new uri added (consistent.mem_uris hosted)
  · refine ⟨[], ⟨rfl, ?_, by simp⟩, rfl, by simp⟩
    exact (List.filter_eq_self.mpr (by simp)).symm

/-- An initialization that accepts all documents it reads ends as one that finds no cache. -/
theorem index_ensureInitialized (consistent : session.holdings.Consistent (Change.live changes))
    (fresh : session.initialized = none) {openings : List Opening}
    (accepted : ∀ document ∈ openings.filterMap (·.document), session.filter.accepts document)
    (finished : (session.ensureInitialized (some openings)).2.cancelled = false) :
    (session.ensureInitialized (some openings)).1.index =
      (openings.foldl (Survey.visit session.filter) ⟨session.holdings, []⟩).settle.index := by
  have surveyed {holdings : Holdings} (consistent : holdings.Consistent (Change.live changes)) :
      (openings.foldl (Survey.visit session.filter) ⟨holdings, []⟩).settle.index.Coherent := by
    have begun : (Survey.mk holdings []).holdings.Consistent (Change.live changes) := consistent
    exact (begun.visits session.filter openings).settle.coherent
  obtain ⟨leftover, shadows⟩ := shadows_warmStart consistent
  obtain ⟨leftover', visited⟩ := shadows.visits accepted
  have held := congrArg Holdings.index (holdings_ensureInitialized fresh finished)
  exact held.trans ((surveyed consistent.warmStart).ext (surveyed consistent) visited.settle)

/-- The cache leaves no trace: an initialization that runs to its end and accepts all documents it
reads leads to the same index, documents and their order included, from whatever is on disk when it
starts. -/
theorem ensureInitialized_withDisk (root : Path) (settings : Settings) (start : Disk)
    (requests : List Request) (openings : List Opening) (one other : Disk)
    (accepted : ∀ document ∈ openings.filterMap (·.document),
      (DocumentFilter.ofSettings settings).accepts document)
    (finished : (((serving root settings start requests).withDisk one).ensureInitialized
      (some openings)).2.cancelled = false) :
    let before := serving root settings start requests
    ((before.withDisk other).ensureInitialized (some openings)).2.cancelled = false ∧
    ((before.withDisk one).ensureInitialized (some openings)).1.index =
      ((before.withDisk other).ensureInitialized (some openings)).1.index := by
  intro before
  obtain ⟨filter, fresh⟩ := serving_frame root settings start requests
  have consistent := consistent_serving root settings start requests
  -- a disk has no part in what is held, so every run ends where the one without a cache does
  have unfinished (disk : Disk) :
      ((before.withDisk disk).ensureInitialized (some openings)).2.cancelled =
        interrupted before.stopped openings := by
    have stillFresh : (before.withDisk disk).initialized = none := fresh
    exact cancelled_ensureInitialized stillFresh openings
  have ended (disk : Disk)
      (finished : ((before.withDisk disk).ensureInitialized (some openings)).2.cancelled = false) :
      ((before.withDisk disk).ensureInitialized (some openings)).1.index =
        (openings.foldl (Survey.visit before.filter) ⟨before.holdings, []⟩).settle.index := by
    have stillFresh : (before.withDisk disk).initialized = none := fresh
    have stillConsistent : (before.withDisk disk).holdings.Consistent
        (Change.live (hostChanges root settings start requests)) := consistent
    have stillAccepted : ∀ document ∈ openings.filterMap (·.document),
        (before.withDisk disk).filter.accepts document := filter ▸ accepted
    exact index_ensureInitialized stillConsistent stillFresh stillAccepted finished
  have finished' : ((before.withDisk other).ensureInitialized (some openings)).2.cancelled = false :=
    (unfinished other).trans ((unfinished one).symm.trans finished)
  exact ⟨finished', (ended one finished).trans (ended other finished').symm⟩

/-- A cache with a document that has changed since and one that is gone, and no cache at all. -/
theorem ensureInitialized_withDisk_stale :
    (((serving ⟨"/"⟩ (.defaults none) .empty []).withDisk
        (.ofCache ((SymbolIndex.empty.indexText "a.asm" "old:\n").indexText "b.asm" "gone:\n").snapshot)
      ).ensureInitialized
      (some [⟨⟨"a.asm"⟩, [.remove "c.asm"], some ⟨"a.asm", none, "new:\n"⟩⟩])).1.index =
    (((serving ⟨"/"⟩ (.defaults none) .empty []).withDisk .empty).ensureInitialized
      (some [⟨⟨"a.asm"⟩, [.remove "c.asm"], some ⟨"a.asm", none, "new:\n"⟩⟩])).1.index := by
  refine (ensureInitialized_withDisk _ _ _ _ _ _ _ ?_ ?_).2
  · decide +kernel
  · exact (cancelled_ensureInitialized (by rfl) _).trans (by decide +kernel)

end Session
end AssemblySymbols
