import AssemblySymbols.Proofs.Session.CacheFile
import AssemblySymbols.Proofs.Session.Requests

/-! Which documents survive an initialization. Most are accounted for by the editor or by a file that
the scan has read and accepted. The exception is told exactly: a document that was indexed before the
scan and whose file the scan has read but refused, for reading alone saves it from removal. -/
namespace AssemblySymbols
open Session (HostCall Opening)

/-- The editor holds the document, or the scan has read it and the filter accepts it, and its table is
that of the text in question. -/
def Accounted (filter : DocumentFilter) (held : List (String × String)) (read : List Document)
    (uri : String) (table : SymbolTable) : Prop :=
  (∃ text, (uri, text) ∈ held ∧ table = .ofText text) ∨
  ∃ document ∈ read, document.uri = uri ∧ filter.accepts document ∧ table = .ofText document.text

/-- The document was indexed before the scan, and nothing concerns it since but files that are read and
refused. -/
structure Stranded (filter : DocumentFilter) (before : SymbolIndex) (held : List (String × String))
    (changes : List (Change String)) (read : List Document) (uri : String) (table : SymbolTable) :
    Prop where
  indexed : before.document? uri = some table
  opened : ∃ document ∈ read, document.uri = uri
  refused : ∀ document ∈ read, document.uri = uri → ¬ filter.accepts document
  untouched : ∀ change ∈ changes, change.uri ≠ uri
  free : ∀ text, (uri, text) ∉ held

namespace Holdings
variable {holdings : Holdings} {uri : String} {table : SymbolTable}

theorem hostChange_other (holdings : Holdings) {change : Change String} (other : change.uri ≠ uri) :
    (holdings.hostChange change).index.document? uri = holdings.index.document? uri ∧
    (uri ∈ (holdings.hostChange change).hosted ↔ uri ∈ holdings.hosted) := by
  have apart : (change.map SymbolTable.ofText).uri ≠ uri := by rwa [Change.uri_map]
  have kept := SymbolIndex.document?_applyChange apart holdings.index
  cases change with
  | put changed text =>
    refine ⟨kept, ?_⟩
    rw [hostChange, List.mem_insert_iff]
    exact or_iff_right other.symm
  | drop changed =>
    refine ⟨kept, ?_⟩
    rw [hostChange, List.mem_filter]
    exact and_iff_left (decide_eq_true other.symm)

/-- A table that the editor does not hold has been there before its changes. -/
theorem calls_origin {filter : DocumentFilter} {calls : List HostCall}
    (found : (calls.foldl (call filter) holdings).index.document? uri = some table)
    (free : uri ∉ (calls.foldl (call filter) holdings).hosted) :
    holdings.index.document? uri = some table ∧ uri ∉ holdings.hosted ∧
      ∀ change ∈ calls.filterMap (·.change? filter), change.uri ≠ uri := by
  induction calls generalizing holdings with
  | nil => exact ⟨found, free, by simp⟩
  | cons first rest ih =>
    obtain ⟨found', free', untouched⟩ := ih found free
    cases changed : first.change? filter with
    | none =>
      simp only [call, changed, Option.elim_none] at found' free'
      refine ⟨found', free', ?_⟩
      simpa only [List.filterMap_cons, changed] using untouched
    | some change =>
      simp only [call, changed, Option.elim_some] at found' free'
      -- the document of a change is either held afterwards or gone
      have other : change.uri ≠ uri := by
        rintro rfl
        cases change with
        | put uri text => exact free' (by simp [hostChange, Change.uri])
        | drop uri => simp [hostChange, Change.uri, SymbolIndex.document?_remove] at found'
      obtain ⟨same, same'⟩ := holdings.hostChange_other other
      refine ⟨same ▸ found', mt same'.mpr free', ?_⟩
      simp only [List.filterMap_cons, changed]
      exact List.forall_mem_cons.mpr ⟨other, untouched⟩

theorem calls_untouched {filter : DocumentFilter} {calls : List HostCall}
    (untouched : ∀ change ∈ calls.filterMap (·.change? filter), change.uri ≠ uri) :
    (calls.foldl (call filter) holdings).index.document? uri = holdings.index.document? uri := by
  induction calls generalizing holdings with
  | nil => rfl
  | cons first rest ih =>
    rw [List.foldl_cons]
    cases changed : first.change? filter with
    | none =>
      simp only [List.filterMap_cons, changed] at untouched
      simpa only [call, changed, Option.elim_none] using ih untouched
    | some change =>
      simp only [List.filterMap_cons, changed] at untouched
      obtain ⟨other, later⟩ := List.forall_mem_cons.mp untouched
      rw [ih later, call, changed, Option.elim_some]
      exact (holdings.hostChange_other other).1

theorem document?_install_other {installed : String} (other : installed ≠ uri) (text : String) :
    (holdings.install installed text).index.document? uri = holdings.index.document? uri := by
  unfold install
  split
  · rfl
  · exact (SymbolIndex.document?_replace ..).trans (if_neg other.symm)

theorem hosted_install (installed text : String) :
    (holdings.install installed text).hosted = holdings.hosted := by
  unfold install
  split <;> rfl

theorem document?_install_own (free : uri ∉ holdings.hosted) (text : String) :
    (holdings.install uri text).index.document? uri = some (.ofText text) := by
  rw [install, if_neg free]
  exact (SymbolIndex.document?_replace ..).trans (if_pos rfl)

end Holdings

namespace Survey
variable {filter : DocumentFilter} {survey : Survey} {uri : String} {table : SymbolTable}

theorem visit_origin {opening : Opening}
    (found : (survey.visit filter opening).holdings.index.document? uri = some table)
    (free : uri ∉ (survey.visit filter opening).holdings.hosted) :
    (∃ document ∈ opening.document, document.uri = uri ∧ filter.accepts document ∧
      table = .ofText document.text) ∨
    survey.holdings.index.document? uri = some table ∧ uri ∉ survey.holdings.hosted ∧
      (∀ change ∈ opening.calls.filterMap (·.change? filter), change.uri ≠ uri) ∧
      ∀ document ∈ opening.document, document.uri = uri → ¬ filter.accepts document := by
  unfold visit at found free
  cases read : opening.document with
  | none =>
    simp only [read] at found free
    obtain ⟨found, free, untouched⟩ := Holdings.calls_origin found free
    exact Or.inr ⟨found, free, untouched, by simp⟩
  | some document =>
    simp only [read] at found free
    by_cases accepted : filter.accepts document
    · rw [if_pos accepted] at found free
      rw [Holdings.hosted_install] at free
      by_cases own : document.uri = uri
      · subst own
        rw [Holdings.document?_install_own free] at found
        exact Or.inl ⟨document, rfl, rfl, accepted, (Option.some.inj found).symm⟩
      · rw [Holdings.document?_install_other own] at found
        obtain ⟨found, free, untouched⟩ := Holdings.calls_origin found free
        refine Or.inr ⟨found, free, untouched, ?_⟩
        rintro _ ⟨⟩ same
        exact absurd same own
    · rw [if_neg accepted] at found free
      obtain ⟨found, free, untouched⟩ := Holdings.calls_origin found free
      refine Or.inr ⟨found, free, untouched, ?_⟩
      rintro _ ⟨⟩ _
      exact accepted

/-- A table that the editor does not hold is that of an accepted file or has been there before. -/
theorem visits_origin {openings : List Opening}
    (found : (openings.foldl (visit filter) survey).holdings.index.document? uri = some table)
    (free : uri ∉ (openings.foldl (visit filter) survey).holdings.hosted) :
    (∃ document ∈ openings.filterMap (·.document), document.uri = uri ∧ filter.accepts document ∧
      table = .ofText document.text) ∨
    survey.holdings.index.document? uri = some table ∧ uri ∉ survey.holdings.hosted ∧
      (∀ change ∈ (openings.flatMap (·.calls)).filterMap (·.change? filter), change.uri ≠ uri) ∧
      ∀ document ∈ openings.filterMap (·.document), document.uri = uri → ¬ filter.accepts document := by
  induction openings generalizing survey with
  | nil => exact Or.inr ⟨found, free, by simp, by simp⟩
  | cons opening rest ih =>
    have member (document : Document) : document ∈ (opening :: rest).filterMap (·.document) ↔
        document ∈ opening.document ∨ document ∈ rest.filterMap (·.document) := by
      simp [List.mem_filterMap, Option.mem_def]
    rcases ih found free with ⟨document, later, origin⟩ | ⟨found', free', untouched, refused⟩
    · exact Or.inl ⟨document, (member document).mpr (Or.inr later), origin⟩
    · rcases visit_origin found' free' with
        ⟨document, read, origin⟩ | ⟨before, free'', untouched', refused'⟩
      · exact Or.inl ⟨document, (member document).mpr (Or.inl read), origin⟩
      · refine Or.inr ⟨before, free'', ?_, ?_⟩
        · rw [List.flatMap_cons, List.filterMap_append]
          exact List.forall_mem_append.mpr ⟨untouched', untouched⟩
        · intro document either
          rcases (member document).mp either with read | later
          · exact refused' document read
          · exact refused document later

/-- Nothing happens to a document that no call concerns and whose files are refused. -/
theorem visits_untouched {openings : List Opening}
    (untouched : ∀ change ∈ (openings.flatMap (·.calls)).filterMap (·.change? filter), change.uri ≠ uri)
    (refused : ∀ document ∈ openings.filterMap (·.document), document.uri = uri →
      ¬ filter.accepts document) :
    (openings.foldl (visit filter) survey).holdings.index.document? uri =
      survey.holdings.index.document? uri := by
  induction openings generalizing survey with
  | nil => rfl
  | cons opening rest ih =>
    rw [List.flatMap_cons, List.filterMap_append] at untouched
    obtain ⟨now, later⟩ := List.forall_mem_append.mp untouched
    have called : (opening.calls.foldl (Holdings.call filter) survey.holdings).index.document? uri =
        survey.holdings.index.document? uri := Holdings.calls_untouched now
    have refused' : ∀ document ∈ rest.filterMap (·.document), document.uri = uri →
        ¬ filter.accepts document := by
      intro document member
      apply refused document
      obtain ⟨other, found, read⟩ := List.mem_filterMap.mp member
      exact List.mem_filterMap.mpr ⟨other, List.mem_cons_of_mem _ found, read⟩
    rw [List.foldl_cons, ih later refused', visit]
    cases read : opening.document with
    | none => exact called
    | some document =>
      have first := refused document
        (List.mem_filterMap.mpr ⟨opening, List.mem_cons_self, read⟩)
      dsimp only
      by_cases accepted : filter.accepts document
      · have other : document.uri ≠ uri := fun own => first own accepted
        rw [if_pos accepted, Holdings.document?_install_other other, called]
      · rw [if_neg accepted, called]

theorem mem_seen_visits {openings : List Opening} :
    uri ∈ (openings.foldl (visit filter) survey).seen ↔
      uri ∈ survey.seen ∨ ∃ document ∈ openings.filterMap (·.document), document.uri = uri := by
  induction openings generalizing survey with
  | nil => simp
  | cons opening rest ih =>
    rw [List.foldl_cons, ih, visit]
    cases read : opening.document with
    | none => simp [read]
    | some document =>
      simp only [List.mem_insert_iff, List.filterMap_cons, read, List.mem_cons, or_and_right, exists_or,
        exists_eq_left]
      rw [eq_comm, or_assoc, or_left_comm]

theorem document?_settle (survey : Survey) (uri : String) :
    survey.settle.index.document? uri =
      if uri ∈ survey.seen ∨ uri ∈ survey.holdings.hosted then survey.holdings.index.document? uri
      else none := by
  rw [SymbolIndex.document?, documents_settle]
  rw [lookup_filter _ fun uri => uri ∈ survey.seen ∨ uri ∈ survey.holdings.hosted]
  simp only [decide_eq_true_eq]
  rfl

/-- What a scan leaves that starts with the holdings and runs to its end. -/
theorem settle_unaccounted_iff {holdings : Holdings} {earlier : List (Change String)}
    (consistent : holdings.Consistent (Change.live earlier)) (openings : List Opening) :
    let changes := (openings.flatMap (·.calls)).filterMap (·.change? filter)
    let held := Change.live (earlier ++ changes)
    let read := openings.filterMap (·.document)
    let index := (openings.foldl (visit filter) ⟨holdings, []⟩).settle.index
    (index.document? uri = some table ∧ ¬ Accounted filter held read uri table) ↔
      Stranded filter holdings.index held changes read uri table := by
  intro changes held read index
  let begun : Survey := ⟨holdings, []⟩
  let survey := openings.foldl (visit filter) begun
  have started : begun.holdings.Consistent (Change.live earlier) := consistent
  have surveyed : survey.holdings.Consistent held := started.visits filter openings
  have seen : uri ∈ survey.seen ↔ ∃ document ∈ read, document.uri = uri := by
    have visited : uri ∈ survey.seen ↔ uri ∈ begun.seen ∨ ∃ document ∈ read, document.uri = uri :=
      mem_seen_visits
    exact visited.trans (or_iff_right List.not_mem_nil)
  have left : index.document? uri =
      if uri ∈ survey.seen ∨ uri ∈ survey.holdings.hosted then survey.holdings.index.document? uri
      else none := document?_settle survey uri
  rw [left]
  constructor
  · rintro ⟨found, unaccounted⟩
    have free : ∀ text, (uri, text) ∉ held := by
      intro text member
      have kept := surveyed.settle.kept uri text member
      rw [document?_settle, found] at kept
      exact unaccounted (Or.inl ⟨text, member, Option.some.inj kept⟩)
    have unhosted : uri ∉ survey.holdings.hosted := by
      intro hosted
      obtain ⟨text, member⟩ := (surveyed.hosted uri).mp hosted
      exact free text member
    obtain ⟨accountable, found⟩ := Option.ite_none_right_eq_some.mp found
    have opened := seen.mp (accountable.resolve_right unhosted)
    rcases visits_origin found unhosted with origin | ⟨indexed, _, untouched, refused⟩
    · exact absurd (Or.inr origin) unaccounted
    · exact ⟨indexed, opened, refused, untouched, free⟩
  · rintro ⟨indexed, opened, refused, untouched, free⟩
    have kept : survey.holdings.index.document? uri = begun.holdings.index.document? uri :=
      visits_untouched untouched refused
    constructor
    · rw [if_pos (Or.inl (seen.mpr opened))]
      exact kept.trans indexed
    · rintro (⟨text, member, _⟩ | ⟨document, member, same, accepted, _⟩)
      · exact free text member
      · exact refused document member same accepted

end Survey

namespace Session

/-- After an initialization that has not been cancelled, every document is accounted for unless it is
stranded, and stranded documents are there with the tables that they had, be they from the cache. -/
theorem unaccounted_iff_stranded (root : Path) (settings : Settings) (start : Disk)
    (requests : List Request) (disk : Disk) (openings : List Opening)
    (finished : (((serving root settings start requests).withDisk disk).ensureInitialized
      (some openings)).2.cancelled = false) (uri : String) (table : SymbolTable) :
    let before := (serving root settings start requests).withDisk disk
    let filter := DocumentFilter.ofSettings settings
    let changes := (openings.flatMap (·.calls)).filterMap (·.change? filter)
    let held := Change.live (hostChanges root settings start requests ++ changes)
    let read := openings.filterMap (·.document)
    ((before.ensureInitialized (some openings)).1.index.document? uri = some table ∧
        ¬ Accounted filter held read uri table) ↔
      Stranded filter before.warmStart.index held changes read uri table := by
  intro before filter changes held read
  obtain ⟨sameFilter, notInitialized⟩ := serving_frame root settings start requests
  have fresh : before.initialized = none := notInitialized
  have filtered : before.filter = filter := sameFilter
  have consistent : before.holdings.Consistent
      (Change.live (hostChanges root settings start requests)) :=
    consistent_serving root settings start requests
  have ended : (before.ensureInitialized (some openings)).1.index =
      (openings.foldl (Survey.visit before.filter) ⟨before.warmStart.holdings, []⟩).settle.index :=
    congrArg Holdings.index (holdings_ensureInitialized fresh finished)
  rw [ended, filtered]
  exact Survey.settle_unaccounted_iff consistent.warmStart openings

/-- A workspace that finds files of all sorts, among them one that the cache knows. -/
def openWorkspace : Session :=
  (serving ⟨"/"⟩ { Settings.defaults none with patterns := ["**/*"] } .empty []).withDisk
    (.ofCache (SymbolIndex.empty.indexText "a.txt" "old:\n").snapshot)

/-- The file has been changed and is refused, but what the cache tells of its former text remains. -/
theorem openWorkspace_stranded :
    (openWorkspace.ensureInitialized
      (some [⟨⟨"a.txt"⟩, [], some ⟨"a.txt", none, "new:\n"⟩⟩])).2.cancelled = false ∧
    (openWorkspace.ensureInitialized
      (some [⟨⟨"a.txt"⟩, [], some ⟨"a.txt", none, "new:\n"⟩⟩])).1.index.document? "a.txt" =
        some (.ofText "old:\n") ∧
    ¬ Accounted openWorkspace.filter [] [⟨"a.txt", none, "new:\n"⟩] "a.txt" (.ofText "old:\n") := by
  have finished : (openWorkspace.ensureInitialized
      (some [⟨⟨"a.txt"⟩, [], some ⟨"a.txt", none, "new:\n"⟩⟩])).2.cancelled = false :=
    (cancelled_ensureInitialized (by rfl) _).trans (by decide +kernel)
  have path : openWorkspace.store.cachePath = ⟨"/.asmdex/cache/symbols.json"⟩ := by decide +kernel
  have loaded : openWorkspace.store.load =
      .ok (SymbolIndex.empty.indexText "a.txt" "old:\n").snapshot := by
    rw [CachedIndex.load, path]
    exact Cache.load_eq (Disk.read_ofCache _) (by decide +kernel)
  have indexed : openWorkspace.warmStart.index.document? "a.txt" = some (.ofText "old:\n") := by
    rw [index_warmStart loaded]
    decide +kernel
  refine ⟨finished, (unaccounted_iff_stranded _ _ _ _ _ _ finished _ _).mpr
    ⟨indexed, ?_, ?_, ?_, ?_⟩⟩
  · exact ⟨_, List.mem_singleton_self _, rfl⟩
  · decide +kernel
  · decide +kernel
  · exact fun _ => List.not_mem_nil

end Session
end AssemblySymbols
