import AssemblySymbols.Proofs.Session.Survey
import AssemblySymbols.Proofs.Symbol.Coherence

/-! What the editor has put in stays until the editor takes it out. The invariant ties the holdings to
the editor's changes alone, so it passes through refreshes, restorations and scans. -/
namespace AssemblySymbols
open Session (HostCall Opening)

namespace SymbolIndex

theorem foldl_remove_eq (uris : List String) (index : SymbolIndex) :
    uris.foldl remove index = index.applyChanges (uris.map .drop) := by
  rw [applyChanges, List.foldl_map]
  rfl

end SymbolIndex

/-- The holdings agree with what remains live of the editor's changes: exactly those documents are
hosted, each with the table of its last text. -/
structure Holdings.Consistent (holdings : Holdings) (held : List (String × String)) : Prop where
  coherent : holdings.index.Coherent
  hosted : ∀ uri, uri ∈ holdings.hosted ↔ ∃ text, (uri, text) ∈ held
  kept : ∀ uri text, (uri, text) ∈ held → holdings.index.document? uri = some (.ofText text)

namespace Holdings.Consistent
variable {holdings : Holdings} {held : List (String × String)} {changes : List (Change String)}

theorem start (root : Path) (settings : Settings) (disk : Disk) :
    (Session.start root settings disk).holdings.Consistent [] :=
  ⟨SymbolIndex.coherent_empty, fun _ => by simp [Session.holdings, Session.start], by simp⟩

theorem mem_uris (consistent : holdings.Consistent held) {uri : String}
    (hosted : uri ∈ holdings.hosted) : uri ∈ holdings.index.uris := by
  obtain ⟨text, member⟩ := (consistent.hosted uri).mp hosted
  rw [← SymbolIndex.contains_iff, SymbolIndex.contains, consistent.kept uri text member]
  rfl

/-- Changes of documents that the editor does not hold. -/
theorem applyChanges (consistent : holdings.Consistent held) (others : List (Change SymbolTable))
    (free : ∀ change ∈ others, change.uri ∉ holdings.hosted)
    (compact : ∀ uri table, .put uri table ∈ others → table.Compact) :
    (Holdings.mk (holdings.index.applyChanges others) holdings.hosted).Consistent held where
  coherent := consistent.coherent.applyChanges compact
  hosted := consistent.hosted
  kept := by
    intro uri text member
    have hosted : uri ∈ holdings.hosted := (consistent.hosted uri).mpr ⟨text, member⟩
    rw [← consistent.kept uri text member]
    refine SymbolIndex.document?_applyChanges (fun change found => ?_) _
    rintro rfl
    exact free change found hosted

theorem install (consistent : holdings.Consistent held) (uri text : String) :
    (holdings.install uri text).Consistent held := by
  unfold Holdings.install
  split
  · exact consistent
  · next free =>
    apply consistent.applyChanges [.put uri (.ofText text)]
    · exact List.forall_mem_singleton.mpr free
    · intro uri' table member
      cases List.mem_singleton.mp member
      exact SymbolTable.compact_ofText text

theorem discard (consistent : holdings.Consistent held) (uri : String) :
    (holdings.discard uri).Consistent held := by
  unfold Holdings.discard
  split
  · exact consistent
  · next free =>
    exact consistent.applyChanges [.drop uri] (List.forall_mem_singleton.mpr free) (by simp)

theorem warmStart {session : Session} (consistent : session.holdings.Consistent held) :
    session.warmStart.holdings.Consistent held := by
  unfold Session.warmStart
  split
  · next snapshot _ =>
    rw [show (session.modifyIndex fun index => (index.restore snapshot).1).holdings =
      ⟨(session.index.restore snapshot).1, session.hostDocuments⟩ from rfl, SymbolIndex.restore_eq]
    apply consistent.applyChanges
    · intro change member hosted
      obtain ⟨record, new, rfl⟩ := List.mem_map.mp member
      exact DocumentRecord.uri_not_known new (consistent.mem_uris hosted)
    · intro uri table member
      obtain ⟨record, _, same⟩ := List.mem_map.mp member
      cases same
      exact SymbolTable.compact_toTable record
  · exact consistent

theorem hostChange (consistent : holdings.Consistent (Change.live changes)) (change : Change String) :
    (holdings.hostChange change).Consistent (Change.live (changes ++ [change])) := by
  cases change with
  | put uri text =>
    rw [Change.live_append_put]
    refine ⟨consistent.coherent.replace uri (SymbolTable.compact_ofText text), ?_, ?_⟩
    · intro other
      rw [Holdings.hostChange, List.mem_insert_iff, consistent.hosted other]
      by_cases same : other = uri <;> simp [same]
    · intro other text' member
      rw [Holdings.hostChange, SymbolIndex.document?_replace]
      rcases List.mem_append.mp member with old | new
      · obtain ⟨old, different⟩ := List.mem_filter.mp old
        rw [if_neg (by simpa using different), consistent.kept other text' old]
      · cases List.mem_singleton.mp new
        rw [if_pos rfl]
  | drop uri =>
    rw [Change.live_append_drop]
    refine ⟨consistent.coherent.remove uri, ?_, ?_⟩
    · intro other
      rw [Holdings.hostChange, List.mem_filter, consistent.hosted other]
      by_cases same : other = uri <;> simp [same]
    · intro other text' member
      obtain ⟨old, different⟩ := List.mem_filter.mp member
      rw [Holdings.hostChange, SymbolIndex.document?_remove, if_neg (by simpa using different),
        consistent.kept other text' old]

theorem call (consistent : holdings.Consistent (Change.live changes)) (filter : DocumentFilter)
    (call : HostCall) :
    (holdings.call filter call).Consistent (Change.live (changes ++ (call.change? filter).toList)) := by
  unfold Holdings.call
  cases call.change? filter with
  | none => simpa using consistent
  | some change => exact consistent.hostChange change

theorem calls (consistent : holdings.Consistent (Change.live changes)) (filter : DocumentFilter)
    (calls : List HostCall) :
    (calls.foldl (Holdings.call filter) holdings).Consistent
      (Change.live (changes ++ calls.filterMap (·.change? filter))) := by
  induction calls generalizing holdings changes with
  | nil => simpa using consistent
  | cons call rest ih =>
    have next := ih (consistent.call filter call)
    rw [List.append_assoc] at next
    rw [List.foldl_cons, List.filterMap_cons]
    cases change : call.change? filter <;> simpa [change] using next

theorem visit {survey : Survey} (consistent : survey.holdings.Consistent (Change.live changes))
    (filter : DocumentFilter) (opening : Opening) :
    (survey.visit filter opening).holdings.Consistent
      (Change.live (changes ++ opening.calls.filterMap (·.change? filter))) := by
  have called := consistent.calls filter opening.calls
  unfold Survey.visit
  split
  · exact called
  · next document _ =>
    dsimp only
    split
    · exact called.install document.uri document.text
    · exact called

theorem visits {survey : Survey} (consistent : survey.holdings.Consistent (Change.live changes))
    (filter : DocumentFilter) (openings : List Opening) :
    (openings.foldl (Survey.visit filter) survey).holdings.Consistent
      (Change.live (changes ++ (openings.flatMap (·.calls)).filterMap (·.change? filter))) := by
  induction openings generalizing survey changes with
  | nil => simpa using consistent
  | cons opening rest ih =>
    rw [List.foldl_cons, List.flatMap_cons, List.filterMap_append, ← List.append_assoc]
    exact ih (consistent.visit filter opening)

theorem settle {survey : Survey} (consistent : survey.holdings.Consistent held) :
    survey.settle.Consistent held := by
  rw [Survey.settle, SymbolIndex.foldl_remove_eq]
  refine consistent.applyChanges _ ?_ (by simp)
  intro change member hosted
  obtain ⟨uri, stale, rfl⟩ := List.mem_map.mp member
  have missing : uri ∉ survey.holdings.hosted := by simp_all [Survey.stale]
  exact missing hosted

end Holdings.Consistent
end AssemblySymbols
