import AssemblySymbols.Proofs.Symbol.Documents
import AssemblySymbols.Proofs.Symbol.History
import AssemblySymbols.Proofs.Symbol.TableGrouping
import Mathlib.Data.List.Induction

/-! Runs of an index. Every operation comes down to insertions and removals of single documents, and the
documents after a run are those that remain live of all of them. -/
namespace AssemblySymbols

namespace DocumentRecord

/-- The records that a restoration takes: those of documents that are not `known`, of several records
of one document the first. -/
def newOnes (known : List String) : List DocumentRecord → List DocumentRecord
  | [] => []
  | record :: rest =>
    if record.uri ∈ known then newOnes known rest else record :: newOnes (record.uri :: known) rest

theorem newOnes_congr {known known' : List String} (same : ∀ uri, uri ∈ known ↔ uri ∈ known')
    (records : List DocumentRecord) : newOnes known records = newOnes known' records := by
  induction records generalizing known known' with
  | nil => rfl
  | cons record rest ih =>
    have further : ∀ uri, uri ∈ record.uri :: known ↔ uri ∈ record.uri :: known' := fun uri => by
      rw [List.mem_cons, List.mem_cons, same]
    simp only [newOnes, same, ih same, ih further]

theorem uri_not_known {known : List String} {records : List DocumentRecord} {record : DocumentRecord}
    (member : record ∈ newOnes known records) : record.uri ∉ known := by
  induction records generalizing known with
  | nil => contradiction
  | cons head rest ih =>
    simp only [newOnes] at member
    split at member
    · exact ih member
    · next new =>
      rcases List.mem_cons.mp member with rfl | later
      · exact new
      · exact fun old => ih later (List.mem_cons_of_mem _ old)

def change (record : DocumentRecord) : Change SymbolTable := .put record.uri record.toTable

end DocumentRecord

namespace SymbolIndex

def applyChange (index : SymbolIndex) : Change SymbolTable → SymbolIndex
  | .put uri table => index.replace uri table
  | .drop uri => index.remove uri

def applyChanges (index : SymbolIndex) (changes : List (Change SymbolTable)) : SymbolIndex :=
  changes.foldl applyChange index

theorem documents_applyChange (index : SymbolIndex) (change : Change SymbolTable) :
    (index.applyChange change).documents =
      index.documents.filter (·.1 ≠ change.uri) ++ Change.live [change] := by
  cases change with
  | put uri table => exact index.documents_replace uri table
  | drop uri => exact (index.documents_remove uri).trans (List.append_nil _).symm

theorem documents_applyChanges (changes : List (Change SymbolTable)) :
    (empty.applyChanges changes).documents = Change.live changes := by
  induction changes using List.reverseRecOn with
  | nil => rfl
  | append_singleton earlier last ih =>
    rw [applyChanges, List.foldl_append, List.foldl_cons, List.foldl_nil, ← applyChanges,
      documents_applyChange, ih, Change.live_append]

/-- Other documents are as they were, also in their order. -/
theorem others_applyChanges {changes : List (Change SymbolTable)} {uris : List String}
    (covered : ∀ change ∈ changes, change.uri ∈ uris) (index : SymbolIndex) :
    (index.applyChanges changes).documents.filter (·.1 ∉ uris) =
      index.documents.filter (·.1 ∉ uris) := by
  induction changes generalizing index with
  | nil => rfl
  | cons change later ih =>
    have known := covered change List.mem_cons_self
    refine (ih (fun change member => covered change (List.mem_cons_of_mem _ member)) _).trans ?_
    rw [documents_applyChange, List.filter_append, List.filter_filter]
    have own : (Change.live [change]).filter (·.1 ∉ uris) = [] := by
      apply List.filter_eq_nil_iff.mpr
      intro entry member
      obtain ⟨other, single, same⟩ := Change.mem_live_uri member
      cases List.mem_singleton.mp single
      simpa [← same] using known
    rw [own, List.append_nil]
    apply List.filter_congr
    intro entry _
    by_cases same : entry.1 = change.uri
    · simp [same, known]
    · simp [same]

theorem document?_applyChange {change : Change SymbolTable} {uri : String} (other : change.uri ≠ uri)
    (index : SymbolIndex) : (index.applyChange change).document? uri = index.document? uri := by
  cases change with
  | put changed table => exact (document?_replace ..).trans (if_neg other.symm)
  | drop changed => exact (document?_remove ..).trans (if_neg other.symm)

theorem document?_applyChanges {changes : List (Change SymbolTable)} {uri : String}
    (others : ∀ change ∈ changes, change.uri ≠ uri) (index : SymbolIndex) :
    (index.applyChanges changes).document? uri = index.document? uri := by
  induction changes generalizing index with
  | nil => rfl
  | cons change later ih =>
    obtain ⟨other, others⟩ := List.forall_mem_cons.mp others
    exact (ih others _).trans (document?_applyChange other index)

/-- A restoration inserts the new records one after another and counts them. -/
theorem restore_eq (index : SymbolIndex) (snapshot : Snapshot) :
    index.restore snapshot =
      (index.applyChanges ((DocumentRecord.newOnes index.uris snapshot.documents).map
        DocumentRecord.change),
       (DocumentRecord.newOnes index.uris snapshot.documents).length) := by
  suffices general : ∀ (records : List DocumentRecord) (index : SymbolIndex) (count : Nat),
      records.foldl (fun progress record =>
        if progress.1.contains record.uri then (progress.1, progress.2)
        else (progress.1.replace record.uri record.toTable, progress.2 + 1)) (index, count) =
      (index.applyChanges ((DocumentRecord.newOnes index.uris records).map DocumentRecord.change),
        count + (DocumentRecord.newOnes index.uris records).length) by
    exact (general _ _ _).trans (by rw [Nat.zero_add])
  intro records
  induction records with
  | nil => exact fun _ _ => rfl
  | cons record rest ih =>
    intro index count
    simp only [List.foldl_cons, DocumentRecord.newOnes]
    by_cases known : record.uri ∈ index.uris
    · rw [if_pos (contains_iff.mpr known), if_pos known, ih]
    · have known' : ∀ uri, uri ∈ (index.replace record.uri record.toTable).uris ↔
          uri ∈ record.uri :: index.uris :=
        fun uri => mem_uris_replace.trans List.mem_cons.symm
      have same := DocumentRecord.newOnes_congr known' rest
      rw [if_neg (mt contains_iff.mp known), if_neg known, ih]
      rw [same, List.map_cons, List.length_cons, Nat.add_assoc, Nat.add_comm 1]
      rfl

/-- What may be done to an index. Tables are made of additions. -/
inductive Operation where
  | indexText (uri text : String)
  | replace (uri : String) (additions : List Addition)
  | remove (uri : String)
  | restore (snapshot : Snapshot)

def operate (index : SymbolIndex) : Operation → SymbolIndex
  | .indexText uri text => index.indexText uri text
  | .replace uri additions => index.replace uri (.ofAdditions additions)
  | .remove uri => index.remove uri
  | .restore snapshot => (index.restore snapshot).1

/-- The index after a run that starts with no documents. -/
def run (operations : List Operation) : SymbolIndex := operations.foldl operate empty

/-- The insertions and removals of an operation on an index of `known` documents. -/
def Operation.changes (known : List String) : Operation → List (Change SymbolTable)
  | indexText uri text => [.put uri (.ofText text)]
  | replace uri additions => [.put uri (.ofAdditions additions)]
  | remove uri => [.drop uri]
  | restore snapshot => (DocumentRecord.newOnes known snapshot.documents).map DocumentRecord.change

/-- All insertions and removals of a run. -/
def history (operations : List Operation) : List (Change SymbolTable) :=
  operations.foldl (fun changes operation =>
    changes ++ operation.changes ((Change.live changes).map (·.1))) []

theorem operate_eq (index : SymbolIndex) (operation : Operation) :
    index.operate operation = index.applyChanges (operation.changes index.uris) := by
  cases operation with
  | restore snapshot => exact congrArg Prod.fst (restore_eq index snapshot)
  | indexText uri text | replace uri additions | remove uri => rfl

theorem run_eq (operations : List Operation) :
    run operations = empty.applyChanges (history operations) := by
  induction operations using List.reverseRecOn with
  | nil => rfl
  | append_singleton earlier last ih =>
    have uris : (empty.applyChanges (history earlier)).uris =
        (Change.live (history earlier)).map (·.1) := by
      rw [SymbolIndex.uris, documents_applyChanges]
    have before : run (earlier ++ [last]) = (run earlier).operate last := List.foldl_append
    have changes : history (earlier ++ [last]) =
        history earlier ++ last.changes ((Change.live (history earlier)).map (·.1)) := List.foldl_append
    rw [before, ih, operate_eq, uris, changes, applyChanges, applyChanges, applyChanges,
      List.foldl_append]

end SymbolIndex
end AssemblySymbols
