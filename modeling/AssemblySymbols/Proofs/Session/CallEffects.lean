import AssemblySymbols.Proofs.Session.CancelledIndexing
import AssemblySymbols.Proofs.Session.HostPrecedence
import AssemblySymbols.Proofs.Session.Shutdown

/-! What the answer of a call says of its effect. A removal takes the editor's mark before it knows
whether there is a document to remove; that this does no harm rests on an invariant of the tasks, by which
every document with a mark is in the index unless a call on it is under way. -/
namespace AssemblySymbols
open Session (Opening)

theorem Change.last?_append_eq_or {α : Type} (changes more : List (Change α)) (uri : String) :
    last? (changes ++ more) uri = (last? more uri).or (last? changes uri) := by
  rw [last?, List.reverse_append, List.find?_append, last?, last?]

/-- The last of the calls on a document is to be looked for behind one of them, then it, then before. -/
theorem Change.last?_around {α : Type} (earlier later : List (Change α)) (change : Change α) (uri : String) :
    last? (earlier ++ change :: later) uri =
      ((last? later uri).or (if change.uri = uri then some change else none)).or (last? earlier uri) := by
  rw [last?_append_eq_or, ← List.singleton_append, last?_append_eq_or]
  congr 2
  by_cases own : change.uri = uri <;> simp [last?, own]

theorem Change.last?_without {α : Type} {earlier later : List (Change α)} {change : Change α} {uri : String}
    (apart : change.uri ≠ uri) :
    last? (earlier ++ later) uri = last? (earlier ++ change :: later) uri := by
  rw [last?_around, if_neg apart, Option.or_none, last?_append_eq_or]

theorem Change.last?_eq_none_iff {α : Type} {changes : List (Change α)} {uri : String} :
    last? changes uri = none ↔ ∀ change ∈ changes, change.uri ≠ uri := by
  simp [last?]

/-! ### One document at a time -/

namespace SymbolIndex

/-- Two indexes agree but for one document: the others have the same tables in the same order, and their
places stand in the same order under every key. -/
structure AgreesBut (index other : SymbolIndex) (uri : String) : Prop where
  documents : other.documents.filter (·.1 ≠ uri) = index.documents.filter (·.1 ≠ uri)
  places : ∀ part key,
    (((other.aggregates.get part).get? key).getD []).filter (·.uri ≠ uri) =
      (((index.aggregates.get part).get? key).getD []).filter (·.uri ≠ uri)

variable {index other last : SymbolIndex} {uri : String}

theorem AgreesBut.refl (index : SymbolIndex) (uri : String) : index.AgreesBut index uri :=
  ⟨rfl, fun _ _ => rfl⟩

theorem AgreesBut.trans (first : index.AgreesBut other uri) (second : other.AgreesBut last uri) :
    index.AgreesBut last uri :=
  ⟨second.documents.trans first.documents,
    fun part key => (second.places part key).trans (first.places part key)⟩

theorem document?_eq_lookup_filter {asked : String} (apart : asked ≠ uri) :
    index.document? asked = (index.documents.filter (·.1 ≠ uri)).lookup asked := by
  rw [document?]
  induction index.documents with
  | nil => rfl
  | cons entry rest ih =>
    by_cases own : entry.1 = uri
    · have passed : (asked == entry.1) = false := by simpa [own] using apart
      rw [List.filter_cons_of_neg (by simpa using own), ← ih, List.lookup_cons, passed]
    · rw [List.filter_cons_of_pos (by simpa using own), List.lookup_cons, List.lookup_cons, ih]

theorem AgreesBut.document? (agrees : index.AgreesBut other uri) {asked : String} (apart : asked ≠ uri) :
    other.document? asked = index.document? asked := by
  rw [document?_eq_lookup_filter apart, agrees.documents, ← document?_eq_lookup_filter apart]

theorem agreesBut_remove (index : SymbolIndex) (uri : String) : index.AgreesBut (index.remove uri) uri := by
  cases found : index.document? uri with
  | none =>
    have absent : index.contains uri = false := by rw [contains, found, Option.isSome_none]
    rw [remove_of_not_contains absent]
    exact .refl index uri
  | some table =>
    refine ⟨?_, fun part key => ?_⟩
    · rw [documents_remove, List.filter_filter]
      simp
    · have removed : (index.remove uri).aggregates.get part =
          (index.aggregates.get part).withdraw uri (table.buckets.get part) := by
        simp only [SymbolIndex.remove, found, ByClass.get_ofFn]
      rw [removed, get?_withdraw]
      cases (table.buckets.get part).get? key with
      | none => rfl
      | some spans =>
        -- A key that keeps no place goes, and without a key there is no place either.
        have listed (places : List Location) :
            ((some places).filter fun kept => !kept.isEmpty).getD [] = places := by
          cases places <;> rfl
        cases (index.aggregates.get part).get? key with
        | none => rfl
        | some places =>
          rw [Option.elim_some, Option.map_some, listed, Option.getD_some, List.filter_filter]
          simp

theorem agreesBut_replace (index : SymbolIndex) (uri : String) (table : SymbolTable) :
    index.AgreesBut (index.replace uri table) uri := by
  refine (agreesBut_remove index uri).trans ⟨?_, fun part key => ?_⟩
  · have documents : (index.replace uri table).documents =
        (index.remove uri).documents ++ [(uri, table)] := rfl
    rw [documents, List.filter_append]
    simp
  · have contributed : (index.replace uri table).aggregates.get part =
        ((index.remove uri).aggregates.get part).contribute uri part (table.buckets.get part) := by
      simp only [SymbolIndex.replace, ByClass.get_ofFn]
    rw [contributed, get?_contribute]
    cases (table.buckets.get part).get? key with
    | none => rfl
    | some spans => simp [Aggregate.locations]

end SymbolIndex

namespace Session

/-- What may be asked of a session for one document. A refresh finds a document or that there is none. -/
inductive Task where
  | index (cancelled : Nat → Bool) (document : Document)
  | remove (uri : String)
  | refresh (path : Path) (found : Option Document)

/-- The document that a task is about. -/
def Task.uri : Task → String
  | index _ document => document.uri
  | remove uri => uri
  | refresh path found => found.elim path.text (·.uri)

/-- A task from its call to its answer, while nothing else happens. -/
def perform (session : Session) : Task → Session × Bool
  | .index cancelled document => session.indexDocumentUnless cancelled document
  | .remove uri => session.removeDocument uri
  | .refresh path found => session.refresh ⟨path, [], found⟩

/-- At most one document has changed and, besides, what is requested of the saver. -/
structure DiffersIn (before after : Session) (uri : String) : Prop where
  frame : after.frame = before.frame
  root : after.root = before.root
  cachePath : after.store.cachePath = before.store.cachePath
  disk : after.disk = before.disk
  hosted : ∀ other, other ≠ uri → (other ∈ after.hostDocuments ↔ other ∈ before.hostDocuments)
  index : before.index.AgreesBut after.index uri

variable {before after session : Session} {uri : String}

theorem DiffersIn.requestSave (differs : before.DiffersIn after uri) :
    before.DiffersIn after.requestSave uri := by
  unfold Session.requestSave
  split
  · exact differs
  · exact ⟨differs.frame, differs.root, differs.cachePath, differs.disk, differs.hosted, differs.index⟩

/-- What an answer promises of a session before and after. -/
structure Truthful (before : Session) (uri : String) (outcome : Session × Bool) : Prop where
  idle : outcome.2 = false → outcome.1 = before
  effect : outcome.2 = true → before.DiffersIn outcome.1 uri ∧
    (before.stopped = false → outcome.1.store.isPending = true)

theorem Truthful.of_idle (session : Session) (uri : String) : session.Truthful uri (session, false) :=
  ⟨fun _ => rfl, fun answer => absurd answer Bool.false_ne_true⟩

theorem Truthful.of_effect (differs : before.DiffersIn after uri) :
    before.Truthful uri (after.requestSave, true) := by
  refine ⟨fun answer => absurd answer Bool.true_eq_false.mp, fun _ => ⟨differs.requestSave, fun running => ?_⟩⟩
  exact isPending_requestSave ((congrArg Frame.stopped differs.frame).trans running)

theorem truthful_index (session : Session) (cancelled : Nat → Bool) (document : Document) :
    session.Truthful document.uri (session.indexDocumentUnless cancelled document) := by
  unfold indexDocumentUnless
  split
  · cases SymbolTable.ofTextUnless? cancelled document.text with
    | none => exact .of_idle session _
    | some table =>
      exact .of_effect ⟨rfl, rfl, rfl, rfl, fun other apart => List.mem_insert_iff.trans (or_iff_right apart),
        SymbolIndex.agreesBut_replace session.index document.uri table⟩
  · exact .of_idle session _

/-- Only here it matters that a mark stands for a document in the index. -/
theorem truthful_remove (indexed : uri ∈ session.hostDocuments → session.index.contains uri) :
    session.Truthful uri (session.removeDocument uri) := by
  unfold removeDocument
  by_cases present : session.index.contains uri
  · rw [if_pos present]
    refine .of_effect ⟨rfl, rfl, rfl, rfl, fun other apart => ?_, SymbolIndex.agreesBut_remove session.index uri⟩
    exact List.mem_filter.trans (and_iff_left (decide_eq_true apart))
  · have unmarked : session.unmark uri = session := by
      have free : session.hostDocuments.filter (· ≠ uri) = session.hostDocuments := by
        rw [List.filter_eq_self]
        exact fun other hosted => decide_eq_true fun same => present (indexed (same ▸ hosted))
      rw [unmark, free]
    rw [if_neg present, unmarked]
    exact .of_idle session uri

theorem truthful_installFile (session : Session) (uri : String) (table : SymbolTable) :
    session.Truthful uri
      ((session.installFile uri table).1.saveChange (session.installFile uri table).2,
        (session.installFile uri table).2) := by
  unfold installFile
  split
  · exact .of_idle session uri
  · exact .of_effect ⟨rfl, rfl, rfl, rfl, fun _ _ => Iff.rfl,
      SymbolIndex.agreesBut_replace session.index uri table⟩

theorem truthful_dropFile (session : Session) (uri : String) :
    session.Truthful uri
      ((session.dropFile uri).1.saveChange (session.dropFile uri).2, (session.dropFile uri).2) := by
  unfold dropFile
  split
  · exact .of_idle session uri
  · exact .of_effect ⟨rfl, rfl, rfl, rfl, fun _ _ => Iff.rfl,
      SymbolIndex.agreesBut_remove session.index uri⟩

theorem truthful_refresh (session : Session) (path : Path) (found : Option Document) :
    session.Truthful (Task.refresh path found).uri (session.refresh ⟨path, [], found⟩) := by
  unfold refresh
  split
  · cases found with
    | some document => exact session.truthful_installFile document.uri _
    | none => exact session.truthful_dropFile path.text
  · exact .of_idle session _

theorem truthful_perform (task : Task)
    (indexed : task.uri ∈ session.hostDocuments → session.index.contains task.uri) :
    session.Truthful task.uri (session.perform task) := by
  cases task with
  | index cancelled document => exact session.truthful_index cancelled document
  | remove uri => exact truthful_remove indexed
  | refresh path found => exact session.truthful_refresh path found

end Session

/-! ### The editor's documents are indexed -/

namespace LiveSession
variable {live next : LiveSession} {event : Event}

/-- The index is given to those that wait for it in their order, so that calls on one document come to
their ends in the order in which they have set or taken their marks. -/
def InTurn (live next : LiveSession) : Prop :=
  next.calls.length < live.calls.length →
    ∃ earlier change later, live.calls = earlier ++ change :: later ∧ next.calls = earlier ++ later ∧
      ∀ other ∈ earlier, other.uri ≠ change.uri

/-- Some sequence of steps in which calls take their turns leads from one state to the other. -/
def ReachesInTurn : LiveSession → LiveSession → Prop :=
  Relation.ReflTransGen fun live next => (∃ event, live.Step event next) ∧ live.InTurn next

/-- A document with the editor's mark is in the index, if no call on it is under way. The last of those
that are under way decides whether the mark is there when all are through. -/
structure Accounted (live : LiveSession) : Prop where
  indexed : ∀ uri, Change.last? live.calls uri = none → uri ∈ live.session.hostDocuments →
    live.session.index.contains uri
  dropped : ∀ uri, Change.last? live.calls uri = some (.drop uri) → uri ∉ live.session.hostDocuments

theorem accounted_start (root : Path) (settings : Settings) (disk : Disk) :
    (start root settings disk).Accounted :=
  ⟨fun _ _ hosted => absurd hosted List.not_mem_nil, fun _ last => by contradiction⟩

theorem Accounted.spared (accounted : live.Accounted) (calls : next.calls = live.calls)
    (spares : live.session.holdings.Spares next.session.holdings) : next.Accounted := by
  have hosted : next.session.hostDocuments = live.session.hostDocuments := spares.hosted
  constructor
  · intro uri idle marked
    rw [calls] at idle
    rw [hosted] at marked
    obtain ⟨table, found⟩ := Option.isSome_iff_exists.mp (accounted.indexed uri idle marked)
    have kept : next.session.index.document? uri = some table := spares.kept uri marked table found
    rw [SymbolIndex.contains, kept, Option.isSome_some]
  · intro uri last
    rw [calls] at last
    rw [hosted]
    exact accounted.dropped uri last

theorem Accounted.mark (accounted : live.Accounted) (uri text : String) :
    Accounted
      { live.withSession (live.session.mark uri) with calls := live.calls ++ [.put uri text] } := by
  have marked {other : String} (apart : uri ≠ other) :
      other ∈ (live.session.mark uri).hostDocuments ↔ other ∈ live.session.hostDocuments :=
    List.mem_insert_iff.trans (or_iff_right apart.symm)
  constructor
  · intro other idle hosted
    rw [Change.last?_append] at idle
    split at idle
    · contradiction
    · next apart => exact accounted.indexed other idle ((marked apart).mp hosted)
  · intro other last
    rw [Change.last?_append] at last
    split at last
    · cases last
    · next apart => exact mt (marked apart).mp (accounted.dropped other last)

theorem Accounted.unmark (accounted : live.Accounted) (uri : String) :
    Accounted { live.withSession (live.session.unmark uri) with calls := live.calls ++ [.drop uri] } := by
  have unmarked (other : String) :
      other ∈ (live.session.unmark uri).hostDocuments ↔ other ∈ live.session.hostDocuments ∧ other ≠ uri :=
    List.mem_filter.trans (and_congr_right fun _ => decide_eq_true_iff)
  constructor
  · intro other idle hosted
    rw [Change.last?_append] at idle
    split at idle
    · contradiction
    · exact accounted.indexed other idle ((unmarked other).mp hosted).1
  · intro other last hosted
    obtain ⟨before, apart⟩ := (unmarked other).mp hosted
    rw [Change.last?_append] at last
    split at last
    · next own => exact apart own.symm
    · exact accounted.dropped other last before

/-- The first call on a document comes to its end. -/
theorem Accounted.complete (accounted : live.Accounted) {earlier later : List (Change String)}
    {change : Change String} (listed : live.calls = earlier ++ change :: later)
    (first : ∀ other ∈ earlier, other.uri ≠ change.uri) (answers : List (String × Bool)) :
    Accounted
      { live.withSession (live.session.complete change) with
        calls := earlier ++ later, answers := answers } := by
  have holdings := SharedSession.holdings_complete live.session change
  have hosted : (live.session.complete change).hostDocuments = live.session.hostDocuments :=
    congrArg Holdings.hosted holdings
  have index : (live.session.complete change).index =
      live.session.index.applyChange (change.map .ofText) := congrArg Holdings.index holdings
  have lasts (uri : String) := (congrArg (Change.last? · uri) listed).trans (Change.last?_around ..)
  -- Of the calls that are left, those on other documents are all there were.
  have others {uri : String} (apart : change.uri ≠ uri) :
      Change.last? (earlier ++ later) uri = Change.last? live.calls uri :=
    listed ▸ Change.last?_without apart
  have unmade : Change.last? earlier change.uri = none := Change.last?_eq_none_iff.mpr first
  constructor
  · intro uri idle marked
    replace marked : uri ∈ live.session.hostDocuments := hosted ▸ marked
    change (live.session.complete change).index.contains uri
    rw [index]
    by_cases own : change.uri = uri
    · subst own
      have through : Change.last? later change.uri = none := by
        rw [Change.last?_append_eq_or] at idle
        exact (Option.or_eq_none_iff.mp idle).1
      cases change with
      | put uri text => exact SymbolIndex.contains_iff.mpr (SymbolIndex.mem_uris_replace.mpr (.inl rfl))
      | drop uri =>
        have last := lasts uri
        rw [show Change.last? later uri = none from through, Option.none_or,
          if_pos (show (Change.drop uri : Change String).uri = uri from rfl), Option.some_or] at last
        exact absurd marked (accounted.dropped uri last)
    · have apart : (change.map SymbolTable.ofText).uri ≠ uri := by rwa [Change.uri_map]
      rw [SymbolIndex.contains, SymbolIndex.document?_applyChange apart]
      exact accounted.indexed uri (others own ▸ idle) marked
  · intro uri last
    change uri ∉ (live.session.complete change).hostDocuments
    rw [hosted]
    refine accounted.dropped uri ?_
    by_cases own : change.uri = uri
    · subst own
      have behind : Change.last? later change.uri = some (.drop change.uri) := by
        rwa [Change.last?_append_eq_or, unmade, Option.or_none] at last
      rw [lasts, behind, Option.some_or, Option.some_or]
    · exact others own ▸ last

/-- The call that a step takes from the list is known from what is left. -/
theorem eq_of_listed {α : Type} {one other : α} {earlier later earlier' later' : List α}
    (same : earlier ++ one :: later = earlier' ++ other :: later')
    (left : earlier ++ later = earlier' ++ later') : one = other := by
  have permuted : (one :: (earlier ++ later)).Perm (other :: (earlier ++ later)) := by
    have one_front := (@List.perm_middle _ one earlier later).symm
    have other_front := @List.perm_middle _ other earlier' later'
    rw [same] at one_front
    exact left ▸ one_front.trans other_front
  exact List.singleton_perm_singleton.mp ((List.perm_append_right_iff (earlier ++ later)).mp permuted)

theorem Accounted.step (accounted : live.Accounted) (step : live.Step event next)
    (inTurn : live.InTurn next) : next.Accounted := by
  cases step with
  | mark document cancelled accepted scanned => exact accounted.mark document.uri document.text
  | unmark uri => exact accounted.unmark uri
  | @complete earlier later change listed =>
    have fewer : (earlier ++ later).length < live.calls.length := by
      rw [listed]
      simp
    obtain ⟨earlier', change', later', listed', left, first⟩ := inTurn fewer
    have same : change = change' := eq_of_listed (listed ▸ listed') left
    subst same
    have completed := accounted.complete listed' first (live.answers ++ [live.session.answer change])
    rwa [← (show earlier ++ later = earlier' ++ later' from left)] at completed
  | refresh listed step => exact accounted.spared rfl step.spares
  | startUp step => exact accounted.spared rfl step.spares
  | claim listed free claims =>
    obtain ⟨saver, rfl, -⟩ := Errand.claim?_eq claims
    exact accounted.spared rfl (.of_eq rfl)
  | _ => exact accounted.spared rfl (.of_eq rfl)

theorem accounted_of_reaches (root : Path) (settings : Settings) (disk : Disk)
    (reached : (start root settings disk).ReachesInTurn live) : live.Accounted := by
  induction reached with
  | refl => exact accounted_start root settings disk
  | tail _ last ih =>
    obtain ⟨⟨event, step⟩, inTurn⟩ := last
    exact ih.step step inTurn

/-- Whatever the tasks have done before, calls on one document in turn, a call or refresh that comes while no
call on its document is under way tells the truth. If it answers no, the session is as it was, with its
index, the editor's documents and the pending save. If it answers yes, nothing but its document has changed:
the others have their tables, their marks and their places in the same order. And a save is pending then,
unless the session is shut down. -/
theorem answer_truthful (root : Path) (settings : Settings) (disk : Disk)
    (reached : (start root settings disk).ReachesInTurn live) (task : Session.Task)
    (idle : ∀ change ∈ live.calls, change.uri ≠ task.uri) :
    let outcome := live.session.perform task
    (outcome.2 = false → outcome.1 = live.session) ∧
    (outcome.2 = true → live.session.DiffersIn outcome.1 task.uri ∧
      (∀ uri, uri ≠ task.uri → outcome.1.index.document? uri = live.session.index.document? uri) ∧
      (live.session.stopped = false → outcome.1.store.isPending = true)) := by
  have indexed := (accounted_of_reaches root settings disk reached).indexed task.uri
    (Change.last?_eq_none_iff.mpr idle)
  have truthful := Session.truthful_perform task indexed
  refine ⟨truthful.idle, fun answer => ?_⟩
  obtain ⟨differs, pending⟩ := truthful.effect answer
  exact ⟨differs, fun uri apart => differs.index.document? apart, pending⟩

/-- While a document of the editor is indexed, another one is removed in vain and then it itself. -/
theorem answer_truthful_remove : ∃ live : LiveSession,
    (start ⟨"/"⟩ (.defaults none) .empty).ReachesInTurn live ∧
    live.session.hostDocuments = ["a.asm"] ∧
    (live.session.perform (.remove "b.asm")).1 = live.session ∧
    (live.session.perform (.remove "a.asm")).1.store.isPending = true := by
  let document : Document := ⟨"a.asm", none, "start:\n"⟩
  let begun := start ⟨"/"⟩ (.defaults none) .empty
  let marking : LiveSession :=
    { begun.withSession (begun.session.mark document.uri) with
      calls := [.put document.uri document.text] }
  have marked : begun.Step .call marking :=
    .mark document (fun _ => false) (by decide +kernel) (SymbolTable.ofTextUnless?_never _)
  have first : begun.InTurn marking := fun fewer => absurd fewer (by decide)
  have listed : marking.calls = [] ++ .put document.uri document.text :: [] := rfl
  let indexed : LiveSession :=
    { marking.withSession (marking.session.complete (.put document.uri document.text)) with
      calls := [], answers := [(document.uri, true)] }
  have completed : marking.Step .call indexed := .complete listed
  have second : marking.InTurn indexed := fun _ => ⟨[], _, [], listed, rfl, by simp⟩
  have reached : begun.ReachesInTurn indexed :=
    .tail (.single ⟨⟨_, marked⟩, first⟩) ⟨⟨_, completed⟩, second⟩
  have truthful := answer_truthful ⟨"/"⟩ (.defaults none) .empty reached
  refine ⟨indexed, reached, rfl, ?_, ?_⟩
  · exact (truthful (.remove "b.asm") (by rintro _ ⟨⟩)).1 (by decide +kernel)
  · exact ((truthful (.remove "a.asm") (by rintro _ ⟨⟩)).2 (by decide +kernel)).2.2 rfl

end LiveSession
end AssemblySymbols
