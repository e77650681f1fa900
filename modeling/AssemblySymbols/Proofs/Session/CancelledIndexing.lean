import AssemblySymbols.Proofs.Session.Holdings

/-! Documents that come with a cancellation already under way. Each line is preceded by a look at the
cancellation, so the scan of a text stops before its first line, if it has one. -/
namespace AssemblySymbols

theorem SymbolTable.ofTextUnless?_always (text : String) :
    ofTextUnless? (fun _ => true) text = if text = "" then some empty else none := by
  rw [ofTextUnless?_eq_ite]
  split
  · next begun =>
    obtain ⟨look, within, -⟩ := begun
    rw [if_neg]
    rintro rfl
    exact absurd within (Nat.not_lt_zero look)
  · next stopped =>
    have none : Text.lines text.toList = [] :=
      List.eq_nil_of_length_eq_zero (Nat.eq_zero_of_not_pos fun some => stopped ⟨0, some, rfl⟩)
    have blank : text = "" := String.toList_eq_nil_iff.mp (Text.lines_eq_nil_iff.mp none)
    rw [if_pos blank, blank]
    rfl

theorem SymbolTable.ofText_blank : ofText "" = empty := rfl

namespace Session

theorem indexDocumentUnless_always (session : Session) (document : Document) :
    session.indexDocumentUnless (fun _ => true) document =
      if document.text = "" then session.indexDocument document else (session, false) := by
  rw [indexDocument, indexDocumentUnless, indexDocumentUnless, SymbolTable.ofTextUnless?_always,
    SymbolTable.ofTextUnless?_never]
  by_cases blank : document.text = ""
  · rw [if_pos blank, if_pos blank, blank, SymbolTable.ofText_blank]
  · rw [if_neg blank, if_neg blank, ite_self]

theorem isPending_requestSave {session : Session} (running : session.stopped = false) :
    session.requestSave.store.isPending = true := by
  simp [requestSave, running, CachedIndex.schedule, CachedIndex.isPending, Saver.schedule,
    Saver.isPending]

/-- A call that comes cancelled leaves the session as it is, except that a document without any line
is taken over as if nothing had been cancelled: if it is accepted it loses its definitions. -/
theorem indexDocumentUnless_cancelled (session : Session) (document : Document) :
    let outcome := session.indexDocumentUnless (fun _ => true) document
    (outcome = (session, false) ↔
      ¬(session.filter.accepts document = true ∧ document.text = "")) ∧
    (session.filter.accepts document = true ∧ document.text = "" →
      outcome.2 = true ∧
      outcome.1.hostDocuments = session.hostDocuments.insert document.uri ∧
      (∀ uri, outcome.1.index.document? uri =
        if uri = document.uri then some .empty else session.index.document? uri) ∧
      outcome.1.store.isPending = (!session.stopped || session.store.isPending)) := by
  intro outcome
  by_cases exceptional : session.filter.accepts document = true ∧ document.text = ""
  · obtain ⟨accepted, blank⟩ := exceptional
    let installed := (session.mark document.uri).modifyIndex (·.replace document.uri .empty)
    have indexed : outcome = (installed.requestSave, true) := by
      rw [show outcome = _ from session.indexDocumentUnless_always document, if_pos blank,
        indexDocument_eq, if_pos accepted, blank, SymbolTable.ofText_blank]
    have holdings : outcome.1.holdings = installed.holdings := by
      rw [indexed, holdings_requestSave]
    have taken : outcome ≠ (session, false) := by simp [indexed]
    refine ⟨iff_of_false taken (not_not_intro ⟨accepted, blank⟩), fun _ => ⟨?_, ?_, ?_, ?_⟩⟩
    · rw [indexed]
    · exact congrArg Holdings.hosted holdings
    · intro uri
      have index : outcome.1.index = session.index.replace document.uri .empty :=
        congrArg Holdings.index holdings
      rw [index, SymbolIndex.document?_replace]
    · have stopped : installed.stopped = session.stopped := rfl
      rw [indexed]
      cases ended : session.stopped with
      | false => exact isPending_requestSave (stopped.trans ended)
      | true =>
        have kept : installed.requestSave = installed := if_pos (stopped.trans ended)
        rw [kept]
        rfl
  · have unchanged : outcome = (session, false) := by
      rw [show outcome = _ from session.indexDocumentUnless_always document, indexDocument_eq]
      by_cases blank : document.text = ""
      · rw [if_pos blank, if_neg fun accepted => exceptional ⟨accepted, blank⟩]
      · rw [if_neg blank]
    exact ⟨iff_of_true unchanged exceptional, fun held => absurd held exceptional⟩

theorem indexDocumentUnless_cancelled_blank :
    let session := ((start ⟨"/w"⟩ (.defaults none) .empty).indexDocument
      ⟨"/w/a.asm", none, "start:\n"⟩).1
    let document : Document := ⟨"/w/a.asm", none, ""⟩
    (session.filter.accepts document = true ∧ document.text = "") ∧
    session.index.document? "/w/a.asm" ≠ some .empty ∧
    (session.indexDocumentUnless (fun _ => true) document).2 = true ∧
    (session.indexDocumentUnless (fun _ => true) document).1.index.document? "/w/a.asm" =
      some .empty := by
  intro session document
  have exceptional : session.filter.accepts document = true ∧ document.text = "" := by
    decide +kernel
  obtain ⟨indexed, -, documents, -⟩ :=
    (session.indexDocumentUnless_cancelled document).2 exceptional
  exact ⟨exceptional, by decide +kernel, indexed, (documents "/w/a.asm").trans (if_pos rfl)⟩

end Session
end AssemblySymbols
