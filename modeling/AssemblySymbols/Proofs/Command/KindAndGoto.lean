import AssemblySymbols.Command.Run
import AssemblySymbols.Proofs.Session.IndexRuns
import AssemblySymbols.Proofs.Symbol.Kinds

/-! The two questions that can be asked about a name, what it stands for and where it is defined, and
the lines that the commands print in answer to them. -/
namespace AssemblySymbols

theorem Site.colon_mem_text (root : Path) (site : Site) : ':' ∈ (site.text root).toList := by
  simp [Site.text, String.toList_append]

theorem siteLines_eq_iff {root : Path} {sites : List Site} :
    siteLines root sites = ["no definition"] ↔ sites = [] := by
  unfold siteLines
  constructor
  · intro printed
    cases sites with
    | nil => rfl
    | cons site more =>
      have first : site.text root = "no definition" := (List.cons.inj printed).1
      have colon := site.colon_mem_text root
      rw [first] at colon
      exact absurd colon (by decide)
  · rintro rfl
    rfl

theorem Kind.text_getD_eq_iff {kind : Option Kind} :
    (kind.map Kind.text).getD "undefined" = "undefined" ↔ kind = none := by
  rcases kind with _ | _ | _ <;> decide

namespace Session
variable (session : Session) (name : String)

theorem runKind_eq_iff :
    (session.runKind name).2 = .ok ["undefined"] ↔
      (session.ensureInitialized session.openings?).1.index.kindOf? name = none := by
  rw [← Kind.text_getD_eq_iff]
  simp [runKind, kindOf?]

theorem runGoto_eq_iff :
    (session.runGoto name).2 = .ok ["no definition"] ↔
      (session.ensureInitialized session.openings?).1.index.definitionsOf name = [] := by
  simp [runGoto, definitionsOf, siteLines_eq_iff]

end Session

theorem Invocation.coherent_ensureInitialized {invocation : Invocation} {disk : Disk}
    {environment : Environment} {session : Session}
    (started : invocation.begin? disk environment = .ok session)
    (discovered : Option (List Session.Opening)) :
    (session.ensureInitialized discovered).1.index.Coherent := by
  have empty : session.index = .empty := by
    unfold begin? at started
    split at started
    · contradiction
    · cases started
      rfl
  exact (session.leadsTo_ensureInitialized discovered).coherent (empty ▸ SymbolIndex.coherent_empty)

/-- The kind of a name and its definitions agree in the index of every run: the kind is that of the map
which the first definition comes from. So a name has no kind exactly if it has no definition, it is a
value exactly if none of its definitions is a label, and over any workspace the one command prints
that it is undefined exactly if the other prints that there is no definition. -/
theorem kind_agrees_with_definitions (query : String) :
    (∀ operations : List SymbolIndex.Operation,
      let index := SymbolIndex.run operations
      let answer := index.answer query
      (index.definitionsOf query = answer.map Location.site ∧
        ∀ place ∈ answer, ∃ key places,
          (index.aggregates.get place.part).get? key = some places ∧ place ∈ places) ∧
      index.kindOf? query = answer.head?.map (·.part.kind) ∧
      (index.kindOf? query = none ↔ index.definitionsOf query = []) ∧
      (index.kindOf? query = some .value ↔
        index.definitionsOf query ≠ [] ∧ ∀ place ∈ answer, place.part.kind ≠ .label) ∧
      ∀ root, ((index.kindOf? query).map Kind.text).getD "undefined" = "undefined" ↔
        siteLines root (index.definitionsOf query) = ["no definition"]) ∧
    ∀ (root : String) (disk : Disk) (environment : Environment),
      (Invocation.run ⟨root, .kind query⟩ disk environment).2 = .ok ["undefined"] ↔
      (Invocation.run ⟨root, .goto query⟩ disk environment).2 = .ok ["no definition"] := by
  refine ⟨fun operations => ?_, fun root disk environment => ?_⟩
  · have coherent := SymbolIndex.coherent_run operations
    have sites := (SymbolIndex.run operations).definitionsOf_eq query
    refine ⟨⟨sites, fun place => coherent.mem_answer⟩, coherent.kindOf?_eq query,
      coherent.kindOf?_eq_none_iff query, ?_, fun root => ?_⟩
    · rw [coherent.kindOf?_eq, coherent.head?_eq_value_iff, sites, ne_eq, ne_eq, List.map_eq_nil_iff]
    · rw [Kind.text_getD_eq_iff, siteLines_eq_iff, coherent.kindOf?_eq_none_iff]
  · have begun : (Invocation.mk root (.kind query)).begin? disk environment =
        (Invocation.mk root (.goto query)).begin? disk environment := rfl
    rw [Invocation.run, Invocation.run, begun]
    cases started : (Invocation.mk root (.goto query)).begin? disk environment with
    | error => simp
    | ok session =>
      have coherent := Invocation.coherent_ensureInitialized started session.openings?
      exact (session.runKind_eq_iff query).trans
        ((coherent.kindOf?_eq_none_iff query).trans (session.runGoto_eq_iff query).symm)

end AssemblySymbols
