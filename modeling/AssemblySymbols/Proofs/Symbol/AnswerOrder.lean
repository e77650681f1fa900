import AssemblySymbols.Proofs.Symbol.Kinds
import AssemblySymbols.Proofs.Symbol.TableSpans

/-! The order in which a query finds the places of a name. Within a document they come as the text has
them, labels before values, and no place comes twice: a line that defines two names defines them under
different keys. -/
namespace AssemblySymbols

/-- The span starts before the other one, by lines and then by columns. -/
def Span.Before (span other : Span) : Prop :=
  span.start.line < other.start.line ∨
    span.start.line = other.start.line ∧ span.start.character < other.start.character

theorem SymbolTable.before_spansOf {text : String} (addressable : Addressable text)
    (part : SymbolClass) (key : String) : ((ofText text).spansOf part key).Pairwise Span.Before :=
  (ascending_spansOf addressable part key).imp Or.inl

section Documents
variable {documents : List (String × SymbolTable)}

/-- The tables are those of texts. -/
def AllOfTexts (documents : List (String × SymbolTable)) : Prop :=
  ∀ entry ∈ documents, ∃ text, Addressable text ∧ entry.2 = .ofText text

theorem nodup_sites_placesIn (distinct : (documents.map (·.1)).Nodup) (texts : AllOfTexts documents)
    (part : SymbolClass) (key : String) :
    ((placesIn documents part key).map Location.site).Nodup := by
  rw [placesIn, List.map_flatMap, List.nodup_flatMap]
  constructor
  · intro entry member
    obtain ⟨text, addressable, table⟩ := texts entry member
    rw [List.map_map, table]
    refine (SymbolTable.nodup_spansOf addressable part key).map fun span other same => ?_
    exact congrArg Site.span same
  · refine (List.pairwise_map.mp distinct).imp fun {entry other} different => ?_
    intro site member member'
    obtain ⟨place, placed, rfl⟩ := List.mem_map.mp member
    obtain ⟨place', placed', same⟩ := List.mem_map.mp member'
    obtain ⟨span, -, rfl⟩ := List.mem_map.mp placed
    obtain ⟨span', -, rfl⟩ := List.mem_map.mp placed'
    exact different (congrArg Site.uri same).symm

/-- A site stands under one key of one class. -/
theorem place_unique_of_site (distinct : (documents.map (·.1)).Nodup) (texts : AllOfTexts documents)
    {part part' : SymbolClass} {key key' : String} {site : Site}
    (member : site ∈ (placesIn documents part key).map Location.site)
    (member' : site ∈ (placesIn documents part' key').map Location.site) :
    part' = part ∧ key' = key := by
  obtain ⟨place, placed, rfl⟩ := List.mem_map.mp member
  obtain ⟨place', placed', same⟩ := List.mem_map.mp member'
  obtain ⟨entry, listed, span, stands, rfl⟩ := mem_placesIn.mp placed
  obtain ⟨entry', listed', span', stands', rfl⟩ := mem_placesIn.mp placed'
  cases List.inj_on_of_nodup_map distinct listed' listed (congrArg Site.uri same)
  cases congrArg Site.span same
  obtain ⟨text, addressable, table⟩ := texts entry listed
  rw [table] at stands stands'
  exact SymbolTable.place_unique addressable stands stands'

end Documents

namespace SymbolIndex
variable {index : SymbolIndex}

/-- The places that a query leads to for names of a kind. -/
def answerOf (index : SymbolIndex) (query : String) (kind : Kind) : List Location :=
  (index.answer query).filter (·.part.kind = kind)

/-- What a query leads to is what the documents define under one key of a policy, labels first. -/
theorem Coherent.answer_eq (coherent : index.Coherent) (query : String) :
    (index.answer query = [] ∧ ∀ kind, index.answerOf query kind = []) ∨
    ∃ policy key,
      index.answer query = placesIn index.documents ⟨.label, policy⟩ key ++
        placesIn index.documents ⟨.value, policy⟩ key ∧
      ∀ kind, index.answerOf query kind = placesIn index.documents ⟨kind, policy⟩ key := by
  unfold answerOf
  rcases index.answer_cases query with none | ⟨policy, key, under⟩
  · exact .inl ⟨none, fun kind => by rw [none, List.filter_nil]⟩
  · rw [placesUnder, coherent.listed, coherent.listed, listing_getD, listing_getD] at under
    refine .inr ⟨policy, key, under, fun kind => ?_⟩
    have own (kind : Kind) : (placesIn index.documents ⟨kind, policy⟩ key).filter (·.part.kind = kind) =
        placesIn index.documents ⟨kind, policy⟩ key :=
      List.filter_eq_self.mpr fun place member => by rw [part_of_mem_placesIn member, decide_eq_true rfl]
    have other {kind another : Kind} (different : another ≠ kind) :
        (placesIn index.documents ⟨another, policy⟩ key).filter (·.part.kind = kind) = [] :=
      List.filter_eq_nil_iff.mpr fun place member => by
        rw [part_of_mem_placesIn member, decide_eq_true_eq]
        exact different
    rw [under, List.filter_append]
    cases kind with
    | label => rw [own, other (by decide), List.append_nil]
    | value => rw [own, other (by decide), List.nil_append]

end SymbolIndex

/-- In the table of a text each key lists its spans in the order of the text, and no span is there twice.
Hence no query of an index of such texts finds a site twice. It finds labels first, and both the labels
and the values of each document in the order of its text. -/
theorem spans_and_answers_ordered :
    (∀ text, Addressable text →
      (∀ part key, ((SymbolTable.ofText text).spansOf part key).Pairwise Span.Before) ∧
      (SymbolTable.ofText text).spans.Nodup) ∧
    ∀ changes : List (Change String),
      (∀ entry ∈ Change.live changes, Addressable entry.2) →
      ∀ query,
        let index := SymbolIndex.ofTexts changes
        (index.definitionsOf query).Nodup ∧
        index.definitionsOf query =
          (index.answerOf query .label ++ index.answerOf query .value).map Location.site ∧
        ∀ uri kind,
          (((index.answerOf query kind).filter (·.uri = uri)).map (·.span)).Pairwise Span.Before := by
  constructor
  · intro text addressable
    exact ⟨SymbolTable.before_spansOf addressable, SymbolTable.nodup_spans addressable⟩
  intro changes addressable query index
  have coherent : index.Coherent := SymbolIndex.coherent_ofTexts changes
  have texts : AllOfTexts index.documents := by
    intro entry member
    rw [SymbolIndex.documents_ofTexts] at member
    obtain ⟨written, live, rfl⟩ := List.mem_map.mp member
    exact ⟨written.2, addressable written live, rfl⟩
  rw [SymbolIndex.definitionsOf_eq]
  rcases coherent.answer_eq query with ⟨none, parts⟩ | ⟨policy, key, whole, parts⟩
  · simp [none, parts]
  · rw [whole, parts, parts]
    refine ⟨?_, rfl, fun uri kind => ?_⟩
    · rw [List.map_append, List.nodup_append']
      refine ⟨nodup_sites_placesIn coherent.distinct texts _ _,
        nodup_sites_placesIn coherent.distinct texts _ _, fun site label value => ?_⟩
      have same := (place_unique_of_site coherent.distinct texts label value).1
      exact absurd (congrArg SymbolClass.kind same) (by simp)
    · rw [parts, placesIn_filter_uri coherent.distinct, List.map_map]
      cases found : index.documents.lookup uri with
      | none => exact .nil
      | some table =>
        obtain ⟨text, addressable, rfl⟩ := texts (uri, table) (mem_of_lookup found)
        exact (List.map_id _).symm ▸ SymbolTable.before_spansOf addressable ⟨kind, policy⟩ key

/-- A label and values of one name, one of them in the second column of definitions on its line. -/
theorem spans_and_answers_ordered_equ :
    let changes : List (Change String) :=
      [.put "a.asm" "define equ 5\nequ:\nequ = 6\n", .put "b.asm" "equ = 1\n"]
    let index := SymbolIndex.ofTexts changes
    (∀ entry ∈ Change.live changes, Addressable entry.2) ∧
    index.definitionsOf "equ" =
      [⟨"a.asm", ⟨⟨1, 0⟩, ⟨1, 3⟩⟩⟩, ⟨"a.asm", ⟨⟨0, 7⟩, ⟨0, 10⟩⟩⟩, ⟨"a.asm", ⟨⟨2, 0⟩, ⟨2, 3⟩⟩⟩,
        ⟨"b.asm", ⟨⟨0, 0⟩, ⟨0, 3⟩⟩⟩] ∧
    (index.definitionsOf "equ").Nodup ∧
    (((index.answerOf "equ" .value).filter (·.uri = "a.asm")).map (·.span)).Pairwise Span.Before := by
  intro changes index
  have addressable : ∀ entry ∈ Change.live changes, Addressable entry.2 := by
    have live : Change.live changes =
        [("a.asm", "define equ 5\nequ:\nequ = 6\n"), ("b.asm", "equ = 1\n")] := by decide +kernel
    rw [live]
    intro entry member
    rcases List.mem_pair.mp member with rfl | rfl
    · exact ⟨by decide +kernel, by decide +kernel⟩
    · exact ⟨by decide +kernel, by decide +kernel⟩
  obtain ⟨distinct, -, ordered⟩ := spans_and_answers_ordered.2 changes addressable "equ"
  exact ⟨addressable, by decide +kernel, distinct, ordered "a.asm" .value⟩

end AssemblySymbols
