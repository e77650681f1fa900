import AssemblySymbols.Proofs.Source.LinePairs
import AssemblySymbols.Proofs.Symbol.DefinitionSpans
import AssemblySymbols.Proofs.Symbol.HistoryIndependence

/-! All spans of a table. What is added to a table is in it once, under one key of one class, so a table
has as many spans as there are definitions on the lines of its text, and none of them twice. -/
namespace AssemblySymbols

namespace KeyMap
variable {α : Type}

/-- The elements of all lists of a map. -/
def elements (map : KeyMap (List α)) : List α := map.entries.flatMap (·.2)

theorem elements_push (map : KeyMap (List α)) (key : String) (element : α) :
    (map.alter key fun old => some (old.getD [] ++ [element])).elements.Perm
      (element :: map.elements) := by
  suffices general : ∀ entries : List (String × List α),
      ((alterEntries key (fun old => some (old.getD [] ++ [element])) entries).flatMap (·.2)).Perm
        (element :: entries.flatMap (·.2)) from general map.entries
  intro entries
  induction entries with
  | nil => exact .refl _
  | cons entry rest ih =>
    rw [alterEntries]
    split
    · exact .refl _
    · split
      · simp only [Option.getD_some, Option.toList_some, List.map_cons, List.map_nil,
          List.singleton_append, List.flatMap_cons, List.append_assoc]
        exact List.perm_middle
      · simp only [List.flatMap_cons]
        exact (ih.append_left entry.2).trans List.perm_middle

end KeyMap

namespace SymbolTable

/-- The spans of all classes. -/
def spans (table : SymbolTable) : List Span := table.buckets.toList.flatMap KeyMap.elements

theorem spans_push (table : SymbolTable) (part : SymbolClass) (key : String) (span : Span) :
    (table.push part key span).spans.Perm (span :: table.spans) := by
  have listed : part ∈ SymbolClass.all := by
    obtain ⟨kind, policy⟩ := part
    cases kind <;> cases policy <;> decide
  have distinct : SymbolClass.all.Nodup := by decide
  obtain ⟨before, after, cut⟩ := List.append_of_mem listed
  rw [cut, List.nodup_middle, List.nodup_cons, List.mem_append, not_or] at distinct
  have others {parts : List SymbolClass} (apart : part ∉ parts) :
      (parts.flatMap fun other => ((table.push part key span).buckets.get other).elements) =
        parts.flatMap fun other => (table.buckets.get other).elements := by
    refine List.flatMap_congr fun other member => ?_
    have different : other ≠ part := fun same => apart (same ▸ member)
    rw [push, ByClass.get_modify, if_neg different]
  have own : ((table.push part key span).buckets.get part).elements.Perm
      (span :: (table.buckets.get part).elements) := by
    rw [push, ByClass.get_modify, if_pos rfl]
    exact KeyMap.elements_push _ key span
  simp only [spans, ByClass.toList, List.flatMap_map, cut, List.flatMap_append, List.flatMap_cons]
  rw [others distinct.1.1, others distinct.1.2]
  exact ((own.append_right _).append_left _).trans List.perm_middle

@[simp] theorem spans_empty : empty.spans = [] := by
  simp only [spans, ByClass.toList, List.flatMap_map, get_buckets_empty]
  exact List.flatMap_eq_nil_iff.mpr fun _ _ => rfl

theorem spans_add (table : SymbolTable) (kind : Kind) (rawName : String) (span : Span) :
    (table.add kind rawName span).spans.Perm
      (table.spans ++ if targetOf? kind rawName = none then [] else [span]) := by
  rw [add_eq]
  cases target : targetOf? kind rawName with
  | none => rw [if_pos rfl, List.append_nil]
  | some place =>
    rw [if_neg (Option.some_ne_none place)]
    exact (table.spans_push place.1 place.2 span).trans (List.perm_append_singleton ..).symm

/-- What is added under a name is in the table once. -/
theorem spans_ofAdditions (additions : List Addition) :
    (ofAdditions additions).spans.Perm ((additions.filter fun addition =>
      targetOf? addition.kind addition.rawName ≠ none).map (·.span)) := by
  induction additions using List.reverseRecOn with
  | nil => exact .of_eq spans_empty
  | append_singleton before addition ih =>
    rw [ofAdditions_concat, List.filter_append, List.map_append]
    refine (spans_add _ _ _ _).trans (ih.append (.of_eq ?_))
    by_cases blank : targetOf? addition.kind addition.rawName = none <;> simp [blank]

/-- Every definition has a name to be kept under. -/
theorem target_of_mem_additionsIn {text : String} {addition : Addition}
    (member : addition ∈ additionsIn text) : targetOf? addition.kind addition.rawName ≠ none := by
  obtain ⟨number, line, definition, span, defined, rfl⟩ := mem_additionsIn.mp member
  rw [targetOf?_of_isIdentifier _ (isIdentifier_of_classify defined.defined)]
  exact Option.some_ne_none _

theorem spans_ofText (text : String) :
    (ofText text).spans.Perm ((additionsIn text).map (·.span)) := by
  have added := spans_ofAdditions (additionsIn text)
  rw [List.filter_eq_self.mpr fun addition member =>
    decide_eq_true (target_of_mem_additionsIn member)] at added
  rwa [ofText_eq]

theorem definitionCount_eq_length (table : SymbolTable) :
    table.definitionCount = table.spans.length := by
  rw [definitionCount_eq, spans, List.length_flatMap, ByClass.toList, List.map_map]
  exact congrArg List.sum (List.map_congr_left fun _ _ => List.length_flatMap.symm)

theorem definitionCount_ofText (text : String) :
    (ofText text).definitionCount =
      ((Text.lines text.toList).map fun line => (classifyLine (stripComment line)).length).sum := by
  have perLine : (Text.lines text.toList).zipIdx.map
      (fun entry => (additionsOn entry.2.toUInt32 entry.1).length) =
      (Text.lines text.toList).map fun line => (classifyLine (stripComment line)).length := by
    conv_rhs => rw [← List.zipIdx_map_fst 0 (Text.lines text.toList), List.map_map]
    exact List.map_congr_left fun entry _ => List.length_map _
  rw [definitionCount_eq_length, (spans_ofText text).length_eq, List.length_map, additionsIn,
    List.length_flatMap]
  exact congrArg List.sum perLine

end SymbolTable

/-- The lines and columns of a text have numbers of 32 bits. -/
structure Addressable (text : String) : Prop where
  lines : (Text.lines text.toList).length < UInt32.size
  columns : ∀ line ∈ Text.lines text.toList, Text.utf16Length line < UInt32.size

/-- The additions are at different places, and the later one is on a later line if both go to the same
key. -/
structure Addition.Ordered (addition other : Addition) : Prop where
  distinct : addition.span.start ≠ other.span.start
  later : targetOf? addition.kind addition.rawName = targetOf? other.kind other.rawName →
    addition.span.start.line < other.span.start.line

namespace SymbolTable

theorem pairwise_additionsOn {line : List Char} (short : Text.utf16Length line < UInt32.size)
    (number : UInt32) : (additionsOn number line).Pairwise Addition.Ordered := by
  have code : Text.utf16Length (stripComment line) < UInt32.size := by
    have whole := List.takeWhile_append_dropWhile (p := (· != ';')) (l := line)
    rw [← whole, Text.utf16Length_append] at short
    exact lt_of_le_of_lt (Nat.le_add_right ..) short
  rw [additionsOn, List.pairwise_map]
  refine (classifyLine_apart (stripComment line)).imp fun {definition other} apart => ?_
  exact ⟨fun same => apart.columns code (congrArg Position.character same),
    fun same => absurd same apart.targets⟩

theorem pairwise_additionsIn {text : String} (addressable : Addressable text) :
    (additionsIn text).Pairwise Addition.Ordered := by
  rw [additionsIn, List.pairwise_flatMap]
  constructor
  · rintro ⟨line, number⟩ written
    exact pairwise_additionsOn (addressable.columns line (List.fst_mem_of_mem_zipIdx written)) _
  · have numbers : ((Text.lines text.toList).zipIdx.map (·.2)).Pairwise (· < ·) := by
      rw [List.zipIdx_map_snd]
      exact List.pairwise_lt_range'
    rw [List.pairwise_map] at numbers
    refine numbers.imp_of_mem fun {one another} written written' before => ?_
    intro addition added other added'
    have few := addressable.lines
    have last := List.snd_lt_of_mem_zipIdx written'
    have later : addition.span.start.line < other.span.start.line := by
      rw [(on_of_mem_additionsOn added).1, (on_of_mem_additionsOn added').1, UInt32.lt_iff_toNat_lt,
        UInt32.toNat_ofNat_of_lt' (by omega), UInt32.toNat_ofNat_of_lt' (by omega)]
      exact before
    exact ⟨fun same => (UInt32.ne_of_lt later) (congrArg Position.line same), fun _ => later⟩

/-- Later spans of a key are on later lines. -/
theorem ascending_spansOf {text : String} (addressable : Addressable text) (part : SymbolClass)
    (key : String) :
    ((ofText text).spansOf part key).Pairwise fun span other => span.start.line < other.start.line := by
  rw [ofText_eq, spansOf_ofAdditions, List.pairwise_map]
  refine ((pairwise_additionsIn addressable).filter _).imp_of_mem fun {one other} kept kept' ordered => ?_
  have target := of_decide_eq_true (List.mem_filter.mp kept).2
  have target' := of_decide_eq_true (List.mem_filter.mp kept').2
  exact ordered.later (target.trans target'.symm)

theorem nodup_spansOf {text : String} (addressable : Addressable text) (part : SymbolClass)
    (key : String) : ((ofText text).spansOf part key).Nodup :=
  (ascending_spansOf addressable part key).imp fun later same =>
    (UInt32.ne_of_lt later) (congrArg (fun span : Span => span.start.line) same)

theorem nodup_additionsIn {text : String} (addressable : Addressable text) :
    ((additionsIn text).map (·.span)).Nodup := by
  rw [List.Nodup, List.pairwise_map]
  exact (pairwise_additionsIn addressable).imp fun ordered same =>
    ordered.distinct (congrArg Span.start same)

theorem nodup_spans {text : String} (addressable : Addressable text) : (ofText text).spans.Nodup :=
  (spans_ofText text).nodup_iff.mpr (nodup_additionsIn addressable)

/-- A span stands under one key of one class. -/
theorem place_unique {text : String} (addressable : Addressable text) {part part' : SymbolClass}
    {key key' : String} {span : Span} (member : span ∈ (ofText text).spansOf part key)
    (member' : span ∈ (ofText text).spansOf part' key') : part' = part ∧ key' = key := by
  rw [ofText_eq, spansOf_ofAdditions] at member member'
  obtain ⟨addition, kept, rfl⟩ := List.mem_map.mp member
  obtain ⟨other, kept', same⟩ := List.mem_map.mp member'
  obtain ⟨added, target⟩ := List.mem_filter.mp kept
  obtain ⟨added', target'⟩ := List.mem_filter.mp kept'
  cases List.inj_on_of_nodup_map (nodup_additionsIn addressable) added' added same
  have both := (of_decide_eq_true target').symm.trans (of_decide_eq_true target)
  exact Prod.mk.inj (Option.some.inj both)

end SymbolTable

/-- The columns of a definition, counted on its line, are those that its name lies between. -/
theorem DefinedOn.located {text : String} {number : Nat} {line : List Char}
    {definition : LineDefinition} {span : Span} (addressable : Addressable text)
    (defined : DefinedOn text number line definition span) :
    lineText? text.toList span.start.line = some line ∧ span.stop.line = span.start.line ∧
    ∃ found : Occurrence, line = found.text ∧ IsIdentifier found.name ∧
      definition = found.definition definition.construct ∧
      Text.utf16Length found.before = span.start.character.toNat ∧
      Text.utf16Length (found.before ++ found.name) = span.stop.character.toNat := by
  have numbered : number.toUInt32.toNat = number := by
    have inside := (List.getElem?_eq_some_iff.mp defined.written).1
    exact UInt32.toNat_ofNat_of_lt' (lt_trans inside addressable.lines)
  have short := addressable.columns line (List.mem_of_getElem? defined.written)
  obtain ⟨found, isolated, name, rest, code, start, stop⟩ := occurrence_of_classify defined.defined
  have first : span.start = ⟨number.toUInt32, (Text.utf16Length found.before).toUInt32⟩ := by
    rw [defined.place, Span.onLine, start, code, List.append_assoc, Text.utf16Column_append]
  have last : span.stop =
      ⟨number.toUInt32, (Text.utf16Length (found.before ++ found.name)).toUInt32⟩ := by
    rw [defined.place, Span.onLine, stop, code, Text.utf16Column_append]
  have inside : Text.utf16Length (found.before ++ found.name) ≤ Text.utf16Length line := by
    rw [isolated.cut, Text.utf16Length_append _ found.after]
    omega
  have before : Text.utf16Length found.before ≤ Text.utf16Length (found.before ++ found.name) := by
    rw [Text.utf16Length_append]
    omega
  refine ⟨?_, by rw [first, last], found, isolated.cut, isolated.identifier, ?_, ?_, ?_⟩
  · rw [first, lineText?, numbered, defined.written]
  · rw [Occurrence.definition, Text.length_encode, Text.length_encode, ← start, ← stop, ← name]
  · rw [first, UInt32.toNat_ofNat_of_lt' (by omega)]
  · rw [last, UInt32.toNat_ofNat_of_lt' (by omega)]

namespace SymbolTable

/-- Every span in the table of a text leads to a definition on its line: cut at the two columns, the line
gives an identifier that the line defines there, as a name of the class and with the key that the span
stands under. Conversely every definition of a line stands once under the key of its name, and nowhere
else, so the table counts all definitions of all lines. -/
theorem spansOf_sound_complete {text : String} (addressable : Addressable text) :
    (∀ part key span, span ∈ (ofText text).spansOf part key →
      span.stop.line = span.start.line ∧ span.start.character < span.stop.character ∧
      ∃ line found construct name,
        lineText? text.toList span.start.line = some line ∧ line = Occurrence.text found ∧
        Text.utf16Length found.before = span.start.character.toNat ∧
        Text.utf16Length (found.before ++ found.name) = span.stop.character.toNat ∧
        IsIdentifier found.name ∧
        found.definition construct ∈ classifyLine (stripComment line) ∧ construct.kind = part.kind ∧
        Name.parse? (String.ofList found.name) = some name ∧ name.policy = part.policy ∧
        name.key = key) ∧
    (∀ number line definition span, DefinedOn text number line definition span →
      ∃ name, Name.parse? definition.name = some name ∧
        ((ofText text).spansOf ⟨definition.kind, name.policy⟩ name.key).count span = 1 ∧
        ∀ part key, span ∈ (ofText text).spansOf part key →
          part = ⟨definition.kind, name.policy⟩ ∧ key = name.key) ∧
    (ofText text).definitionCount =
      ((Text.lines text.toList).map fun line => (classifyLine (stripComment line)).length).sum := by
  refine ⟨fun part key span member => ?_, fun number line definition span defined => ?_,
    definitionCount_ofText text⟩
  · obtain ⟨number, line, definition, defined, target⟩ := mem_spansOf_iff.mp member
    obtain ⟨written, level, found, cut, identifier, measured, first, last⟩ := defined.located addressable
    obtain ⟨name, parsed, kept⟩ := Option.map_eq_some_iff.mp target
    cases kept
    refine ⟨level, ?_, line, found, definition.construct, name, written, cut, first, last, identifier,
      measured ▸ defined.defined, rfl, ?_, rfl, rfl⟩
    · have wide := identifier.utf16Length_pos
      rw [UInt32.lt_iff_toNat_lt, ← first, ← last, Text.utf16Length_append]
      omega
    · have spelled : definition.name = String.ofList found.name := congrArg LineDefinition.name measured
      rw [← spelled, parsed]
  · have kept := targetOf?_of_isIdentifier definition.kind (isIdentifier_of_classify defined.defined)
    obtain ⟨name, parsed, -⟩ := Option.map_eq_some_iff.mp kept
    have target : targetOf? definition.kind definition.name =
        some (⟨definition.kind, name.policy⟩, name.key) := by rw [targetOf?, parsed, Option.map_some]
    have member := mem_spansOf_iff.mpr ⟨number, line, definition, defined, target⟩
    exact ⟨name, parsed, List.count_eq_one_of_mem (nodup_spansOf addressable _ _) member,
      fun part key member' => place_unique addressable member member'⟩

/-- A line with two definitions, behind a space of three bytes. -/
theorem spansOf_sound_complete_equ :
    let text := "\u3000define equ? 5 ; é\n"
    Addressable text ∧
    (ofText text).spansOf ⟨.value, .sensitive⟩ "define" = [⟨⟨0, 1⟩, ⟨0, 7⟩⟩] ∧
    (ofText text).spansOf ⟨.value, .insensitive⟩ "equ" = [⟨⟨0, 8⟩, ⟨0, 12⟩⟩] ∧
    (ofText text).definitionCount = 2 := by
  intro text
  have addressable : Addressable text := ⟨by decide +kernel, by decide +kernel⟩
  obtain ⟨-, -, count⟩ := spansOf_sound_complete addressable
  exact ⟨addressable, by decide +kernel, by decide +kernel, count.trans (by decide +kernel)⟩

end SymbolTable
end AssemblySymbols
