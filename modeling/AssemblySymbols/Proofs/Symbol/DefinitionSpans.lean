import AssemblySymbols.Proofs.Source.Occurrences
import AssemblySymbols.Proofs.Symbol.TableGrouping

/-! The spans in the table of a text are those of the definitions on its lines. -/
namespace AssemblySymbols

/-- A line of a text defines a name, and that is where it stands. -/
structure DefinedOn (text : String) (number : Nat) (line : List Char) (definition : LineDefinition)
    (span : Span) : Prop where
  written : (Text.lines text.toList)[number]? = some line
  defined : definition ∈ classifyLine (stripComment line)
  place : span = .onLine number.toUInt32 (stripComment line) definition.start definition.stop

/-- The span begins and ends on the line. -/
def Span.On (number : UInt32) (span : Span) : Prop :=
  span.start.line = number ∧ span.stop.line = number

instance (number : UInt32) (span : Span) : Decidable (span.On number) :=
  inferInstanceAs (Decidable (_ ∧ _))

namespace DefinedOn
variable {text : String} {number : Nat} {line : List Char} {definition : LineDefinition} {span : Span}

theorem added (defined : DefinedOn text number line definition span) :
    ⟨definition.kind, definition.name, span⟩ ∈ SymbolTable.additionsIn text := by
  refine List.mem_flatMap.mpr ⟨(line, number), List.mem_zipIdx_iff_getElem?.mpr defined.written, ?_⟩
  exact List.mem_map.mpr ⟨definition, defined.defined, by rw [defined.place]⟩

end DefinedOn

namespace SymbolTable

theorem on_of_mem_additionsOn {number : UInt32} {line : List Char} {addition : Addition}
    (member : addition ∈ additionsOn number line) : addition.span.On number := by
  obtain ⟨definition, -, rfl⟩ := List.mem_map.mp member
  exact ⟨rfl, rfl⟩

theorem mem_additionsIn {text : String} {addition : Addition} :
    addition ∈ additionsIn text ↔
      ∃ number line definition span, DefinedOn text number line definition span ∧
        addition = ⟨definition.kind, definition.name, span⟩ := by
  constructor
  · intro member
    obtain ⟨⟨line, number⟩, written, on⟩ := List.mem_flatMap.mp member
    obtain ⟨definition, defined, rfl⟩ := List.mem_map.mp on
    exact ⟨number, line, definition, _, ⟨List.mem_zipIdx_iff_getElem?.mp written, defined, rfl⟩, rfl⟩
  · rintro ⟨number, line, definition, span, defined, rfl⟩
    exact defined.added

theorem mem_spansOf_ofText {text : String} {addition : Addition} {part : SymbolClass}
    {key : String} (added : addition ∈ additionsIn text)
    (target : targetOf? addition.kind addition.rawName = some (part, key)) :
    addition.span ∈ (ofText text).spansOf part key := by
  rw [ofText_eq, spansOf_ofAdditions]
  exact List.mem_map_of_mem (List.mem_filter.mpr ⟨added, decide_eq_true target⟩)

theorem mem_spansOf_iff {text : String} {part : SymbolClass} {key : String} {span : Span} :
    span ∈ (ofText text).spansOf part key ↔
      ∃ number line definition, DefinedOn text number line definition span ∧
        targetOf? definition.kind definition.name = some (part, key) := by
  constructor
  · intro member
    rw [ofText_eq, spansOf_ofAdditions] at member
    obtain ⟨addition, found, rfl⟩ := List.mem_map.mp member
    obtain ⟨added, target⟩ := List.mem_filter.mp found
    obtain ⟨number, line, definition, span, defined, rfl⟩ := mem_additionsIn.mp added
    exact ⟨number, line, definition, defined, of_decide_eq_true target⟩
  · rintro ⟨number, line, definition, defined, target⟩
    exact mem_spansOf_ofText defined.added target

theorem definedOn_of_mem_spansOf {text : String} {part : SymbolClass} {key : String}
    {span : Span} (member : span ∈ (ofText text).spansOf part key) :
    ∃ number line definition, DefinedOn text number line definition span := by
  obtain ⟨number, line, definition, defined, -⟩ := mem_spansOf_iff.mp member
  exact ⟨number, line, definition, defined⟩

end SymbolTable

/-- The span of a definition is that of its name on the whole line. -/
theorem columns_of_classify {line : List Char} {definition : LineDefinition} {number : UInt32}
    (member : definition ∈ classifyLine (stripComment line)) {span : Span}
    (place : span = .onLine number (stripComment line) definition.start definition.stop) :
    ∃ found : Occurrence, found.Isolated line ∧ definition.name = String.ofList found.name ∧
      span = ⟨⟨number, (Text.utf16Length found.before).toUInt32⟩,
        ⟨number, (Text.utf16Length (found.before ++ found.name)).toUInt32⟩⟩ ∧
      Text.utf16Length found.before ≤ Text.utf16Length (found.before ++ found.name) ∧
      Text.utf16Length (found.before ++ found.name) ≤ Text.utf16Length line := by
  obtain ⟨found, isolated, name, rest, code, start, stop⟩ := occurrence_of_classify member
  refine ⟨found, isolated, name, ?_, ?_, ?_⟩
  · rw [place, Span.onLine, stop, code, Text.utf16Column_append, start, List.append_assoc,
      Text.utf16Column_append]
  · rw [Text.utf16Length_append]
    omega
  · rw [isolated.cut, Text.utf16Length_append _ found.after]
    omega

end AssemblySymbols
