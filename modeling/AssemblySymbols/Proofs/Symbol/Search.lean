import AssemblySymbols.Proofs.Source.DefinedNames
import AssemblySymbols.Proofs.Symbol.Coherence

/-! A look-up by search: every line of every text is read again and every definition compared with the
name in question. The index gives the same answer. -/
namespace AssemblySymbols

/-- A definition in one of several texts. -/
structure Definition where
  name : String
  kind : Kind
  site : Site
deriving DecidableEq, Repr

/-- All definitions in texts, line after line and in the order of the line. -/
def definitionsIn (texts : List (String × String)) : List Definition :=
  texts.flatMap fun (uri, text) => (Text.lines text.toList).zipIdx.flatMap fun (line, number) =>
    let code := stripComment line
    (classifyLine code).map fun found =>
      ⟨found.name, found.kind, uri, .onLine number.toUInt32 code found.start found.stop⟩

/-- A name ends in a marker and is not the marker alone. -/
def isMarked (name : List Char) : Bool := name.getLast? == some '?' && name != ['?']

def withoutMarker (name : List Char) : List Char := if isMarked name then name.dropLast else name

/-- The sites of the labels among some definitions and then those of the values. -/
def labelsFirst (definitions : List Definition) : List Site :=
  ((definitions.filter (·.kind = .label)) ++ (definitions.filter (·.kind = .value))).map (·.site)

/-- A name without marker leads to the unmarked definitions of just that name. If there are none, and
for a marked name, the marked definitions count that are the same but for case. -/
def search (definitions : List Definition) (query : String) : List Site :=
  let sought := Text.trim query.toList
  let exact := definitions.filter fun definition =>
    !isMarked definition.name.toList && definition.name.toList = sought
  let alike := definitions.filter fun definition =>
    isMarked definition.name.toList &&
      Text.lowercase (withoutMarker definition.name.toList) = Text.lowercase (withoutMarker sought)
  if sought = [] then []
  else if !isMarked sought && !exact.isEmpty then labelsFirst exact
  else labelsFirst alike

namespace Name

theorem split?_eq {text : List Char} (some_text : text ≠ []) :
    split? text = some ⟨String.ofList (withoutMarker text), isMarked text⟩ := by
  obtain ⟨first, tail, rfl⟩ := List.exists_cons_of_ne_nil some_text
  by_cases last : (first :: tail).getLast? = some '?'
  · by_cases alone : tail = []
    · subst alone
      have first_eq : first = '?' := by simpa using last
      simp [split?, withoutMarker, isMarked, first_eq]
    · simp [split?, withoutMarker, isMarked, last, alone]
  · simp [split?, withoutMarker, isMarked, last]

theorem parse?_eq_none_iff {raw : String} : parse? raw = none ↔ Text.trim raw.toList = [] := by
  constructor
  · intro none
    by_contra some_text
    rw [parse?, split?_eq some_text] at none
    contradiction
  · intro blank
    rw [parse?, blank]
    rfl

end Name

theorem targetOf?_of_named (kind : Kind) {rawName : String}
    (named : Text.trim rawName.toList ≠ []) :
    targetOf? kind rawName = some
      (if isMarked (Text.trim rawName.toList) then
        (⟨kind, .insensitive⟩,
          String.ofList (Text.lowercase (withoutMarker (Text.trim rawName.toList))))
      else (⟨kind, .sensitive⟩, String.ofList (Text.trim rawName.toList))) := by
  rw [targetOf?, Name.parse?, Name.split?_eq named]
  by_cases marked : isMarked (Text.trim rawName.toList)
  · simp [Name.policy, Name.key, Name.insensitiveKey, marked]
  · simp [Name.policy, Name.key, withoutMarker, marked]

/-- Nothing is trimmed off an identifier. -/
theorem IsIdentifier.trim_eq {text : List Char} (identifier : IsIdentifier text) :
    Text.trim text = text :=
  Text.trim_eq_self fun c member => isBlank_of_isIdentifierChar (identifier.all c member)

theorem Name.parse?_of_isIdentifier {raw : String} (identifier : IsIdentifier raw.toList) :
    parse? raw = some ⟨String.ofList (withoutMarker raw.toList), isMarked raw.toList⟩ := by
  rw [parse?, identifier.trim_eq, split?_eq identifier.ne_nil]

theorem targetOf?_of_isIdentifier (kind : Kind) {name : String} (identifier : IsIdentifier name.toList) :
    targetOf? kind name = some
      (if isMarked name.toList then
        (⟨kind, .insensitive⟩, String.ofList (Text.lowercase (withoutMarker name.toList)))
      else (⟨kind, .sensitive⟩, name)) := by
  have named : Text.trim name.toList ≠ [] := identifier.trim_eq.symm ▸ identifier.ne_nil
  rw [targetOf?_of_named kind named, identifier.trim_eq, String.ofList_toList]

theorem isIdentifier_of_mem_definitionsIn {texts : List (String × String)} {definition : Definition}
    (member : definition ∈ definitionsIn texts) : IsIdentifier definition.name.toList := by
  obtain ⟨entry, _, inText⟩ := List.mem_flatMap.mp member
  obtain ⟨line, _, onLine⟩ := List.mem_flatMap.mp inText
  obtain ⟨found, foundMember, rfl⟩ := List.mem_map.mp onLine
  exact isIdentifier_of_classify foundMember

theorem definitionsIn_eq (texts : List (String × String)) :
    definitionsIn texts = texts.flatMap fun entry =>
      (SymbolTable.additionsIn entry.2).map fun addition =>
        ⟨addition.rawName, addition.kind, entry.1, addition.span⟩ := by
  simp only [definitionsIn, SymbolTable.additionsIn, SymbolTable.additionsOn, List.map_flatMap,
    List.map_map, Function.comp_def]

theorem sites_placesIn (texts : List (String × String)) (part : SymbolClass) (key : String) :
    (placesIn (texts.map fun entry => (entry.1, SymbolTable.ofText entry.2)) part key).map Location.site =
      ((definitionsIn texts).filter fun definition =>
        targetOf? definition.kind definition.name = some (part, key)).map (·.site) := by
  rw [definitionsIn_eq, placesIn, List.flatMap_map, List.map_flatMap, List.filter_flatMap,
    List.map_flatMap]
  refine congrArg (texts.flatMap ·) (funext fun entry => ?_)
  simp only [SymbolTable.ofText_eq, SymbolTable.spansOf_ofAdditions, List.filter_map, List.map_map,
    Function.comp_def]
  rfl

namespace SymbolIndex

/-- The index of texts that come and go. -/
def ofTexts (changes : List (Change String)) : SymbolIndex :=
  changes.foldl (fun index change =>
    match change with
    | .put uri text => index.indexText uri text
    | .drop uri => index.remove uri) empty

theorem ofTexts_eq (changes : List (Change String)) :
    ofTexts changes = empty.applyChanges (changes.map (Change.map SymbolTable.ofText)) := by
  rw [ofTexts, applyChanges, List.foldl_map]
  congr 1
  funext index change
  cases change <;> rfl

theorem documents_ofTexts (changes : List (Change String)) :
    (ofTexts changes).documents =
      (Change.live changes).map fun entry => (entry.1, SymbolTable.ofText entry.2) := by
  rw [ofTexts_eq, documents_applyChanges, Change.live_map]

theorem coherent_ofTexts (changes : List (Change String)) : (ofTexts changes).Coherent := by
  rw [ofTexts_eq]
  apply coherent_empty.applyChanges
  intro uri table member
  obtain ⟨change, _, same⟩ := List.mem_map.mp member
  cases change with
  | put uri' text =>
    cases same
    exact SymbolTable.compact_ofText text
  | drop uri' => cases same

theorem sites_ofTexts (changes : List (Change String)) (part : SymbolClass) (key : String) :
    ((ofTexts changes).aggregates.get part).sites key =
      ((definitionsIn (Change.live changes)).filter fun definition =>
        targetOf? definition.kind definition.name = some (part, key)).map (·.site) := by
  rw [Aggregate.sites, (coherent_ofTexts changes).listed, listing_getD, documents_ofTexts,
    sites_placesIn]

/-- The aggregated maps of labels and of values together list the definitions that are kept under a key
of their policy. -/
theorem sites_by_kind (changes : List (Change String)) (policy : CasePolicy) (key : String)
    {wanted : Definition → Bool}
    (kept : ∀ definition : Definition, IsIdentifier definition.name.toList → ∀ kind,
      targetOf? definition.kind definition.name = some (⟨kind, policy⟩, key) ↔
        definition.kind = kind ∧ wanted definition = true) :
    ((ofTexts changes).aggregates.get ⟨.label, policy⟩).sites key ++
        ((ofTexts changes).aggregates.get ⟨.value, policy⟩).sites key =
      labelsFirst ((definitionsIn (Change.live changes)).filter wanted) := by
  have ofKind (kind : Kind) : ((ofTexts changes).aggregates.get ⟨kind, policy⟩).sites key =
      (((definitionsIn (Change.live changes)).filter wanted).filter (·.kind = kind)).map
        Definition.site := by
    rw [sites_ofTexts, List.filter_filter]
    refine congrArg (List.map Definition.site) (List.filter_congr fun definition member => ?_)
    have same := kept definition (isIdentifier_of_mem_definitionsIn member) kind
    rw [decide_eq_decide.mpr same, Bool.decide_and, Bool.decide_eq_true]
  rw [labelsFirst, List.map_append, ofKind, ofKind]

theorem unmarked_sites (changes : List (Change String)) (name : List Char) :
    (ofTexts changes).aggregates.labelsSensitive.sites (String.ofList name) ++
        (ofTexts changes).aggregates.valuesSensitive.sites (String.ofList name) =
      labelsFirst ((definitionsIn (Change.live changes)).filter fun definition =>
        !isMarked definition.name.toList && definition.name.toList = name) := by
  apply sites_by_kind changes .sensitive (String.ofList name)
  intro definition identifier kind
  rw [targetOf?_of_isIdentifier _ identifier]
  cases isMarked definition.name.toList <;> simp [String.ext_iff]

theorem marked_sites (changes : List (Change String)) (name : List Char) :
    (ofTexts changes).aggregates.labelsInsensitive.sites (String.ofList name) ++
        (ofTexts changes).aggregates.valuesInsensitive.sites (String.ofList name) =
      labelsFirst ((definitionsIn (Change.live changes)).filter fun definition =>
        isMarked definition.name.toList &&
          Text.lowercase (withoutMarker definition.name.toList) = name) := by
  apply sites_by_kind changes .insensitive (String.ofList name)
  intro definition identifier kind
  rw [targetOf?_of_isIdentifier _ identifier]
  cases isMarked definition.name.toList <;> simp [String.ext_iff]

theorem labelsFirst_isEmpty (definitions : List Definition) :
    (labelsFirst definitions).isEmpty = definitions.isEmpty := by
  cases definitions with
  | nil => rfl
  | cons first rest => cases kind : first.kind <;> simp [labelsFirst, kind]

/-- Every look-up after any texts have come and gone is the search in the texts that are there. -/
theorem definitionsOf_ofTexts (changes : List (Change String)) (query : String) :
    (ofTexts changes).definitionsOf query = search (definitionsIn (Change.live changes)) query := by
  unfold search
  by_cases blank : Text.trim query.toList = []
  · rw [definitionsOf, Name.parse?_eq_none_iff.mpr blank]
    simp [blank]
  · rw [definitionsOf, Name.parse?, Name.split?_eq blank]
    simp only [blank, if_false, Name.insensitiveKey, String.toList_ofList, unmarked_sites, marked_sites]
    by_cases marked : isMarked (Text.trim query.toList)
    · simp only [marked, if_true, List.isEmpty_nil, Bool.not_true, Bool.false_and, Bool.false_eq_true,
        if_false]
    · have whole : withoutMarker (Text.trim query.toList) = Text.trim query.toList := by
        simp only [withoutMarker, marked, Bool.false_eq_true, if_false]
      simp only [marked, whole, Bool.false_eq_true, if_false, labelsFirst_isEmpty, Bool.not_false,
        Bool.true_and]
      split <;> simp_all

end SymbolIndex
end AssemblySymbols
