import AssemblySymbols.Json.Reader
import AssemblySymbols.Proofs.Json.Words

/-! Written values are read as they were, in every layout that puts nothing but space between their
words. The reader is followed from stage to stage, and a value moves it from where it expects one to
where it holds this one. -/
namespace AssemblySymbols.Json

/-- Values whose strings and names are texts and whose numbers are natural. -/
inductive Legible : Json → Prop where
  | null : Legible .null
  | bool (truth : Bool) : Legible (.bool truth)
  | nat (n : Nat) : Legible (ofNat n)
  | text (text : String) : Legible (ofText text)
  | array {items : List Json} (each : ∀ item ∈ items, Legible item) : Legible (.array items)
  | object {fields : List (String × Json)} (each : ∀ field ∈ fields, Legible field.2) :
      Legible (ofFields fields)

structure Layout.Blank (layout : Layout) : Prop where
  lineBreak : ∀ depth, ∀ c ∈ layout.lineBreak depth, Token.isSpace c = true
  colon : ∃ spaces, layout.colon = ':' :: spaces ∧ ∀ c ∈ spaces, Token.isSpace c = true

theorem Layout.blank_compact : compact.Blank :=
  ⟨fun _ _ none => absurd none List.not_mem_nil, [], rfl, fun _ none => absurd none List.not_mem_nil⟩

/-- From a stage on, the symbols complete a value. -/
def Reads (stage : Stage) (symbols : List Token.Symbol) (whole : Json) : Prop :=
  ∀ fuel, symbols.length ≤ fuel → ((Token.scanAll? fuel symbols).bind fun tokens =>
    (tokens.foldlM Stage.step? stage).bind Stage.result?) = some whole

theorem parse?_of_reads {symbols : List Token.Symbol} {whole : Json}
    (reads : Reads (.value []) symbols whole) : parse? symbols = some whole :=
  reads symbols.length (Nat.le_refl _)

namespace Reads
variable {stage next : Stage} {outer : List Outer} {rest : List Token.Symbol} {whole : Json}

theorem complete : Reads (.after whole []) [] whole := by
  intro fuel _
  rw [Token.scanAll?]
  rfl

theorem space {c : Char} (space : Token.isSpace c = true) (reads : Reads stage rest whole) :
    Reads stage (some c :: rest) whole := by
  intro fuel enough
  cases fuel with
  | zero => exact absurd enough (Nat.not_succ_le_zero _)
  | succ fuel =>
    have spaced : (some c : Token.Symbol).any Token.isSpace = true := space
    rw [Token.scanAll?, if_pos spaced]
    exact reads fuel (Nat.le_of_succ_le_succ enough)

theorem spaces {text : List Char} (blank : ∀ c ∈ text, Token.isSpace c = true)
    (reads : Reads stage rest whole) : Reads stage (text.map some ++ rest) whole := by
  induction text with
  | nil => exact reads
  | cons c later ih =>
    obtain ⟨first, blank⟩ := List.forall_mem_cons.mp blank
    exact (ih blank).space first

theorem word {c : Char} {front : List Char} {token : Token} (solid : Token.isSpace c = false)
    (scanned : Token.scan? ((c :: front).map some ++ rest) = some (token, rest))
    (stepped : stage.step? token = some next) (reads : Reads next rest whole) :
    Reads stage ((c :: front).map some ++ rest) whole := by
  intro fuel enough
  have longer : rest.length + 1 ≤ ((c :: front).map some ++ rest).length := by
    simp only [List.length_append, List.length_map, List.length_cons]
    omega
  cases fuel with
  | zero => exact absurd (longer.trans enough) (Nat.not_succ_le_zero _)
  | succ fuel =>
    have unspaced : ¬ (some c : Token.Symbol).any Token.isSpace = true := by
      rw [Option.any_some, solid]
      exact Bool.false_ne_true
    have further := reads fuel (Nat.le_of_succ_le_succ (longer.trans enough))
    rw [Option.bind_eq_some_iff] at further
    obtain ⟨tokens, scannedRest, finished⟩ := further
    rw [List.map_cons, List.cons_append] at scanned ⊢
    rw [Token.scanAll?, if_neg unspaced, scanned]
    simp only [Option.bind_eq_bind, Option.bind_some, scannedRest, Option.map_some, List.foldlM_cons,
      stepped]
    exact finished

/-- A bracket or a separator. -/
theorem mark {c : Char} {token : Token} (solid : Token.isSpace c = false)
    (scanned : Token.scan? (some c :: rest) = some (token, rest))
    (stepped : stage.step? token = some next) (reads : Reads next rest whole) :
    Reads stage (some c :: rest) whole :=
  @word _ _ _ _ _ [] _ solid scanned stepped reads

end Reads

/-- The stage expects a value inside of `outer`, perhaps with the choice to end an empty array. -/
def Stage.Takes (stage : Stage) (outer : List Outer) : Prop :=
  ∀ word, word ≠ .closeArray → stage.step? word = startValue? outer word

/-- In the same way a name. -/
def Stage.TakesName (stage : Stage) (before : List (Option String × Json)) (outer : List Outer) :
    Prop :=
  ∀ text, stage.step? (.string text) = some (.colon before text outer)

theorem Stage.takes_firstItem (outer : List Outer) :
    (Stage.firstItem outer).Takes (.array [] :: outer) := by
  intro word other
  cases word <;> first | rfl | contradiction

theorem Token.ends_blank {text : List Char} (blank : ∀ c ∈ text, isSpace c = true) {c : Char}
    (ending : c.isDigit = false ∧ c ≠ '.' ∧ c ≠ 'e' ∧ c ≠ 'E') (rest : List Symbol) :
    Ends (text.map some ++ some c :: rest) := by
  cases text with
  | nil => exact ends_cons ending rest
  | cons first later =>
    refine ends_cons ?_ _
    have space := blank first List.mem_cons_self
    simp only [isSpace, Bool.or_eq_true, beq_iff_eq] at space
    rcases space with ((rfl | rfl) | rfl) | rfl <;> decide

theorem Token.scan?_toString (n : Nat) {rest : List Symbol} (ends : Ends rest) :
    ∃ c front, (toString n).toList = c :: front ∧ isSpace c = false ∧
      scan? ((c :: front).map some ++ rest) = some (.number (c :: front), rest) := by
  have scanned := scanNumber?_toString n ends
  have digits := toString_toList n
  cases text : (toString n).toList with
  | nil => exact absurd (digits.symm.trans text) Nat.toDigits_ne_nil
  | cons c front =>
    rw [text, List.map_cons, List.cons_append] at scanned
    have digit : c.isDigit = true :=
      isDigit_of_mem_toDigits (digits ▸ text ▸ List.mem_cons_self)
    refine ⟨c, front, rfl, ?_, ?_⟩
    · have other {blank : Char} (odd : blank.isDigit = false) : (c == blank) = false := by
        rw [beq_eq_false_iff_ne]
        rintro rfl
        exact Bool.false_ne_true (odd.symm.trans digit)
      simp only [isSpace, Bool.or_eq_false_iff]
      exact ⟨⟨⟨other (by decide), other (by decide)⟩, other (by decide)⟩, other (by decide)⟩
    · have first {mark : Char} {after : List Symbol}
          (same : some c :: (front.map some ++ rest) = some mark :: after) : mark.isDigit = true := by
        cases same
        exact digit
      rw [List.map_cons, List.cons_append, scan?, scanned]
      · rfl
      all_goals exact fun _ same => absurd (first same) (by decide)

namespace Layout

theorem writeItems_eq (layout : Layout) (depth : Nat) (items : List Json) :
    layout.writeItems depth items = items.map (layout.write depth) := by
  induction items with
  | nil => rw [writeItems, List.map_nil]
  | cons item rest ih => rw [writeItems, ih, List.map_cons]

/-- A field as it is written. -/
def writeField (layout : Layout) (depth : Nat) (field : String × Json) : List Char :=
  writeText field.1.toList ++ layout.colon ++ layout.write depth field.2

theorem writeFields_eq (layout : Layout) (depth : Nat) (fields : List (String × Json)) :
    layout.writeFields depth (fields.map fun (name, value) => (some name, value)) =
      fields.map (layout.writeField depth) := by
  induction fields with
  | nil => rw [List.map_nil, writeFields, List.map_nil]
  | cons field rest ih =>
    rw [List.map_cons, writeFields, ih, List.map_cons]
    rfl

/-- Written in front of any symbols that do not continue it, the value is read where one is
expected. -/
def Reads (layout : Layout) (value : Json) : Prop :=
  ∀ {depth : Nat} {stage : Stage} {outer : List Outer} {rest : List Token.Symbol} {whole : Json},
    stage.Takes outer → Token.Ends rest → Json.Reads (.after value outer) rest whole →
    Json.Reads stage ((layout.write depth value).map some ++ rest) whole

variable {layout : Layout} {depth inner : Nat} {outer : List Outer} {rest : List Token.Symbol}
  {whole : Json}

/-- The first of several parts, with its comma cut off. -/
theorem map_separate {gap part next : List Char} {parts : List (List Char)} {rest : List Token.Symbol} :
    (separate (',' :: gap) (part :: next :: parts)).map some ++ rest =
      part.map some ++ (some ',' :: (gap.map some ++
        ((separate (',' :: gap) (next :: parts)).map some ++ rest))) := by
  have split : separate (',' :: gap) (part :: next :: parts) =
      part ++ (',' :: gap ++ separate (',' :: gap) (next :: parts)) := List.append_assoc ..
  rw [split]
  simp only [List.map_append, List.map_cons, List.append_assoc, List.cons_append]

theorem reads_items (blank : layout.Blank) {item : Json} {items : List Json}
    (each : ∀ item' ∈ item :: items, layout.Reads item') {stage : Stage} {before : List Json}
    (takes : stage.Takes (.array before :: outer))
    (reads : Json.Reads (.after (.array (before.reverse ++ item :: items)) outer) rest whole) :
    Json.Reads stage ((separate (',' :: layout.lineBreak inner)
      ((item :: items).map (layout.write inner))).map some ++
        ((layout.lineBreak depth).map some ++ some ']' :: rest)) whole := by
  induction items generalizing item before stage with
  | nil =>
    refine each item List.mem_cons_self takes (Token.ends_blank (blank.lineBreak depth) (by decide) rest) ?_
    refine .spaces (blank.lineBreak depth) (.mark rfl rfl rfl ?_)
    rw [List.reverse_cons]
    exact reads
  | cons next more ih =>
    rw [List.map_cons, List.map_cons, map_separate]
    obtain ⟨first, later⟩ := List.forall_mem_cons.mp each
    refine first takes (Token.ends_cons (by decide) _) (.mark rfl rfl rfl ?_)
    refine .spaces (blank.lineBreak inner) (ih later (fun _ _ => rfl) ?_)
    rw [List.reverse_cons, List.append_assoc]
    exact reads

theorem reads_field (blank : layout.Blank) {field : String × Json} (value : layout.Reads field.2)
    {stage : Stage} {before : List (Option String × Json)} (takes : stage.TakesName before outer)
    (ends : Token.Ends rest)
    (reads : Json.Reads (.after field.2 (.object before (some field.1) :: outer)) rest whole) :
    Json.Reads stage ((layout.writeField depth field).map some ++ rest) whole := by
  obtain ⟨spaces, colon, blankColon⟩ := blank.colon
  have scanned := Token.scan?_writeText field.1
    ((layout.colon ++ layout.write depth field.2).map some ++ rest)
  rw [writeField, List.append_assoc, List.map_append, List.append_assoc]
  refine .word rfl scanned (takes _) ?_
  rw [colon, List.cons_append, List.map_cons, List.cons_append, List.map_append, List.append_assoc]
  refine .mark rfl rfl rfl (.spaces blankColon ?_)
  exact value (fun _ _ => rfl) ends reads

theorem reads_fields (blank : layout.Blank) {field : String × Json} {fields : List (String × Json)}
    (each : ∀ field' ∈ field :: fields, layout.Reads field'.2) {stage : Stage}
    {before : List (Option String × Json)} (takes : stage.TakesName before outer)
    (reads : Json.Reads (.after (.object (before.reverse ++
      (field :: fields).map fun (name, value) => (some name, value))) outer) rest whole) :
    Json.Reads stage ((separate (',' :: layout.lineBreak inner)
      ((field :: fields).map (layout.writeField inner))).map some ++
        ((layout.lineBreak depth).map some ++ some '}' :: rest)) whole := by
  induction fields generalizing field before stage with
  | nil =>
    refine reads_field blank (each field List.mem_cons_self) takes
      (Token.ends_blank (blank.lineBreak depth) (by decide) rest) ?_
    refine .spaces (blank.lineBreak depth) (.mark rfl rfl rfl ?_)
    rw [List.reverse_cons]
    exact reads
  | cons next more ih =>
    rw [List.map_cons, List.map_cons, map_separate]
    obtain ⟨first, later⟩ := List.forall_mem_cons.mp each
    refine reads_field blank first takes (Token.ends_cons (by decide) _)
      (.mark rfl rfl rfl ?_)
    refine .spaces (blank.lineBreak inner) (ih later (fun _ => rfl) ?_)
    rw [List.reverse_cons, List.append_assoc]
    exact reads

/-- The parts between brackets, with the brackets cut off. -/
theorem map_enclose {opening closing : Char} {part : List Char} {parts : List (List Char)} :
    (layout.enclose depth opening closing (part :: parts)).map some ++ rest =
      some opening :: ((layout.lineBreak (depth + 1)).map some ++
        ((separate (',' :: layout.lineBreak (depth + 1)) (part :: parts)).map some ++
          ((layout.lineBreak depth).map some ++ some closing :: rest))) := by
  simp only [enclose, List.isEmpty_cons, Bool.false_eq_true, if_false, List.map_append, List.map_cons,
    List.map_nil, List.cons_append, List.append_assoc, List.nil_append]

theorem reads_of_legible (blank : layout.Blank) {value : Json} (legible : Legible value) :
    layout.Reads value := by
  induction legible with
  | null =>
    intro depth stage outer rest whole takes _ reads
    exact @Reads.word _ _ _ _ 'n' ['u', 'l', 'l'] _ rfl rfl (takes .null (by simp)) reads
  | bool truth =>
    intro depth stage outer rest whole takes _ reads
    cases truth with
    | true => exact @Reads.word _ _ _ _ 't' ['r', 'u', 'e'] _ rfl rfl (takes (.bool true) (by simp)) reads
    | false =>
      exact @Reads.word _ _ _ _ 'f' ['a', 'l', 's', 'e'] _ rfl rfl (takes (.bool false) (by simp)) reads
  | nat n =>
    intro depth stage outer rest whole takes ends reads
    obtain ⟨c, front, digits, solid, scanned⟩ := Token.scan?_toString n ends
    have written : layout.write depth (ofNat n) = (toString n).toList := rfl
    rw [ofNat, digits] at reads
    rw [written, digits]
    exact .word solid scanned (takes _ (by simp)) reads
  | text text =>
    intro depth stage outer rest whole takes _ reads
    exact .word rfl (Token.scan?_writeText text rest) (takes _ (by simp)) reads
  | @array items _ ih =>
    intro depth stage outer rest whole takes _ reads
    rw [write, writeItems_eq]
    cases items with
    | nil =>
      refine .mark rfl rfl (takes .openArray (by simp)) ?_
      exact .mark rfl rfl rfl reads
    | cons item items =>
      rw [List.map_cons, map_enclose, ← List.map_cons]
      refine .mark rfl rfl (takes .openArray (by simp)) ?_
      refine .spaces (blank.lineBreak _) (reads_items blank ih (Stage.takes_firstItem outer) ?_)
      exact reads
  | @object fields _ ih =>
    intro depth stage outer rest whole takes _ reads
    rw [ofFields, write, writeFields_eq]
    cases fields with
    | nil =>
      refine .mark rfl rfl (takes .openObject (by simp)) ?_
      exact .mark rfl rfl rfl reads
    | cons field fields =>
      rw [List.map_cons, map_enclose, ← List.map_cons]
      refine .mark rfl rfl (takes .openObject (by simp)) ?_
      exact .spaces (blank.lineBreak _) (reads_fields blank ih (fun _ => rfl) reads)

end Layout

/-- What is written of a value is read as this value. -/
theorem parse?_write {layout : Layout} (blank : layout.Blank) {value : Json}
    (legible : Legible value) : parse? ((layout.write 0 value).map some) = some value := by
  have reads : Reads (.value []) ((layout.write 0 value).map some ++ []) value :=
    Layout.reads_of_legible blank legible (fun _ _ => rfl) nofun .complete
  rw [List.append_nil] at reads
  exact parse?_of_reads reads

theorem fields?_ofFields (fields : List (String × Json)) : (ofFields fields).fields? = some fields := by
  rw [ofFields, fields?, List.mapM_map]
  exact List.mapM_pure.trans (congrArg some (List.map_id fields))

theorem recordFields?_ofFields {names : List String} {fields : List (String × Json)}
    (distinct : names.eraseDups = names) (same : fields.map (·.1) = names) :
    (ofFields fields).recordFields? names = some fields := by
  have known : fields.filter (fun field => names.contains field.1) = fields := by
    refine List.filter_eq_self.mpr fun field member => List.contains_iff_mem.mpr ?_
    exact same ▸ List.mem_map.mpr ⟨field, member, rfl⟩
  have read := fields?_ofFields fields
  rw [ofFields] at read ⊢
  rw [recordFields?, read, Option.bind_eq_bind, Option.bind_some, known]
  dsimp only
  rw [same, distinct, ← same, List.length_map, if_pos rfl]

theorem mapM_written {α : Type} {write : α → Json} {read? : Json → Option α}
    (inverse : ∀ value, read? (write value) = some value) (values : List α) :
    (values.map write).mapM read? = some values := by
  have composed : read? ∘ write = fun value => pure value := funext inverse
  rw [List.mapM_map, composed]
  exact List.mapM_pure.trans (congrArg some (List.map_id values))

end AssemblySymbols.Json
