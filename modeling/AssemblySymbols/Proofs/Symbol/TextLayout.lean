import AssemblySymbols.Proofs.Symbol.LineLocality

/-! The same lines written down in different ways: with either kind of line end, with or without one at
the end of the text, and with comments behind the lines. They all have one table. -/
namespace AssemblySymbols

namespace Text

/-- Nothing, or a semicolon and any text behind it that stays on the line. -/
def IsComment (text : List Char) : Prop := text = [] ∨ text.head? = some ';' ∧ '\n' ∉ text

/-- The ways of writing lines down. -/
inductive Layout : List (List Char) → List Char → Prop where
  | none : Layout [] []
  | unended {line comment : List Char} (hidden : IsComment comment) : Layout [line] (line ++ comment)
  | ended {line comment ending text : List Char} {rest : List (List Char)} (hidden : IsComment comment)
      (ends : ending ∈ [['\n'], ['\r', '\n']]) (others : Layout rest text) :
      Layout (line :: rest) (line ++ comment ++ ending ++ text)

/-- A line by itself: no line feed is on it and no part of a line end. -/
structure IsLine (line : List Char) : Prop where
  inside : '\n' ∉ line
  bare : line.getLast? ≠ some '\r'

/-- Lines with line feeds between them are one way. -/
theorem layout_intercalate (lines : List (List Char)) : Layout lines (['\n'].intercalate lines) := by
  induction lines with
  | nil => exact .none
  | cons line rest ih =>
    cases rest with
    | nil =>
      have last : Layout [line] (line ++ []) := .unended (.inl rfl)
      simpa using last
    | cons next rest =>
      have first : Layout (line :: next :: rest)
          (line ++ [] ++ ['\n'] ++ ['\n'].intercalate (next :: rest)) :=
        .ended (.inl rfl) List.mem_cons_self ih
      rwa [List.append_nil, ← List.intercalate_cons_cons] at first

theorem IsComment.inside {line comment : List Char} (hidden : IsComment comment) (inside : '\n' ∉ line) :
    '\n' ∉ line ++ comment := by
  rw [List.mem_append, not_or]
  refine ⟨inside, ?_⟩
  rcases hidden with rfl | ⟨-, hidden⟩
  · exact List.not_mem_nil
  · exact hidden

theorem IsComment.semicolon {comment : List Char} (hidden : IsComment comment) :
    ∀ c, comment.head? = some c → c = ';' := by
  intro c next
  rcases hidden with rfl | ⟨semicolon, -⟩
  · contradiction
  · exact Option.some.inj (next.symm.trans semicolon)

theorem dropReturn_concat (line : List Char) : dropReturn (line ++ ['\r']) = line := by
  simp [dropReturn]

theorem dropReturn_bare {line : List Char} (bare : line.getLast? ≠ some '\r') : dropReturn line = line := by
  unfold dropReturn
  split
  · contradiction
  · rfl

end Text

theorem stripComment_append {line rest : List Char} (hidden : ∀ c, rest.head? = some c → c = ';') :
    stripComment (line ++ rest) = stripComment line := by
  refine takeWhile_append_of_stop fun c next => ?_
  rw [hidden c next]
  rfl

/-- A carriage return at the end of a comment is part of it. -/
theorem stripComment_dropReturn {line comment : List Char} (bare : line.getLast? ≠ some '\r')
    (hidden : Text.IsComment comment) :
    stripComment (Text.dropReturn (line ++ comment)) = stripComment line := by
  rcases hidden with rfl | ⟨semicolon, -⟩
  · rw [List.append_nil, Text.dropReturn_bare bare]
  · obtain ⟨words, rfl⟩ := List.head?_eq_some_iff.mp semicolon
    have behind (rest : List Char) : stripComment (line ++ ';' :: rest) = stripComment line := by
      refine stripComment_append ?_
      rintro c ⟨⟩
      rfl
    unfold Text.dropReturn
    split
    · next last =>
      have begun : words ≠ [] := by
        rintro rfl
        simp at last
      rw [List.dropLast_append_of_ne_nil (List.cons_ne_nil _ _), List.dropLast_cons_of_ne_nil begun]
      exact behind _
    · exact behind words

namespace SymbolTable

theorem additionsOn_congr {line line' : List Char} (same : stripComment line = stripComment line')
    (number : UInt32) : additionsOn number line = additionsOn number line' := by
  rw [additionsOn, additionsOn, same]

/-- Each line gives to the table what is on it, however the text ends it. -/
theorem additionsFrom_layout {lines : List (List Char)} {text : List Char}
    (plain : ∀ line ∈ lines, Text.IsLine line) (layout : Text.Layout lines text) (start : Nat) :
    additionsFrom start (Text.lines text) = additionsFrom start lines := by
  induction layout generalizing start with
  | none => rfl
  | @unended line comment hidden =>
    have own := plain line List.mem_cons_self
    rw [Text.lines_open (hidden.inside own.inside)]
    split
    · next blank =>
      rw [(List.append_eq_nil_iff.mp blank).1]
      rfl
    · rw [additionsFrom_cons, additionsFrom_cons, additionsOn_congr (stripComment_append hidden.semicolon)]
  | @ended line comment ending text rest hidden ends others ih =>
    obtain ⟨own, plain⟩ := List.forall_mem_cons.mp plain
    have inside := hidden.inside own.inside
    have cut : ∃ line', Text.lines (line ++ comment ++ ending ++ text) = line' :: Text.lines text ∧
        stripComment line' = stripComment line := by
      simp only [List.mem_cons, List.not_mem_nil, or_false] at ends
      rcases ends with rfl | rfl
      · refine ⟨_, ?_, stripComment_dropReturn own.bare hidden⟩
        rw [List.append_assoc, List.singleton_append, Text.lines_ended inside]
      · refine ⟨_, ?_, stripComment_append hidden.semicolon⟩
        have inside : '\n' ∉ line ++ comment ++ ['\r'] := by simpa using inside
        have split : line ++ comment ++ ['\r', '\n'] ++ text =
            line ++ comment ++ ['\r'] ++ '\n' :: text := by simp
        rw [split, Text.lines_ended inside, Text.dropReturn_concat]
    obtain ⟨line', read, same⟩ := cut
    rw [read, additionsFrom_cons, additionsFrom_cons, additionsOn_congr same, ih plain]

/-- However lines are written down, with comments or without, their table is that of the lines with line
feeds between them. -/
theorem ofText_layout {lines : List (List Char)} {text : List Char}
    (plain : ∀ line ∈ lines, Text.IsLine line) (layout : Text.Layout lines text) :
    ofText (String.ofList text) = ofText (String.ofList (['\n'].intercalate lines)) := by
  have same : additionsIn (String.ofList text) =
      additionsIn (String.ofList (['\n'].intercalate lines)) := by
    rw [additionsIn_eq, additionsIn_eq, String.toList_ofList, String.toList_ofList,
      additionsFrom_layout plain layout, additionsFrom_layout plain (Text.layout_intercalate lines)]
  rw [ofText_eq, ofText_eq, same]

/-- Comments that look like definitions, one on a blank line and one that ends in a carriage return. -/
theorem ofText_layout_comments :
    let lines := ["a = 1 ".toList, [], "b:".toList]
    let last := "b:".toList ++ ";c:\r".toList
    let text := "a = 1 ".toList ++ "; y:".toList ++ ['\r', '\n'] ++ ([] ++ [';'] ++ ['\n'] ++ last)
    (∀ line ∈ lines, Text.IsLine line) ∧ Text.Layout lines text ∧
    ofText (String.ofList text) = ofText (String.ofList (['\n'].intercalate lines)) ∧
    (ofText (String.ofList text)).spansOf ⟨.label, .sensitive⟩ "b" = [⟨⟨2, 0⟩, ⟨2, 1⟩⟩] := by
  intro lines last text
  have plain : ∀ line ∈ lines, Text.IsLine line := by
    have bare : ∀ line ∈ lines, '\n' ∉ line ∧ line.getLast? ≠ some '\r' := by decide +kernel
    exact fun line member => ⟨(bare line member).1, (bare line member).2⟩
  have tail : Text.Layout ["b:".toList] last := .unended (.inr (by decide +kernel))
  have layout : Text.Layout lines text :=
    .ended (.inr (by decide +kernel)) (by decide) (.ended (.inr (by decide)) (by decide) tail)
  exact ⟨plain, layout, ofText_layout plain layout, by decide +kernel⟩

end SymbolTable
end AssemblySymbols
