import AssemblySymbols.Text.Lines

/-! The lines of a text that is put together from pieces. A piece that ends with a line feed does not run
on into the next one, so the lines of both are the lines of the whole. -/
namespace AssemblySymbols.Text

theorem linesAfter_cons {c : Char} (inside : c ≠ '\n') (line rest : List Char) :
    linesAfter line (c :: rest) = linesAfter (c :: line) rest := linesAfter.eq_3 line c rest inside

theorem linesAfter_append {word : List Char} (inside : '\n' ∉ word) (line rest : List Char) :
    linesAfter line (word ++ rest) = linesAfter (word.reverse ++ line) rest := by
  induction word generalizing line with
  | nil => rfl
  | cons c word ih =>
    rw [List.mem_cons, not_or] at inside
    rw [List.cons_append, linesAfter_cons (Ne.symm inside.1), ih inside.2, List.reverse_cons,
      List.append_assoc, List.singleton_append]

theorem lines_ended {line : List Char} (inside : '\n' ∉ line) (rest : List Char) :
    lines (line ++ '\n' :: rest) = dropReturn line :: lines rest := by
  rw [lines, linesAfter_append inside, List.append_nil, linesAfter, List.reverse_reverse, lines]

/-- A last line without a line feed is one only if something is on it. -/
theorem lines_open {line : List Char} (inside : '\n' ∉ line) :
    lines line = if line = [] then [] else [line] := by
  have read := linesAfter_append inside [] []
  rw [List.append_nil, List.append_nil, linesAfter, List.reverse_reverse] at read
  rw [lines, read]
  cases line <;> simp

theorem linesAfter_ne_nil {line : List Char} (begun : line ≠ []) (text : List Char) :
    linesAfter line text ≠ [] := by
  induction text generalizing line with
  | nil => simpa [linesAfter] using begun
  | cons c rest ih =>
    by_cases feed : c = '\n'
    · simp [feed, linesAfter]
    · rw [linesAfter_cons feed]
      exact ih (List.cons_ne_nil c line)

theorem lines_eq_nil_iff {text : List Char} : lines text = [] ↔ text = [] := by
  refine ⟨fun none => ?_, fun blank => blank ▸ rfl⟩
  cases text with
  | nil => rfl
  | cons c rest =>
    by_cases feed : c = '\n'
    · simp [feed, lines, linesAfter] at none
    · rw [lines, linesAfter_cons feed] at none
      exact absurd none (linesAfter_ne_nil (List.cons_ne_nil c []) rest)

/-- The last line of the text, if there is any, is ended. -/
def Complete (text : List Char) : Prop := text = [] ∨ text.getLast? = some '\n'

theorem lines_append {text : List Char} (complete : Complete text) (more : List Char) :
    lines (text ++ more) = lines text ++ lines more := by
  rcases complete with rfl | ended
  · rfl
  suffices general : ∀ line, linesAfter line (text ++ more) = linesAfter line text ++ lines more from
    general []
  induction text with
  | nil => contradiction
  | cons c rest ih =>
    intro line
    cases rest with
    | nil =>
      have feed : c = '\n' := Option.some.inj ended
      rw [feed, List.singleton_append, linesAfter, linesAfter]
      rfl
    | cons next rest =>
      have further := ih (List.getLast?_cons_cons ▸ ended)
      by_cases feed : c = '\n'
      · rw [feed, List.cons_append, linesAfter, linesAfter, further, List.cons_append]
      · rw [List.cons_append, linesAfter_cons feed, linesAfter_cons feed, further]

end AssemblySymbols.Text
