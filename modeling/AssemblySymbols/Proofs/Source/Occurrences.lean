import AssemblySymbols.Proofs.Source.Cursor

/-! Where names stand on a line. The constructs look for a name from the start of a line and measure it
in bytes, the cursor looks around itself and measures in UTF-16 units. Both come upon the same piece of
the line, because a defined name has no identifier character beside it. -/
namespace AssemblySymbols

theorem takeWhile_append_of_stop {α : Type} {keep : α → Bool} {word rest : List α}
    (stops : ∀ c, rest.head? = some c → keep c = false) :
    (word ++ rest).takeWhile keep = word.takeWhile keep := by
  induction word with
  | nil =>
    cases rest with
    | nil => rfl
    | cons c rest => simp [stops c rfl]
  | cons c word ih => rw [List.cons_append, List.takeWhile_cons, List.takeWhile_cons, ih]

/-- The name stands on the line as a whole: the characters beside it do not belong to an identifier. -/
structure Occurrence.Isolated (found : Occurrence) (line : List Char) : Prop where
  cut : line = found.before ++ found.name ++ found.after
  identifier : IsIdentifier found.name
  begins : ∀ c, found.before.getLast? = some c → isIdentifierChar c = false
  ends : ∀ c, found.after.head? = some c → isIdentifierChar c = false

theorem takeIdentifier?_cut {text name after : List Char}
    (taken : takeIdentifier? text = some (name, after)) :
    text = name ++ after ∧ ∀ c, after.head? = some c → isIdentifierChar c = false := by
  cases text with
  | nil => contradiction
  | cons first rest =>
    simp only [takeIdentifier?] at taken
    split at taken
    · cases taken
      refine ⟨by rw [List.cons_append, List.takeWhile_append_dropWhile], fun c next => ?_⟩
      have stopped := List.head?_dropWhile_not isIdentifierChar rest
      rwa [next] at stopped
    · contradiction

theorem not_identifierChar_of_blank {c : Char} (blank : Text.isBlank c = true) :
    isIdentifierChar c = false := by
  by_contra inside
  rw [isBlank_of_isIdentifierChar (Bool.not_eq_false _ ▸ inside)] at blank
  contradiction

/-- White space in front of a name keeps it apart from what precedes. -/
theorem begins_behind_blanks {text : List Char} {c : Char}
    (last : (text.takeWhile Text.isBlank).getLast? = some c) : isIdentifierChar c = false :=
  not_identifierChar_of_blank (List.mem_takeWhile_imp (List.mem_of_getLast? last))

theorem dropKeyword?_cut {keyword text rest : List Char} (dropped : dropKeyword? keyword text = some rest) :
    text = text.take keyword.length ++ rest := by
  induction keyword generalizing text with
  | nil =>
    cases dropped
    rfl
  | cons k keyword ih =>
    cases text with
    | nil => contradiction
    | cons c text =>
      simp only [dropKeyword?] at dropped
      split at dropped
      · rw [List.length_cons, List.take_succ_cons, List.cons_append, ← ih dropped]
      · contradiction

theorem isolated_of_leading {line : List Char} {found : Occurrence}
    (leading : leadingName? line = some found) : found.Isolated line := by
  have identifier := isIdentifier_of_leading leading
  obtain ⟨⟨name, after⟩, taken, rfl⟩ := Option.map_eq_some_iff.mp leading
  obtain ⟨word, ends⟩ := takeIdentifier?_cut taken
  refine ⟨?_, identifier, fun c => begins_behind_blanks, ends⟩
  rw [List.append_assoc, ← word, List.takeWhile_append_dropWhile]

theorem isolated_of_keyword {keyword : String} {line : List Char} {found : Occurrence}
    (behind : nameAfterKeyword? keyword line = some found) : found.Isolated line := by
  have identifier := isIdentifier_of_keyword behind
  simp only [nameAfterKeyword?, Option.bind_eq_bind, Option.bind_eq_some_iff] at behind
  obtain ⟨rest, dropped, ⟨name, after⟩, taken, cut⟩ := behind
  split at cut
  · contradiction
  · next gap =>
    cases cut
    obtain ⟨word, ends⟩ := takeIdentifier?_cut taken
    refine ⟨?_, identifier, fun c last => ?_, ends⟩
    · have keyword := dropKeyword?_cut dropped
      rw [String.length_toList] at keyword
      rw [List.append_assoc, ← word, List.append_assoc, List.takeWhile_append_dropWhile,
        List.append_assoc, ← keyword, List.takeWhile_append_dropWhile]
    · obtain ⟨blank, blanks⟩ := Option.ne_none_iff_exists'.mp (mt List.getLast?_eq_none_iff.mp gap)
      rw [List.getLast?_append, blanks, Option.some_or] at last
      exact begins_behind_blanks (blanks.trans last)

theorem Construct.isolated_of_find {construct : Construct} {line : List Char} {found : Occurrence}
    (read : construct.find? line = some found) : found.Isolated line := by
  cases construct with
  | labelColon | dataDeclaration | equate | assignment =>
    exact isolated_of_leading (Option.filter_eq_some_iff.mp read).1
  | labelKeyword | elementKeyword | defineKeyword | macroKeyword | loadKeyword =>
    obtain ⟨keyword, _, behind⟩ := List.exists_of_findSome?_eq_some read
    exact isolated_of_keyword behind

/-- A comment does not run on from a name. -/
theorem Occurrence.Isolated.of_stripComment {found : Occurrence} {line : List Char}
    (isolated : found.Isolated (stripComment line)) :
    ({ found with after := found.after ++ line.dropWhile (· != ';') } : Occurrence).Isolated line := by
  refine ⟨?_, isolated.identifier, isolated.begins, fun c next => ?_⟩
  · have whole := List.takeWhile_append_dropWhile (p := (· != ';')) (l := line)
    rw [← stripComment, isolated.cut] at whole
    simpa only [List.append_assoc] using whole.symm
  · dsimp only at next
    cases code : found.after with
    | cons c' rest => exact isolated.ends c (by simpa [code] using next)
    | nil =>
      have comment := List.head?_dropWhile_not (· != ';') line
      rw [code, List.nil_append] at next
      rw [next] at comment
      have semicolon : c = ';' := by simpa using comment
      exact semicolon ▸ by decide

/-- What a line defines stands on it as a whole, where the definition says. -/
theorem occurrence_of_classify {line : List Char} {definition : LineDefinition}
    (member : definition ∈ classifyLine (stripComment line)) :
    ∃ found : Occurrence, found.Isolated line ∧ definition.name = String.ofList found.name ∧
      ∃ rest, stripComment line = found.before ++ found.name ++ rest ∧
        definition.start = Text.utf8Length found.before ∧
        definition.stop = Text.utf8Length (found.before ++ found.name) := by
  obtain ⟨construct, defined⟩ := exists_define_of_classify member
  obtain ⟨found, read, rfl⟩ := Option.map_eq_some_iff.mp defined
  have isolated := construct.isolated_of_find read
  exact ⟨_, isolated.of_stripComment, rfl, found.after, isolated.cut, rfl,
    (Text.utf8Length_append ..).symm⟩

theorem Occurrence.Isolated.isRun {found : Occurrence} {line : List Char}
    (isolated : found.Isolated line) : found.IsRun line :=
  ⟨isolated.cut, isolated.identifier.ne_nil, isolated.identifier.all, isolated.begins, isolated.ends⟩

/-- From every column of an isolated name, its end included, the cursor finds just this name. -/
theorem Occurrence.Isolated.identifierAt?_eq {found : Occurrence} {line : List Char}
    (isolated : found.Isolated line) (short : Text.utf16Length line < UInt32.size)
    {column : UInt32} (above : Text.utf16Length found.before ≤ column.toNat)
    (below : column.toNat ≤ Text.utf16Length (found.before ++ found.name)) :
    identifierAt? line column = some ⟨String.ofList found.name,
      (Text.utf16Length found.before).toUInt32,
      (Text.utf16Length (found.before ++ found.name)).toUInt32⟩ := by
  obtain ⟨first, rest, spelled, start, _⟩ := isolated.identifier
  have answered := isolated.isRun.identifierAt?_eq short above below
  rwa [Occurrence.identifier?, spelled, List.head?_cons, Option.any_some, if_pos start] at answered

end AssemblySymbols
