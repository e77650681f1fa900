import AssemblySymbols.Proofs.Disk.Descent
import AssemblySymbols.Workspace.Discovery

/-! Which files discovery finds: where no ignore file counts, those that no skipped directory is above and
whose relative paths match a pattern. A pattern for all files with an extension matches by how the last
name ends. -/
namespace AssemblySymbols

namespace Glob

/-- The character stands for itself in a pattern. -/
def IsLiteral (c : Char) : Prop := c ≠ '?' ∧ c ≠ '*' ∧ c ≠ '['

instance : DecidablePred IsLiteral :=
  fun c => inferInstanceAs (Decidable (c ≠ '?' ∧ c ≠ '*' ∧ c ≠ '['))

theorem parseFrom_literals (position : Nat) (before : Option Char) {word : List Char}
    (plain : ∀ c ∈ word, IsLiteral c) : parseFrom position before word = .ok (word.map .literal) := by
  induction word generalizing position before with
  | nil => rw [parseFrom, List.map_nil]
  | cons c rest ih =>
    obtain ⟨⟨question, star, bracket⟩, others⟩ := List.forall_mem_cons.mp plain
    rw [parseFrom, ih _ _ others]
    · rfl
    · exact question
    · exact fun _ first => absurd first star
    · exact fun _ first => absurd first star
    · exact star
    · exact bracket

/-- The pattern for everything that ends in a word, however deep it is. -/
def anywhere (word : List Char) : Glob := ⟨.anyDirectories :: .anySequence :: word.map .literal⟩

theorem parseFrom_star (position : Nat) (before : Option Char) {word : List Char}
    (plain : ∀ c ∈ word, IsLiteral c) :
    parseFrom position before ('*' :: word) = .ok (.anySequence :: word.map .literal) := by
  have single : ∀ rest, word ≠ '*' :: rest := by
    rintro rest rfl
    exact (plain '*' (List.mem_cons_self ..)).2.1 rfl
  rw [parseFrom, parseFrom_literals _ _ plain]
  · rfl
  · exact fun rest same => single _ same
  · exact single

theorem parse_anywhere {word : List Char} (plain : ∀ c ∈ word, IsLiteral c) :
    parse (String.ofList ("**/*".toList ++ word)) = .ok (anywhere word) := by
  have read : parseFrom 0 none ('*' :: '*' :: '/' :: '*' :: word) =
      .ok (.anyDirectories :: .anySequence :: word.map .literal) := by
    rw [parseFrom]
    simp only [Option.all_none, if_true, parseFrom_star _ _ plain]
    rfl
  rw [parse, String.toList_ofList]
  exact congrArg (· >>= fun tokens => pure (⟨tokens⟩ : Glob)) read

theorem mapM_parse {words : List (List Char)} (plain : ∀ word ∈ words, ∀ c ∈ word, IsLiteral c) :
    (words.map fun word => String.ofList ("**/*".toList ++ word)).mapM
      (fun text => parse (String.ofList (text.toList.dropWhile (· == '/')))) =
      .ok (words.map anywhere) := by
  induction words with
  | nil => rfl
  | cons word rest ih =>
    obtain ⟨first, others⟩ := List.forall_mem_cons.mp plain
    have read := parse_anywhere first
    rw [List.map_cons, List.mapM_cons, ih others, String.toList_ofList]
    exact congrArg (· >>= fun glob => pure (glob :: rest.map anywhere)) read

theorem mem_tails {text rest : List Char} : rest ∈ tails text ↔ rest <:+ text := by
  induction text with
  | nil => simp [tails]
  | cons c text ih => rw [tails, List.mem_cons, ih, List.suffix_cons_iff]

theorem suffix_of_mem_tailsBehindSlash {text rest : List Char} (member : rest ∈ tailsBehindSlash text) :
    rest <:+ text := by
  induction text with
  | nil => contradiction
  | cons c text ih =>
    rw [tailsBehindSlash] at member
    split at member
    · rcases List.mem_cons.mp member with rfl | later
      · exact List.suffix_cons ..
      · exact (ih later).trans (List.suffix_cons ..)
    · exact (ih member).trans (List.suffix_cons ..)

theorem matchesTokens_literals {word text : List Char} :
    matchesTokens (word.map .literal) text = true ↔ text = word := by
  induction word generalizing text with
  | nil => rw [List.map_nil, matchesTokens, List.isEmpty_iff]
  | cons d word ih =>
    cases text with
    | nil => simp [matchesTokens]
    | cons c text => simp [matchesTokens, ih]

theorem matchesTokens_anySequence {word text : List Char} :
    matchesTokens (.anySequence :: word.map .literal) text = true ↔ word <:+ text := by
  rw [matchesTokens, List.any_eq_true]
  simp only [mem_tails, matchesTokens_literals, exists_eq_right]

theorem accepts_anywhere {word : List Char} {text : String} :
    (anywhere word).accepts text = true ↔ word <:+ text.toList := by
  rw [accepts, anywhere, matchesTokens]
  simp only [Bool.or_eq_true, List.any_eq_true, matchesTokens_anySequence]
  constructor
  · rintro ((whole | ⟨rest, member, behind⟩) | nothing)
    · exact whole
    · exact behind.trans (suffix_of_mem_tailsBehindSlash member)
    · exact nothing.trans (List.nil_suffix ..)
  · exact fun whole => Or.inl (Or.inl whole)

end Glob

theorem suffix_behind_slash {word : List Char} (solid : '/' ∉ word) (front rest : List Char) :
    word <:+ front ++ '/' :: rest ↔ word <:+ rest := by
  constructor
  · intro ends
    have slashed : '/' :: rest <:+ front ++ '/' :: rest := List.suffix_append ..
    rcases Nat.lt_or_ge rest.length word.length with longer | shorter
    · have inside := List.suffix_of_suffix_length_le slashed ends longer
      exact absurd (inside.subset (List.mem_cons_self ..)) solid
    · exact List.suffix_of_suffix_length_le ends
        ((List.suffix_cons ..).trans slashed) shorter
  · exact fun ends => List.suffix_append_of_suffix (ends.trans (List.suffix_cons ..))

/-- How the text of a relative path ends is told by its last name, but for slashes. -/
theorem suffix_relativeText {names : List String} {last : String} {word : List Char}
    (solid : '/' ∉ word) (straight : '\\' ∉ word) :
    word <:+ (relativeText (names ++ [last])).toList ↔ word <:+ last.toList := by
  have joined (names : List String) :
      word <:+ ("/".intercalate (names ++ [last])).toList ↔ word <:+ last.toList := by
    induction names with
    | nil => simp
    | cons name rest ih =>
      rw [String.toList_intercalate] at ih ⊢
      obtain ⟨next, more, split⟩ := List.exists_cons_of_ne_nil
        (show (rest ++ [last]).map String.toList ≠ [] by simp)
      rw [List.cons_append, List.map_cons, split, List.intercalate_cons_cons, ← split,
        List.append_assoc, show "/".toList = ['/'] from rfl, List.singleton_append,
        suffix_behind_slash solid]
      exact ih
  have kept {written : List Char} (unslashed : '\\' ∉ written) :
      written.map (fun c => if c = '\\' then '/' else c) = written := by
    refine (List.map_congr_left fun c member => if_neg ?_).trans (List.map_id' _)
    rintro rfl
    exact unslashed member
  rw [← joined names, relativeText, String.toList_map, List.suffix_map_iff]
  constructor
  · rintro ⟨written, ends, same⟩
    have unslashed : '\\' ∉ written := by
      intro member
      exact solid (same ▸ List.mem_map.mpr ⟨'\\', member, rfl⟩)
    rwa [same, kept unslashed]
  · exact fun ends => ⟨word, ends, (kept straight).symm⟩

theorem Place.mem_above {place directory : Place} :
    directory ∈ place.above ↔ directory <+: place ∧ directory ≠ place := by
  simp only [above, List.mem_map, List.mem_reverse, List.mem_range]
  constructor
  · rintro ⟨depth, shorter, rfl⟩
    refine ⟨List.take_prefix .., fun whole => ?_⟩
    have length := congrArg List.length whole
    rw [List.length_take] at length
    omega
  · rintro ⟨inside, other⟩
    refine ⟨directory.length, ?_, (List.prefix_iff_eq_take.mp inside).symm⟩
    exact lt_of_le_of_ne inside.length_le fun same => other (inside.eq_of_length same)

theorem Place.above_subset {place other directory : Place} (inside : place <+: other)
    (above : directory ∈ place.above) : directory ∈ other.above := by
  obtain ⟨before, apart⟩ := mem_above.mp above
  refine mem_above.mpr ⟨before.trans inside, ?_⟩
  rintro rfl
  exact apart (before.eq_of_length_le inside.length_le)

namespace Disk
variable {name : String} {disk : Disk} {root place directory : Place} {names : List String}

/-- No file leaves anything out on behalf of the directory. -/
structure Unruled (disk : Disk) (directory : Place) : Prop where
  general : disk.ignoreRules ((Place.path directory).child ".ignore") = []
  versioned : disk.ignoreRules ((Place.path directory).child ".gitignore") = []
  excluded : disk.exclusions directory = []

theorem mem_repositoryLevels {directories : List Place}
    (member : directory ∈ disk.repositoryLevels directories) : directory ∈ directories := by
  unfold repositoryLevels at member
  rw [List.span_eq_takeWhile_dropWhile] at member
  have split := List.takeWhile_append_dropWhile
    (p := fun directory => !disk.isRepository directory) (l := directories)
  cases behind : directories.dropWhile fun directory => !disk.isRepository directory with
  | nil => simp [behind] at member
  | cons top rest =>
    rw [behind] at member split
    rw [← split]
    simp only [List.mem_append, List.mem_cons] at member ⊢
    tauto

theorem isIgnored_of_unruled (unruled : ∀ directory ∈ Place.above place, disk.Unruled directory)
    (isDirectory : Bool) : disk.isIgnored place isDirectory = false := by
  have silent (text : String) : IgnoreRules.verdict? [] text isDirectory = none := rfl
  have undecided : disk.ignoreVerdict? place isDirectory = none := by
    simp only [ignoreVerdict?, Option.or_eq_none_iff, List.findSome?_eq_none_iff]
    refine ⟨fun directory above => ?_, fun directory level => ?_, fun directory level => ?_⟩
    · rw [(unruled directory above).general, silent]
    · rw [(unruled directory (mem_repositoryLevels level)).versioned, silent]
    · rw [(unruled directory (mem_repositoryLevels level)).excluded, silent]
  rw [isIgnored, undecided]
  rfl

theorem entersDirectory_iff
    (unruled : ∀ directory ∈ Place.above (place ++ [name]), disk.Unruled directory) :
    disk.entersDirectory (place ++ [name]) = true ↔ name ∉ skippedDirectories := by
  simp [entersDirectory, isIgnored_of_unruled unruled]

/-- Without rules, a file is reached if none of the directories that lead to it is skipped. -/
theorem reaches_iff (unruled : ∀ directory ∈ Place.above (root ++ names), disk.Unruled directory) :
    disk.reaches root names = true ↔ ∀ name ∈ names.dropLast, name ∉ skippedDirectories := by
  have enters {depth : Nat} {name : String} (named : names[depth]? = some name) :
      disk.entersDirectory (root ++ names.take (depth + 1)) = true ↔ name ∉ skippedDirectories := by
    have spelled : root ++ names.take (depth + 1) = (root ++ names.take depth) ++ [name] := by
      rw [List.take_add_one, named, List.append_assoc]
      rfl
    have inside : root ++ names.take (depth + 1) <+: root ++ names :=
      (List.prefix_append_right_inj root).mpr (List.take_prefix ..)
    rw [spelled] at inside ⊢
    exact entersDirectory_iff fun directory above => unruled directory (Place.above_subset inside above)
  rw [reaches, isIgnored_of_unruled unruled, Bool.not_false, Bool.and_true, List.all_eq_true]
  constructor
  · intro entered name member
    obtain ⟨depth, short, named⟩ := List.mem_iff_getElem.mp member
    rw [List.length_dropLast] at short
    have spelled : names[depth]? = some name := by
      rw [← named, List.getElem_dropLast, List.getElem?_eq_getElem]
    have through := entered (depth + 1) (List.mem_range.mpr (by omega))
    exact (enters spelled).mp (by simpa using through)
  · intro none_skipped depth listed
    rw [List.mem_range] at listed
    cases depth with
    | zero => rfl
    | succ depth =>
      have spelled : names[depth]? = some names[depth] := List.getElem?_eq_getElem _
      have member : names[depth] ∈ names.dropLast := by
        rw [List.mem_iff_getElem]
        exact ⟨depth, by rw [List.length_dropLast]; omega, List.getElem_dropLast ..⟩
      simpa using (enters spelled).mpr (none_skipped _ member)

theorem mem_filesBelow (tree : disk.IsTree) :
    names ∈ disk.filesBelow root ↔ ∃ bytes, disk.node? (root ++ names) = some (.file bytes) := by
  simp only [filesBelow, subtree, List.mem_filterMap, List.mem_filter, List.isPrefixOf_iff_prefix]
  constructor
  · rintro ⟨⟨place, node⟩, ⟨member, behind, rfl⟩, found⟩
    cases node with
    | file bytes =>
      have below : Place.namesBelow root (root ++ behind) = behind := List.drop_left
      rw [below] at found
      cases found
      exact ⟨bytes, tree.mem_nodes member⟩
    | directory | link target => contradiction
  · rintro ⟨bytes, file⟩
    have other : disk.node? (root ++ names) ≠ some .directory := by simp [file]
    rw [node?_of_ne_nil disk (ne_nil_of_ne_directory other)] at file
    exact ⟨_, ⟨mem_of_lookup file, List.prefix_append ..⟩, congrArg some List.drop_left⟩

theorem mem_discover {path : Path} (found : disk.find? path = .ok (root, .directory))
    {globs : List Glob} : names ∈ disk.discover path globs ↔
      names ∈ disk.filesBelow root ∧ disk.reaches root names = true ∧
      ∃ glob ∈ globs, glob.accepts (relativeText names) = true := by
  simp only [discover, found, List.mem_mergeSort, List.mem_filter, Bool.and_eq_true, List.any_eq_true]

theorem findFiles_eq (path : Path) {words : List (List Char)}
    (plain : ∀ word ∈ words, ∀ c ∈ word, Glob.IsLiteral c) :
    disk.findFiles path (words.map fun word => String.ofList ("**/*".toList ++ word)) =
      .ok ((disk.discover path (words.map .anywhere)).map (List.foldl Path.child path)) := by
  rw [findFiles, Glob.mapM_parse plain]
  rfl

/-- What discovery finds with patterns for words at the end of a name. -/
theorem mem_findFiles {path : Path} (found : disk.find? path = .ok (root, .directory))
    {words : List (List Char)} (plain : ∀ word ∈ words, ∀ c ∈ word, Glob.IsLiteral c) :
    ∃ files, disk.findFiles path (words.map fun word => String.ofList ("**/*".toList ++ word)) =
      .ok files ∧
    ∀ file, file ∈ files ↔ ∃ names ∈ disk.filesBelow root, disk.reaches root names = true ∧
      (∃ word ∈ words, word <:+ (relativeText names).toList) ∧ names.foldl Path.child path = file := by
  refine ⟨_, findFiles_eq path plain, fun file => ?_⟩
  simp only [List.mem_map, mem_discover found, exists_exists_and_eq_and, Glob.accepts_anywhere, and_assoc]

end Disk
end AssemblySymbols
