import AssemblySymbols.Proofs.Command.GotoAndAt
import AssemblySymbols.Proofs.RelativePaths
import AssemblySymbols.Proofs.Workspace.MatchingFiles

/-! What the relative path of a file tells of the file. Backslashes are shown as slashes, and where a path
has none below its base it can be told from what is shown of it. -/
namespace AssemblySymbols

namespace Path
variable {path other base rest : Path} {relative : String}

/-- The path is below the base and has no backslash there. -/
def Straight (path base : Path) : Prop := ∃ rest, path.below? base = some rest ∧ '\\' ∉ rest.text.toList

theorem relativeTo?_eq_some_iff : path.relativeTo? base = some relative ↔
    ∃ rest, path.below? base = some rest ∧ relative.toList = rest.text.toList.map
      fun c => if c = '\\' then '/' else c := by
  rw [relativeTo?, Option.map_eq_some_iff]
  refine exists_congr fun rest => and_congr_right fun _ => ?_
  rw [← String.toList_inj, String.toList_map, eq_comm]

/-- What is shown holds no backslash, and is what it shows if that holds none either. -/
theorem slashed_cases {shown text : List Char}
    (slashed : shown = text.map fun c => if c = '\\' then '/' else c) :
    '\\' ∉ shown ∧ ('\\' ∉ text → shown = text) := by
  subst slashed
  constructor
  · intro member
    obtain ⟨c, -, same⟩ := List.mem_map.mp member
    split at same
    · contradiction
    · contradiction
  · intro straight
    refine (List.map_congr_left fun c member => if_neg ?_).trans (List.map_id' text)
    rintro rfl
    exact straight member

theorem Straight.below (straight : path.Straight base) (shown : path.relativeTo? base = some relative) :
    path.below? base = some ⟨relative⟩ := by
  obtain ⟨rest, below, plain⟩ := straight
  obtain ⟨rest', below', slashed⟩ := relativeTo?_eq_some_iff.mp shown
  cases below.symm.trans below'
  have same : relative = rest.text := String.toList_inj.mp ((slashed_cases slashed).2 plain)
  rw [below, same]

/-- What is shown of a path leads back to it from the base just if there is no backslash below the base. -/
theorem components_child_iff (shown : path.relativeTo? base = some relative) :
    (base.child relative).components = path.components ↔ path.Straight base := by
  constructor
  · intro back
    obtain ⟨rest, below, slashed⟩ := relativeTo?_eq_some_iff.mp shown
    refine ⟨rest, below, fun crooked => ?_⟩
    have plain := (slashed_cases slashed).1
    have holds : Holds '\\' rest.components :=
      (holds_components (by decide) (by decide) rest).mpr crooked
    have alone : ¬ Holds '\\' (⟨relative⟩ : Path).components :=
      mt (holds_components (by decide) (by decide) ⟨relative⟩).mp plain
    rcases below?_cases below with ⟨no_base, same⟩ | ⟨some_base, -, -, split⟩
    · rw [child, join_of_empty no_base, ← same] at back
      exact alone (back ▸ holds)
    · rw [split] at back
      cases absolute : (⟨relative⟩ : Path).isAbsolute with
      | true =>
        have joined : base.child relative = ⟨relative⟩ := by
          rw [child, join, absolute, Bool.true_or, if_pos rfl]
        rw [joined] at back
        exact alone (back ▸ holds_append.mpr (Or.inr holds))
      | false =>
        rw [child, components_join some_base absolute] at back
        have left := List.append_cancel_left back
        rw [← left, holds_componentsIn (by decide) (by decide)] at holds
        exact plain holds
  · intro straight
    exact components_join_below (straight.below shown)

/-- Paths of which the same is shown are the same, if there is no backslash below the base. -/
theorem Straight.components_eq (straight : path.Straight base) (straight' : other.Straight base)
    (same : path.relativeTo? base = other.relativeTo? base) : path.components = other.components := by
  obtain ⟨rest, below, -⟩ := id straight
  have shown : path.relativeTo? base = some _ := congrArg (Option.map _) below
  exact components_of_below (straight.below shown) (straight'.below (same ▸ shown))

end Path

/-- Sites are printed alike only if they start at the same place of the same file. -/
theorem Site.eq_of_text {root : Path} {site site' : Site}
    (straight : (⟨site.uri⟩ : Path).Straight root) (straight' : (⟨site'.uri⟩ : Path).Straight root)
    (same : site.text root = site'.text root) :
    (⟨site.uri⟩ : Path).components = (⟨site'.uri⟩ : Path).components ∧ site.span.start = site'.span.start := by
  obtain ⟨paths, lines, columns⟩ := place_inj same
  obtain ⟨rest, below, -⟩ := id straight
  obtain ⟨rest', below', -⟩ := id straight'
  have shown : (⟨site.uri⟩ : Path).relativeTo? root = some _ := congrArg (Option.map _) below
  have shown' : (⟨site'.uri⟩ : Path).relativeTo? root = some _ := congrArg (Option.map _) below'
  constructor
  · apply straight.components_eq straight'
    rw [shown, shown'] at paths ⊢
    exact congrArg some paths
  · have line := (UInt32.add_left_inj 1).mp lines
    have column := (UInt32.add_left_inj 1).mp columns
    exact congrArg₂ Position.mk line column

namespace Disk
variable {disk : Disk} {root path other : Path} {patterns : List String} {paths : List Path}

/-- The paths that discovery lists on a tree lead from the root along names. -/
theorem IsTree.named_of_discovered (tree : disk.IsTree) (listed : disk.findFiles root patterns = .ok paths)
    (member : path ∈ paths) : root.text.toList ≠ [] ∧
      ∃ names : List String, (∀ name ∈ names, Path.IsFileName name) ∧ names.foldl Path.child root = path := by
  obtain ⟨globs, rfl⟩ : ∃ globs, paths = (disk.discover root globs).map (List.foldl Path.child root) := by
    cases parsed : patterns.mapM Glob.ofPattern with
    | error error => cases (findFiles_of_error parsed root).symm.trans listed
    | ok globs => exact ⟨globs, (Except.ok.inj ((findFiles_of_parsed parsed root).symm.trans listed)).symm⟩
  obtain ⟨names, found, rfl⟩ := List.mem_map.mp member
  unfold discover at found
  cases stands : disk.find? root with
  | error => simp [stands] at found
  | ok there =>
    obtain ⟨place, node⟩ := there
    refine ⟨(resolve_eq_ok_iff.mp (resolve_of_find? stands)).2.1, names, ?_, rfl⟩
    cases node with
    | directory =>
      simp only [stands, List.mem_mergeSort, List.mem_filter] at found
      intro name inside
      obtain ⟨-, -, -, named⟩ := tree.way_below found.1 (List.ne_nil_of_mem inside)
      exact (named name inside).toIsFileName
    | file | link =>
      simp only [stands, List.mem_filter, List.mem_singleton] at found
      simp [found.1]

/-- Files of which the same is shown to the patterns are the same, if there is no backslash below the
root. -/
theorem IsTree.eq_of_discovered (tree : disk.IsTree) (listed : disk.findFiles root patterns = .ok paths)
    (member : path ∈ paths) (member' : other ∈ paths) (straight : path.Straight root)
    (straight' : other.Straight root) (same : path.relativeTo? root = other.relativeTo? root) :
    path = other := by
  obtain ⟨some_root, names, named, rfl⟩ := tree.named_of_discovered listed member
  obtain ⟨-, names', named', rfl⟩ := tree.named_of_discovered listed member'
  have components := straight.components_eq straight' same
  rw [Path.components_descend some_root named, Path.components_descend some_root named'] at components
  have alike : names = names' := List.map_injective_iff.mpr
    (fun _ _ => Path.Component.name.inj) (List.append_cancel_left components)
  rw [alike]

end Disk

/-- The path that is shown of a file leads back to the file just if there is no backslash below the root.
Of different files without backslashes different paths are shown, so that they are neither printed alike nor
the same to the patterns of discovery. -/
theorem Path.relativeTo?_identifies (root : Path) :
    (∀ (path : Path) (relative : String), path.relativeTo? root = some relative →
      ((root.child relative).components = path.components ↔ path.Straight root)) ∧
    (∀ path other : Path, path.Straight root → other.Straight root →
      path.relativeTo? root = other.relativeTo? root → path.components = other.components) ∧
    (∀ site site' : Site, (⟨site.uri⟩ : Path).Straight root → (⟨site'.uri⟩ : Path).Straight root →
      site.text root = site'.text root →
      (⟨site.uri⟩ : Path).components = (⟨site'.uri⟩ : Path).components ∧ site.span.start = site'.span.start) ∧
    ∀ (disk : Disk) (patterns : List String) (paths : List Path), disk.IsTree → disk.findFiles root patterns = .ok paths →
      ∀ path ∈ paths, ∀ other ∈ paths, path.Straight root → other.Straight root →
        path.relativeTo? root = other.relativeTo? root → path = other := by
  refine ⟨fun path relative shown => components_child_iff shown, ?_, ?_, ?_⟩
  · intro path other straight straight' same
    exact straight.components_eq straight' same
  · intro site site' straight straight' same
    exact Site.eq_of_text straight straight' same
  · intro disk patterns paths tree listed path member other member' straight straight' same
    exact tree.eq_of_discovered listed member member' straight straight' same

/-- A file that discovery finds, and another spelling of its path. -/
theorem Path.relativeTo?_identifies_oneSource :
    let root : Path := ⟨"/"⟩
    let path : Path := ⟨"/a.asm"⟩
    let respelled : Path := ⟨"//./a.asm/"⟩
    ∃ paths, oneSource.findFiles root (Settings.defaults none).patterns = .ok paths ∧ path ∈ paths ∧
      (∀ other ∈ paths, other.Straight root → other.relativeTo? root = some "a.asm" → path = other) ∧
      (root.child "a.asm").components = respelled.components ∧ path.components = respelled.components ∧
      ∀ span span' : Span, (Site.mk path.text span).text root = (Site.mk respelled.text span').text root →
        span.start = span'.start := by
  intro root path respelled
  obtain ⟨leads, same, sites, discovered⟩ := relativeTo?_identifies root
  have straight : path.Straight root := ⟨⟨"a.asm"⟩, by decide, by decide⟩
  have straight' : respelled.Straight root := ⟨⟨"a.asm"⟩, by decide, by decide⟩
  have listed : oneSource.findFiles root (Settings.defaults none).patterns = .ok [path] := by
    rw [Disk.findFiles_defaults, Disk.discover_oneSource]
    decide +kernel
  refine ⟨_, listed, List.mem_singleton_self path, fun other member plain shown => ?_, ?_, ?_, ?_⟩
  · exact discovered _ _ _ sheltered_oneSource.toLinkless.toIsTree listed path (List.mem_singleton_self path)
      other member straight plain (shown ▸ by decide +kernel)
  · exact (leads respelled "a.asm" (by decide +kernel)).mpr straight'
  · exact same path respelled straight straight' (by decide +kernel)
  · exact fun span span' alike => (sites ⟨_, span⟩ ⟨_, span'⟩ straight straight' alike).2

/-- A backslash in a name is shown as the slash above another name. -/
theorem Path.relativeTo?_backslash :
    let root : Path := ⟨"/w"⟩
    let path : Path := ⟨"/w/a\\b.asm"⟩
    let other : Path := ⟨"/w/a/b.asm"⟩
    path.relativeTo? root = some "a/b.asm" ∧ other.relativeTo? root = some "a/b.asm" ∧
      path.components ≠ other.components ∧ (root.child "a/b.asm").components ≠ path.components := by
  decide +kernel

end AssemblySymbols
