import AssemblySymbols.Proofs.Session.ScanAndWatch
import AssemblySymbols.Proofs.Workspace.RepeatedDiscovery
import Mathlib.Data.List.Lex

/-! Discovery by what it finds. Where no ignore file counts, these are the files that no skipped directory
is above and whose relative paths match a pattern, each once and in the order of paths. -/
namespace AssemblySymbols

/-! The order of paths. -/

namespace Path

def Component.rank : Component → Nat
  | root => 0
  | here => 1
  | parent => 2
  | name _ => 3

/-- Two names are compared character by character, other components by their kinds. -/
def Component.Precedes : Component → Component → Prop
  | name text, name other => text < other
  | one, other => one.rank < other.rank

/-- The order of paths component by component, in which a directory comes before what is in it. -/
def Precedes (path other : Path) : Prop :=
  List.Lex Component.Precedes path.components other.components

theorem Component.Precedes.ne {one other : Component} (before : one.Precedes other) : one ≠ other := by
  rintro rfl
  cases one with
  | name text => exact String.lt_irrefl text before
  | root | here | parent => exact Nat.lt_irrefl _ before

theorem Precedes.ne {path other : Path} (before : path.Precedes other) : path ≠ other := by
  rintro rfl
  exact List.Lex.to_ne (List.Lex.imp (fun _ _ => Component.Precedes.ne) _ _ before) rfl

end Path

namespace Place

/-- The order in which files are found is that of their names as components. -/
theorem lex_of_comesBefore {names others : List String} (before : comesBefore names others = true)
    (apart : names ≠ others) :
    List.Lex Path.Component.Precedes (names.map .name) (others.map .name) := by
  induction names generalizing others with
  | nil =>
    obtain ⟨other, more, rfl⟩ := List.exists_cons_of_ne_nil apart.symm
    exact .nil
  | cons name rest ih =>
    cases others with
    | nil => contradiction
    | cons other more =>
      rw [comesBefore] at before
      by_cases same : name = other
      · subst same
        rw [if_pos rfl] at before
        exact .cons (ih before fun rest => apart (rest ▸ rfl))
      · rw [if_neg same, decide_eq_true_iff] at before
        exact .rel before

end Place

/-- Names below a path are in the order of the paths that they lead to. -/
theorem Path.precedes_descend {base : Path} {names others : List String}
    (some_base : base.text.toList ≠ []) (named : ∀ name ∈ names, IsFileName name)
    (named' : ∀ name ∈ others, IsFileName name) (before : Place.comesBefore names others = true)
    (apart : names ≠ others) : (names.foldl child base).Precedes (others.foldl child base) := by
  rw [Precedes, components_descend some_base named, components_descend some_base named']
  exact (Place.lex_of_comesBefore before apart).append_left _ _

theorem Path.relativeTo?_descend {base : Path} {names : List String} (some_base : base.text.toList ≠ [])
    (named : ∀ name ∈ names, IsFileName name) (some_names : names ≠ []) :
    (names.foldl child base).relativeTo? base = some (relativeText names) := by
  rw [relativeTo?, below?_descend some_base named some_names]
  rfl

/-! The patterns. -/

/-- What a pattern stands for. Slashes at its head have no meaning. -/
def Glob.ofPattern (pattern : String) : Except SyntaxError Glob :=
  parse (String.ofList (pattern.toList.dropWhile (· == '/')))

section Readings
variable {α β ε : Type} {read : α → Except ε β} {list : List α}

/-- A list all of which can be read is read as a whole. -/
theorem mapM_of_legible (legible : ∀ item ∈ list, ∃ result, read item = .ok result) :
    ∃ results, list.mapM read = .ok results ∧
      ∀ result, result ∈ results ↔ ∃ item ∈ list, read item = .ok result := by
  induction list with
  | nil => exact ⟨[], rfl, by simp⟩
  | cons item rest ih =>
    obtain ⟨⟨first, own⟩, others⟩ := List.forall_mem_cons.mp legible
    obtain ⟨more, read_rest, listed⟩ := ih others
    refine ⟨first :: more, by simp [List.mapM_cons, own, read_rest, bind, Except.bind, pure, Except.pure],
      fun result => ?_⟩
    rw [List.mem_cons, listed, List.exists_mem_cons_iff, own, Except.ok.injEq, eq_comm]

/-- The first that cannot be read decides. -/
theorem mapM_of_illegible {front rest : List α} {item : α} {error : ε}
    (legible : ∀ item ∈ front, ∃ result, read item = .ok result) (illegible : read item = .error error) :
    (front ++ item :: rest).mapM read = .error error := by
  induction front with
  | nil => simp [List.mapM_cons, illegible, bind, Except.bind]
  | cons first front ih =>
    obtain ⟨⟨result, own⟩, others⟩ := List.forall_mem_cons.mp legible
    simp [List.mapM_cons, own, ih others, bind, Except.bind]

end Readings

namespace Disk
variable {disk : Disk} {root : Path} {place : Place}

theorem findFiles_of_parsed {patterns : List String} {globs : List Glob}
    (parsed : patterns.mapM Glob.ofPattern = .ok globs) (path : Path) :
    disk.findFiles path patterns = .ok ((disk.discover path globs).map (List.foldl Path.child path)) :=
  congrArg (· >>= fun globs => pure ((disk.discover path globs).map (List.foldl Path.child path))) parsed

theorem findFiles_of_error {patterns : List String} {error : Glob.SyntaxError}
    (failed : patterns.mapM Glob.ofPattern = .error error) (path : Path) :
    disk.findFiles path patterns = .error error :=
  congrArg (· >>= fun globs => pure ((disk.discover path globs).map (List.foldl Path.child path))) failed

namespace PlainTree

/-- Names under which discovery finds a file in a plain tree. -/
theorem mem_discover_iff (tree : disk.PlainTree root place) {globs : List Glob} {names : List String} :
    names ∈ disk.discover root globs ↔
      (∃ bytes, disk.node? (place ++ names) = some (.file bytes)) ∧
      (∀ name ∈ names.dropLast, name ∉ skippedDirectories) ∧
      ∃ glob ∈ globs, glob.accepts (relativeText names) = true := by
  rw [mem_discover tree.found, ← mem_filesBelow tree.tree]
  exact and_congr_right fun below => and_congr_left fun _ => reaches_iff (tree.unruled names below)

theorem named_of_mem_discover (tree : disk.PlainTree root place) {globs : List Glob}
    {names : List String} (found : names ∈ disk.discover root globs) :
    names ≠ [] ∧ ∀ name ∈ names, Path.IsFileName name := by
  obtain ⟨⟨bytes, file⟩, -⟩ := tree.mem_discover_iff.mp found
  exact tree.named file

/-- The paths that are found are in order, and therefore different. -/
theorem pairwise_paths (tree : disk.PlainTree root place) (globs : List Glob) :
    ((disk.discover root globs).map (List.foldl Path.child root)).Pairwise Path.Precedes := by
  have ordered := (pairwise_discover tree.found globs).and (nodup_discover tree.tree tree.found globs)
  rw [List.pairwise_map]
  refine ordered.imp_of_mem fun found found' ⟨before, apart⟩ => ?_
  exact Path.precedes_descend tree.some_root (tree.named_of_mem_discover found).2
    (tree.named_of_mem_discover found').2 before apart

end PlainTree

/-- With patterns that can all be used, discovery in a tree without ignore files succeeds. It lists its
files once each, ascending component by component, and exactly those files, themselves no links, that no
directory of a skipped name is above and whose relative path, slashes in place of backslashes, one of the
patterns matches. The first pattern that cannot be used makes discovery fail, on any disk. -/
theorem findFiles_matching (patterns : List String) :
    (∀ (disk : Disk) (root : Path) (place : Place), disk.PlainTree root place →
      (∀ pattern ∈ patterns, ∃ glob, Glob.ofPattern pattern = .ok glob) →
      ∃ files, disk.findFiles root patterns = .ok files ∧
        files.Pairwise Path.Precedes ∧ files.Nodup ∧
        ∀ file, file ∈ files ↔ ∃ names bytes text,
          names.foldl Path.child root = file ∧ file.relativeTo? root = some text ∧
          disk.node? (place ++ names) = some (.file bytes) ∧
          (∀ name ∈ names.dropLast, name ∉ skippedDirectories) ∧
          ∃ pattern ∈ patterns, ∃ glob,
            Glob.ofPattern pattern = .ok glob ∧ glob.accepts text = true) ∧
    ∀ (disk : Disk) (root : Path) (front rest : List String) (pattern : String)
      (error : Glob.SyntaxError), patterns = front ++ pattern :: rest →
      (∀ pattern ∈ front, ∃ glob, Glob.ofPattern pattern = .ok glob) →
      Glob.ofPattern pattern = .error error → disk.findFiles root patterns = .error error := by
  constructor
  · intro disk root place tree legible
    obtain ⟨globs, parsed, listed⟩ := mapM_of_legible legible
    have ordered := tree.pairwise_paths globs
    refine ⟨_, findFiles_of_parsed parsed root, ordered, ordered.imp Path.Precedes.ne, fun file => ?_⟩
    rw [List.mem_map]
    constructor
    · rintro ⟨names, found, rfl⟩
      obtain ⟨some_names, named⟩ := tree.named_of_mem_discover found
      obtain ⟨⟨bytes, stands⟩, unskipped, glob, member, accepted⟩ := tree.mem_discover_iff.mp found
      obtain ⟨pattern, given, means⟩ := (listed glob).mp member
      exact ⟨names, bytes, _, rfl, Path.relativeTo?_descend tree.some_root named some_names, stands,
        unskipped, pattern, given, glob, means, accepted⟩
    · rintro ⟨names, bytes, text, rfl, relative, stands, unskipped, pattern, given, glob, means, accepted⟩
      obtain ⟨some_names, named⟩ := tree.named stands
      rw [Path.relativeTo?_descend tree.some_root named some_names] at relative
      cases relative
      have member := (listed glob).mpr ⟨pattern, given, means⟩
      exact ⟨names,
        tree.mem_discover_iff.mpr ⟨⟨bytes, stands⟩, unskipped, glob, member, accepted⟩, rfl⟩
  · rintro disk root front rest pattern error rfl legible illegible
    exact findFiles_of_error (mapM_of_illegible legible illegible) root

/-- A directory and a file of a skipped name, and a link to a source. -/
def toolTree : Disk where
  nodes := [(["build"], .directory), (["build", "gen.asm"], .file []), (["lib"], .directory),
    (["lib", "build"], .file []), (["lib", "old.asm"], .link "../main.asm"), (["main.asm"], .file [])]
  home := []

theorem plainTree_toolTree : toolTree.PlainTree ⟨"/"⟩ [] where
  tree := isTree_of_entries (by decide) (by decide +kernel)
  found := rfl
  solid := solid_nil _
  unruled := by
    have silent : ∀ directory ∈ [[], ["build"], ["lib"]], toolTree.Unruled directory := by
      intro directory listed
      simp only [List.mem_cons, List.not_mem_nil, or_false] at listed
      rcases listed with rfl | rfl | rfl <;>
        exact ⟨by decide +kernel, by decide +kernel, by decide +kernel⟩
    have above : ∀ names ∈ toolTree.filesBelow [], ∀ directory ∈ Place.above ([] ++ names),
        directory ∈ [[], ["build"], ["lib"]] := by decide
    exact fun names member directory inside => silent directory (above names member directory inside)

/-- The file is found and what is in the directory is not, though patterns match both. -/
theorem findFiles_matching_skippedName :
    ∃ files, toolTree.findFiles ⟨"/"⟩ ["/lib/b*", "**/*.asm"] = .ok files ∧
      files.Pairwise Path.Precedes ∧ ⟨"/lib/build"⟩ ∈ files ∧ ⟨"/build/gen.asm"⟩ ∉ files := by
  have inLibrary : Glob.ofPattern "/lib/b*" =
      .ok ⟨"lib/b".toList.map .literal ++ [.anySequence]⟩ := by cbv
  have sources : Glob.ofPattern "**/*.asm" = .ok (.anywhere ".asm".toList) := by cbv
  obtain ⟨files, listed, ordered, -, member⟩ := (findFiles_matching ["/lib/b*", "**/*.asm"]).1
    toolTree ⟨"/"⟩ [] plainTree_toolTree (by
      intro pattern given
      simp only [List.mem_cons, List.not_mem_nil, or_false] at given
      rcases given with rfl | rfl
      · exact ⟨_, inLibrary⟩
      · exact ⟨_, sources⟩)
  refine ⟨files, listed, ordered, ?_, fun found => ?_⟩
  · exact (member _).mpr ⟨["lib", "build"], [], "lib/build", by decide +kernel, by decide +kernel, rfl,
      by decide, "/lib/b*", by simp, _, inLibrary, by decide +kernel⟩
  · obtain ⟨names, bytes, text, path, -, stands, unskipped, -⟩ := (member _).mp found
    have named := (plainTree_toolTree.named stands).2
    have components := congrArg Path.components path
    have spelled : (⟨"/build/gen.asm"⟩ : Path).components =
        (⟨"/"⟩ : Path).components ++ ["build", "gen.asm"].map .name := by decide +kernel
    rw [Path.components_descend plainTree_toolTree.some_root named, spelled] at components
    have same : names = ["build", "gen.asm"] := List.map_injective_iff.mpr
      (fun _ _ => Path.Component.name.inj) (List.append_cancel_left components)
    exact unskipped "build" (by simp [same]) (by decide)

end Disk
end AssemblySymbols
