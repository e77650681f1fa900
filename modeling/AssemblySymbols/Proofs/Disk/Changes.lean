import AssemblySymbols.Disk.Action
import AssemblySymbols.Proofs.Disk.Walks
import AssemblySymbols.Proofs.Lookups

/-! What stands on a disk after a change to it. -/
namespace AssemblySymbols.Disk
variable {disk after : Disk} {place other source target : Place} {node : Node}

theorem node?_of_ne_nil (disk : Disk) (some : place ≠ []) : disk.node? place = disk.nodes.lookup place := by
  cases place with
  | nil => contradiction
  | cons name rest => rfl

theorem node?_erase (some : other ≠ []) :
    (disk.erase place).node? other = if other = place then none else disk.node? other := by
  rw [node?_of_ne_nil _ some, node?_of_ne_nil _ some, erase, lookup_filter _ fun other => other ≠ place]
  by_cases same : other = place <;> simp [same]

theorem node?_put (some : place ≠ []) :
    (disk.put place node).node? other = if other = place then .some node else disk.node? other := by
  cases other with
  | nil => rw [if_neg some.symm]; rfl
  | cons name rest =>
    have named : name :: rest ≠ [] := List.cons_ne_nil name rest
    rw [node?_of_ne_nil _ named, node?_of_ne_nil _ named, put, List.lookup_append,
      lookup_filter _ fun other => other ≠ place]
    by_cases same : name :: rest = place
    · simp [same]
    · simp [same, List.lookup_cons, beq_eq_false_iff_ne.mpr same]

/-- The entries at and below a place, put below another. -/
theorem lookup_moved (entries : List (Place × Node)) (source target : Place) :
    ((entries.filter fun entry => source.isPrefixOf entry.1).map fun entry =>
      (target ++ entry.1.drop source.length, entry.2)).lookup target = entries.lookup source := by
  induction entries with
  | nil => rfl
  | cons entry rest ih =>
    rw [List.filter_cons, List.lookup_cons]
    by_cases below : source.isPrefixOf entry.1
    · obtain ⟨tail, same⟩ := List.isPrefixOf_iff_prefix.mp below
      rw [if_pos below, List.map_cons, List.lookup_cons, ih, ← same, List.drop_left]
      by_cases last : tail = []
      · simp [last]
      · have apart (place : Place) : (place == place ++ tail) = false :=
          beq_eq_false_iff_ne.mpr (by simpa using last)
        rw [apart, apart]
    · rw [if_neg below, ih]
      have apart : source ≠ entry.1 := by
        rintro same
        exact below (List.isPrefixOf_iff_prefix.mpr (same ▸ List.prefix_refl source))
      rw [beq_eq_false_iff_ne.mpr apart]

theorem node?_move_target (distinct : source ≠ []) (some : target ≠ []) :
    (disk.move source target).node? target = disk.node? source := by
  rw [node?_of_ne_nil _ distinct, node?_of_ne_nil _ some, move]
  dsimp only
  rw [List.lookup_append, lookup_filter _ fun place => !source.isPrefixOf place && place ≠ target]
  simp [subtree, lookup_moved]

/-- Nothing else has changed, but that nothing is left at the old place. -/
theorem node?_move_other (distinct : source ≠ []) (outside : ¬ target <+: other) :
    (disk.move source target).node? other = if source <+: other then none else disk.node? other := by
  cases other with
  | nil => rw [if_neg (by simpa using distinct)]; rfl
  | cons name rest =>
    have named : name :: rest ≠ [] := List.cons_ne_nil name rest
    have apart : name :: rest ≠ target := by
      rintro rfl
      exact outside (List.prefix_refl _)
    have unmoved : ((disk.subtree source).map fun entry =>
        (target ++ entry.1.drop source.length, entry.2)).lookup (name :: rest) = none := by
      rw [List.lookup_eq_none_iff]
      intro entry member
      obtain ⟨old, _, rfl⟩ := List.mem_map.mp member
      rw [bne_iff_ne]
      intro same
      exact outside ⟨_, same.symm⟩
    rw [node?_of_ne_nil _ named, node?_of_ne_nil _ named, move]
    dsimp only
    rw [List.lookup_append, unmoved,
      lookup_filter _ fun place => !source.isPrefixOf place && place ≠ target, Option.or_none]
    by_cases below : source <+: name :: rest
    · simp [below, List.isPrefixOf_iff_prefix.mpr below]
    · have beyond : source.isPrefixOf (name :: rest) = false := by
        rw [← Bool.not_eq_true, List.isPrefixOf_iff_prefix]
        exact below
      simp [below, beyond, apart]

/-- A solid place is not below one that holds no directory. -/
theorem Solid.not_below (solid : disk.Solid place) (other : disk.node? source ≠ some .directory) :
    ¬ source <+: place :=
  fun below => other (solid source below)

/-- A name in a directory is below a place without a directory only if it is at that place. -/
theorem Solid.eq_of_below (solid : disk.Solid place) {name : String}
    (other : disk.node? source ≠ some .directory) (below : source <+: place ++ [name]) :
    source = place ++ [name] := by
  rcases List.prefix_concat_iff.mp below with same | inside
  · exact same
  · exact absurd inside (solid.not_below other)

/-- A place can be given to a file if it was free or held one. -/
def Spare (disk : Disk) (place : Place) : Prop :=
  disk.node? place = none ∨ ∃ bytes, disk.node? place = some (.file bytes)

theorem Spare.ne_directory (spare : disk.Spare place) : disk.node? place ≠ some .directory := by
  rcases spare with free | ⟨bytes, file⟩
  · simp [free]
  · simp [file]

/-- Directories and links stand elsewhere. -/
theorem Spare.apart (spare : disk.Spare place) {other : Place} {node : Node}
    (stands : disk.node? other = some node) (notFile : ∀ bytes, node ≠ .file bytes) : other ≠ place := by
  rintro rfl
  rcases spare with free | ⟨bytes, file⟩
  · cases free.symm.trans stands
  · cases file.symm.trans stands
    exact notFile bytes rfl

theorem ne_nil_of_ne_directory (other : disk.node? place ≠ some .directory) : place ≠ [] := by
  rintro rfl
  exact other rfl

theorem keeps_put (spare : disk.Spare place) (node : Node) : disk.Keeps (disk.put place node) := by
  refine ⟨rfl, fun here name found _ kept notFile => ?_⟩
  rw [node?_put (ne_nil_of_ne_directory spare.ne_directory), if_neg (spare.apart kept notFile), kept]

/-- What is reached after a file has been put at a spare place was there before. -/
theorem keeps_of_put (spare : disk.Spare place) (bytes : Text.Bytes) :
    (disk.put place (.file bytes)).Keeps disk := by
  refine ⟨rfl, fun here name found _ kept notFile => ?_⟩
  rw [node?_put (ne_nil_of_ne_directory spare.ne_directory)] at kept
  split at kept
  · exact absurd (Option.some.inj kept).symm (notFile bytes)
  · exact kept

/-- A file that is moved leaves everything as it was but what gives way to it. -/
theorem keeps_move {bytes : Text.Bytes} (file : disk.node? source = some (.file bytes))
    (other : disk.node? target ≠ some .directory) :
    (disk.erase target).Keeps (disk.move source target) := by
  have sourceOther : disk.node? source ≠ some .directory := by simp [file]
  have distinct := ne_nil_of_ne_directory sourceOther
  refine ⟨rfl, fun here name found solid kept notFile => ?_⟩
  have named : here ++ [name] ≠ [] := by simp
  rw [node?_erase named] at kept
  split at kept
  · contradiction
  · next apart =>
    have free : (disk.erase target).node? target ≠ some .directory := by
      rw [node?_erase (ne_nil_of_ne_directory other), if_pos rfl]
      simp
    have outside : ¬ target <+: here ++ [name] := fun below => apart (solid.eq_of_below free below).symm
    rw [node?_move_other distinct outside, if_neg, kept]
    intro below
    have sourceFree : (disk.erase target).node? source ≠ some .directory := by
      rw [node?_erase distinct]
      split
      · simp
      · exact sourceOther
    rw [solid.eq_of_below sourceFree below] at file
    exact notFile bytes (Option.some.inj (kept.symm.trans file))

/-! Directories that are made. -/

/-- Directories have come to places that were free. -/
structure Grows (before after : Disk) : Prop where
  home : after.home = before.home
  grown : ∀ place, after.node? place = before.node? place ∨
    before.node? place = none ∧ after.node? place = some .directory

theorem Grows.refl (disk : Disk) : disk.Grows disk := ⟨rfl, fun _ => Or.inl rfl⟩

theorem Grows.trans {last : Disk} (first : disk.Grows after) (second : after.Grows last) :
    disk.Grows last := by
  refine ⟨second.home.trans first.home, fun place => ?_⟩
  rcases second.grown place with same | ⟨free, made⟩
  · rw [same]
    exact first.grown place
  · rcases first.grown place with same | ⟨free', made'⟩
    · exact Or.inr ⟨same ▸ free, made⟩
    · exact absurd (free.symm.trans made') (by simp)

theorem Grows.stands (grows : disk.Grows after) {node : Node} (found : disk.node? place = some node) :
    after.node? place = some node := by
  rcases grows.grown place with same | ⟨free, -⟩
  · rw [same, found]
  · exact absurd (found.symm.trans free) (by simp)

theorem Grows.keeps (grows : disk.Grows after) : disk.Keeps after :=
  ⟨grows.home, fun _ _ _ _ found _ => grows.stands found⟩

theorem Grows.solid_home (grows : disk.Grows after) (home : disk.Solid disk.home) :
    after.Solid after.home :=
  grows.home ▸ grows.keeps.solid home

/-- A directory is made where its path leads to nothing. -/
theorem makeDirectory_ok {path : Path} (made : disk.makeDirectory path = .ok after) :
    ∃ place slashed, disk.resolve false path = .ok (.absent place slashed) ∧
      after = disk.put place .directory := by
  unfold makeDirectory at made
  cases went : disk.resolve false path with
  | error error => simp [went, bind, Except.bind] at made
  | ok destination =>
    cases destination with
    | present place node => simp [went, bind, Except.bind] at made
    | absent place slashed =>
      simp only [went, bind, Except.bind, pure, Except.pure] at made
      cases made
      exact ⟨place, slashed, rfl, rfl⟩

theorem grows_of_makeDirectory {path : Path} (home : disk.Solid disk.home)
    (made : disk.makeDirectory path = .ok after) : disk.Grows after := by
  obtain ⟨place, slashed, went, rfl⟩ := makeDirectory_ok made
  have free : disk.node? place = none := (resolve_sound home went).2.1
  have some : place ≠ [] := ne_nil_of_ne_directory (by simp [free] : disk.node? place ≠ some .directory)
  refine ⟨rfl, fun other => ?_⟩
  rw [node?_put some]
  split
  · next same => exact Or.inr ⟨same ▸ free, rfl⟩
  · exact Or.inl rfl

end AssemblySymbols.Disk

namespace AssemblySymbols.DiskAction
open Disk

theorem run_bind {α β : Type} (action : DiskAction α) (next : α → DiskAction β) (disk : Disk) :
    (action >>= next).run disk =
      match action.run disk with
      | (.ok done, after) => (next done).run after
      | (.error error, after) => (.error error, after) := by
  change (match action.run disk with | (outcome, after) => ExceptT.bindCont next outcome after) = _
  rcases action.run disk with ⟨_ | _, after⟩ <;> rfl

theorem run_tryCatch {α : Type} (action : DiskAction α) (handler : DiskError → DiskAction α) (disk : Disk) :
    (tryCatch action handler).run disk =
      match action.run disk with
      | (.ok done, after) => (.ok done, after)
      | (.error error, after) => (handler error).run after := by
  change (ExceptT.tryCatch action handler).run disk = _
  rw [ExceptT.tryCatch, ExceptT.run_mk]
  cases outcome : action.run disk with
  | mk result after =>
    have bound : (action : StateM Disk (Except DiskError α)) disk = (result, after) := outcome
    simp only [bind, StateT.bind, bound]
    cases result <;> rfl

theorem run_change (step : Disk → Except DiskError Disk) (disk : Disk) :
    (change step).run disk =
      match step disk with
      | .ok after => (.ok (), after)
      | .error error => (.error error, disk) := by
  change (ExceptT.run (match step disk with
    | .ok disk => set disk
    | .error error => throw error : DiskAction Unit)) disk = _
  cases step disk <;> rfl

/-- What is true of the disk stays true, whether or not the action succeeds. -/
def Keeping (kept : Disk → Prop) (action : DiskAction Unit) : Prop :=
  ∀ disk : Disk, kept disk → kept (action.run disk).2

variable {kept : Disk → Prop}

theorem keeping_pure : Keeping kept (pure ()) := fun _ holds => holds

theorem keeping_throw (error : DiskError) : Keeping kept (throw error) := fun _ holds => holds

theorem Keeping.bind {action : DiskAction Unit} {next : Unit → DiskAction Unit}
    (first : Keeping kept action) (second : ∀ done, Keeping kept (next done)) :
    Keeping kept (action >>= next) := by
  intro disk holds
  rw [run_bind]
  have holds' := first disk holds
  rcases outcome : action.run disk with ⟨_ | done, after⟩
  · rwa [outcome] at holds'
  · rw [outcome] at holds'
    exact second done after holds'

theorem Keeping.tryCatch {action : DiskAction Unit} {handler : DiskError → DiskAction Unit}
    (first : Keeping kept action) (second : ∀ error, Keeping kept (handler error)) :
    Keeping kept (MonadExcept.tryCatch action handler) := by
  intro disk holds
  rw [run_tryCatch]
  have holds' := first disk holds
  rcases outcome : action.run disk with ⟨error | _, after⟩
  · rw [outcome] at holds'
    exact second error after holds'
  · rwa [outcome] at holds'

theorem keeping_change {step : Disk → Except DiskError Disk}
    (stepped : ∀ disk after, kept disk → step disk = .ok after → kept after) :
    Keeping kept (change step) := by
  intro disk holds
  rw [run_change]
  cases changed : step disk with
  | ok after => exact stepped disk after holds changed
  | error error => exact holds

/-- Making a directory, if it succeeds, keeps what is true of the disk. -/
def MakingKeeps (kept : Disk → Prop) (path : Path) : Prop :=
  ∀ disk after, kept disk → disk.makeDirectory path = .ok after → kept after

theorem keeping_ensureDirectory {path : Path} (made : MakingKeeps kept path) :
    Keeping kept (ensureDirectory path) := by
  refine (keeping_change made).tryCatch fun error disk holds => ?_
  change kept (ExceptT.run
    (if disk.isDirectory path then pure () else throw error : DiskAction Unit) disk).2
  split
  · exact keeping_pure disk holds
  · exact keeping_throw error disk holds

theorem keeping_makeDirectoriesAbove {path : Path} {above : List Path}
    (made : ∀ other ∈ path :: above, MakingKeeps kept other) :
    Keeping kept (makeDirectoriesAbove path above) := by
  induction above generalizing path with
  | nil => exact keeping_ensureDirectory (made path (List.mem_singleton_self path))
  | cons parent above ih =>
    obtain ⟨own, others⟩ := List.forall_mem_cons.mp made
    refine (keeping_ensureDirectory own).tryCatch fun error => ?_
    cases error with
    | notFound =>
      change Keeping kept (if !parent.text.isEmpty then
        makeDirectoriesAbove parent above >>= fun _ => ensureDirectory path else ensureDirectory path)
      split
      · exact (ih others).bind fun _ => keeping_ensureDirectory own
      · exact keeping_ensureDirectory own
    | _ => exact keeping_throw _

theorem keeping_makeParent {path : Path}
    (made : ∀ parent, path.parent? = some parent →
      ∀ other ∈ parent :: pathsAbove parent.components.length parent, MakingKeeps kept other) :
    Keeping kept (makeParent path) := by
  unfold makeParent makeDirectories
  split
  · next parent found =>
    split
    · exact keeping_pure
    · exact keeping_makeDirectoriesAbove (made parent found)
  · exact keeping_pure

/-- To make the directories that lead to a file does nothing else. -/
theorem grows_makeParent (path : Path) {disk : Disk} (home : disk.Solid disk.home) :
    disk.Grows ((makeParent path).run disk).2 := by
  have kept : Keeping (fun after => disk.Grows after) (makeParent path) :=
    keeping_makeParent fun _ _ _ _ _ _ grows made =>
      grows.trans (grows_of_makeDirectory (grows.solid_home home) made)
  exact kept disk (.refl disk)

end AssemblySymbols.DiskAction
