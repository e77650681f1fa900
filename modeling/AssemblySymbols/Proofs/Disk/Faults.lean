import AssemblySymbols.Proofs.Disk.Changes
import AssemblySymbols.Session.Cache

/-! Saves on a disk that fails. Each call to it may be refused, having done part of its work or nothing of
it, or be the last that the program makes. -/
namespace AssemblySymbols

/-- The calls that a save makes to the disk. -/
structure DiskCalls (m : Type → Type) where
  makeDirectory : Path → m Unit
  isDirectory : Path → m Bool
  write : Path → Text.Bytes → m Unit
  rename : Path → Path → m Unit

namespace DiskCalls
open DiskAction (pathsAbove)
open Cache (encode temporaryPath)

section
variable {m : Type → Type} [Monad m] [MonadExcept DiskError m] (calls : DiskCalls m)

def ensureDirectory (path : Path) : m Unit :=
  tryCatch (calls.makeDirectory path) fun error => do
    if (← calls.isDirectory path) then pure () else throw error

def makeDirectoriesAbove (path : Path) : List Path → m Unit
  | [] => calls.ensureDirectory path
  | parent :: above =>
    tryCatch (calls.ensureDirectory path) fun
      | .notFound => do
        if !parent.text.isEmpty then makeDirectoriesAbove parent above
        calls.ensureDirectory path
      | error => throw error

def makeDirectories (path : Path) : m Unit :=
  if path.text.isEmpty then pure ()
  else calls.makeDirectoriesAbove path (pathsAbove path.components.length path)

def makeParent (path : Path) : m Unit :=
  match path.parent? with
  | some parent => calls.makeDirectories parent
  | none => pure ()

/-- A save, with calls of any kind. -/
def save (path : Path) (snapshot : Snapshot) : m Unit := do
  calls.makeParent path
  calls.write (temporaryPath path) (encode snapshot)
  calls.rename (temporaryPath path) path

end

/-- Calls that do what they should. -/
def exact : DiskCalls DiskAction where
  makeDirectory := DiskAction.makeDirectory
  isDirectory path := do return (← get).isDirectory path
  write := DiskAction.write
  rename := DiskAction.rename

theorem makeDirectoriesAbove_exact (path : Path) (above : List Path) :
    exact.makeDirectoriesAbove path above = DiskAction.makeDirectoriesAbove path above := by
  induction above generalizing path with
  | nil => rfl
  | cons parent above ih =>
    rw [makeDirectoriesAbove, DiskAction.makeDirectoriesAbove]
    congr 1
    funext error
    cases error with
    | notFound =>
      simp only [ih]
      rfl
    | _ => rfl

/-- With such calls it is the save of a cache. -/
theorem save_exact (path : Path) (snapshot : Snapshot) : exact.save path snapshot = Cache.save path snapshot := by
  have parent : exact.makeParent path = DiskAction.makeParent path := by
    unfold makeParent makeDirectories DiskAction.makeParent DiskAction.makeDirectories
    cases path.parent? with
    | none => rfl
    | some above => simp only [makeDirectoriesAbove_exact]
  rw [save, parent]
  rfl

/-! ### What goes through all control -/

/-- A relation between programs of two kinds that holds of whatever is put together from parts of which it
holds. -/
structure Through {m n : Type → Type} [Monad m] [MonadExcept DiskError m] [Monad n] [MonadExcept DiskError n]
    (related : ∀ α : Type, m α → n α → Prop) : Prop where
  pure : ∀ {α : Type} (value : α), related α (pure value) (pure value)
  throw : ∀ {α : Type} (error : DiskError), related α (throw error) (throw error)
  bind : ∀ {α β : Type} {first : m α} {first' : n α} {next : α → m β} {next' : α → n β},
    related α first first' → (∀ value, related β (next value) (next' value)) →
    related β (first >>= next) (first' >>= next')
  tryCatch : ∀ {α : Type} {first : m α} {first' : n α} {handler : DiskError → m α}
    {handler' : DiskError → n α},
    related α first first' → (∀ error, related α (handler error) (handler' error)) →
    related α (tryCatch first handler) (tryCatch first' handler')

section
variable {m n : Type → Type} [Monad m] [MonadExcept DiskError m] [Monad n] [MonadExcept DiskError n]
  {related : ∀ α : Type, m α → n α → Prop} (through : Through related)
  {calls : DiskCalls m} {others : DiskCalls n}
  (asked : ∀ path, related Bool (calls.isDirectory path) (others.isDirectory path))
include through asked

theorem Through.ensureDirectory {path : Path}
    (made : related Unit (calls.makeDirectory path) (others.makeDirectory path)) :
    related Unit (calls.ensureDirectory path) (others.ensureDirectory path) := by
  refine through.tryCatch made fun error => through.bind (asked path) fun stands => ?_
  split
  · exact through.pure ()
  · exact through.throw error

theorem Through.makeDirectoriesAbove {path : Path} {above : List Path}
    (made : ∀ other ∈ path :: above, related Unit (calls.makeDirectory other) (others.makeDirectory other)) :
    related Unit (calls.makeDirectoriesAbove path above) (others.makeDirectoriesAbove path above) := by
  induction above generalizing path with
  | nil => exact through.ensureDirectory asked (made path (List.mem_singleton_self path))
  | cons parent above ih =>
    obtain ⟨own, further⟩ := List.forall_mem_cons.mp made
    have ensured := through.ensureDirectory asked own
    refine through.tryCatch ensured fun error => ?_
    cases error with
    | notFound =>
      cases parent.text.isEmpty with
      | true => exact ensured
      | false => exact through.bind (ih further) fun _ => ensured
    | _ => exact through.throw _

theorem Through.makeParent {path : Path}
    (made : ∀ parent, path.parent? = some parent →
      ∀ other ∈ parent :: pathsAbove parent.components.length parent,
        related Unit (calls.makeDirectory other) (others.makeDirectory other)) :
    related Unit (calls.makeParent path) (others.makeParent path) := by
  unfold DiskCalls.makeParent makeDirectories
  cases found : path.parent? with
  | none => exact through.pure ()
  | some parent =>
    simp only
    split
    · exact through.pure ()
    · exact through.makeDirectoriesAbove asked (made parent found)

theorem Through.save {path : Path} {snapshot : Snapshot}
    (made : ∀ other, related Unit (calls.makeDirectory other) (others.makeDirectory other))
    (written : ∀ other bytes, related Unit (calls.write other bytes) (others.write other bytes))
    (renamed : ∀ source target, related Unit (calls.rename source target) (others.rename source target)) :
    related Unit (calls.save path snapshot) (others.save path snapshot) := by
  unfold DiskCalls.save
  exact through.bind (through.makeParent asked fun _ _ other _ => made other) fun _ =>
    through.bind (written _ _) fun _ => renamed _ _

end
end DiskCalls

/-! ### Calls that fail -/

/-- What becomes of a call. One that writes may have begun, by so many bytes, before it fails or the program
is stopped in it; any other does all of its work or none. -/
inductive Fate where
  | served
  | refused (error : DiskError) (begun : Option Nat)
  | stopped (begun : Option Nat)

/-- Programs that are stopped at some call give no answer. Calls beyond those that a fate is given for are
served. -/
abbrev FaultyAction := ExceptT DiskError (OptionT (StateM (Disk × List Fate)))

namespace FaultyAction
variable {α β : Type}

/-- The end of a program, if it comes to one, and the disk and the fates that are left. -/
def outcome (action : FaultyAction α) (state : Disk × List Fate) :
    Option (Except DiskError α) × Disk × List Fate :=
  action.run.run.run state

/-- A call that `part` of the change is made by when it breaks off. -/
def change (step : Disk → Except DiskError Disk) (part : Nat → Disk → Disk) : FaultyAction Unit :=
  ExceptT.mk <| OptionT.mk fun (disk, fates) =>
    match fates.headD .served with
    | .served =>
      match step disk with
      | .ok after => (some (.ok ()), after, fates.tail)
      | .error error => (some (.error error), disk, fates.tail)
    | .refused error begun => (some (.error error), begun.elim disk (part · disk), fates.tail)
    | .stopped begun => (none, begun.elim disk (part · disk), fates.tail)

/-- What cannot be asked is denied. -/
def ask (question : Disk → Bool) : FaultyAction Bool :=
  ExceptT.mk <| OptionT.mk fun (disk, fates) =>
    match fates.headD .served with
    | .served => (some (.ok (question disk)), disk, fates.tail)
    | .refused _ _ => (some (.ok false), disk, fates.tail)
    | .stopped _ => (none, disk, fates.tail)

/-- A file is opened, and emptied, before its first byte is written. -/
def writePart (path : Path) (bytes : Text.Bytes) (count : Nat) (disk : Disk) : Disk :=
  (disk.write path (bytes.take count)).toOption.getD disk

def calls : DiskCalls FaultyAction where
  makeDirectory path := change (·.makeDirectory path) fun _ disk => disk
  isDirectory path := ask (·.isDirectory path)
  write path bytes := change (·.write path bytes) (writePart path bytes)
  rename source target := change (·.rename source target) fun _ disk => disk

theorem outcome_bind (action : FaultyAction α) (next : α → FaultyAction β) (state : Disk × List Fate) :
    (action >>= next).outcome state =
      match action.outcome state with
      | (some (.ok value), after) => (next value).outcome after
      | (some (.error error), after) => (some (.error error), after)
      | (none, after) => (none, after) := by
  rcases ended : action.outcome state with ⟨_ | _ | _, after⟩ <;>
  · have bound : action.run.run state = (_, after) := ended
    unfold outcome
    rw [ExceptT.run_bind, OptionT.run_bind, Option.elimM, StateT.run_bind]
    simp only [StateT.run, bound]
    rfl

theorem outcome_tryCatch (action : FaultyAction α) (handler : DiskError → FaultyAction α)
    (state : Disk × List Fate) :
    (tryCatch action handler).outcome state =
      match action.outcome state with
      | (some (.ok value), after) => (some (.ok value), after)
      | (some (.error error), after) => (handler error).outcome after
      | (none, after) => (none, after) := by
  rcases ended : action.outcome state with ⟨_ | _ | _, after⟩ <;>
  · have bound : OptionT.run action state = (_, after) := ended
    change outcome (ExceptT.tryCatch action handler) state = _
    unfold outcome ExceptT.tryCatch
    rw [ExceptT.run_mk, OptionT.run_bind, Option.elimM, StateT.run_bind]
    simp only [StateT.run, bound]
    rfl

/-! ### What faults leave true -/

/-- Without faults the first program comes to the end of the second. -/
def Follows (α : Type) (action : FaultyAction α) (exact : DiskAction α) : Prop :=
  ∀ disk, action.outcome (disk, []) = (some (exact.run disk).1, (exact.run disk).2, [])

theorem through_follows : DiskCalls.Through Follows where
  pure _ _ := rfl
  throw _ _ := rfl
  bind {_ _ first first' next next'} same further disk := by
    rw [outcome_bind, DiskAction.run_bind, same disk]
    rcases first'.run disk with ⟨_ | value, after⟩
    · rfl
    · exact further value after
  tryCatch {_ first first' handler handler'} same handled disk := by
    rw [outcome_tryCatch, DiskAction.run_tryCatch, same disk]
    rcases first'.run disk with ⟨error | _, after⟩
    · exact handled error after
    · rfl

theorem follows_change (step : Disk → Except DiskError Disk) (part : Nat → Disk → Disk) :
    Follows Unit (change step part) (DiskAction.change step) := by
  intro disk
  rw [DiskAction.run_change]
  change (match step disk with
    | .ok after => (some (.ok () : Except DiskError Unit), after, ([] : List Fate))
    | .error error => (some (.error error), disk, [])) = _
  cases step disk <;> rfl

/-- A save without faults is the save of a cache. -/
theorem save_served (path : Path) (snapshot : Snapshot) (disk : Disk) :
    (calls.save path snapshot).outcome (disk, []) =
      (some ((Cache.save path snapshot).run disk).1, ((Cache.save path snapshot).run disk).2, []) := by
  have whole : Follows Unit (calls.save path snapshot) (DiskCalls.exact.save path snapshot) :=
    through_follows.save (fun _ _ => rfl) (fun other => follows_change (·.makeDirectory other) fun _ disk => disk)
      (fun other bytes => follows_change (·.write other bytes) (writePart other bytes))
      fun source target => follows_change (·.rename source target) fun _ disk => disk
  rw [← DiskCalls.save_exact]
  exact whole disk

/-- What is true of the disk stays true, whatever becomes of the calls. -/
def Keeping (kept : Disk → Prop) (action : FaultyAction α) : Prop :=
  ∀ disk fates, kept disk → kept (action.outcome (disk, fates)).2.1

variable {kept : Disk → Prop}

theorem through_keeping : @DiskCalls.Through FaultyAction FaultyAction _ _ _ _ fun _ action _ =>
    Keeping kept action where
  pure _ _ _ holds := holds
  throw _ _ _ holds := holds
  bind {_ _ first _ next _} kept' further disk fates holds := by
    have holds' := kept' disk fates holds
    rw [outcome_bind]
    rcases ended : first.outcome (disk, fates) with ⟨_ | _ | value, after, left⟩ <;> rw [ended] at holds'
    · exact holds'
    · exact holds'
    · exact further value after left holds'
  tryCatch {_ first _ handler _} kept' handled disk fates holds := by
    have holds' := kept' disk fates holds
    rw [outcome_tryCatch]
    rcases ended : first.outcome (disk, fates) with ⟨_ | error | _, after, left⟩ <;> rw [ended] at holds'
    · exact holds'
    · exact handled error after left holds'
    · exact holds'

/-- A call has done all of its work, or it has failed or been stopped with part of it done at most. -/
theorem change_cases (step : Disk → Except DiskError Disk) (part : Nat → Disk → Disk) (disk : Disk)
    (fates : List Fate) :
    (∃ after, step disk = .ok after ∧
      (change step part).outcome (disk, fates) = (some (.ok ()), after, fates.tail)) ∨
    ∃ ended left, ended ≠ some (.ok ()) ∧ (left = disk ∨ ∃ count, left = part count disk) ∧
      (change step part).outcome (disk, fates) = (ended, left, fates.tail) := by
  have unfolded : (change step part).outcome (disk, fates) =
      match fates.headD .served with
      | .served =>
        match step disk with
        | .ok after => (some (.ok ()), after, fates.tail)
        | .error error => (some (.error error), disk, fates.tail)
      | .refused error begun => (some (.error error), begun.elim disk (part · disk), fates.tail)
      | .stopped begun => (none, begun.elim disk (part · disk), fates.tail) := rfl
  have done (begun : Option Nat) :
      begun.elim disk (part · disk) = disk ∨ ∃ count, begun.elim disk (part · disk) = part count disk := by
    cases begun with
    | none => exact Or.inl rfl
    | some count => exact Or.inr ⟨count, rfl⟩
  rw [unfolded]
  cases fates.headD .served with
  | served =>
    cases step disk with
    | ok after => exact Or.inl ⟨after, rfl, rfl⟩
    | error error => exact Or.inr ⟨_, disk, by simp, Or.inl rfl, rfl⟩
  | refused error begun => exact Or.inr ⟨_, _, by simp, done begun, rfl⟩
  | stopped begun => exact Or.inr ⟨_, _, by simp, done begun, rfl⟩

/-- A call that does its work in one piece has done it, or none of it. -/
theorem change_cases_whole (step : Disk → Except DiskError Disk) (disk : Disk) (fates : List Fate) :
    (∃ after, step disk = .ok after ∧
      (change step fun _ disk => disk).outcome (disk, fates) = (some (.ok ()), after, fates.tail)) ∨
    ∃ ended, ended ≠ some (.ok ()) ∧
      (change step fun _ disk => disk).outcome (disk, fates) = (ended, disk, fates.tail) := by
  rcases change_cases step (fun _ disk => disk) disk fates with whole | ⟨ended, left, unfinished, done, came⟩
  · exact Or.inl whole
  · obtain rfl : left = disk := done.elim id fun ⟨_, same⟩ => same
    exact Or.inr ⟨ended, unfinished, came⟩

theorem rename_cases (source target : Path) (disk : Disk) (fates : List Fate) :
    (∃ after, disk.rename source target = .ok after ∧
      (calls.rename source target).outcome (disk, fates) = (some (.ok ()), after, fates.tail)) ∨
    ∃ ended, ended ≠ some (.ok ()) ∧
      (calls.rename source target).outcome (disk, fates) = (ended, disk, fates.tail) :=
  change_cases_whole (·.rename source target) disk fates

/-- A file that has not been written whole has been left alone, or holds the first of the bytes. -/
theorem write_cases (path : Path) (bytes : Text.Bytes) (disk : Disk) (fates : List Fate) :
    (∃ after, disk.write path bytes = .ok after ∧
      (calls.write path bytes).outcome (disk, fates) = (some (.ok ()), after, fates.tail)) ∨
    ∃ ended left, ended ≠ some (.ok ()) ∧
      (left = disk ∨ ∃ count, disk.write path (bytes.take count) = .ok left) ∧
      (calls.write path bytes).outcome (disk, fates) = (ended, left, fates.tail) := by
  rcases change_cases (·.write path bytes) (writePart path bytes) disk fates with
    whole | ⟨ended, left, unfinished, done, came⟩
  · exact Or.inl whole
  · refine Or.inr ⟨ended, left, unfinished, ?_, came⟩
    rcases done with same | ⟨count, rfl⟩
    · exact Or.inl same
    · unfold writePart
      cases wrote : disk.write path (bytes.take count) with
      | error error => exact Or.inl rfl
      | ok after => exact Or.inr ⟨count, wrote⟩

/-- The directories above a file are made, or some of them. -/
theorem keeping_makeParent {path : Path} (made : ∀ parent, path.parent? = some parent →
      ∀ other ∈ parent :: DiskAction.pathsAbove parent.components.length parent,
        DiskAction.MakingKeeps kept other) :
    Keeping kept (calls.makeParent path) := by
  refine @DiskCalls.Through.makeParent FaultyAction FaultyAction _ _ _ _ _ through_keeping calls calls
    (fun asked disk fates holds => ?_) path fun parent found other member disk fates holds => ?_
  · have unfolded : (calls.isDirectory asked).outcome (disk, fates) =
        match fates.headD .served with
        | .served => (some (.ok (disk.isDirectory asked)), disk, fates.tail)
        | .refused _ _ => (some (.ok false), disk, fates.tail)
        | .stopped _ => (none, disk, fates.tail) := rfl
    rw [unfolded]
    cases fates.headD .served <;> exact holds
  · rcases change_cases_whole (·.makeDirectory other) disk fates with ⟨after, stepped, came⟩ | ⟨_, -, came⟩
    · exact (congrArg (kept ·.2.1) came).mpr (made parent found other member disk after holds stepped)
    · exact (congrArg (kept ·.2.1) came).mpr holds

end FaultyAction
end AssemblySymbols
