import AssemblySymbols.Proofs.Session.SaveTasks

/-! What every step of the save tasks keeps. Whoever has the lock is the only one to claim, copy and
write, so what it copies is no older than what has been written; and a request for a save is either
pending, in the hands of the task that has claimed it, or served. -/
namespace AssemblySymbols

/-- The index after some changes. -/
def SymbolIndex.after (index : SymbolIndex) (changes : List (SymbolIndex → SymbolIndex)) : SymbolIndex :=
  changes.foldl (fun index change => change index) index

theorem SymbolIndex.after_concat (index : SymbolIndex) (changes : List (SymbolIndex → SymbolIndex))
    (change : SymbolIndex → SymbolIndex) :
    index.after (changes ++ [change]) = change (index.after changes) := by
  rw [after, List.foldl_append]
  rfl

/-- The save is a copy of the index after the first of its changes. -/
structure Save.Of (save : Save) (index : SymbolIndex) (changes : List (SymbolIndex → SymbolIndex)) :
    Prop where
  made : save.changes ≤ changes.length
  copy : save.snapshot = (index.after (changes.take save.changes)).snapshot

theorem Save.Of.mono {save : Save} {index : SymbolIndex} {changes more : List (SymbolIndex → SymbolIndex)}
    (of : save.Of index changes) (begins : changes <+: more) : save.Of index more := by
  obtain ⟨rest, rfl⟩ := begins
  constructor
  · rw [List.length_append]
    exact of.made.trans (Nat.le_add_right _ _)
  · rw [List.take_append_of_le_length of.made]
    exact of.copy

namespace Errand
variable {errand : Errand} {store claimed : CachedIndex}

/-- A claim takes the pending request, and that of a timer is its own. -/
theorem claim?_eq (claims : errand.claim? store = some claimed) :
    ∃ saver : Saver, claimed = { store with saver := saver } ∧ saver.pending = none ∧
      saver.generation = store.saver.generation ∧
      ∀ generation, errand = .timer generation → store.saver.pending = some generation := by
  cases errand with
  | timer generation =>
    obtain ⟨saver, taken, rfl⟩ := Option.map_eq_some_iff.mp claims
    unfold Saver.claim? at taken
    split at taken
    · next own =>
      cases taken
      exact ⟨_, rfl, rfl, rfl, fun _ same => Errand.timer.inj same ▸ own⟩
    · contradiction
  | flush =>
    rw [claim?] at claims
    split at claims
    · cases claims
      exact ⟨_, rfl, rfl, rfl, fun _ same => Errand.noConfusion same⟩
    · contradiction
  | saveNow =>
    cases claims
    exact ⟨_, rfl, rfl, rfl, fun _ same => Errand.noConfusion same⟩

/-- A call that has nothing to do has found no request. -/
theorem isPending_of_claim?_none (isCall : errand.IsCall) (nothing : errand.claim? store = none) :
    store.isPending = false := by
  cases errand with
  | timer generation => exact isCall.elim
  | flush =>
    rw [claim?] at nothing
    split at nothing
    · contradiction
    · next quiet => exact Bool.not_eq_true _ ▸ quiet
  | saveNow => contradiction

end Errand

namespace SaveTask

/-- When it comes to write, the task will have seen so many changes. -/
def Brings (task : SaveTask) (changes : Nat) : Prop :=
  task.phase = .claimed ∨ ∃ save, task.phase = .copied save ∧ changes ≤ save.changes

/-- How a task and the state that it is in go together. -/
structure Fits (task : SaveTask) (index : SymbolIndex) (shared : SharedStore) (number : Nat) : Prop where
  due : task.due ≤ shared.requested
  generation : ∀ generation, task.errand = .timer generation →
    generation ≤ shared.store.saver.generation
  lock : task.phase.HasLock → shared.lock = some number
  superseded : task.superseded = true → ¬ task.phase.Writes ∧
    ∃ generation, task.errand = .timer generation ∧ shared.store.saver.pending ≠ some generation
  copied : ∀ save, task.phase = .copied save → task.due ≤ save.changes ∧
    save.Of index shared.changes ∧ ∀ earlier ∈ shared.saves, earlier.changes ≤ save.changes
  ended : ∀ written, task.phase = .ended written → task.errand.IsCall → shared.cancelled = false →
    task.due ≤ shared.kept

end SaveTask

namespace SharedStore

/-- What no step of another task takes away. -/
structure Follows (shared next : SharedStore) : Prop where
  requested : shared.requested ≤ next.requested
  changes : shared.changes <+: next.changes
  cancelled : next.cancelled = false → shared.cancelled = false
  generation : shared.store.saver.generation ≤ next.store.saver.generation
  pending : ∀ generation ≤ shared.store.saver.generation,
    next.store.saver.pending = some generation → shared.store.saver.pending = some generation
  kept : shared.kept ≤ next.kept

end SharedStore

namespace SaveTask
variable {task : SaveTask} {index : SymbolIndex} {shared next : SharedStore} {number : Nat}

theorem Fits.follow (fits : task.Fits index shared number) (follows : shared.Follows next)
    (still : task.phase.HasLock → next.lock = shared.lock ∧ next.saves = shared.saves) :
    task.Fits index next number where
  due := fits.due.trans follows.requested
  generation generation timer := (fits.generation generation timer).trans follows.generation
  lock locked := (still locked).1.trans (fits.lock locked)
  superseded superseded := by
    obtain ⟨idle, generation, timer, gone⟩ := fits.superseded superseded
    exact ⟨idle, generation, timer,
      fun back => gone (follows.pending generation (fits.generation generation timer) back)⟩
  copied save copied := by
    obtain ⟨due, of, latest⟩ := fits.copied save copied
    rw [(still (copied ▸ trivial)).2]
    exact ⟨due, of.mono follows.changes, latest⟩
  ended written ended isCall cancelled :=
    (fits.ended written ended isCall (follows.cancelled cancelled)).trans follows.kept

theorem supersede_cases (task : SaveTask) :
    task.supersede = task ∨ task.supersede = { task with superseded := true } ∧
      ¬ task.phase.Writes ∧ ∃ generation, task.errand = .timer generation := by
  obtain ⟨errand, phase, due, superseded⟩ := task
  cases errand with
  | timer generation =>
    cases phase with
    | delayed | waiting | holding => exact Or.inr ⟨rfl, id, generation, rfl⟩
    | claimed | copied | ended => exact Or.inl rfl
  | flush | saveNow => exact Or.inl rfl

theorem Fits.supersede (fits : task.Fits index shared number)
    (gone : ∀ generation, task.errand = .timer generation →
      shared.store.saver.pending ≠ some generation) :
    task.supersede.Fits index shared number := by
  rcases task.supersede_cases with same | ⟨same, idle, generation, timer⟩
  · rw [same]
    exact fits
  · rw [same]
    exact { fits with superseded := fun _ => ⟨idle, generation, timer, gone generation timer⟩ }

/-- A task that moves on, perhaps to another state of all. -/
theorem Fits.enter (fits : task.Fits index shared number) (follows : shared.Follows next)
    {phase : Phase} (lock : phase.HasLock → next.lock = some number)
    (writes : task.superseded = true → ¬ phase.Writes)
    (copied : ∀ save, phase = .copied save → task.due ≤ save.changes ∧
      save.Of index next.changes ∧ ∀ earlier ∈ next.saves, earlier.changes ≤ save.changes)
    (ended : ∀ written, phase = .ended written → task.errand.IsCall → next.cancelled = false →
      task.due ≤ next.kept) :
    Fits { task with phase := phase } index next number where
  due := fits.due.trans follows.requested
  generation generation timer := (fits.generation generation timer).trans follows.generation
  lock := lock
  superseded superseded := by
    obtain ⟨_, generation, timer, gone⟩ := fits.superseded superseded
    exact ⟨writes superseded, generation, timer,
      fun back => gone (follows.pending generation (fits.generation generation timer) back)⟩
  copied := copied
  ended := ended

theorem Brings.isSaving {changes : Nat} (brings : task.Brings changes) : task.phase.IsSaving := by
  rcases brings with claimed | ⟨save, copied, -⟩
  · exact claimed ▸ trivial
  · exact copied ▸ trivial

end SaveTask

namespace SharedStore

/-- All tasks fit, the cache has had one save after the other, and every request for a save is pending,
on its way or served, unless there has been a cancellation. -/
structure Orderly (index : SymbolIndex) (shared : SharedStore) : Prop where
  current : shared.store.index = index.after shared.changes
  requested : shared.requested ≤ shared.changes.length
  fits : ∀ (number : Nat) (task : SaveTask), shared.tasks[number]? = some task →
    task.Fits index shared number
  saves : ∀ save ∈ shared.saves, Save.Of save index shared.changes
  ascending : shared.saves.Pairwise fun earlier later => earlier.changes ≤ later.changes
  covered : shared.cancelled = false → shared.store.isPending = true ∨
    (∃ (number : Nat) (task : SaveTask), shared.tasks[number]? = some task ∧
      task.Brings shared.requested) ∨
    shared.requested ≤ shared.kept

variable {index : SymbolIndex} {shared next : SharedStore} {number other : Nat} {task found : SaveTask}

theorem orderly_start (index : SymbolIndex) (cachePath : Path) (delay : Nat) (disk : Disk) :
    (start index cachePath delay disk).Orderly index := by
  refine ⟨rfl, le_refl _, fun number task listed => ?_, fun save member => ?_, List.Pairwise.nil,
    fun _ => Or.inr (Or.inr (le_refl _))⟩
  · simp [start] at listed
  · simp [start] at member

theorem listed_setTask (listed : (shared.setTask number task).tasks[other]? = some found) :
    (other = number ∧ found = task) ∨ (other ≠ number ∧ shared.tasks[other]? = some found) := by
  rw [setTask, List.getElem?_set] at listed
  split at listed
  · next same =>
    split at listed
    · exact Or.inl ⟨same.symm, (Option.some.inj listed).symm⟩
    · contradiction
  · next apart => exact Or.inr ⟨Ne.symm apart, listed⟩

theorem listed_supersede (listed : shared.supersede.tasks[other]? = some found) :
    ∃ task, shared.tasks[other]? = some task ∧ found = task.supersede := by
  rw [supersede, List.getElem?_map, Option.map_eq_some_iff] at listed
  obtain ⟨task, listed, rfl⟩ := listed
  exact ⟨task, listed, rfl⟩

theorem listed_append {tasks : List SaveTask} (listed : (tasks ++ [task])[other]? = some found) :
    tasks[other]? = some found ∨ found = task := by
  rcases Nat.lt_or_ge other tasks.length with old | new
  · rw [List.getElem?_append_left old] at listed
    exact Or.inl listed
  · rw [List.getElem?_append_right new] at listed
    exact Or.inr (List.mem_singleton.mp (List.mem_of_getElem? listed))

theorem Follows.of_eq (requested : next.requested = shared.requested)
    (changes : next.changes = shared.changes) (cancelled : next.cancelled = shared.cancelled)
    (saver : next.store.saver = shared.store.saver) (saves : next.saves = shared.saves) :
    shared.Follows next := by
  refine ⟨requested.ge, changes ▸ List.prefix_refl _, fun calm => cancelled ▸ calm, ?_, ?_, ?_⟩
  · rw [saver]
  · rw [saver]
    exact fun _ _ => id
  · rw [SharedStore.kept, SharedStore.kept, saves]

theorem kept_le {changes : Nat} (all : ∀ save ∈ shared.saves, save.changes ≤ changes) :
    shared.kept ≤ changes := by
  unfold kept
  cases last : shared.saves.getLast? with
  | none => exact Nat.zero_le _
  | some save => exact all save (List.mem_of_getLast? last)

theorem kept_write (saves : List Save) (save : Save) (after : next.saves = saves ++ [save]) :
    next.kept = save.changes := by
  rw [kept, after, List.getLast?_append]
  rfl

/-- One task has moved on and the others fit as before. -/
theorem Orderly.fits_setTask (orderly : shared.Orderly index) (follows : shared.Follows next)
    (tasks : next.tasks = (shared.setTask number task).tasks) (own : task.Fits index next number)
    (others : ∀ other task, other ≠ number → shared.tasks[other]? = some task →
      task.phase.HasLock → next.lock = shared.lock ∧ next.saves = shared.saves)
    (other : Nat) (found : SaveTask) (listed : next.tasks[other]? = some found) :
    found.Fits index next other := by
  rw [tasks] at listed
  rcases listed_setTask listed with ⟨rfl, rfl⟩ | ⟨apart, listed⟩
  · exact own
  · exact (orderly.fits other found listed).follow follows (others other found apart listed)

/-- Only one task has the lock. -/
theorem Orderly.same (orderly : shared.Orderly index) (listed : shared.tasks[number]? = some task)
    (has : task.phase.HasLock) (listed' : shared.tasks[other]? = some found)
    (has' : found.phase.HasLock) : other = number := by
  have mine := (orderly.fits number task listed).lock has
  have yours := (orderly.fits other found listed').lock has'
  exact Option.some.inj (yours.symm.trans mine)

/-- What brings a request to the cache goes on to do so, if it is not the task that has moved. -/
theorem covered_setTask {changes : Nat} {moved : SaveTask}
    (tasks : next.tasks = (shared.setTask number moved).tasks)
    (covered : shared.store.isPending = true ∨
      (∃ (number : Nat) (task : SaveTask), shared.tasks[number]? = some task ∧ task.Brings changes) ∨
      changes ≤ shared.kept)
    (pending : next.store.isPending = shared.store.isPending) (kept : shared.kept ≤ next.kept)
    (own : ∀ task, shared.tasks[number]? = some task → task.Brings changes →
      moved.Brings changes ∨ changes ≤ next.kept) :
    next.store.isPending = true ∨
      (∃ (number : Nat) (task : SaveTask), next.tasks[number]? = some task ∧ task.Brings changes) ∨
      changes ≤ next.kept := by
  rcases covered with asked | ⟨other, found, listed, brings⟩ | done
  · exact Or.inl (pending.trans asked)
  · by_cases same : other = number
    · subst same
      rcases own found listed brings with brings' | done
      · refine Or.inr (Or.inl ⟨other, moved, ?_, brings'⟩)
        rw [tasks]
        exact List.getElem?_set_self (lt_of_listed listed)
      · exact Or.inr (Or.inr done)
    · refine Or.inr (Or.inl ⟨other, found, ?_, brings⟩)
      rw [tasks, setTask, List.getElem?_set_ne (Ne.symm same)]
      exact listed
  · exact Or.inr (Or.inr (done.trans kept))

theorem Orderly.change (orderly : shared.Orderly index) (change : SymbolIndex → SymbolIndex) :
    Orderly index
      { shared with store := shared.store.modify change, changes := shared.changes ++ [change] } := by
  let next : SharedStore :=
    { shared with store := shared.store.modify change, changes := shared.changes ++ [change] }
  have follows : shared.Follows next :=
    ⟨le_refl _, List.prefix_append _ _, id, le_refl _, fun _ _ => id, le_refl _⟩
  refine ⟨?_, ?_, ?_, ?_, orderly.ascending, orderly.covered⟩
  · rw [SymbolIndex.after_concat, ← orderly.current]
    rfl
  · exact orderly.requested.trans follows.changes.length_le
  · exact fun number task listed => (orderly.fits number task listed).follow follows fun _ => ⟨rfl, rfl⟩
  · exact fun save member => (orderly.saves save member).mono follows.changes

theorem Orderly.schedule (orderly : shared.Orderly index) :
    Orderly index
      { shared with
        store := shared.store.schedule
        requested := shared.changes.length
        tasks := shared.supersede.tasks ++
          [⟨.timer (shared.store.saver.generation + 1), .delayed, shared.changes.length, false⟩] } := by
  let next : SharedStore :=
    { shared with
      store := shared.store.schedule
      requested := shared.changes.length
      tasks := shared.supersede.tasks ++
        [⟨.timer (shared.store.saver.generation + 1), .delayed, shared.changes.length, false⟩] }
  have pending : next.store.saver.pending = some (shared.store.saver.generation + 1) := rfl
  have later (generation : Nat) (old : generation ≤ shared.store.saver.generation) :
      next.store.saver.pending ≠ some generation := by
    rw [pending]
    intro same
    have new := Option.some.inj same
    omega
  have follows : shared.Follows next :=
    ⟨orderly.requested, List.prefix_refl _, id, Nat.le_succ _,
      fun generation old same => absurd same (later generation old), le_refl _⟩
  refine ⟨orderly.current, le_refl _, fun number task listed => ?_, orderly.saves, orderly.ascending,
    fun _ => Or.inl rfl⟩
  rcases listed_append listed with listed | rfl
  · obtain ⟨task, was, rfl⟩ := listed_supersede listed
    have fits := orderly.fits number task was
    refine (fits.follow follows fun _ => ⟨rfl, rfl⟩).supersede fun generation timer => ?_
    exact later generation (fits.generation generation timer)
  · exact ⟨le_refl _, fun generation same => (Errand.timer.inj same).ge, nofun, nofun, nofun, nofun⟩

theorem Orderly.cancel (orderly : shared.Orderly index) :
    Orderly index { shared.supersede with store := shared.store.cancel, cancelled := true } := by
  let next : SharedStore :=
    { shared.supersede with store := shared.store.cancel, cancelled := true }
  have follows : shared.Follows next :=
    ⟨le_refl _, List.prefix_refl _, nofun, le_refl _, nofun, le_refl _⟩
  refine ⟨orderly.current, orderly.requested, fun number task listed => ?_, orderly.saves,
    orderly.ascending, nofun⟩
  obtain ⟨task, was, rfl⟩ := listed_supersede listed
  exact ((orderly.fits number task was).follow follows fun _ => ⟨rfl, rfl⟩).supersede nofun

theorem Orderly.call (orderly : shared.Orderly index) {errand : Errand} (isCall : errand.IsCall) :
    Orderly index
      { shared with tasks := shared.tasks ++ [⟨errand, .waiting, shared.requested, false⟩] } := by
  let next : SharedStore :=
    { shared with tasks := shared.tasks ++ [⟨errand, .waiting, shared.requested, false⟩] }
  have follows : shared.Follows next := .of_eq rfl rfl rfl rfl rfl
  refine ⟨orderly.current, orderly.requested, fun number task listed => ?_, orderly.saves,
    orderly.ascending, fun calm => ?_⟩
  · rcases listed_append listed with listed | rfl
    · exact (orderly.fits number task listed).follow follows fun _ => ⟨rfl, rfl⟩
    · refine ⟨le_refl _, fun generation timer => ?_, nofun, nofun, nofun, nofun⟩
      have timer : errand = .timer generation := timer
      rw [timer] at isCall
      exact isCall.elim
  · rcases orderly.covered calm with asked | ⟨number, task, listed, brings⟩ | done
    · exact Or.inl asked
    · refine Or.inr (Or.inl ⟨number, task, ?_, brings⟩)
      rw [List.getElem?_append_left (lt_of_listed listed)]
      exact listed
    · exact Or.inr (Or.inr done)

/-- A task that waits goes on without the lock or takes it. -/
theorem Orderly.proceed (orderly : shared.Orderly index) (listed : shared.tasks[number]? = some task)
    (idle : ¬ task.phase.HasLock) {phase : SaveTask.Phase} {lock : Option Nat}
    (locked : phase.HasLock → lock = some number)
    (others : lock = shared.lock ∨ shared.lock = none)
    (early : phase = .waiting ∨ phase = .holding ∨ phase = .ended false ∧ task.superseded = true) :
    Orderly index { shared.setTask number { task with phase := phase } with lock := lock } := by
  let next : SharedStore :=
    { shared.setTask number { task with phase := phase } with lock := lock }
  have follows : shared.Follows next := .of_eq rfl rfl rfl rfl rfl
  have fits := orderly.fits number task listed
  refine ⟨orderly.current, orderly.requested, ?_, orderly.saves, orderly.ascending, fun calm => ?_⟩
  · refine orderly.fits_setTask follows rfl ?_ fun other task _ listed has => ⟨?_, rfl⟩
    · refine fits.enter follows locked ?_ ?_ ?_
      · rcases early with rfl | rfl | ⟨rfl, -⟩ <;> exact fun _ => id
      · rcases early with rfl | rfl | ⟨rfl, -⟩ <;> nofun
      · rcases early with rfl | rfl | ⟨rfl, superseded⟩
        · nofun
        · nofun
        · intro _ _ isCall
          obtain ⟨_, generation, timer, _⟩ := fits.superseded superseded
          rw [timer] at isCall
          exact isCall.elim
    · rcases others with same | free
      · exact same
      · have mine := (orderly.fits other task listed).lock has
        exact absurd (free.symm.trans mine) nofun
  · refine covered_setTask rfl (orderly.covered calm) rfl (le_refl _) fun task' listed' brings => ?_
    cases listed.symm.trans listed'
    exact absurd brings.isSaving.hasLock idle

theorem Orderly.claim (orderly : shared.Orderly index) {store : CachedIndex}
    (listed : shared.tasks[number]? = some task) (holding : task.phase = .holding)
    (claims : task.errand.claim? shared.store = some store) :
    Orderly index
      { shared.supersede.setTask number { task with phase := .claimed } with store := store } := by
  obtain ⟨saver, rfl, gone, generation, own⟩ := Errand.claim?_eq claims
  let next : SharedStore :=
    { shared.supersede.setTask number { task with phase := .claimed } with
      store := { shared.store with saver := saver } }
  have none (generation : Nat) : next.store.saver.pending ≠ some generation := by
    intro same
    exact absurd (gone.symm.trans same) nofun
  have follows : shared.Follows next :=
    ⟨le_refl _, List.prefix_refl _, id, generation.ge, fun generation _ same => absurd same (none _),
      le_refl _⟩
  have fits := orderly.fits number task listed
  have fresh : ¬ task.superseded = true := by
    intro superseded
    obtain ⟨_, generation, timer, lost⟩ := fits.superseded superseded
    exact lost (own generation timer)
  have locked : shared.lock = some number := fits.lock (holding ▸ trivial)
  refine ⟨orderly.current, orderly.requested, fun other found listed' => ?_, orderly.saves,
    orderly.ascending, fun _ => ?_⟩
  · rcases listed_setTask listed' with ⟨rfl, rfl⟩ | ⟨_, listed'⟩
    · exact fits.enter follows (fun _ => locked) (fun superseded => absurd superseded fresh) nofun nofun
    · obtain ⟨old, was, rfl⟩ := listed_supersede listed'
      refine ((orderly.fits other old was).follow follows fun _ => ⟨rfl, rfl⟩).supersede ?_
      exact fun generation _ => none generation
  · refine Or.inr (Or.inl ⟨number, { task with phase := .claimed }, ?_, Or.inl rfl⟩)
    have inside : number < shared.supersede.tasks.length := by
      rw [supersede, List.length_map]
      exact lt_of_listed listed
    exact List.getElem?_set_self inside

theorem Orderly.decline (orderly : shared.Orderly index) (listed : shared.tasks[number]? = some task)
    (holding : task.phase = .holding) (nothing : task.errand.claim? shared.store = none) :
    Orderly index
      { shared.setTask number { task with phase := .ended false } with lock := none } := by
  let next : SharedStore :=
    { shared.setTask number { task with phase := .ended false } with lock := none }
  have follows : shared.Follows next := .of_eq rfl rfl rfl rfl rfl
  have fits := orderly.fits number task listed
  have has : task.phase.HasLock := holding ▸ trivial
  have idle (task' : SaveTask) (listed' : shared.tasks[number]? = some task') :
      ¬ task'.Brings shared.requested := by
    cases listed.symm.trans listed'
    rintro (claimed | ⟨save, copied, -⟩)
    · exact absurd (holding.symm.trans claimed) nofun
    · exact absurd (holding.symm.trans copied) nofun
  refine ⟨orderly.current, orderly.requested, ?_, orderly.saves, orderly.ascending, fun calm => ?_⟩
  · refine orderly.fits_setTask follows rfl ?_ fun other found apart listed' has' => ?_
    · refine fits.enter follows nofun (fun _ => id) nofun fun _ _ isCall calm => ?_
      -- The lock is this task's, so nothing else can be on its way to the cache.
      rcases orderly.covered calm with asked | ⟨other, found, listed', brings⟩ | done
      · have quiet := Errand.isPending_of_claim?_none isCall nothing
        exact absurd (quiet.symm.trans asked) Bool.false_ne_true
      · cases orderly.same listed has listed' brings.isSaving.hasLock
        exact absurd brings (idle found listed')
      · exact fits.due.trans done
    · exact absurd (orderly.same listed has listed' has') apart
  · refine covered_setTask rfl (orderly.covered calm) rfl (le_refl _) fun task' listed' brings => ?_
    exact absurd brings (idle task' listed')

theorem Orderly.copy (orderly : shared.Orderly index) (listed : shared.tasks[number]? = some task)
    (claimed : task.phase = .claimed) :
    Orderly index
      (shared.setTask number
        { task with phase := .copied ⟨shared.changes.length, shared.store.index.snapshot⟩ }) := by
  let save : Save := ⟨shared.changes.length, shared.store.index.snapshot⟩
  let next := shared.setTask number { task with phase := .copied save }
  have follows : shared.Follows next := .of_eq rfl rfl rfl rfl rfl
  have fits := orderly.fits number task listed
  have of : save.Of index shared.changes := by
    refine ⟨le_refl _, ?_⟩
    rw [List.take_length, ← orderly.current]
  refine ⟨orderly.current, orderly.requested, ?_, orderly.saves, orderly.ascending, fun calm => ?_⟩
  · refine orderly.fits_setTask follows rfl ?_ fun _ _ _ _ _ => ⟨rfl, rfl⟩
    refine fits.enter follows (fun _ => fits.lock (claimed ▸ trivial)) (fun superseded => ?_) ?_ nofun
    · exact absurd (claimed ▸ trivial) (fits.superseded superseded).1
    · rintro _ ⟨⟩
      exact ⟨fits.due.trans orderly.requested, of, fun earlier member => (orderly.saves _ member).made⟩
  · refine covered_setTask rfl (orderly.covered calm) rfl (le_refl _) fun _ _ _ => ?_
    exact Or.inl (Or.inr ⟨save, rfl, orderly.requested⟩)

theorem Orderly.write (orderly : shared.Orderly index) {save : Save} {disk : Disk}
    (listed : shared.tasks[number]? = some task) (copied : task.phase = .copied save) :
    Orderly index
      { shared.setTask number { task with phase := .ended true } with
        store := { shared.store with disk := disk }
        lock := none
        saves := shared.saves ++ [save] } := by
  let next : SharedStore :=
    { shared.setTask number { task with phase := .ended true } with
      store := { shared.store with disk := disk }
      lock := none
      saves := shared.saves ++ [save] }
  have fits := orderly.fits number task listed
  obtain ⟨due, of, latest⟩ := fits.copied save copied
  have kept : next.kept = save.changes := kept_write shared.saves save rfl
  have grown : shared.kept ≤ next.kept := kept ▸ kept_le latest
  have follows : shared.Follows next :=
    ⟨le_refl _, List.prefix_refl _, id, le_refl _, fun _ _ => id, grown⟩
  have has : task.phase.HasLock := copied ▸ trivial
  refine ⟨orderly.current, orderly.requested, ?_, ?_, ?_, fun calm => ?_⟩
  · refine orderly.fits_setTask follows rfl ?_ fun other found apart listed' has' => ?_
    · refine fits.enter follows nofun (fun superseded => ?_) nofun fun _ _ _ _ => kept ▸ due
      exact absurd (copied ▸ trivial) (fits.superseded superseded).1
    · exact absurd (orderly.same listed has listed' has') apart
  · intro earlier member
    rcases List.mem_append.mp member with old | new
    · exact orderly.saves earlier old
    · exact List.mem_singleton.mp new ▸ of
  · refine List.pairwise_append.mpr ⟨orderly.ascending, List.pairwise_singleton _ _, ?_⟩
    intro earlier old later new
    exact List.mem_singleton.mp new ▸ latest earlier old
  · refine covered_setTask rfl (orderly.covered calm) rfl grown fun task' listed' brings => ?_
    cases listed.symm.trans listed'
    rcases brings with claimed | ⟨save', copied', seen⟩
    · exact absurd (copied.symm.trans claimed) nofun
    · cases copied.symm.trans copied'
      exact Or.inr (kept ▸ seen)

theorem Orderly.step (orderly : shared.Orderly index) (step : shared.Step next) :
    next.Orderly index := by
  cases step with
  | change change => exact orderly.change change
  | schedule => exact orderly.schedule
  | cancel => exact orderly.cancel
  | call isCall => exact orderly.call isCall
  | elapse listed delayed =>
    exact orderly.proceed listed (delayed ▸ id) nofun (Or.inl rfl) (Or.inl rfl)
  | stop listed delayed superseded =>
    exact orderly.proceed listed (delayed ▸ id) nofun (Or.inl rfl) (Or.inr (Or.inr ⟨rfl, superseded⟩))
  | acquire listed waiting free =>
    exact orderly.proceed listed (waiting ▸ id) (fun _ => rfl) (Or.inr free) (Or.inr (Or.inl rfl))
  | claim listed holding claims => exact orderly.claim listed holding claims
  | decline listed holding nothing => exact orderly.decline listed holding nothing
  | copy listed claimed => exact orderly.copy listed claimed
  | write listed copied written => exact orderly.write listed copied

theorem orderly_of_reaches {cachePath : Path} {delay : Nat} {disk : Disk}
    (reached : (start index cachePath delay disk).Reaches shared) : shared.Orderly index := by
  induction reached with
  | refl => exact orderly_start index cachePath delay disk
  | tail _ last ih => exact ih.step last

end SharedStore
end AssemblySymbols
