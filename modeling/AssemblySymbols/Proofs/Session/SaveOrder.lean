import AssemblySymbols.Proofs.Session.SaveInvariant

/-! No change that is to be saved is lost and none is undone by a save that comes too late, in whatever
order the tasks take turns. -/
namespace AssemblySymbols.SharedStore
variable {index : SymbolIndex} {shared next : SharedStore}

/-- The cache stays where it can be written and holds what the last write has put there. -/
structure Filed (cachePath : Path) (shared : SharedStore) : Prop where
  place : shared.store.cachePath = cachePath
  free : Cache.Unobstructed shared.store.disk cachePath
  last : ∀ save ∈ shared.saves.getLast?, shared.store.load = .ok save.snapshot

theorem Filed.step {cachePath : Path} (filed : shared.Filed cachePath) (step : shared.Step next) :
    next.Filed cachePath := by
  cases step with
  | claim listed holding claims =>
    obtain ⟨saver, rfl, -⟩ := Errand.claim?_eq claims
    exact ⟨filed.place, filed.free, filed.last⟩
  | @write number task save disk listed copied written =>
    rw [filed.place] at written
    obtain ⟨loaded, free⟩ := Cache.load_of_save filed.free written
    refine ⟨filed.place, free, fun last member => ?_⟩
    rw [List.getLast?_append] at member
    cases member
    rw [CachedIndex.load]
    exact filed.place ▸ loaded
  | _ => exact ⟨filed.place, filed.free, filed.last⟩

theorem filed_of_reaches {cachePath : Path} {delay : Nat} {disk : Disk}
    (free : Cache.Unobstructed disk cachePath)
    (reached : (start index cachePath delay disk).Reaches shared) : shared.Filed cachePath := by
  induction reached with
  | refl => exact ⟨rfl, free, nofun⟩
  | tail _ last ih => exact ih.step last

/-- The cache holds the index as it was after the given number of changes or more. -/
def CacheHas (shared : SharedStore) (index : SymbolIndex) (changes : Nat) : Prop :=
  changes = 0 ∨ ∃ seen, changes ≤ seen ∧ seen ≤ shared.changes.length ∧
    shared.store.load = .ok (index.after (shared.changes.take seen)).snapshot

theorem Filed.cacheHas {cachePath : Path} (filed : shared.Filed cachePath)
    (orderly : shared.Orderly index) {changes : Nat} (kept : changes ≤ shared.kept) :
    shared.CacheHas index changes := by
  unfold SharedStore.kept at kept
  cases last : shared.saves.getLast? with
  | none =>
    rw [last] at kept
    exact Or.inl (Nat.le_zero.mp kept)
  | some save =>
    rw [last] at kept
    have of := orderly.saves save (List.mem_of_getLast? last)
    exact Or.inr ⟨save.changes, kept, of.made, of.copy ▸ filed.last save last⟩

/-- Whatever the order in which the tasks take turns: no two saves are under way at a time, and each that
is finished has put a copy of the index into the cache that is no older than the one before. A timer
whose request has been replaced or taken never writes. And if links are not in the way and nothing has
been cancelled, then the cache has every change that was to be saved when a flush or a save on demand
began as soon as that has ended, and all of them when no save is pending or under way. -/
theorem saves_keep_up (index : SymbolIndex) (cachePath : Path) (delay : Nat) (disk : Disk)
    (reached : (start index cachePath delay disk).Reaches shared) :
    (∀ (number other : Nat) (task found : SaveTask), shared.tasks[number]? = some task →
      task.phase.IsSaving → shared.tasks[other]? = some found → found.phase.IsSaving →
        other = number) ∧
    (∀ save ∈ shared.saves, Save.Of save index shared.changes) ∧
    (shared.saves.Pairwise fun earlier later => earlier.changes ≤ later.changes) ∧
    (∀ task ∈ shared.tasks, task.superseded = true → ¬ task.phase.Writes) ∧
    (Cache.Unobstructed disk cachePath →
      (∀ save ∈ shared.saves.getLast?, shared.store.load = .ok save.snapshot) ∧
      (shared.cancelled = false →
        (∀ task ∈ shared.tasks, task.errand.IsCall → ∀ written, task.phase = .ended written →
          shared.CacheHas index task.due) ∧
        (shared.store.isPending = false → (∀ task ∈ shared.tasks, ¬ task.phase.IsSaving) →
          shared.CacheHas index shared.requested))) := by
  have orderly := orderly_of_reaches reached
  refine ⟨?_, orderly.saves, orderly.ascending, ?_, fun free => ?_⟩
  · intro number other task found listed saving listed' saving'
    exact orderly.same listed saving.hasLock listed' saving'.hasLock
  · intro task member superseded
    obtain ⟨number, listed⟩ := List.mem_iff_getElem?.mp member
    exact ((orderly.fits number task listed).superseded superseded).1
  · have filed := filed_of_reaches free reached
    refine ⟨filed.last, fun calm => ⟨fun task member isCall written ended => ?_, fun quiet idle => ?_⟩⟩
    · obtain ⟨number, listed⟩ := List.mem_iff_getElem?.mp member
      exact filed.cacheHas orderly ((orderly.fits number task listed).ended written ended isCall calm)
    · rcases orderly.covered calm with asked | ⟨number, task, listed, brings⟩ | done
      · exact absurd (quiet.symm.trans asked) Bool.false_ne_true
      · exact absurd brings.isSaving (idle task (List.mem_of_getElem? listed))
      · exact filed.cacheHas orderly done

/-- One change, a request for a save, and then a call. -/
def called (errand : Errand) (disk : Disk) : SharedStore :=
  let change : SymbolIndex → SymbolIndex := (·.indexText "a.asm" "start:\n")
  let begun := start .empty ⟨"/.asmdex/cache/symbols.json"⟩ 1000 disk
  { begun with
    store := (begun.store.modify change).schedule
    changes := [change]
    requested := 1
    tasks := [⟨.timer 1, .delayed, 1, false⟩, ⟨errand, .waiting, 1, false⟩] }

theorem reaches_called {errand : Errand} (isCall : errand.IsCall) (disk : Disk) :
    (start .empty ⟨"/.asmdex/cache/symbols.json"⟩ 1000 disk).Reaches (called errand disk) := by
  let begun := start .empty ⟨"/.asmdex/cache/symbols.json"⟩ 1000 disk
  have changed : begun.Step _ := .change (·.indexText "a.asm" "start:\n")
  exact changed.reaches.trans (Step.schedule.reaches.trans (Step.call isCall).reaches)

/-- A flush gets ahead of the timer. -/
theorem saves_keep_up_flush : ∃ shared : SharedStore,
    (start .empty ⟨"/.asmdex/cache/symbols.json"⟩ 1000 .empty).Reaches shared ∧
    shared.tasks[1]? = some ⟨.flush, .ended true, 1, false⟩ ∧ shared.CacheHas .empty 1 := by
  have listed : (called .flush .empty).tasks[1]? = some ⟨.flush, .waiting, 1, false⟩ := rfl
  have written : (called .flush .empty).store.saveNow.2 = .ok () := by rfl
  obtain ⟨shared, reached, _, _, cancelled, _, ended⟩ := reaches_perform listed rfl rfl
    (fun claimed same => by cases same; exact written)
  have isCall : Errand.flush.IsCall := trivial
  have reached := (reaches_called isCall .empty).trans reached
  have all := saves_keep_up .empty _ 1000 .empty reached
  obtain ⟨-, -, -, -, filed⟩ := all
  have flushed := ((filed Cache.unobstructed_empty).2 cancelled).1 _ (List.mem_of_getElem? ended)
    trivial true rfl
  exact ⟨shared, reached, ended, flushed⟩

/-- A save on demand that is written through a link and gone with it. -/
theorem saveNow_lost : ∃ shared : SharedStore,
    (start .empty ⟨"/.asmdex/cache/symbols.json"⟩ 1000 Cache.linkedDisk).Reaches shared ∧
    shared.cancelled = false ∧ shared.tasks[1]? = some ⟨.saveNow, .ended true, 1, false⟩ ∧
    ¬ shared.CacheHas .empty 1 := by
  have listed : (called .saveNow Cache.linkedDisk).tasks[1]? = some ⟨.saveNow, .waiting, 1, false⟩ := rfl
  have written : (called .saveNow Cache.linkedDisk).store.saveNow.2 = .ok () := by rfl
  have loops : (called .saveNow Cache.linkedDisk).store.saveNow.1.load =
      .error (.disk .linkLoop) := by rfl
  obtain ⟨shared, reached, performed, _, cancelled, _, ended⟩ := reaches_perform listed rfl rfl
    (fun claimed same => by cases same; exact written)
  have isCall : Errand.saveNow.IsCall := trivial
  refine ⟨shared, (reaches_called isCall _).trans reached, cancelled, ended, ?_⟩
  rw [Errand.perform_saveNow] at performed
  rintro (none | ⟨seen, _, _, loaded⟩)
  · exact absurd none Nat.one_ne_zero
  · rw [performed, loops] at loaded
    cases loaded

end AssemblySymbols.SharedStore
