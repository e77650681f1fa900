import AssemblySymbols.Proofs.Session.CacheSaves
import AssemblySymbols.Session.CachedIndex
import Mathlib.Logic.Relation

/-! Saves as tasks that overtake each other. A timer, a flush and a save on demand each wait for the one
lock under which the cache is written, and between any two steps of a task the index may change, saves
may be requested or taken back and other tasks may move on. -/
namespace AssemblySymbols

/-- Who wants to save. -/
inductive Errand where
  | timer (generation : Nat)
  | flush
  | saveNow

namespace Errand

/-- Requests of the editor wait for their save, timers run on their own. -/
def IsCall : Errand → Prop
  | timer _ => False
  | flush | saveNow => True

/-- Under the lock: the store whose pending request has been taken, unless there is nothing to save. -/
def claim? (store : CachedIndex) : Errand → Option CachedIndex
  | timer generation =>
    (store.saver.claim? generation).map fun saver => { store with saver := saver }
  | flush => if store.isPending then some store.cancel else none
  | saveNow => some store.cancel

/-- The errand without a pause. -/
def perform (errand : Errand) (store : CachedIndex) : CachedIndex :=
  match errand.claim? store with
  | some claimed => claimed.persist.1
  | none => store

theorem perform_flush (store : CachedIndex) : flush.perform store = store.flush.1 := by
  rw [perform, claim?, CachedIndex.flush]
  cases store.isPending <;> rfl

theorem perform_saveNow (store : CachedIndex) : saveNow.perform store = store.saveNow.1 := rfl

end Errand

/-- A copy of the index and how many changes it has seen. -/
structure Save where
  changes : Nat
  snapshot : Snapshot

namespace SaveTask

inductive Phase where
  /-- The delay of a timer has not passed. -/
  | delayed
  /-- For the lock. -/
  | waiting
  | holding
  | claimed
  | copied (save : Save)
  | ended (written : Bool)

def Phase.HasLock : Phase → Prop
  | holding | claimed | copied _ => True
  | delayed | waiting | ended _ => False

/-- Between the claim and the end of the write. -/
def Phase.IsSaving : Phase → Prop
  | claimed | copied _ => True
  | delayed | waiting | holding | ended _ => False

theorem Phase.IsSaving.hasLock {phase : Phase} (saving : phase.IsSaving) : phase.HasLock := by
  cases phase with
  | claimed | copied => trivial
  | delayed | waiting | holding | ended => exact saving.elim

/-- The claim has been made and has led or will lead to a write. -/
def Phase.Writes : Phase → Prop
  | claimed | copied _ | ended true => True
  | delayed | waiting | holding | ended false => False

end SaveTask

structure SaveTask where
  errand : Errand
  phase : SaveTask.Phase
  /-- Of the changes that were made before the task began, those that a request for a save followed. -/
  due : Nat
  /-- Before a timer has come to its claim, its request has been replaced or taken. -/
  superseded : Bool

namespace SaveTask

def supersede (task : SaveTask) : SaveTask :=
  match task.errand, task.phase with
  | .timer _, .delayed | .timer _, .waiting | .timer _, .holding => { task with superseded := true }
  | _, _ => task

end SaveTask

structure SharedStore where
  store : CachedIndex
  /-- What has been done to the index, oldest first. -/
  changes : List (SymbolIndex → SymbolIndex)
  /-- How many changes there were at the last request for a save. -/
  requested : Nat
  /-- A request has been cancelled at some time. -/
  cancelled : Bool
  /-- The number of the task that has the lock. -/
  lock : Option Nat
  tasks : List SaveTask
  /-- The writes that are finished, oldest first. -/
  saves : List Save

namespace SharedStore

def start (index : SymbolIndex) (cachePath : Path) (delay : Nat) (disk : Disk) : SharedStore :=
  ⟨{ CachedIndex.start cachePath delay disk with index := index }, [], 0, false, none, [], []⟩

def setTask (shared : SharedStore) (number : Nat) (task : SaveTask) : SharedStore :=
  { shared with tasks := shared.tasks.set number task }

def supersede (shared : SharedStore) : SharedStore :=
  { shared with tasks := shared.tasks.map .supersede }

/-- How many changes are in the cache: those that the last write has seen. -/
def kept (shared : SharedStore) : Nat := (shared.saves.getLast?.map Save.changes).getD 0

/-- The steps of all tasks, where every write succeeds. How long a delay takes is up to the clock, and a
timer whose request is gone may stop at once or come as far as its claim. A claim, whoever makes it,
leaves no request for other timers. -/
inductive Step (shared : SharedStore) : SharedStore → Prop where
  | change (change : SymbolIndex → SymbolIndex) :
    Step shared
      { shared with store := shared.store.modify change, changes := shared.changes ++ [change] }
  | schedule :
    Step shared
      { shared with
        store := shared.store.schedule
        requested := shared.changes.length
        tasks := shared.supersede.tasks ++
          [⟨.timer (shared.store.saver.generation + 1), .delayed, shared.changes.length, false⟩] }
  | cancel : Step shared { shared.supersede with store := shared.store.cancel, cancelled := true }
  | call {errand : Errand} (isCall : errand.IsCall) :
    Step shared
      { shared with tasks := shared.tasks ++ [⟨errand, .waiting, shared.requested, false⟩] }
  | elapse {number : Nat} {task : SaveTask} (listed : shared.tasks[number]? = some task)
      (delayed : task.phase = .delayed) :
    Step shared (shared.setTask number { task with phase := .waiting })
  | stop {number : Nat} {task : SaveTask} (listed : shared.tasks[number]? = some task)
      (delayed : task.phase = .delayed) (superseded : task.superseded) :
    Step shared (shared.setTask number { task with phase := .ended false })
  | acquire {number : Nat} {task : SaveTask} (listed : shared.tasks[number]? = some task)
      (waiting : task.phase = .waiting) (free : shared.lock = none) :
    Step shared { shared.setTask number { task with phase := .holding } with lock := some number }
  | claim {number : Nat} {task : SaveTask} {store : CachedIndex}
      (listed : shared.tasks[number]? = some task) (holding : task.phase = .holding)
      (claimed : task.errand.claim? shared.store = some store) :
    Step shared { shared.supersede.setTask number { task with phase := .claimed } with store := store }
  | decline {number : Nat} {task : SaveTask} (listed : shared.tasks[number]? = some task)
      (holding : task.phase = .holding) (nothing : task.errand.claim? shared.store = none) :
    Step shared { shared.setTask number { task with phase := .ended false } with lock := none }
  | copy {number : Nat} {task : SaveTask} (listed : shared.tasks[number]? = some task)
      (claimed : task.phase = .claimed) :
    Step shared
      (shared.setTask number
        { task with phase := .copied ⟨shared.changes.length, shared.store.index.snapshot⟩ })
  | write {number : Nat} {task : SaveTask} {save : Save} {disk : Disk}
      (listed : shared.tasks[number]? = some task) (copied : task.phase = .copied save)
      (written : (Cache.save shared.store.cachePath save.snapshot).run shared.store.disk =
        (.ok (), disk)) :
    Step shared
      { shared.setTask number { task with phase := .ended true } with
        store := { shared.store with disk := disk }
        lock := none
        saves := shared.saves ++ [save] }

/-- Some sequence of steps leads from one state to the other. -/
def Reaches : SharedStore → SharedStore → Prop := Relation.ReflTransGen Step

theorem Reaches.trans {one other last : SharedStore} (first : one.Reaches other)
    (second : other.Reaches last) : one.Reaches last :=
  Relation.ReflTransGen.trans first second

theorem Step.reaches {one other : SharedStore} (step : one.Step other) : one.Reaches other :=
  Relation.ReflTransGen.single step

variable {shared : SharedStore} {number : Nat} {task : SaveTask}

theorem lt_of_listed (listed : shared.tasks[number]? = some task) : number < shared.tasks.length :=
  (List.getElem?_eq_some_iff.mp listed).1

/-- A task that no other overtakes does what its errand does without a pause. -/
theorem reaches_perform (listed : shared.tasks[number]? = some task) (waiting : task.phase = .waiting)
    (free : shared.lock = none)
    (written : ∀ claimed, task.errand.claim? shared.store = some claimed →
      claimed.persist.2 = .ok ()) :
    ∃ next, shared.Reaches next ∧ next.store = task.errand.perform shared.store ∧
      next.changes = shared.changes ∧ next.cancelled = shared.cancelled ∧ next.lock = none ∧
      next.tasks[number]? =
        some { task with phase := .ended (task.errand.claim? shared.store).isSome } := by
  have inside := lt_of_listed listed
  let holding : SharedStore :=
    { shared.setTask number { task with phase := .holding } with lock := some number }
  have acquired : shared.Step holding := .acquire listed waiting free
  have holds : holding.tasks[number]? = some { task with phase := .holding } :=
    List.getElem?_set_self inside
  unfold Errand.perform
  cases claims : task.errand.claim? shared.store with
  | none =>
    have declined := @Step.decline holding number { task with phase := .holding } holds rfl claims
    refine ⟨_, acquired.reaches.trans declined.reaches, rfl, rfl, rfl, rfl, ?_⟩
    exact List.getElem?_set_self (lt_of_listed holds)
  | some store =>
    let claiming : SharedStore :=
      { holding.supersede.setTask number { task with phase := .claimed } with store := store }
    have claimed : holding.Step claiming :=
      @Step.claim holding number { task with phase := .holding } store holds rfl claims
    have stillInside : number < holding.supersede.tasks.length := by
      simpa [holding, supersede, setTask] using inside
    have claimer : claiming.tasks[number]? = some { task with phase := .claimed } :=
      List.getElem?_set_self stillInside
    let save : Save := ⟨claiming.changes.length, store.index.snapshot⟩
    let copying := claiming.setTask number { task with phase := .copied save }
    have copied : claiming.Step copying :=
      @Step.copy claiming number { task with phase := .claimed } claimer rfl
    have copier : copying.tasks[number]? = some { task with phase := .copied save } :=
      List.getElem?_set_self (lt_of_listed claimer)
    have outcome := written store claims
    unfold CachedIndex.persist at outcome ⊢
    rcases saved : (Cache.save store.cachePath store.index.snapshot).run store.disk with ⟨result, disk⟩
    rw [saved] at outcome
    have ok : result = .ok () := outcome
    subst ok
    have wrote := @Step.write copying number { task with phase := .copied save } save disk copier rfl saved
    have reached := acquired.reaches.trans (claimed.reaches.trans (copied.reaches.trans wrote.reaches))
    refine ⟨_, reached, ?_, rfl, rfl, rfl, List.getElem?_set_self (lt_of_listed copier)⟩
    simp only [saved]
    rfl

end SharedStore
end AssemblySymbols
