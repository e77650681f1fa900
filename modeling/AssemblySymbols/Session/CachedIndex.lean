import AssemblySymbols.Session.Cache
import AssemblySymbols.Session.Saver
import AssemblySymbols.Symbol.Index

/-! An index and the file that it is saved to when its saver says so. -/
namespace AssemblySymbols

structure CachedIndex where
  index : SymbolIndex
  saver : Saver
  cachePath : Path
  disk : Disk

namespace CachedIndex

def start (cachePath : Path) (delay : Nat) (disk : Disk) : CachedIndex :=
  ⟨.empty, .start delay, cachePath, disk⟩

/-- Changes the index, which requests no save by itself. -/
def modify (store : CachedIndex) (change : SymbolIndex → SymbolIndex) : CachedIndex :=
  { store with index := change store.index }

def schedule (store : CachedIndex) : CachedIndex := { store with saver := store.saver.schedule }

def cancel (store : CachedIndex) : CachedIndex := { store with saver := store.saver.withdraw }

def isPending (store : CachedIndex) : Bool := store.saver.isPending

/-- Writes the index as it is now. -/
def persist (store : CachedIndex) : CachedIndex × Except DiskError Unit :=
  let (outcome, disk) := (Cache.save store.cachePath store.index.snapshot).run store.disk
  ({ store with disk := disk }, outcome)

/-- Writes the index at once, whether or not a save is pending. -/
def saveNow (store : CachedIndex) : CachedIndex × Except DiskError Unit := store.cancel.persist

/-- Writes the index at once if a save is pending, and says whether one was. -/
def flush (store : CachedIndex) : CachedIndex × Bool :=
  if store.isPending then (store.saveNow.1, true) else (store, false)

/-- A timer runs out. A save that fails is not tried again. -/
def fire (store : CachedIndex) (timer : Timer) : CachedIndex :=
  match store.saver.claim? timer.generation with
  | some saver => ({ store with saver := saver }).persist.1
  | none => store

/-- Lets time pass, in which the timers that run out are served one after another. -/
def advance (store : CachedIndex) (milliseconds : Nat) : CachedIndex :=
  let time := store.saver.clock + milliseconds
  let due := store.saver.dueTimers time
  due.foldl fire { store with saver := store.saver.passTo time }

def load (store : CachedIndex) : Except CacheError Snapshot := Cache.load store.disk store.cachePath

end CachedIndex
end AssemblySymbols
