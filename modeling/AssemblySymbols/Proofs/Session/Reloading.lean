import AssemblySymbols.Proofs.Session.CacheSaves
import AssemblySymbols.Proofs.Session.Holdings
import AssemblySymbols.Proofs.Symbol.Restoration

/-! The index that a new session would find in the cache, beside the one that is live. -/
namespace AssemblySymbols

namespace CachedIndex
variable {store : CachedIndex}

/-- What the cache brings into an empty index. A cache that cannot be used counts as none. -/
def reloaded (store : CachedIndex) : SymbolIndex :=
  match store.load with
  | .ok snapshot => (SymbolIndex.empty.restore snapshot).1
  | .error _ => .empty

/-- The cache holds all tables of the index and no others. -/
def Saved (store : CachedIndex) : Prop :=
  ∀ uri, store.reloaded.document? uri = store.index.document? uri

/-- Whatever is not saved is pending, or there is an excuse for it. -/
structure Durable (store : CachedIndex) (excuse : Prop) : Prop where
  free : Cache.Unobstructed store.disk store.cachePath
  coherent : store.index.Coherent
  recorded : store.isPending = true ∨ store.Saved ∨ excuse

theorem Durable.imp {excuse other : Prop} (durable : store.Durable excuse) (imp : excuse → other) :
    store.Durable other :=
  { durable with recorded := durable.recorded.imp_right (Or.imp_right imp) }

theorem Durable.saved {excuse : Prop} (durable : store.Durable excuse)
    (quiet : store.isPending = false) (none : ¬ excuse) : store.Saved := by
  rcases durable.recorded with pending | saved | excused
  · exact absurd (quiet.symm.trans pending) Bool.false_ne_true
  · exact saved
  · exact absurd excused none

theorem Saved.of_load {snapshot : Snapshot} (loaded : store.load = .ok snapshot)
    (same : snapshot = store.index.snapshot) (coherent : store.index.Coherent) : store.Saved := by
  intro uri
  rw [reloaded, loaded, same]
  exact (SymbolIndex.restore_snapshot coherent).1.document? uri

theorem persist_withSaver (store : CachedIndex) (saver : Saver) :
    (persist { store with saver := saver }).2 = store.persist.2 :=
  rfl

theorem Durable.persist {excuse : Prop} (durable : store.Durable excuse)
    (written : store.persist.2 = .ok ()) : store.persist.1.Saved ∧ store.persist.1.Durable False := by
  unfold CachedIndex.persist at written ⊢
  rcases outcome : (Cache.save store.cachePath store.index.snapshot).run store.disk with ⟨result, disk⟩
  rw [outcome] at written
  have ok : result = .ok () := written
  subst ok
  obtain ⟨loaded, free⟩ := Cache.load_of_save durable.free outcome
  let after : CachedIndex := { store with disk := disk }
  have saved : after.Saved := .of_load loaded rfl durable.coherent
  exact ⟨saved, free, durable.coherent, Or.inr (Or.inl saved)⟩

theorem Durable.withSaver {excuse : Prop} (durable : store.Durable excuse) (saver : Saver)
    (still : store.isPending = true → saver.isPending = true) :
    Durable { store with saver := saver } excuse := by
  refine ⟨durable.free, durable.coherent, ?_⟩
  rcases durable.recorded with pending | saved | excused
  · exact Or.inl (still pending)
  · exact Or.inr (Or.inl saved)
  · exact Or.inr (Or.inr excused)

theorem Durable.saveNow {excuse : Prop} (durable : store.Durable excuse)
    (written : store.saveNow.2 = .ok ()) : store.saveNow.1.Saved ∧ store.saveNow.1.Durable False := by
  have begun : store.cancel.Durable True :=
    ⟨durable.free, durable.coherent, Or.inr (Or.inr trivial)⟩
  exact begun.persist written

/-- All saves that the timers bring about succeed. -/
def FiresSucceed : CachedIndex → List Timer → Prop
  | _, [] => True
  | store, timer :: rest =>
    ((store.saver.claim? timer.generation).isSome → store.persist.2 = .ok ()) ∧
      (store.fire timer).FiresSucceed rest

theorem Durable.fire {excuse : Prop} (durable : store.Durable excuse) {timer : Timer}
    (written : (store.saver.claim? timer.generation).isSome → store.persist.2 = .ok ()) :
    (store.fire timer).Durable excuse := by
  unfold CachedIndex.fire
  split
  · next saver claimed =>
    let claiming : CachedIndex := { store with saver := saver }
    have begun : claiming.Durable True :=
      ⟨durable.free, durable.coherent, Or.inr (Or.inr trivial)⟩
    have persisted : store.persist.2 = .ok () := written (claimed ▸ rfl)
    obtain ⟨saved, durable'⟩ := begun.persist ((store.persist_withSaver saver).trans persisted)
    exact ⟨durable'.free, durable'.coherent, Or.inr (Or.inl saved)⟩
  · exact durable

theorem Durable.fires {excuse : Prop} (durable : store.Durable excuse) {due : List Timer}
    (written : store.FiresSucceed due) : (due.foldl CachedIndex.fire store).Durable excuse := by
  induction due generalizing store with
  | nil => exact durable
  | cons timer rest ih => exact ih (durable.fire written.1) written.2

end CachedIndex
end AssemblySymbols
