import AssemblySymbols.Proofs.Session.Reloading
import AssemblySymbols.Proofs.Session.SaveInvariant

/-! An index and its saver step by step, with every write that is attempted. Of all timers that run out
only the one whose request is still pending attempts a write; what has become of the others makes no
difference, so that they may stop when they like. -/
namespace AssemblySymbols

/-- What may be done with an index and its saver. -/
inductive SaverStep where
  | modify (change : SymbolIndex → SymbolIndex)
  | schedule
  | cancel
  | flush
  | saveNow
  | advance (milliseconds : Nat)

inductive Occasion where
  | deadline
  | flush
  | saveNow
deriving DecidableEq, Repr

/-- An attempt to write an index to the cache, whether or not it succeeds. -/
structure WriteAttempt where
  occasion : Occasion
  time : Nat
  index : SymbolIndex

namespace Cache

/-- Saves one snapshot after the other, whether or not that succeeds. -/
def saveAll (path : Path) : List Snapshot → Disk → List (Except DiskError Unit) × Disk
  | [], disk => ([], disk)
  | snapshot :: rest, disk =>
    let (outcome, after) := (save path snapshot).run disk
    let (outcomes, last) := saveAll path rest after
    (outcome :: outcomes, last)

theorem saveAll_cons (path : Path) (snapshot : Snapshot) (rest : List Snapshot) (disk : Disk) :
    saveAll path (snapshot :: rest) disk =
      (((save path snapshot).run disk).1 ::
          (saveAll path rest ((save path snapshot).run disk).2).1,
        (saveAll path rest ((save path snapshot).run disk).2).2) :=
  rfl

theorem saveAll_append (path : Path) (front rest : List Snapshot) (disk : Disk) :
    (saveAll path (front ++ rest) disk).2 =
      (saveAll path rest (saveAll path front disk).2).2 := by
  induction front generalizing disk with
  | nil => rfl
  | cons snapshot front ih => rw [List.cons_append, saveAll_cons, saveAll_cons, ih]

/-- If all saves have succeeded, the cache holds the last of them. -/
theorem load_saveAll {path : Path} {snapshots : List Snapshot} {disk : Disk}
    (free : Unobstructed disk path)
    (written : ∀ outcome ∈ (saveAll path snapshots disk).1, outcome = .ok ()) :
    ∀ last ∈ snapshots.getLast?, load (saveAll path snapshots disk).2 path = .ok last := by
  induction snapshots generalizing disk with
  | nil => nofun
  | cons snapshot rest ih =>
    rw [saveAll_cons] at written ⊢
    obtain ⟨first, later⟩ := List.forall_mem_cons.mp written
    obtain ⟨loaded, free'⟩ := load_of_save free (Prod.ext first rfl)
    cases rest with
    | nil =>
      rintro last same
      cases same
      exact loaded
    | cons next rest =>
      have loads := ih free' later
      rwa [List.getLast?_cons_cons]

end Cache

namespace Saver
variable {saver : Saver} {timer : Timer}

/-- The timer is that of the pending request. -/
def owns (saver : Saver) (timer : Timer) : Bool := some timer.generation = saver.pending

def ownTimers (saver : Saver) : List Timer := saver.timers.filter saver.owns

/-- Timers that may be running: those of the pending request are, and of others, if they have been
stopped, some may not have noticed. -/
structure MayRun (saver : Saver) (timers : List Timer) : Prop where
  own : timers.filter saver.owns = saver.ownTimers
  past : ∀ timer ∈ timers, timer.generation ≤ saver.generation

theorem owns_iff : saver.owns timer = true ↔ saver.pending = some timer.generation :=
  decide_eq_true_iff.trans eq_comm

theorem withdraw_idle (idle : ¬ saver.isPending = true) : saver.withdraw = saver := by
  have none : saver.pending = none := by
    rw [isPending, Option.not_isSome_iff_eq_none] at idle
    exact idle
  have all : saver.timers.filter (some ·.generation ≠ saver.pending) = saver.timers := by
    rw [List.filter_eq_self, none]
    exact fun _ _ => rfl
  rw [withdraw, all, ← none]

/-- Sorting puts nothing in place of the own timers. -/
theorem filter_dueTimers_perm (saver : Saver) (time : Nat) :
    ((saver.dueTimers time).filter saver.owns).Perm
      (saver.ownTimers.filter (·.deadline ≤ time)) := by
  have sorted := (List.mergeSort_perm (saver.timers.filter (·.deadline ≤ time))
    fun one other => one.deadline ≤ other.deadline).filter saver.owns
  rw [ownTimers, List.filter_comm]
  exact sorted

end Saver

namespace CachedIndex
variable {store : CachedIndex}

def take (store : CachedIndex) : SaverStep → CachedIndex
  | .modify change => store.modify change
  | .schedule => store.schedule
  | .cancel => store.cancel
  | .flush => store.flush.1
  | .saveNow => store.saveNow.1
  | .advance milliseconds => store.advance milliseconds

/-- What timers attempt that run out one after another. -/
def firings (store : CachedIndex) : List Timer → List WriteAttempt
  | [] => []
  | timer :: rest =>
    let later := (store.fire timer).firings rest
    match store.saver.claim? timer.generation with
    | some _ => ⟨.deadline, timer.deadline, store.index⟩ :: later
    | none => later

/-- What is attempted in a step. -/
def attempts (store : CachedIndex) : SaverStep → List WriteAttempt
  | .modify _ | .schedule | .cancel => []
  | .flush => if store.isPending then [⟨.flush, store.saver.clock, store.index⟩] else []
  | .saveNow => [⟨.saveNow, store.saver.clock, store.index⟩]
  | .advance milliseconds =>
    let time := store.saver.clock + milliseconds
    firings { store with saver := store.saver.passTo time } (store.saver.dueTimers time)

def withTimers (store : CachedIndex) (timers : List Timer) : CachedIndex :=
  { store with saver := { store.saver with timers := timers } }

/-- The pending request is no longer waiting for its save. -/
def claimed (store : CachedIndex) : CachedIndex :=
  { store with saver := { store.saver with pending := none } }

theorem fire_own {timer : Timer} (own : store.saver.owns timer = true) :
    store.fire timer = store.claimed.persist.1 := by
  rw [fire, Saver.claim?, if_pos (Saver.owns_iff.mp own)]
  rfl

theorem fire_other {timer : Timer} (other : ¬ store.saver.owns timer = true) :
    store.fire timer = store := by
  rw [fire, Saver.claim?, if_neg (mt Saver.owns_iff.mpr other)]

theorem firings_own {timer : Timer} {rest : List Timer} (own : store.saver.owns timer = true) :
    store.firings (timer :: rest) =
      ⟨.deadline, timer.deadline, store.index⟩ :: store.claimed.persist.1.firings rest := by
  rw [firings, fire_own own, Saver.claim?, if_pos (Saver.owns_iff.mp own)]

theorem firings_other {timer : Timer} {rest : List Timer} (other : ¬ store.saver.owns timer = true) :
    store.firings (timer :: rest) = store.firings rest := by
  rw [firings, fire_other other, Saver.claim?, if_neg (mt Saver.owns_iff.mpr other)]

theorem fires_of_none {due : List Timer} (others : due.filter store.saver.owns = []) :
    due.foldl fire store = store ∧ store.firings due = [] := by
  induction due with
  | nil => exact ⟨rfl, rfl⟩
  | cons timer rest ih =>
    have other : ¬ store.saver.owns timer = true :=
      List.filter_eq_nil_iff.mp others timer List.mem_cons_self
    rw [List.filter_cons_of_neg other] at others
    rw [List.foldl_cons, fire_other other, firings_other other]
    exact ih others

/-- Wherever the timer of the pending request is among those that run out. -/
theorem fires_of_own {due : List Timer} {timer : Timer} (own : due.filter store.saver.owns = [timer]) :
    due.foldl fire store = store.claimed.persist.1 ∧
      store.firings due = [⟨.deadline, timer.deadline, store.index⟩] := by
  induction due with
  | nil => contradiction
  | cons head rest ih =>
    by_cases mine : store.saver.owns head = true
    · rw [List.filter_cons_of_pos mine] at own
      obtain rfl := (List.cons.inj own).1
      -- After the claim no request is pending, so that the rest of the timers find none of their own.
      have others : rest.filter store.claimed.persist.1.saver.owns = [] :=
        List.filter_eq_nil_iff.mpr fun _ _ own => nomatch Saver.owns_iff.mp own
      obtain ⟨ended, none⟩ := fires_of_none others
      rw [List.foldl_cons, fire_own mine, firings_own mine, ended, none]
      exact ⟨rfl, rfl⟩
    · rw [List.filter_cons_of_neg mine] at own
      rw [List.foldl_cons, fire_other mine, firings_other mine]
      exact ih own

theorem advance_early {milliseconds : Nat}
    (early : ∀ timer ∈ store.saver.ownTimers, store.saver.clock + milliseconds < timer.deadline) :
    store.advance milliseconds =
      { store with saver := store.saver.passTo (store.saver.clock + milliseconds) } ∧
    store.attempts (.advance milliseconds) = [] := by
  have none : store.saver.ownTimers.filter (·.deadline ≤ store.saver.clock + milliseconds) = [] := by
    rw [List.filter_eq_nil_iff]
    intro timer member due
    exact absurd (of_decide_eq_true due) (Nat.not_le_of_lt (early timer member))
  have perm := store.saver.filter_dueTimers_perm (store.saver.clock + milliseconds)
  rw [none] at perm
  exact fires_of_none perm.eq_nil

theorem advance_due {milliseconds : Nat} {timer : Timer} (own : store.saver.ownTimers = [timer])
    (due : timer.deadline ≤ store.saver.clock + milliseconds) :
    store.advance milliseconds =
      (claimed { store with
        saver := store.saver.passTo (store.saver.clock + milliseconds) }).persist.1 ∧
    store.attempts (.advance milliseconds) = [⟨.deadline, timer.deadline, store.index⟩] := by
  have perm := store.saver.filter_dueTimers_perm (store.saver.clock + milliseconds)
  rw [own, List.filter_cons, if_pos (decide_eq_true due), List.filter_nil] at perm
  exact fires_of_own (List.perm_singleton.mp perm)

theorem disk_fires (store : CachedIndex) (due : List Timer) :
    (due.foldl fire store).cachePath = store.cachePath ∧
    (due.foldl fire store).disk =
      (Cache.saveAll store.cachePath ((store.firings due).map (·.index.snapshot)) store.disk).2 := by
  induction due generalizing store with
  | nil => exact ⟨rfl, rfl⟩
  | cons timer rest ih =>
    by_cases own : store.saver.owns timer = true
    · obtain ⟨place, disk⟩ := ih store.claimed.persist.1
      rw [List.foldl_cons, fire_own own, firings_own own, List.map_cons, Cache.saveAll_cons]
      exact ⟨place, disk⟩
    · rw [List.foldl_cons, fire_other own, firings_other own]
      exact ih store

/-- The attempts of a step are all that it does to the disk. -/
theorem disk_take (store : CachedIndex) (step : SaverStep) :
    (store.take step).cachePath = store.cachePath ∧
    (store.take step).disk =
      (Cache.saveAll store.cachePath ((store.attempts step).map (·.index.snapshot)) store.disk).2 := by
  cases step with
  | modify | schedule | cancel | saveNow => exact ⟨rfl, rfl⟩
  | flush =>
    rw [take, flush, attempts]
    split <;> exact ⟨rfl, rfl⟩
  | advance milliseconds => exact disk_fires _ _

end CachedIndex

/-- A run of steps and what it attempts, each attempt with the number of its step. Between steps, timers
whose requests are gone may stop or still be there. -/
inductive SaverRun (path : Path) (delay : Nat) (disk : Disk) :
    List SaverStep → CachedIndex → List (Nat × WriteAttempt) → Prop where
  | start : SaverRun path delay disk [] (.start path delay disk) []
  | linger {steps : List SaverStep} {store : CachedIndex} {attempts : List (Nat × WriteAttempt)}
      (run : SaverRun path delay disk steps store attempts) {timers : List Timer}
      (mayRun : store.saver.MayRun timers) :
      SaverRun path delay disk steps (store.withTimers timers) attempts
  | step {steps : List SaverStep} {store : CachedIndex} {attempts : List (Nat × WriteAttempt)}
      (run : SaverRun path delay disk steps store attempts) (step : SaverStep) :
      SaverRun path delay disk (steps ++ [step]) (store.take step)
        (attempts ++ (store.attempts step).map (steps.length, ·))

theorem SaverRun.disk_eq {path : Path} {delay : Nat} {disk : Disk} {steps : List SaverStep}
    {store : CachedIndex} {attempts : List (Nat × WriteAttempt)}
    (run : SaverRun path delay disk steps store attempts) :
    store.cachePath = path ∧
      store.disk = (Cache.saveAll path (attempts.map (·.2.index.snapshot)) disk).2 := by
  induction run with
  | start => exact ⟨rfl, rfl⟩
  | linger _ _ ih => exact ih
  | @step steps store attempts _ step ih =>
    obtain ⟨place, written⟩ := store.disk_take step
    refine ⟨place.trans ih.1, ?_⟩
    rw [written, ih.1, ih.2, List.map_append, Cache.saveAll_append, List.map_map]
    rfl

end AssemblySymbols
