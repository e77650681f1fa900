/-! Saves that wait for a pause. Each request starts a timer of its own and takes the place of the
one before; only the timer of the last request finds that a save is still pending for it. -/
namespace AssemblySymbols

/-- A running timer with the number of its request. -/
structure Timer where
  generation : Nat
  deadline : Nat
deriving DecidableEq, Repr

structure Saver where
  /-- Milliseconds from a request to its save. -/
  delay : Nat
  clock : Nat
  /-- The number of requests so far. -/
  generation : Nat
  /-- The request that has not been served. -/
  pending : Option Nat
  timers : List Timer
deriving DecidableEq, Repr

namespace Saver

def start (delay : Nat) : Saver := ⟨delay, 0, 0, none, []⟩

def isPending (saver : Saver) : Bool := saver.pending.isSome

/-- Takes the pending request back and stops its timer. -/
def withdraw (saver : Saver) : Saver :=
  { saver with pending := none, timers := saver.timers.filter (some ·.generation ≠ saver.pending) }

/-- Requests a save in place of the one that is pending. -/
def schedule (saver : Saver) : Saver :=
  let rest := saver.withdraw
  let generation := saver.generation + 1
  { rest with
    generation := generation
    pending := some generation
    timers := rest.timers ++ [⟨generation, rest.clock + rest.delay⟩] }

/-- What a timer that has run out leaves, if the pending request is its own. -/
def claim? (saver : Saver) (generation : Nat) : Option Saver :=
  if saver.pending = some generation then some { saver with pending := none } else none

/-- The timers that run out up to a time, earliest first. -/
def dueTimers (saver : Saver) (time : Nat) : List Timer :=
  (saver.timers.filter (·.deadline ≤ time)).mergeSort fun one other => one.deadline ≤ other.deadline

/-- Moves the clock past the timers that run out up to a time. -/
def passTo (saver : Saver) (time : Nat) : Saver :=
  { saver with clock := time, timers := saver.timers.filter (time < ·.deadline) }

end Saver
end AssemblySymbols
