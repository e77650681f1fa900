import AssemblySymbols.Proofs.Session.SaverRuns

/-! A save is pending from a request for it until the delay has passed or another step takes its place,
and what is written is written then. All this can be told from the steps alone. -/
namespace AssemblySymbols

namespace SaverStep

/-- The steps after which a request that was pending is not pending any more. -/
def Settles : SaverStep → Prop
  | schedule | cancel | flush | saveNow => True
  | modify _ | advance _ => False

/-- Those of them that leave none in its place. -/
def Withdraws : SaverStep → Prop
  | cancel | flush | saveNow => True
  | modify _ | schedule | advance _ => False

def IsAdvance : SaverStep → Prop
  | advance _ => True
  | modify _ | schedule | cancel | flush | saveNow => False

def milliseconds : SaverStep → Nat
  | advance milliseconds => milliseconds
  | modify _ | schedule | cancel | flush | saveNow => 0

def change? : SaverStep → Option (SymbolIndex → SymbolIndex)
  | modify change => some change
  | schedule | cancel | flush | saveNow | advance _ => none

/-- The time that passes in all steps. -/
def elapsed : List SaverStep → Nat
  | [] => 0
  | step :: rest => step.milliseconds + elapsed rest

/-- The index that its changes lead to. -/
def indexAfter (steps : List SaverStep) : SymbolIndex := SymbolIndex.empty.after (steps.filterMap change?)

/-- The steps before and after the last request for a save, if nothing has settled it. -/
structure LastRequest (steps earlier later : List SaverStep) : Prop where
  cut : steps = earlier ++ .schedule :: later
  unsettled : ∀ step ∈ later, ¬ step.Settles

/-- The clock has not been advanced to the end of the delay. A delay of nothing ends with the next
advance. -/
def Early (delay : Nat) (later : List SaverStep) : Prop :=
  elapsed later < delay ∨ ∀ step ∈ later, ¬ step.IsAdvance

def Awaiting (delay : Nat) (steps : List SaverStep) : Prop :=
  ∃ earlier later, LastRequest steps earlier later ∧ Early delay later

/-- What a step has to attempt after others. -/
inductive Due (delay : Nat) (steps : List SaverStep) : SaverStep → WriteAttempt → Prop where
  | deadline {earlier later : List SaverStep} {milliseconds : Nat}
      (last : LastRequest steps earlier later) (early : Early delay later)
      (spent : delay ≤ elapsed later + milliseconds) :
      Due delay steps (.advance milliseconds) ⟨.deadline, elapsed earlier + delay, indexAfter steps⟩
  | flush (awaiting : Awaiting delay steps) :
      Due delay steps .flush ⟨.flush, elapsed steps, indexAfter steps⟩
  | saveNow : Due delay steps .saveNow ⟨.saveNow, elapsed steps, indexAfter steps⟩

/-- A step makes the one attempt that is due, or none if there is none. -/
def Meets (delay : Nat) (steps : List SaverStep) (step : SaverStep) (attempts : List WriteAttempt) :
    Prop :=
  attempts = [] ∧ (∀ attempt, ¬ Due delay steps step attempt) ∨
    ∃ attempt, attempts = [attempt] ∧ ∀ other, Due delay steps step other ↔ other = attempt

variable {steps earlier later earlier' later' : List SaverStep} {step : SaverStep} {delay : Nat}

theorem Withdraws.settles (withdraws : step.Withdraws) : step.Settles := by
  cases step with
  | cancel | flush | saveNow => trivial
  | modify | schedule | advance => exact withdraws.elim

theorem Withdraws.ne_schedule (withdraws : step.Withdraws) : step ≠ .schedule := by
  rintro rfl
  exact withdraws

theorem elapsed_append (front rest : List SaverStep) :
    elapsed (front ++ rest) = elapsed front + elapsed rest := by
  induction front with
  | nil => exact (Nat.zero_add _).symm
  | cons step front ih => rw [List.cons_append, elapsed, elapsed, ih, Nat.add_assoc]

theorem elapsed_concat (steps : List SaverStep) (step : SaverStep) :
    elapsed (steps ++ [step]) = elapsed steps + step.milliseconds := by
  rw [elapsed_append]
  rfl

theorem indexAfter_concat_modify (steps : List SaverStep) (change : SymbolIndex → SymbolIndex) :
    indexAfter (steps ++ [.modify change]) = change (indexAfter steps) := by
  rw [indexAfter, List.filterMap_append]
  exact SymbolIndex.after_concat ..

theorem indexAfter_concat (steps : List SaverStep) (none : step.change? = none) :
    indexAfter (steps ++ [step]) = indexAfter steps := by
  rw [indexAfter, List.filterMap_append, List.filterMap_cons_none none, List.filterMap_nil,
    List.append_nil]
  rfl

namespace LastRequest

theorem elapsed_eq (last : LastRequest steps earlier later) :
    elapsed steps = elapsed earlier + elapsed later := by
  rw [last.cut, elapsed_append]
  exact congrArg _ (Nat.zero_add _)

theorem schedule_notMem (last : LastRequest steps earlier later) : .schedule ∉ later :=
  fun member => last.unsettled _ member trivial

/-- Of two different requests the later one would be among the steps after the earlier one. -/
theorem unique (last : LastRequest steps earlier later) (other : LastRequest steps earlier' later') :
    earlier' = earlier ∧ later' = later := by
  rcases List.append_eq_append_iff.mp (last.cut.symm.trans other.cut) with
    ⟨between, front, rest⟩ | ⟨between, front, rest⟩
  · cases between with
    | nil => exact ⟨front.trans (List.append_nil _), (List.cons.inj rest).2.symm⟩
    | cons step between =>
      have again : .schedule ∈ later :=
        (List.cons.inj rest).2 ▸ List.mem_append_right between List.mem_cons_self
      exact absurd again last.schedule_notMem
  · cases between with
    | nil => exact ⟨(front.trans (List.append_nil _)).symm, (List.cons.inj rest).2⟩
    | cons step between =>
      have again : .schedule ∈ later' :=
        (List.cons.inj rest).2 ▸ List.mem_append_right between List.mem_cons_self
      exact absurd again other.schedule_notMem

theorem schedule (steps : List SaverStep) : LastRequest (steps ++ [.schedule]) steps [] :=
  ⟨rfl, nofun⟩

theorem concat (last : LastRequest steps earlier later) (calm : ¬ step.Settles) :
    LastRequest (steps ++ [step]) earlier (later ++ [step]) where
  cut := by rw [last.cut, List.append_assoc, List.cons_append]
  unsettled other member := by
    rcases List.mem_append.mp member with old | new
    · exact last.unsettled other old
    · exact List.mem_singleton.mp new ▸ calm

/-- A request is still the last one after a step only if the step is itself the request or has not
settled the one before. -/
theorem of_concat (last : LastRequest (steps ++ [step]) earlier later) :
    step = .schedule ∨
      ¬ step.Settles ∧ ∃ rest, later = rest ++ [step] ∧ LastRequest steps earlier rest := by
  have cut := last.cut
  rcases later.eq_nil_or_concat with rfl | ⟨rest, final, rfl⟩
  · exact Or.inl (List.cons.inj (List.append_inj' cut rfl).2).1
  · rw [List.concat_eq_append] at last cut ⊢
    rw [← List.cons_append, ← List.append_assoc] at cut
    obtain ⟨before, same⟩ := List.append_inj' cut rfl
    obtain rfl := (List.cons.inj same).1
    obtain ⟨unsettled, calm⟩ := List.forall_mem_append.mp last.unsettled
    exact Or.inr ⟨calm step List.mem_cons_self, rest, rfl, before, unsettled⟩

end LastRequest

theorem Early.of_concat (early : Early delay (later ++ [step])) : Early delay later := by
  rcases early with short | still
  · rw [elapsed_concat] at short
    exact Or.inl (Nat.lt_of_le_of_lt (Nat.le_add_right _ _) short)
  · exact Or.inr fun other member => still other (List.mem_append_left _ member)

theorem awaiting_iff (last : LastRequest steps earlier later) :
    Awaiting delay steps ↔ Early delay later := by
  constructor
  · rintro ⟨_, _, other, early⟩
    exact (last.unique other).2 ▸ early
  · exact fun early => ⟨earlier, later, last, early⟩

theorem Awaiting.of_concat (awaiting : Awaiting delay (steps ++ [step])) :
    step = .schedule ∨ ¬ step.Settles ∧ Awaiting delay steps := by
  obtain ⟨earlier, later, last, early⟩ := awaiting
  rcases last.of_concat with requested | ⟨calm, rest, rfl, before⟩
  · exact Or.inl requested
  · exact Or.inr ⟨calm, earlier, rest, before, early.of_concat⟩

end SaverStep

namespace CachedIndex
open SaverStep

/-- A store is where its steps have led. If a save is pending, it is because of the last request for it,
and there is one timer for it, set to the time of that request and the delay. -/
structure Tracks (delay : Nat) (steps : List SaverStep) (store : CachedIndex) : Prop where
  index : store.index = indexAfter steps
  clock : store.saver.clock = elapsed steps
  past : ∀ timer ∈ store.saver.timers, timer.generation ≤ store.saver.generation
  idle : store.saver.pending = none → ¬ Awaiting delay steps
  waits : ∀ generation, store.saver.pending = some generation →
    ∃ earlier later, LastRequest steps earlier later ∧ Early delay later ∧
      store.saver.ownTimers = [⟨generation, elapsed earlier + delay⟩]
  delay : store.saver.delay = delay

variable {delay : Nat} {steps : List SaverStep} {store : CachedIndex}

namespace Tracks

theorem start (path : Path) (delay : Nat) (disk : Disk) :
    Tracks delay [] (CachedIndex.start path delay disk) where
  index := rfl
  clock := rfl
  delay := rfl
  past := nofun
  idle _ := by
    rintro ⟨earlier, later, last, -⟩
    exact absurd last.cut.symm (List.append_ne_nil_of_right_ne_nil _ (List.cons_ne_nil _ _))
  waits := nofun

theorem isPending_iff (tracks : Tracks delay steps store) :
    store.isPending = true ↔ Awaiting delay steps := by
  rw [isPending, Saver.isPending]
  cases pending : store.saver.pending with
  | none => exact iff_of_false Bool.false_ne_true (tracks.idle pending)
  | some generation =>
    obtain ⟨earlier, later, last, early, -⟩ := tracks.waits generation pending
    exact iff_of_true rfl ⟨earlier, later, last, early⟩

theorem linger (tracks : Tracks delay steps store) {timers : List Timer}
    (mayRun : store.saver.MayRun timers) : Tracks delay steps (store.withTimers timers) :=
  { tracks with
    past := mayRun.past
    waits := fun generation pending => by
      obtain ⟨earlier, later, last, early, own⟩ := tracks.waits generation pending
      exact ⟨earlier, later, last, early, mayRun.own.trans own⟩ }

theorem past_withdraw (tracks : Tracks delay steps store) :
    ∀ timer ∈ store.saver.withdraw.timers, timer.generation ≤ store.saver.generation :=
  fun timer member => tracks.past timer (List.mem_of_mem_filter member)

theorem modify (tracks : Tracks delay steps store) (change : SymbolIndex → SymbolIndex) :
    Tracks delay (steps ++ [.modify change]) (store.modify change) where
  index := by
    rw [indexAfter_concat_modify, ← tracks.index]
    rfl
  clock := by
    rw [elapsed_concat]
    exact tracks.clock
  delay := tracks.delay
  past := tracks.past
  idle pending awaiting := by
    obtain ⟨-, before⟩ := awaiting.of_concat.resolve_left nofun
    exact tracks.idle pending before
  waits generation pending := by
    obtain ⟨earlier, later, last, early, own⟩ := tracks.waits generation pending
    refine ⟨earlier, _, last.concat id, ?_, own⟩
    rcases early with short | still
    · exact Or.inl ((elapsed_concat ..).trans_lt short)
    · refine Or.inr (List.forall_mem_append.mpr ⟨still, ?_⟩)
      exact List.forall_mem_singleton.mpr id

theorem schedule (tracks : Tracks delay steps store) :
    Tracks delay (steps ++ [.schedule]) store.schedule where
  index := tracks.index.trans (indexAfter_concat steps rfl).symm
  clock := tracks.clock.trans (elapsed_concat steps .schedule).symm
  delay := tracks.delay
  past := by
    refine List.forall_mem_append.mpr ⟨fun timer member => ?_, ?_⟩
    · exact Nat.le_succ_of_le (tracks.past_withdraw timer member)
    · exact List.forall_mem_singleton.mpr (Nat.le_refl _)
  idle := nofun
  waits generation pending := by
    cases pending
    refine ⟨steps, [], .schedule steps, Or.inr nofun, ?_⟩
    let timer : Timer := ⟨store.saver.generation + 1, store.saver.clock + store.saver.delay⟩
    have others : store.saver.withdraw.timers.filter store.schedule.saver.owns = [] := by
      rw [List.filter_eq_nil_iff]
      intro timer member own
      have later := Option.some.inj (Saver.owns_iff.mp own)
      have past := tracks.past_withdraw timer member
      omega
    have own : [timer].filter store.schedule.saver.owns = [timer] := by
      rw [List.filter_eq_self]
      exact List.forall_mem_singleton.mpr (Saver.owns_iff.mpr rfl)
    have all : store.schedule.saver.ownTimers =
        store.saver.withdraw.timers.filter store.schedule.saver.owns ++
          [timer].filter store.schedule.saver.owns := List.filter_append ..
    rw [all, others, own, ← tracks.clock, ← tracks.delay]
    rfl

/-- Whatever takes the request that is pending. -/
theorem withdraw (tracks : Tracks delay steps store) {step : SaverStep} {after : CachedIndex}
    (withdraws : step.Withdraws) (index : after.index = store.index)
    (saver : after.saver = store.saver.withdraw) : Tracks delay (steps ++ [step]) after where
  index := by
    have none : step.change? = none := by
      cases step with
      | cancel | flush | saveNow => rfl
      | modify | schedule | advance => exact withdraws.elim
    rw [index, tracks.index, indexAfter_concat steps none]
  clock := by
    have none : step.milliseconds = 0 := by
      cases step with
      | cancel | flush | saveNow => rfl
      | modify | schedule | advance => exact withdraws.elim
    rw [saver, elapsed_concat, none]
    exact tracks.clock
  past := by
    rw [saver]
    exact tracks.past_withdraw
  idle _ awaiting := (awaiting.of_concat.resolve_left withdraws.ne_schedule).1 withdraws.settles
  waits generation pending := by
    rw [saver] at pending
    cases pending
  delay := by
    rw [saver]
    exact tracks.delay

theorem flush (tracks : Tracks delay steps store) :
    Tracks delay (steps ++ [.flush]) store.flush.1 := by
  rw [CachedIndex.flush]
  split
  · exact tracks.withdraw trivial rfl rfl
  · next quiet => exact tracks.withdraw trivial rfl (Saver.withdraw_idle quiet).symm

/-- No deadline is reached, so that nothing happens. -/
theorem passTo (tracks : Tracks delay steps store) {milliseconds : Nat}
    (early : ∀ earlier later, LastRequest steps earlier later → Early delay later →
      elapsed later + milliseconds < delay) :
    Tracks delay (steps ++ [.advance milliseconds])
      { store with saver := store.saver.passTo (store.saver.clock + milliseconds) } where
  index := tracks.index.trans (indexAfter_concat steps rfl).symm
  clock := by
    rw [elapsed_concat, ← tracks.clock]
    rfl
  past timer member := tracks.past timer (List.mem_of_mem_filter member)
  idle pending awaiting := by
    obtain ⟨-, before⟩ := awaiting.of_concat.resolve_left nofun
    exact tracks.idle pending before
  waits generation pending := by
    obtain ⟨earlier, later, last, soon, own⟩ := tracks.waits generation pending
    have short := early earlier later last soon
    refine ⟨earlier, _, last.concat id, Or.inl ((elapsed_concat ..).trans_lt short), ?_⟩
    let timer : Timer := ⟨generation, elapsed earlier + delay⟩
    have still : [timer].filter (store.saver.clock + milliseconds < ·.deadline) = [timer] := by
      have before : elapsed earlier + elapsed later + milliseconds < elapsed earlier + delay := by omega
      rw [List.filter_eq_self, List.forall_mem_singleton, tracks.clock, last.elapsed_eq]
      exact decide_eq_true before
    refine Eq.trans ?_ still
    rw [← own]
    exact List.filter_comm ..
  delay := tracks.delay

/-- The deadline is reached, and the request has gone with its timer. -/
theorem fired (tracks : Tracks delay steps store) {milliseconds : Nat} {earlier later : List SaverStep}
    (last : LastRequest steps earlier later) (spent : delay ≤ elapsed later + milliseconds) :
    Tracks delay (steps ++ [.advance milliseconds])
      (claimed { store with
        saver := store.saver.passTo (store.saver.clock + milliseconds) }).persist.1 where
  index := tracks.index.trans (indexAfter_concat steps rfl).symm
  clock := by
    rw [elapsed_concat, ← tracks.clock]
    rfl
  past timer member := tracks.past timer (List.mem_of_mem_filter member)
  idle _ awaiting := by
    rcases (awaiting_iff (last.concat id)).mp awaiting with short | still
    · rw [elapsed_concat] at short
      exact Nat.not_lt_of_le spent short
    · exact still _ (List.mem_append_right _ List.mem_cons_self) trivial
  waits := nofun
  delay := tracks.delay

theorem advance (tracks : Tracks delay steps store) (milliseconds : Nat) :
    Tracks delay (steps ++ [.advance milliseconds]) (store.advance milliseconds) ∧
      Meets delay steps (.advance milliseconds) (store.attempts (.advance milliseconds)) := by
  cases pending : store.saver.pending with
  | none =>
    have quiet := tracks.idle pending
    have early : ∀ timer ∈ store.saver.ownTimers,
        store.saver.clock + milliseconds < timer.deadline := by
      intro timer member
      have own := Saver.owns_iff.mp (List.of_mem_filter member)
      rw [pending] at own
      contradiction
    obtain ⟨advanced, none⟩ := advance_early early
    rw [advanced, none]
    refine ⟨tracks.passTo fun earlier later last soon => ?_, Or.inl ⟨rfl, fun attempt due => ?_⟩⟩
    · exact absurd ⟨earlier, later, last, soon⟩ quiet
    · cases due with
      | deadline last soon => exact quiet ⟨_, _, last, soon⟩
  | some generation =>
    obtain ⟨earlier, later, last, soon, own⟩ := tracks.waits generation pending
    have now : store.saver.clock = elapsed earlier + elapsed later :=
      tracks.clock.trans last.elapsed_eq
    by_cases spent : delay ≤ elapsed later + milliseconds
    · have reached : elapsed earlier + delay ≤ store.saver.clock + milliseconds := by omega
      obtain ⟨advanced, one⟩ := advance_due own reached
      rw [advanced, one]
      refine ⟨tracks.fired last spent, Or.inr ⟨_, rfl, fun other => ⟨fun due => ?_, ?_⟩⟩⟩
      · cases due with
        | deadline again => rw [(last.unique again).1, tracks.index]
      · rintro rfl
        rw [tracks.index]
        exact .deadline last soon spent
    · have early : ∀ timer ∈ store.saver.ownTimers,
          store.saver.clock + milliseconds < timer.deadline := by
        rw [own, List.forall_mem_singleton, now]
        show _ < elapsed earlier + delay
        omega
      obtain ⟨advanced, none⟩ := advance_early early
      rw [advanced, none]
      refine ⟨tracks.passTo fun _ _ again _ => ?_, Or.inl ⟨rfl, fun attempt due => ?_⟩⟩
      · rw [(last.unique again).2]
        omega
      · cases due with
        | deadline again _ spent' => exact spent ((last.unique again).2 ▸ spent')

theorem take (tracks : Tracks delay steps store) (step : SaverStep) :
    Tracks delay (steps ++ [step]) (store.take step) ∧
      Meets delay steps step (store.attempts step) := by
  cases step with
  | modify change => exact ⟨tracks.modify change, Or.inl ⟨rfl, fun attempt due => by cases due⟩⟩
  | schedule => exact ⟨tracks.schedule, Or.inl ⟨rfl, fun attempt due => by cases due⟩⟩
  | cancel => exact ⟨tracks.withdraw trivial rfl rfl, Or.inl ⟨rfl, fun attempt due => by cases due⟩⟩
  | flush =>
    refine ⟨tracks.flush, ?_⟩
    rw [attempts, tracks.clock, tracks.index]
    by_cases pending : store.isPending = true
    · rw [if_pos pending]
      refine Or.inr ⟨_, rfl, fun other => ⟨fun due => ?_, ?_⟩⟩
      · cases due with
        | flush => rfl
      · rintro rfl
        exact .flush (tracks.isPending_iff.mp pending)
    · rw [if_neg pending]
      refine Or.inl ⟨rfl, fun attempt due => ?_⟩
      cases due with
      | flush awaiting => exact pending (tracks.isPending_iff.mpr awaiting)
  | saveNow =>
    refine ⟨tracks.withdraw trivial rfl rfl, Or.inr ⟨_, rfl, fun other => ⟨fun due => ?_, ?_⟩⟩⟩
    · cases due with
      | saveNow => rw [tracks.clock, tracks.index]
    · rintro rfl
      rw [tracks.clock, tracks.index]
      exact .saveNow
  | advance milliseconds => exact tracks.advance milliseconds

end Tracks
end CachedIndex

namespace SaverRun
open SaverStep CachedIndex
variable {path : Path} {delay : Nat} {disk : Disk} {steps : List SaverStep} {store : CachedIndex}
  {attempts : List (Nat × WriteAttempt)}

theorem tracks (run : SaverRun path delay disk steps store attempts) : Tracks delay steps store := by
  induction run with
  | start => exact .start path delay disk
  | linger _ mayRun ih => exact ih.linger mayRun
  | step _ step ih => exact (ih.take step).1

theorem mem_attempts_iff (run : SaverRun path delay disk steps store attempts) (number : Nat)
    (attempt : WriteAttempt) :
    (number, attempt) ∈ attempts ↔
      ∃ step, steps[number]? = some step ∧ Due delay (steps.take number) step attempt := by
  induction run with
  | start => exact iff_of_false nofun (by rintro ⟨step, listed, -⟩; contradiction)
  | linger _ _ ih => exact ih
  | @step steps store attempts run step ih =>
    have here : attempt ∈ store.attempts step ↔ Due delay steps step attempt := by
      rcases (run.tracks.take step).2 with ⟨none, nothing⟩ | ⟨one, same, due⟩
      · rw [none]
        exact iff_of_false nofun (nothing attempt)
      · rw [same, due, List.mem_singleton]
    have new : (number, attempt) ∈ (store.attempts step).map (steps.length, ·) ↔
        number = steps.length ∧ Due delay steps step attempt := by
      rw [← here, List.mem_map]
      constructor
      · rintro ⟨other, member, same⟩
        cases same
        exact ⟨rfl, member⟩
      · rintro ⟨rfl, member⟩
        exact ⟨attempt, member, rfl⟩
    rw [List.mem_append, ih, new]
    rcases Nat.lt_trichotomy number steps.length with before | rfl | behind
    · rw [List.getElem?_append_left before, List.take_append_of_le_length before.le]
      exact or_iff_left fun later => before.ne later.1
    · have listed : (steps ++ [step])[steps.length]? = some step := List.getElem?_concat_length
      rw [listed, List.take_left, List.getElem?_eq_none (Nat.le_refl _)]
      constructor
      · rintro (⟨_, none, -⟩ | ⟨-, due⟩)
        · contradiction
        · exact ⟨step, rfl, due⟩
      · rintro ⟨_, same, due⟩
        exact Or.inr ⟨rfl, Option.some.inj same ▸ due⟩
    · have outside : (steps ++ [step])[number]? = none := by
        rw [List.getElem?_eq_none_iff, List.length_append]
        exact behind
      rw [outside, List.getElem?_eq_none behind.le]
      constructor
      · rintro (⟨_, none, -⟩ | ⟨same, -⟩)
        · contradiction
        · exact absurd same behind.ne'
      · rintro ⟨_, none, -⟩
        contradiction

theorem pairwise_attempts (run : SaverRun path delay disk steps store attempts) :
    attempts.Pairwise fun earlier later => earlier.1 < later.1 := by
  induction run with
  | start => exact .nil
  | linger _ _ ih => exact ih
  | @step steps store attempts run step ih =>
    refine List.pairwise_append.mpr ⟨ih, ?_, fun entry old other new => ?_⟩
    · rcases (run.tracks.take step).2 with ⟨none, -⟩ | ⟨one, same, -⟩
      · rw [none]
        exact .nil
      · rw [same]
        exact List.pairwise_singleton _ _
    · obtain ⟨earlier, listed, -⟩ := (run.mem_attempts_iff entry.1 entry.2).mp old
      obtain ⟨attempt, -, rfl⟩ := List.mem_map.mp new
      exact (List.getElem?_eq_some_iff.mp listed).1

/-- Whatever the delay and the steps, and however long the timers stay whose requests are gone: a save is
pending exactly from a request for it until it is settled or the clock has been advanced to the end of
the delay, and a flush tells whether one was. The attempts to write are those that are due, in their
order: at the end of the delay of each request that nothing has settled by then, in a flush if a save is
pending, and in a save on demand. They write the index as it is then, and nothing else happens to the
disk. If no link is in the way of writing the cache and all writes succeed, the cache holds what the last
of them has written. -/
theorem debounces (run : SaverRun path delay disk steps store attempts) :
    (store.isPending = true ↔ Awaiting delay steps) ∧
    store.flush.2 = store.isPending ∧
    (∀ number attempt, (number, attempt) ∈ attempts ↔
      ∃ step, steps[number]? = some step ∧ Due delay (steps.take number) step attempt) ∧
    (attempts.Pairwise fun earlier later => earlier.1 < later.1) ∧
    store.index = indexAfter steps ∧ store.saver.clock = elapsed steps ∧
    store.disk = (Cache.saveAll path (attempts.map (·.2.index.snapshot)) disk).2 ∧
    (Cache.Unobstructed disk path →
      (∀ outcome ∈ (Cache.saveAll path (attempts.map (·.2.index.snapshot)) disk).1, outcome = .ok ()) →
      ∀ last ∈ attempts.getLast?, store.load = .ok last.2.index.snapshot) := by
  refine ⟨run.tracks.isPending_iff, ?_, run.mem_attempts_iff, run.pairwise_attempts, run.tracks.index,
    run.tracks.clock, run.disk_eq.2, fun free written last member => ?_⟩
  · rw [CachedIndex.flush]
    split
    · next pending => exact pending.symm
    · next quiet => exact (Bool.not_eq_true _ ▸ quiet).symm
  · obtain ⟨place, disk⟩ := run.disk_eq
    rw [load, place, disk]
    refine Cache.load_saveAll free written _ ?_
    rw [List.getLast?_map]
    exact Option.mem_map_of_mem _ member

/-- Two requests of which the second comes before the delay of the first is over, whose timer stays; and
a request that a flush answers. -/
theorem debounces_two_requests :
    let change : SymbolIndex → SymbolIndex := (·.indexText "a.asm" "start:\n")
    (∃ store attempts,
      SaverRun ⟨"cache"⟩ 10 .empty
        [.modify change, .schedule, .advance 6, .schedule, .advance 20] store attempts ∧
      store.isPending = false ∧ (4, ⟨.deadline, 16, change .empty⟩) ∈ attempts) ∧
    ∃ store attempts,
      SaverRun ⟨"/.asmdex/cache/symbols.json"⟩ 10 .empty [.modify change, .schedule, .flush] store
        attempts ∧
      store.load = .ok (change .empty).snapshot := by
  intro change
  constructor
  · let requested := ((CachedIndex.start ⟨"cache"⟩ 10 .empty).modify change).schedule
    have first : SaverRun ⟨"cache"⟩ 10 .empty [.modify change, .schedule] requested [] :=
      (SaverRun.start.step (.modify change)).step .schedule
    have early : ∀ timer ∈ requested.saver.ownTimers, 0 + 6 < timer.deadline :=
      List.forall_mem_singleton.mpr (by decide : 0 + 6 < 10)
    obtain ⟨passed, none⟩ := advance_early early
    let later : CachedIndex := { requested with saver := requested.saver.passTo 6 }
    have second : SaverRun ⟨"cache"⟩ 10 .empty [.modify change, .schedule, .advance 6] later [] := by
      have run := first.step (.advance 6)
      rwa [none, CachedIndex.take, passed] at run
    have stays : later.schedule.saver.MayRun [⟨1, 10⟩, ⟨2, 16⟩] := by
      refine ⟨rfl, List.forall_mem_cons.mpr ⟨?_, List.forall_mem_singleton.mpr (Nat.le_refl _)⟩⟩
      exact Nat.le_succ 1
    have run := ((second.step .schedule).linger stays).step (.advance 20)
    obtain ⟨pending, -, written, -⟩ := run.debounces
    have last : LastRequest [.modify change, .schedule, .advance 6, .schedule, .advance 20]
        [.modify change, .schedule, .advance 6] [.advance 20] :=
      ⟨rfl, List.forall_mem_singleton.mpr id⟩
    refine ⟨_, _, run, Bool.eq_false_iff.mpr fun waiting => ?_,
      (written ..).mpr ⟨.advance 20, rfl, ?_⟩⟩
    · rcases (awaiting_iff last).mp (pending.mp waiting) with short | still
      · exact absurd short (by decide)
      · exact still _ List.mem_cons_self trivial
    · have spent : 10 ≤ elapsed [] + 20 := by decide
      have requests := LastRequest.schedule [.modify change, .schedule, .advance 6]
      exact .deadline requests (Or.inr (List.forall_mem_nil _)) spent
  · have run := (((@SaverRun.start ⟨"/.asmdex/cache/symbols.json"⟩ 10 .empty).step
      (.modify change)).step .schedule).step .flush
    obtain ⟨-, -, -, -, -, -, -, loads⟩ := run.debounces
    have succeeds := Cache.save_empty (change .empty).snapshot
    exact ⟨_, _, run, loads Cache.unobstructed_empty (List.forall_mem_singleton.mpr succeeds) _ rfl⟩

/-- Without a delay a save is pending for as long as the clock stands still, and a save may go through a
link into the cache, of which then only the link is left. -/
theorem pending_without_delay_and_saved_through_link :
    (∃ store, SaverRun ⟨"cache"⟩ 0 .empty [.schedule] store [] ∧ store.isPending = true ∧
      ¬ ∃ earlier later, LastRequest [.schedule] earlier later ∧ elapsed later < 0) ∧
    ∃ store attempt,
      SaverRun ⟨"/.asmdex/cache/symbols.json"⟩ 1000 Cache.linkedDisk [.saveNow] store [(0, attempt)] ∧
      (Cache.saveAll ⟨"/.asmdex/cache/symbols.json"⟩ [attempt.index.snapshot] Cache.linkedDisk).1 =
        [.ok ()] ∧
      store.load = .error (.disk .linkLoop) := by
  constructor
  · exact ⟨_, SaverRun.start.step .schedule, rfl, fun ⟨_, _, _, early⟩ => Nat.not_lt_zero _ early⟩
  · have run := (@SaverRun.start ⟨"/.asmdex/cache/symbols.json"⟩ 1000 Cache.linkedDisk).step .saveNow
    exact ⟨_, ⟨.saveNow, 0, .empty⟩, run, rfl, rfl⟩

end SaverRun
end AssemblySymbols
