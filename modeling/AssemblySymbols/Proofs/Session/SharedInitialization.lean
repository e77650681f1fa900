import AssemblySymbols.Proofs.Session.FaithfulCache
import AssemblySymbols.Proofs.Session.ScanAccounts

/-! Any number of callers who need the session initialized. They share a cell that is filled once: who
finds it empty waits for the one permit to fill it, who has the permit runs the initialization from its
beginning, and at its end all are served. The steps allow for a second run on top of the first, and how
often the cache is loaded and the workspace discovered and scanned is counted beside them. -/
namespace AssemblySymbols
open Session (Opening)

/-- What needs an initialized session. -/
inductive Question where
  | initialization
  | kindOf (cancelled : Bool) (name : String)
  | definitionsOf (cancelled : Bool) (name : String)
  | definitionsAt (cancelled : Bool) (text : String) (position : Position)

namespace Question

/-- A place without an identifier is answered for at once. -/
def Waits : Question → Prop
  | initialization | kindOf _ _ | definitionsOf _ _ => True
  | definitionsAt _ text position => (Session.identifierIn? text position).isSome

def demand (discovered : Option (List Opening)) : Question → Demand
  | initialization => .initialization discovered
  | kindOf cancelled name => .kindOf discovered cancelled name
  | definitionsOf cancelled name => .definitionsOf discovered cancelled name
  | definitionsAt cancelled text position => .definitionsAt discovered cancelled text position

end Question

/-- How far a caller has come. -/
inductive Caller.Phase where
  /-- It has not looked into the cell yet. -/
  | entering
  /-- It has found the cell empty and waits for the permit. -/
  | queued
  | running
  | served (stats : ScanStats)
deriving DecidableEq

structure Caller where
  question : Question
  phase : Caller.Phase

/-- A live session with those who need it initialized. What the cell holds, the session keeps itself. -/
structure AskedSession where
  live : LiveSession
  /-- The permit has not been taken. It is never given back. -/
  free : Bool
  callers : List Caller

/-- How often the cache has been loaded, the workspace been discovered, and a scan come to its end. -/
structure Tally where
  loads : Nat
  discoveries : Nat
  scans : Nat

/-- A step, counted if it is one of the initialization, as its stages tell. -/
def Tally.note (tally : Tally) : Stage → Stage → Tally
  | .loading, .seeding _ | .loading, .discovering => { tally with loads := tally.loads + 1 }
  | .discovering, .scanning _ | .discovering, .closing =>
    { tally with discoveries := tally.discoveries + 1 }
  | .closing, .done => { tally with scans := tally.scans + 1 }
  | _, _ => tally

theorem Tally.note_of_same (tally : Tally) (stage : Stage) : tally.note stage stage = tally := by
  cases stage <;> rfl

namespace Stage

/-- What one initialization has gone through at a stage. -/
def tally : Stage → Tally
  | idle | loading => ⟨0, 0, 0⟩
  | seeding _ | discovering => ⟨1, 0, 0⟩
  | scanning _ | opening _ _ | installing _ _ _ | pruning | closing => ⟨1, 1, 0⟩
  | done => ⟨1, 1, 1⟩

theorem tally_le (stage : Stage) :
    stage.tally.loads ≤ 1 ∧ stage.tally.discoveries ≤ 1 ∧ stage.tally.scans ≤ 1 := by
  cases stage <;> simp [tally]

theorem Step.note_tally {stage next : Stage} {scan scan' : Scan} (step : Step stage scan next scan') :
    stage.tally.note stage next = next.tally := by
  cases step <;> rfl

theorem Step.ne_idle {stage next : Stage} {scan scan' : Scan} (step : Step stage scan next scan') :
    next ≠ .idle := by
  cases step <;> simp

/-- The last step leaves the outcome in the session. -/
theorem Step.initialized {stage next : Stage} {scan scan' : Scan} (step : Step stage scan next scan')
    (done : next = .done) : scan'.session.initialized = some scan'.stats := by
  cases step with
  | close => rfl
  | _ => contradiction

/-- A step within an initialization. -/
def Works (before after : Stage × Scan) : Prop :=
  Step before.1 before.2 after.1 after.2 ∧ after.1 ≠ .done

/-- Whatever has been discovered, a scan can come to its end. -/
theorem closes_scanning (rest : List Path) (scan : Scan) :
    ∃ last, Relation.ReflTransGen Works (.scanning rest, scan) (.closing, last) := by
  induction rest generalizing scan with
  | nil =>
    have finished : Works (.scanning [], scan) (.pruning, scan) := ⟨.finish, by simp⟩
    have pruned : Works (.pruning, scan) (.closing, scan.prune) := ⟨.prune, by simp⟩
    exact ⟨_, .head finished (.single pruned)⟩
  | cons path rest ih =>
    cases stopped : scan.session.stopped with
    | true => exact ⟨_, .single ⟨.stop stopped, by simp⟩⟩
    | false =>
      have turned : Works (.scanning (path :: rest), scan) (.opening path rest, scan) :=
        ⟨.next stopped, by simp⟩
      have failed : Works (.opening path rest, scan)
          (.scanning rest, (scan.openFile ⟨path, [], none⟩).countFailed) := ⟨.fail, by simp⟩
      obtain ⟨last, closes⟩ := ih (scan.openFile ⟨path, [], none⟩).countFailed
      exact ⟨last, .head turned (.head failed closes)⟩

/-- An initialization that is under way can come to its end. -/
theorem closes {stage : Stage} (begun : stage ≠ .idle) (ongoing : stage ≠ .done) (scan : Scan) :
    ∃ last, Relation.ReflTransGen Works (stage, scan) (.closing, last) := by
  have undiscovered (scan : Scan) : Works (.discovering, scan) (.closing, .start scan.session 0) :=
    ⟨.undiscovered, by simp⟩
  have seeded (snapshot : Snapshot) (scan : Scan) : Works (.seeding snapshot, scan) (.discovering,
      { scan with session := scan.session.modifyIndex fun index => (index.restore snapshot).1 }) :=
    ⟨.seed, by simp⟩
  cases stage with
  | idle | done => contradiction
  | loading =>
    cases loaded : scan.session.store.load with
    | ok snapshot =>
      have read : Works (.loading, scan) (.seeding snapshot, scan) := ⟨.load loaded, by simp⟩
      exact ⟨_, .head read (.head (seeded snapshot scan) (.single (undiscovered _)))⟩
    | error cause =>
      have ignored : Works (.loading, scan) (.discovering, scan) := ⟨.ignore loaded, by simp⟩
      exact ⟨_, .head ignored (.single (undiscovered scan))⟩
  | seeding snapshot => exact ⟨_, .head (seeded snapshot scan) (.single (undiscovered _))⟩
  | discovering => exact ⟨_, .single (undiscovered scan)⟩
  | scanning rest => exact closes_scanning rest scan
  | opening path rest =>
    have failed : Works (.opening path rest, scan)
        (.scanning rest, (scan.openFile ⟨path, [], none⟩).countFailed) := ⟨.fail, by simp⟩
    obtain ⟨last, closes⟩ := closes_scanning rest (scan.openFile ⟨path, [], none⟩).countFailed
    exact ⟨last, .head failed closes⟩
  | installing uri table rest =>
    have installed : Works (.installing uri table rest, scan) (.scanning rest, scan.install uri table) :=
      ⟨.install, by simp⟩
    obtain ⟨last, closes⟩ := closes_scanning rest (scan.install uri table)
    exact ⟨last, .head installed closes⟩
  | pruning => exact ⟨_, .single ⟨.prune, by simp⟩⟩
  | closing => exact ⟨scan, .refl⟩

end Stage

/-! ### A session that is initialized -/

namespace Session
variable {session : Session} {stats : ScanStats}

theorem ensureInitialized_again (initialized : session.initialized = some stats)
    (discovered : Option (List Opening)) : session.ensureInitialized discovered = (session, stats) := by
  rw [ensureInitialized, initialized]

/-- No question does anything to it. -/
theorem meet_again (initialized : session.initialized = some stats)
    (discovered : Option (List Opening)) (question : Question) :
    session.meet (question.demand discovered) = session := by
  have again := congrArg Prod.fst (ensureInitialized_again initialized discovered)
  cases question with
  | initialization | kindOf | definitionsOf => exact again
  | definitionsAt cancelled text position =>
    rw [Question.demand, meet, definitionsAt]
    split
    · exact again
    · rfl

end Session

/-- Only the steps of the initialization move its stage or bring its outcome. -/
theorem LiveSession.Step.apart {live next : LiveSession} {event : Event} (step : live.Step event next)
    (apart : event ≠ .startUp) :
    next.stage = live.stage ∧ next.session.initialized = live.session.initialized := by
  cases step with
  | startUp => contradiction
  | complete => exact ⟨rfl, congrArg Frame.initialized (live.session.frame_complete _)⟩
  | refresh _ step => exact ⟨rfl, congrArg Frame.initialized step.frame⟩
  | claim _ _ claims =>
    obtain ⟨saver, rfl, -⟩ := Errand.claim?_eq claims
    exact ⟨rfl, rfl⟩
  | _ => exact ⟨rfl, rfl⟩

namespace AskedSession

def start (root : Path) (settings : Settings) (disk : Disk) : AskedSession :=
  ⟨.start root settings disk, true, []⟩

/-- The initialization has gone on. -/
def advance (asked : AskedSession) (stage : Stage) (scan : Scan) : AskedSession :=
  { asked with live := { asked.live with stage := stage, scan := scan } }

def running (asked : AskedSession) : Nat := asked.callers.countP (·.phase = .running)

/-- The steps of the callers. None of them leaves before it is served, the one that is cancelled neither:
if the one with the permit left, the next would have to begin the initialization again. -/
inductive CallStep (asked : AskedSession) : AskedSession → Prop where
  | ask (question : Question) (waits : question.Waits) :
    CallStep asked { asked with callers := asked.callers ++ [⟨question, .entering⟩] }
  | find {earlier later : List Caller} {question : Question} {stats : ScanStats}
      (listed : asked.callers = earlier ++ ⟨question, .entering⟩ :: later)
      (filled : asked.live.session.initialized = some stats) :
    CallStep asked { asked with callers := earlier ++ ⟨question, .served stats⟩ :: later }
  | queue {earlier later : List Caller} {question : Question}
      (listed : asked.callers = earlier ++ ⟨question, .entering⟩ :: later)
      (empty : asked.live.session.initialized = none) :
    CallStep asked { asked with callers := earlier ++ ⟨question, .queued⟩ :: later }
  | acquire {earlier later : List Caller} {question : Question}
      (listed : asked.callers = earlier ++ ⟨question, .queued⟩ :: later) (free : asked.free = true) :
    CallStep asked
      { asked.advance .loading asked.live.scan with
        free := false
        callers := earlier ++ ⟨question, .running⟩ :: later }
  | work {earlier later : List Caller} {question : Question} {stage : Stage} {scan : Scan}
      (listed : asked.callers = earlier ++ ⟨question, .running⟩ :: later)
      (step : Stage.Step asked.live.stage asked.live.scan stage scan) (ongoing : stage ≠ .done) :
    CallStep asked (asked.advance stage scan)
  | finish {earlier later : List Caller} {question : Question} {scan : Scan}
      (listed : asked.callers = earlier ++ ⟨question, .running⟩ :: later)
      (step : Stage.Step asked.live.stage asked.live.scan .done scan) :
    CallStep asked
      { asked.advance .done scan with callers := earlier ++ ⟨question, .served scan.stats⟩ :: later }
  | wake {earlier later : List Caller} {question : Question} {stats : ScanStats}
      (listed : asked.callers = earlier ++ ⟨question, .queued⟩ :: later)
      (filled : asked.live.session.initialized = some stats) :
    CallStep asked { asked with callers := earlier ++ ⟨question, .served stats⟩ :: later }

/-- The steps of all tasks. -/
inductive Step (asked : AskedSession) : AskedSession → Prop where
  | call {next : AskedSession} (step : asked.CallStep next) : Step asked next
  | other {event : Event} {live : LiveSession} (step : asked.live.Step event live)
      (apart : event ≠ .startUp) : Step asked { asked with live := live }

/-- A run of steps with its tally. -/
inductive Runs (begun : AskedSession) : AskedSession → Tally → Prop where
  | refl : Runs begun begun ⟨0, 0, 0⟩
  | tail {asked next : AskedSession} {tally : Tally} (earlier : Runs begun asked tally)
      (step : asked.Step next) : Runs begun next (tally.note asked.live.stage next.live.stage)

/-- Whose turn it is: the permit is there and nothing has begun, or the one caller who has taken it is at
work, or the initialization is over. -/
inductive Turns (asked : AskedSession) : Prop where
  | untouched (free : asked.free = true) (idle : asked.live.stage = .idle) (nobody : asked.running = 0)
  | underWay (taken : asked.free = false) (begun : asked.live.stage ≠ .idle)
      (ongoing : asked.live.stage ≠ .done) (one : asked.running = 1)
  | ended (taken : asked.free = false) (done : asked.live.stage = .done) (nobody : asked.running = 0)

/-- Who is served has been told what the cell holds. -/
def Served (asked : AskedSession) : Prop :=
  ∀ caller ∈ asked.callers, ∀ stats, caller.phase = .served stats →
    asked.live.session.initialized = some stats

structure Orderly (asked : AskedSession) : Prop where
  turns : asked.Turns
  reports : asked.live.scan.Reports asked.live.stage
  filled : asked.live.stage = .done → asked.live.session.initialized ≠ none
  served : asked.Served

variable {asked next : AskedSession} {earlier later : List Caller} {caller after : Caller}

theorem running_of_listed (listed : asked.callers = earlier ++ caller :: later)
    (runs : caller.phase = .running) : 0 < asked.running :=
  List.countP_pos_iff.mpr ⟨caller, listed ▸ by simp, decide_eq_true runs⟩

/-- A caller takes the place of another in the count of those who are at work. -/
theorem running_replace (listed : asked.callers = earlier ++ caller :: later) (after : Caller) :
    running { asked with callers := earlier ++ after :: later } +
        (if caller.phase = .running then 1 else 0) =
      asked.running + (if after.phase = .running then 1 else 0) := by
  simp only [running, listed, List.countP_append, List.countP_cons, decide_eq_true_eq]
  omega

theorem forall_replace {holds : Caller → Prop} (listed : asked.callers = earlier ++ caller :: later)
    (all : ∀ other ∈ asked.callers, holds other) (own : holds after) :
    ∀ other ∈ earlier ++ after :: later, holds other := by
  rw [listed] at all
  intro other member
  rcases List.mem_append.mp member with front | rest
  · exact all other (List.mem_append_left _ front)
  · rcases List.mem_cons.mp rest with rfl | behind
    · exact own
    · exact all other (List.mem_append_right _ (List.mem_cons_of_mem _ behind))

namespace Orderly

/-- Before the end the cell is empty. -/
theorem empty (orderly : asked.Orderly) (ongoing : asked.live.stage ≠ .done) :
    asked.live.session.initialized = none := by
  cases filled : asked.live.session.initialized with
  | none => rfl
  | some stats => exact absurd (orderly.reports stats filled).2 ongoing

theorem unserved (orderly : asked.Orderly) (ongoing : asked.live.stage ≠ .done)
    (member : caller ∈ asked.callers) (stats : ScanStats) : caller.phase ≠ .served stats := by
  intro served
  have filled := orderly.served caller member stats served
  rw [orderly.empty ongoing] at filled
  contradiction

/-- A caller whose permit it is has the initialization under way. -/
theorem underWay (orderly : asked.Orderly) (listed : asked.callers = earlier ++ caller :: later)
    (runs : caller.phase = .running) :
    asked.free = false ∧ asked.live.stage ≠ .idle ∧ asked.live.stage ≠ .done ∧ asked.running = 1 := by
  have some := running_of_listed listed runs
  cases orderly.turns with
  | untouched _ _ nobody | ended _ _ nobody => omega
  | underWay taken begun ongoing one => exact ⟨taken, begun, ongoing, one⟩

/-- Nothing has begun as long as the permit is there. -/
theorem untouched (orderly : asked.Orderly) (free : asked.free = true) :
    asked.live.stage = .idle ∧ asked.running = 0 := by
  cases orderly.turns with
  | untouched _ idle nobody => exact ⟨idle, nobody⟩
  | underWay taken | ended taken => exact absurd (free.symm.trans taken) (by simp)

/-- Callers come and go, while the initialization stays as it is. -/
theorem reply {callers : List Caller} (orderly : asked.Orderly)
    (running : callers.countP (·.phase = .running) = asked.running)
    (served : Served { asked with callers := callers }) :
    Orderly { asked with callers := callers } where
  turns := by
    cases orderly.turns with
    | untouched free idle nobody => exact .untouched free idle (running.trans nobody)
    | underWay taken begun ongoing one => exact .underWay taken begun ongoing (running.trans one)
    | ended taken done nobody => exact .ended taken done (running.trans nobody)
  reports := orderly.reports
  filled := orderly.filled
  served := served

theorem call (orderly : asked.Orderly) (step : asked.CallStep next) : next.Orderly := by
  cases step with
  | ask question =>
    refine orderly.reply (by simp [running]) fun other member => ?_
    rcases List.mem_append.mp member with old | new
    · exact orderly.served other old
    · rw [List.mem_singleton.mp new]
      simp
  | find listed filled | wake listed filled =>
    refine orderly.reply (by simp [running, listed]) (forall_replace listed orderly.served ?_)
    rintro _ ⟨⟩
    exact filled
  | queue listed =>
    exact orderly.reply (by simp [running, listed]) (forall_replace listed orderly.served (by simp))
  | @acquire earlier later question listed free =>
    obtain ⟨idle, nobody⟩ := orderly.untouched free
    have empty := orderly.empty (show asked.live.stage ≠ .done by simp [idle])
    have count := running_replace listed ⟨question, .running⟩
    refine ⟨.underWay rfl (by simp [advance]) (by simp [advance]) ?_, ?_, by simp [advance],
      forall_replace listed orderly.served (by simp)⟩
    · exact count.trans (by simp [nobody])
    · exact fun stats filled => absurd (empty.symm.trans filled) (by simp)
  | work listed step ongoing =>
    obtain ⟨taken, -, before, one⟩ := orderly.underWay listed rfl
    -- before the end nobody has been served, so the session may still change
    refine ⟨.underWay taken step.ne_idle ongoing one, step.reports orderly.reports,
      fun done => absurd done ongoing, fun caller member stats served => ?_⟩
    exact absurd served (orderly.unserved before member stats)
  | @finish earlier later question scan listed step =>
    obtain ⟨taken, -, before, one⟩ := orderly.underWay listed rfl
    have filled := step.initialized rfl
    have count := running_replace listed ⟨question, .served scan.stats⟩
    refine ⟨.ended taken rfl ?_, step.reports orderly.reports, fun _ empty => ?_,
      forall_replace listed (fun caller member stats served => ?_) ?_⟩
    · exact Nat.add_right_cancel (count.trans (one.trans (Nat.zero_add 1).symm))
    · exact absurd (filled.symm.trans empty) (by simp)
    · exact absurd served (orderly.unserved before member stats)
    · rintro _ ⟨⟩
      exact filled

/-- The other tasks have no part in it. -/
theorem other {event : Event} {live : LiveSession} (orderly : asked.Orderly)
    (step : asked.live.Step event live) (apart : event ≠ .startUp) :
    Orderly { asked with live := live } := by
  obtain ⟨stage, initialized⟩ := step.apart apart
  refine ⟨?_, stage ▸ step.reports orderly.reports, ?_, ?_⟩
  · cases orderly.turns with
    | untouched free idle nobody => exact .untouched free (stage.trans idle) nobody
    | underWay taken begun ongoing one =>
      exact .underWay taken (stage ▸ begun) (stage ▸ ongoing) one
    | ended taken done nobody => exact .ended taken (stage.trans done) nobody
  · exact fun done empty => orderly.filled (stage.symm.trans done) (initialized.symm.trans empty)
  · exact fun caller member stats served =>
      initialized.trans (orderly.served caller member stats served)

theorem step (orderly : asked.Orderly) (step : asked.Step next) : next.Orderly := by
  cases step with
  | call step => exact orderly.call step
  | other step apart => exact orderly.other step apart

end Orderly

/-- What counts in a step is what the initialization goes through. -/
theorem Step.note_tally (step : asked.Step next) (orderly : asked.Orderly) :
    asked.live.stage.tally.note asked.live.stage next.live.stage = next.live.stage.tally := by
  have still (same : next.live.stage = asked.live.stage) :
      asked.live.stage.tally.note asked.live.stage next.live.stage = next.live.stage.tally := by
    rw [same, Tally.note_of_same]
  cases step with
  | other step apart => exact still (step.apart apart).1
  | call step =>
    cases step with
    | work _ step | finish _ step => exact step.note_tally
    | acquire _ free =>
      obtain ⟨idle, -⟩ := orderly.untouched free
      change asked.live.stage.tally.note asked.live.stage .loading = Stage.loading.tally
      rw [idle]
      rfl
    | _ => exact still rfl

/-- The steps of an initialization leave the callers as they are. -/
theorem reaches_advance {question : Question}
    (listed : asked.callers = earlier ++ ⟨question, .running⟩ :: later) {stage : Stage} {scan : Scan}
    (works : Relation.ReflTransGen Stage.Works (asked.live.stage, asked.live.scan) (stage, scan)) :
    Relation.ReflTransGen CallStep asked (asked.advance stage scan) := by
  suffices general : ∀ after : Stage × Scan,
      Relation.ReflTransGen Stage.Works (asked.live.stage, asked.live.scan) after →
      Relation.ReflTransGen CallStep asked (asked.advance after.1 after.2) from general _ works
  intro after works
  induction works with
  | refl => exact .refl
  | @tail between after _ last ih => exact ih.tail (.work listed last.1 last.2)

/-- Steps of the callers alone serve all of them. -/
structure Serves (asked last : AskedSession) : Prop where
  reached : Relation.ReflTransGen CallStep asked last
  same : last.callers.map (·.question) = asked.callers.map (·.question)
  all : ∀ caller ∈ last.callers, ∃ stats, caller.phase = .served stats

theorem Serves.head {middle last : AskedSession} (first : Relation.ReflTransGen CallStep asked middle)
    (same : middle.callers.map (·.question) = asked.callers.map (·.question))
    (serves : middle.Serves last) : asked.Serves last :=
  ⟨first.trans serves.reached, serves.same.trans same, serves.all⟩

/-- As soon as the cell is filled, it serves everyone. -/
theorem serves_filled {stats : ScanStats} (filled : asked.live.session.initialized = some stats)
    (nobody : asked.running = 0) : ∃ last, asked.Serves last := by
  suffices general : ∀ rest front, (∀ caller ∈ rest, caller.phase ≠ .running) →
      (∀ caller ∈ front, ∃ stats, caller.phase = .served stats) →
      ∃ last, Serves { asked with callers := front ++ rest } last by
    refine general asked.callers [] (fun caller member => ?_) (by simp)
    simpa using List.countP_eq_zero.mp nobody caller member
  -- one after another, with those in front served already
  intro rest
  induction rest with
  | nil => exact fun front _ served => ⟨_, .refl, rfl, by simpa using served⟩
  | cons caller rest ih =>
    intro front waiting served
    obtain ⟨own, idle⟩ := List.forall_mem_cons.mp waiting
    obtain ⟨question, phase⟩ := caller
    have behind {stats : ScanStats} (first : Relation.ReflTransGen CallStep
        { asked with callers := front ++ ⟨question, phase⟩ :: rest }
        { asked with callers := front ++ ⟨question, .served stats⟩ :: rest }) :
        ∃ last, Serves { asked with callers := front ++ ⟨question, phase⟩ :: rest } last := by
      obtain ⟨last, serves⟩ := ih (front ++ [⟨question, .served stats⟩]) idle (by
        simpa [or_imp, forall_and] using served)
      rw [List.append_assoc] at serves
      exact ⟨last, .head first (by simp) serves⟩
    cases phase with
    | entering => exact behind (.single (.find rfl filled))
    | queued => exact behind (.single (.wake rfl filled))
    | running => contradiction
    | served => exact behind .refl

/-- A caller who is at work comes to the end of it. -/
theorem serves_underWay (orderly : asked.Orderly) {question : Question}
    (listed : asked.callers = earlier ++ ⟨question, .running⟩ :: later) : ∃ last, asked.Serves last := by
  obtain ⟨-, begun, ongoing, one⟩ := orderly.underWay listed rfl
  obtain ⟨scan, closes⟩ := Stage.closes begun ongoing asked.live.scan
  have closing := reaches_advance listed closes
  obtain ⟨last, closed⟩ : ∃ last, Stage.Step .closing scan .done last := ⟨_, .close⟩
  let ended : AskedSession :=
    { asked.advance .done last with callers := earlier ++ ⟨question, .served last.stats⟩ :: later }
  have finished : CallStep (asked.advance .closing scan) ended := .finish listed closed
  have count := running_replace listed ⟨question, .served last.stats⟩
  have nobody : ended.running = 0 :=
    Nat.add_right_cancel (count.trans (one.trans (Nat.zero_add 1).symm))
  have filled : ended.live.session.initialized = some last.stats := closed.initialized rfl
  obtain ⟨_, serves⟩ := serves_filled filled nobody
  exact ⟨_, .head (closing.tail finished) (by simp [ended, listed]) serves⟩

/-- Whatever has happened, all callers can still be served. -/
theorem serves (orderly : asked.Orderly) : ∃ last, asked.Serves last := by
  cases orderly.turns with
  | ended _ done nobody =>
    obtain ⟨stats, filled⟩ := Option.ne_none_iff_exists'.mp (orderly.filled done)
    exact serves_filled filled nobody
  | underWay _ _ _ one =>
    have some : 0 < asked.running := one ▸ Nat.one_pos
    obtain ⟨⟨question, phase⟩, member, runs⟩ := List.countP_pos_iff.mp some
    obtain rfl : phase = .running := of_decide_eq_true runs
    obtain ⟨earlier, later, listed⟩ := List.append_of_mem member
    exact serves_underWay orderly listed
  | untouched free idle nobody =>
    have empty : asked.live.session.initialized = none := orderly.empty (by simp [idle])
    -- whoever is first in the queue can take the permit
    have queued {asked : AskedSession} (orderly : asked.Orderly) (free : asked.free = true)
        {question : Question} {rest : List Caller}
        (listed : asked.callers = [] ++ ⟨question, .queued⟩ :: rest) : ∃ last, asked.Serves last := by
      have acquired := CallStep.acquire listed free
      obtain ⟨last, serves⟩ := serves_underWay (orderly.call acquired) rfl
      exact ⟨last, .head (.single acquired) (by simp [listed]) serves⟩
    cases listed : asked.callers with
    | nil => exact ⟨asked, .refl, rfl, by simp [listed]⟩
    | cons caller rest =>
      obtain ⟨question, phase⟩ := caller
      have first : asked.callers = [] ++ ⟨question, phase⟩ :: rest := listed
      cases phase with
      | entering =>
        have waits := CallStep.queue first empty
        obtain ⟨last, serves⟩ := queued (orderly.call waits) free rfl
        exact ⟨last, .head (.single waits) (by simp [listed]) serves⟩
      | queued => exact queued orderly free first
      | running => exact absurd nobody (Nat.ne_of_gt (running_of_listed first rfl))
      | served stats =>
        have filled := orderly.served _ (listed ▸ List.mem_cons_self) stats rfl
        exact absurd (empty.symm.trans filled) (by simp)

/-- When the cell is filled, the callers only look at it. -/
theorem Orderly.live_eq (orderly : asked.Orderly) {stats : ScanStats}
    (filled : asked.live.session.initialized = some stats) (step : asked.CallStep next) :
    next.live = asked.live := by
  have done : asked.live.stage = .done := (orderly.reports stats filled).2
  cases step with
  | ask | find | queue | wake => rfl
  | acquire listed free => exact absurd ((orderly.untouched free).1.symm.trans done) (by simp)
  | work listed | finish listed => exact absurd done (orderly.underWay listed rfl).2.2.1

/-- The callers do to the session what the initialization of a live session does on its own. -/
theorem Step.reaches_live (step : asked.Step next) (orderly : asked.Orderly) :
    asked.live.Reaches next.live := by
  cases step with
  | other step => exact step.reachesBy trivial
  | call step =>
    cases step with
    | ask | find | queue | wake => exact .refl
    | work _ step | finish _ step => exact (LiveSession.Step.startUp step).reachesBy trivial
    | acquire _ free =>
      have begins : Stage.Step asked.live.stage asked.live.scan .loading asked.live.scan :=
        (orderly.untouched free).1 ▸ .begin
      exact (LiveSession.Step.startUp begins).reachesBy trivial

theorem Runs.keeps {root : Path} {settings : Settings} {disk : Disk} {tally : Tally}
    (runs : (start root settings disk).Runs asked tally) :
    asked.Orderly ∧ tally = asked.live.stage.tally ∧
      (LiveSession.start root settings disk).Reaches asked.live := by
  induction runs with
  | refl =>
    refine ⟨⟨.untouched rfl rfl rfl, ?_, by simp [start, LiveSession.start], ?_⟩, rfl, .refl⟩
    · exact fun stats filled => by contradiction
    · exact fun caller member => absurd member List.not_mem_nil
  | tail _ step ih =>
    obtain ⟨orderly, rfl, reached⟩ := ih
    exact ⟨orderly.step step, step.note_tally orderly, reached.trans (step.reaches_live orderly)⟩

/-- Whatever callers there are, who all stay until they are served, whatever they ask, cancelled or not, and
whatever the editor, refreshes, shutdowns, saves and other programs do in between: the cache is loaded once
at most, the workspace discovered once, and one scan comes to its end. All who are served have been told
the same, what the session keeps as its outcome. When there is one, each of the three has happened once, no step of a caller
changes the session, its documents and its saves any more, and neither does any question to it, whatever
the disk and the files are by then. Nobody waits in vain: from every state the callers alone can go on until
all of them are served. And the session goes through no other states than one that is initialized by
itself. -/
theorem initialized_once (root : Path) (settings : Settings) (disk : Disk) {tally : Tally}
    (runs : (start root settings disk).Runs asked tally) :
    (tally.loads ≤ 1 ∧ tally.discoveries ≤ 1 ∧ tally.scans ≤ 1) ∧
    (∀ caller ∈ asked.callers, ∀ stats, caller.phase = .served stats →
      asked.live.session.initialized = some stats) ∧
    (∀ stats, asked.live.session.initialized = some stats →
      tally = ⟨1, 1, 1⟩ ∧ (∀ next, asked.CallStep next → next.live = asked.live) ∧
      ∀ (files : Disk) (discovered : Option (List Opening)) (question : Question),
        let later := asked.live.session.withDisk files
        later.ensureInitialized discovered = (later, stats) ∧
        later.meet (question.demand discovered) = later) ∧
    (∃ last, asked.Serves last) ∧ (LiveSession.start root settings disk).Reaches asked.live := by
  obtain ⟨orderly, rfl, reached⟩ := runs.keeps
  refine ⟨asked.live.stage.tally_le, orderly.served, fun stats filled => ?_, serves orderly, reached⟩
  have done : asked.live.stage = .done := (orderly.reports stats filled).2
  refine ⟨by rw [done]; rfl, fun _ => orderly.live_eq filled, fun files discovered question => ?_⟩
  have still : (asked.live.session.withDisk files).initialized = some stats := filled
  exact ⟨Session.ensureInitialized_again still discovered, Session.meet_again still discovered question⟩

/-- Two callers who overlap. The one who has been cancelled does the work, and a shutdown cuts it short. -/
theorem initialized_once_twoCallers : ∃ asked tally stats,
    (start ⟨"/"⟩ (.defaults none) .empty).Runs asked tally ∧
    asked.callers = [⟨.initialization, .served stats⟩, ⟨.kindOf true "start", .served stats⟩] ∧
    stats.cancelled = true ∧ tally = ⟨1, 1, 1⟩ ∧
    ∀ files discovered,
      ((asked.live.session.withDisk files).ensureInitialized discovered).2 = stats := by
  let begun := start ⟨"/"⟩ (.defaults none) .empty
  have unloaded : begun.live.session.store.load = .error (.disk .notFound) := by decide +kernel
  have first : begun.Runs _ _ := Runs.refl.tail (.call (.ask .initialization trivial))
  have second := first.tail (.call (.ask (.kindOf true "start") trivial))
  have entering := second.tail (.call (@CallStep.queue _ [] _ _ rfl rfl))
  have waiting := entering.tail (.call (@CallStep.queue _ [_] [] _ rfl rfl))
  have working := waiting.tail (.call (@CallStep.acquire _ [_] [] _ rfl rfl))
  have ignored := working.tail (.call (@CallStep.work _ [_] [] _ _ _ rfl (.ignore unloaded) (by simp)))
  have stopped := ignored.tail (.other .shutdown (by simp))
  have found := stopped.tail (.call (@CallStep.work _ [_] [] _ _ _ rfl (.discover [⟨"a.asm"⟩]) (by simp)))
  have halted := found.tail (.call (@CallStep.work _ [_] [] _ _ _ rfl (.stop rfl) (by simp)))
  have finished := halted.tail (.call (@CallStep.finish _ [_] [] _ _ rfl .close))
  have served := finished.tail (.call (@CallStep.wake _ [] _ _ _ rfl rfl))
  obtain ⟨-, -, once, -⟩ := initialized_once ⟨"/"⟩ (.defaults none) .empty served
  obtain ⟨tally, -, later⟩ := once _ rfl
  refine ⟨_, _, _, served, rfl, rfl, tally, fun files discovered => ?_⟩
  exact congrArg Prod.snd (later files discovered .initialization).1

end AskedSession
end AssemblySymbols
