import AssemblySymbols.Proofs.Session.ScanAndWatch
import AssemblySymbols.Proofs.Session.WatchLoop

/-! Runs of the watch in which nothing comes in between: a refresh, a batch of them, and all that is
left to do once the channel is closed. -/
namespace AssemblySymbols

theorem Refresh.found_ne_opening (path : Path) (text? : Option String) (other : Path) :
    found path text? ≠ opening other := by
  cases text? <;> exact nofun

theorem Refresh.step_plain {session : Session} {path : Path}
    (watched : session.watches path = true) (read : Path → Option String) :
    Refresh.Step session (.found path (read path)) (session.refresh (.plain read path)).1 none := by
  have watched' : session.watches (Session.Opening.plain read path).path = true := watched
  rw [Session.refresh, if_pos watched', Session.Opening.plain]
  cases read path with
  | some text => exact .install
  | none => exact .drop

theorem Session.surroundings_refresh_plain (session : Session) (read : Path → Option String)
    (path : Path) : (session.refresh (.plain read path)).1.surroundings = session.surroundings := by
  by_cases watched : session.watches path = true
  · exact (Refresh.step_plain watched read).surroundings
  · rw [refresh, if_neg (show ¬ session.watches (Opening.plain read path).path = true from watched)]

/-- Refreshes leave the disk as it is, so that all of a batch read the same files. -/
theorem Session.foldl_refreshPath (session : Session) (paths : List Path) :
    paths.foldl (fun session path => (session.refreshPath path).1) session =
      paths.foldl (fun other path => (other.refresh (.plain session.disk.text? path)).1) session := by
  suffices general : ∀ other : Session, other.disk = session.disk →
      paths.foldl (fun session path => (session.refreshPath path).1) other =
        paths.foldl (fun other path => (other.refresh (.plain session.disk.text? path)).1) other from
    general session rfl
  induction paths with
  | nil => exact fun _ _ => rfl
  | cons path rest ih =>
    intro other same
    have refreshed : (other.refreshPath path).1 = (other.refresh (.plain session.disk.text? path)).1 := by
      rw [refreshPath, Disk.opening_eq, same]
    have kept := congrArg Surroundings.disk
      (other.surroundings_refresh_plain session.disk.text? path)
    rw [List.foldl_cons, List.foldl_cons, refreshed]
    exact ih _ (kept.trans same)

theorem Session.document?_refreshes {session : Session} (unhosted : session.hostDocuments = [])
    (read : Path → Option String) (paths : List Path) (uri : String) :
    (paths.foldl (fun other path => (other.refresh (.plain read path)).1) session).index.document? uri =
      if ⟨uri⟩ ∈ paths ∧ session.filter.acceptsPath ⟨uri⟩ = true then session.filter.tableOf? read ⟨uri⟩
      else session.index.document? uri := by
  induction paths generalizing session with
  | nil => simp
  | cons path rest ih =>
    obtain ⟨filter, unhosted', documents⟩ := session.refresh_plain read unhosted path
    rw [List.foldl_cons, ih unhosted', filter, documents]
    by_cases own : (⟨uri⟩ : Path) = path
    · subst own
      by_cases accepted : session.filter.acceptsPath ⟨uri⟩ = true <;> simp [accepted]
    · have apart : uri ≠ path.text := fun same => own (congrArg Path.mk same)
      simp [own, apart]

/-- The order in which the paths of a batch are applied makes no difference to the tables. -/
theorem Watch.document?_settle_perm {session : Session} (unhosted : session.hostDocuments = [])
    {changes changes' : List Path} (order : changes.Perm changes') (uri : String) :
    (settle ⟨session, changes⟩).session.index.document? uri =
      (settle ⟨session, changes'⟩).session.index.document? uri := by
  rw [settle, settle, Session.foldl_refreshPath, Session.foldl_refreshPath,
    Session.document?_refreshes unhosted, Session.document?_refreshes unhosted]
  simp only [order.mem_iff]

namespace WatchLoop
variable {loop : WatchLoop}

theorem Step.open_watched {path : Path} {rest : List Path} {last : Bool}
    (applying : loop.stage = .applying (path :: rest) none last)
    (watched : loop.session.watches path = true) :
    loop.Step
      { loop with
        stage := .applying rest (some (.opening path)) last
        log := .passed path :: loop.log } := by
  have step : loop.Step _ := .pass applying
  rwa [WatchLoop.pass, if_pos watched] at step

theorem Step.receive_one {path : Path} {later : List FileEvent} (collecting : loop.stage = .collecting)
    (first : loop.queue = .changed [path] :: later) (nothing : loop.watch.changes = [])
    (followed : loop.session.filter.followsPath loop.session.root path = true) :
    loop.Step
      { loop with
        watch := { loop.watch with changes := [path] }
        queue := later
        log := .received (.changed [path]) :: loop.log } := by
  have step : loop.Step _ := .receive collecting first
  have received : loop.watch.receive (.changed [path]) = { loop.watch with changes := [path] } := by
    have all : (FileEvent.changed [path]).followedPaths loop.session.filter loop.session.root = [path] :=
      List.filter_eq_self.mpr fun other member => List.mem_singleton.mp member ▸ followed
    rw [Watch.receive, nothing]
    exact congrArg (fun paths : List Path => Watch.mk loop.session (paths.foldl Watch.note [])) all
  rwa [received] at step

/-- A refresh that nothing comes in between. -/
theorem reaches_refresh {path : Path} {rest : List Path} {last : Bool}
    (applying : loop.stage = .applying (path :: rest) none last) :
    loop.Reaches
      { loop with
        watch := { loop.watch with session := (loop.session.refresh (.plain loop.files.read path)).1 }
        stage := .applying rest none last
        log := .passed path :: loop.log } := by
  by_cases watched : loop.session.watches path = true
  · exact .tail (.tail (.single (.open_watched applying watched)) (.find rfl))
      (.apply rfl (Refresh.step_plain watched _))
  · have unchanged : (loop.session.refresh (.plain loop.files.read path)).1 = loop.session := by
      rw [Session.refresh, if_neg (show ¬ loop.session.watches (Session.Opening.plain _ path).path = true
        from watched)]
    have passed : loop.pass path rest last =
        { loop with
          watch := { loop.watch with session := loop.session }
          stage := .applying rest none last
          log := .passed path :: loop.log } := by
      rw [WatchLoop.pass, if_neg watched]
      rfl
    rw [unchanged, ← passed]
    exact .single (.pass applying)

theorem reaches_batch (loop : WatchLoop) (batch : List Path) (last : Bool)
    (applying : loop.stage = .applying batch none last) :
    loop.Reaches
      { loop with
        watch := { loop.watch with
          session := batch.foldl
            (fun session path => (session.refresh (.plain loop.files.read path)).1) loop.session }
        stage := .applying [] none last
        log := (batch.map .passed).reverse ++ loop.log } := by
  induction batch generalizing loop with
  | nil =>
    have same : loop = { loop with stage := .applying [] none last } := by rw [← applying]
    rw [List.map_nil, List.reverse_nil, List.nil_append, List.foldl_nil]
    exact same ▸ .refl
  | cons path rest ih =>
    let refreshed : WatchLoop :=
      { loop with
        watch := { loop.watch with session := (loop.session.refresh (.plain loop.files.read path)).1 }
        stage := .applying rest none last
        log := .passed path :: loop.log }
    rw [List.map_cons, List.reverse_cons, List.append_assoc, List.singleton_append]
    exact Relation.ReflTransGen.trans (reaches_refresh applying) (ih refreshed rfl)

/-- A pause in which nothing else happens is a run of the watch. -/
theorem reaches_settle (collecting : loop.stage = .collecting) (collected : loop.watch.changes ≠ [])
    (reads : loop.files.read = loop.session.disk.text?) :
    loop.Reaches
      { loop with
        watch := loop.watch.settle
        log := (loop.watch.changes.map .passed).reverse ++ loop.log } := by
  let batch := loop.drain loop.watch.changes false
  have pauses : loop.Step batch := .pause collecting collected (.refl _)
  have refreshes := reaches_batch batch loop.watch.changes false rfl
  rw [show batch.files.read = loop.session.disk.text? from reads,
    show batch.session = loop.session from rfl, ← loop.session.foldl_refreshPath] at refreshes
  have settled := Relation.ReflTransGen.tail refreshes (@Step.applied _ false rfl)
  refine .trans (.single pauses) ?_
  rw [collecting]
  exact settled

/-- A closed channel is emptied, and then the last batch is applied. -/
theorem ends_collecting (collecting : loop.stage = .collecting) (closed : loop.closed = true) :
    ∃ finished, loop.Reaches finished ∧ finished.stage = .finished := by
  obtain ⟨queue, listed⟩ : ∃ queue, loop.queue = queue := ⟨_, rfl⟩
  induction queue generalizing loop with
  | nil =>
    by_cases settled : loop.watch.changes = []
    · exact ⟨_, .single (.leave collecting settled closed listed), rfl⟩
    · have drains : loop.Step (loop.drain loop.watch.changes true) :=
        .drained collecting settled (.refl _) closed listed
      have refreshes := reaches_batch (loop.drain loop.watch.changes true) loop.watch.changes true rfl
      exact ⟨_, .tail (.trans (.single drains) refreshes) (@Step.applied _ true rfl), rfl⟩
  | cons event later ih =>
    let received : WatchLoop :=
      { loop with
        watch := loop.watch.receive event
        queue := later
        log := .received event :: loop.log }
    have receives : loop.Step received := .receive collecting listed
    have same : received.stage = .collecting := collecting
    obtain ⟨finished, reaches, ended⟩ := ih same closed rfl
    exact ⟨finished, .trans (.single receives) reaches, ended⟩

theorem ends_applying {rest : List Path} {last : Bool} (applying : loop.stage = .applying rest none last)
    (closed : loop.closed = true) : ∃ finished, loop.Reaches finished ∧ finished.stage = .finished := by
  obtain ⟨settled, reaches, stage, closed'⟩ : ∃ settled, loop.Reaches settled ∧
      settled.stage = (if last then .finished else .collecting) ∧ settled.closed = true :=
    ⟨_, .tail (reaches_batch loop rest last applying) (.applied rfl), rfl, closed⟩
  cases last with
  | true => exact ⟨settled, reaches, stage⟩
  | false =>
    obtain ⟨finished, further, ended⟩ := ends_collecting stage closed'
    exact ⟨finished, .trans reaches further, ended⟩

theorem ends_refreshing {refresh : Refresh} {rest : List Path} {last : Bool}
    (applying : loop.stage = .applying rest (some refresh) last) (closed : loop.closed = true)
    (found : ∀ path, refresh ≠ .opening path) :
    ∃ finished, loop.Reaches finished ∧ finished.stage = .finished := by
  obtain ⟨session, step⟩ : ∃ session, Refresh.Step loop.session refresh session none := by
    cases refresh with
    | opening path => exact absurd rfl (found path)
    | installing uri table => exact ⟨_, .install⟩
    | dropping uri => exact ⟨_, .drop⟩
  let applied : WatchLoop :=
    { loop with
      watch := { loop.watch with session := session }
      stage := .applying rest none last }
  have idle : applied.stage = .applying rest none last := rfl
  obtain ⟨finished, reaches, ended⟩ := ends_applying idle closed
  exact ⟨finished, .trans (.single (.apply applying step)) reaches, ended⟩

theorem ends_of_closed (closed : loop.closed = true) :
    ∃ finished, loop.Reaches finished ∧ finished.stage = .finished := by
  cases stage : loop.stage with
  | collecting => exact ends_collecting stage closed
  | finished => exact ⟨loop, .refl, stage⟩
  | applying rest current last =>
    cases current with
    | none => exact ends_applying stage closed
    | some refresh =>
      cases refresh with
      | opening path =>
        let found : WatchLoop :=
          { loop with stage := .applying rest (some (.found path (loop.files.read path))) last }
        have busy : found.stage = .applying rest (some (.found path (loop.files.read path))) last := rfl
        obtain ⟨finished, reaches, ended⟩ :=
          ends_refreshing busy closed (Refresh.found_ne_opening path _)
        exact ⟨finished, .trans (.single (.find stage)) reaches, ended⟩
      | installing uri table => exact ends_refreshing stage closed (by simp)
      | dropping uri => exact ends_refreshing stage closed (by simp)

/-- Wherever the watch is, it comes to its end once the channel is closed. -/
theorem ends (loop : WatchLoop) : ∃ finished, loop.Reaches finished ∧ finished.stage = .finished := by
  let closed : WatchLoop := { loop with closed := true }
  have shut : closed.closed = true := rfl
  obtain ⟨finished, reaches, ended⟩ := ends_of_closed shut
  exact ⟨finished, .trans (.single .close) reaches, ended⟩

end WatchLoop
end AssemblySymbols
