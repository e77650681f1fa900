import AssemblySymbols.Proofs.Session.LiveSession
import AssemblySymbols.Proofs.Session.SaveInvariant

/-! Sessions that differ in nothing but their saves and in whether they are stopped. Whatever calls and
refreshes do to the one, they can do to the other, and they answer the same. -/
namespace AssemblySymbols

namespace Session

/-- What calls and refreshes look at and change is the same. -/
structure AsIf (one other : Session) : Prop where
  settings : one.settings = other.settings
  index : one.index = other.index
  hosted : one.hostDocuments = other.hostDocuments

namespace AsIf
variable {one other last : Session}

theorem symm (alike : one.AsIf other) : other.AsIf one :=
  ⟨alike.settings.symm, alike.index.symm, alike.hosted.symm⟩

theorem trans (first : one.AsIf other) (second : other.AsIf last) : one.AsIf last :=
  ⟨first.settings.trans second.settings, first.index.trans second.index,
    first.hosted.trans second.hosted⟩

theorem filter (alike : one.AsIf other) : one.filter = other.filter :=
  congrArg DocumentFilter.ofSettings alike.settings

theorem isHosted (alike : one.AsIf other) (uri : String) : one.isHosted uri = other.isHosted uri := by
  rw [Session.isHosted, Session.isHosted, alike.hosted]

theorem watches (alike : one.AsIf other) (path : Path) : one.watches path = other.watches path := by
  rw [Session.watches, Session.watches, alike.isHosted, alike.filter]

theorem mark (alike : one.AsIf other) (uri : String) : (one.mark uri).AsIf (other.mark uri) :=
  ⟨alike.settings, alike.index, congrArg (List.insert uri) alike.hosted⟩

theorem unmark (alike : one.AsIf other) (uri : String) : (one.unmark uri).AsIf (other.unmark uri) :=
  ⟨alike.settings, alike.index, congrArg (List.filter (· ≠ uri)) alike.hosted⟩

theorem modifyIndex (alike : one.AsIf other) (change : SymbolIndex → SymbolIndex) :
    (one.modifyIndex change).AsIf (other.modifyIndex change) :=
  ⟨alike.settings, congrArg change alike.index, alike.hosted⟩

theorem requestSave (session : Session) : session.requestSave.AsIf session := by
  unfold Session.requestSave
  split <;> exact ⟨rfl, rfl, rfl⟩

theorem saveChange (alike : one.AsIf other) (changed : Bool) :
    (one.saveChange changed).AsIf (other.saveChange changed) := by
  cases changed with
  | true => exact (requestSave one).trans (alike.trans (requestSave other).symm)
  | false => exact alike

theorem complete (alike : one.AsIf other) (change : Change String) :
    (one.complete change).AsIf (other.complete change) := by
  cases change with
  | put uri text => exact (alike.modifyIndex _).saveChange true
  | drop uri =>
    rw [Session.complete, Session.complete, alike.index]
    exact (alike.modifyIndex _).saveChange _

theorem answer (alike : one.AsIf other) (change : Change String) :
    one.answer change = other.answer change := by
  cases change with
  | put uri text => rfl
  | drop uri => rw [Session.answer, Session.answer, alike.index]

theorem installFile (alike : one.AsIf other) (uri : String) (table : SymbolTable) :
    (one.installFile uri table).1.AsIf (other.installFile uri table).1 ∧
    (one.installFile uri table).2 = (other.installFile uri table).2 := by
  unfold Session.installFile
  rw [alike.isHosted]
  split
  · exact ⟨alike, rfl⟩
  · exact ⟨alike.modifyIndex _, rfl⟩

theorem dropFile (alike : one.AsIf other) (uri : String) :
    (one.dropFile uri).1.AsIf (other.dropFile uri).1 ∧
    (one.dropFile uri).2 = (other.dropFile uri).2 := by
  unfold Session.dropFile
  rw [alike.isHosted, alike.index]
  split
  · exact ⟨alike, rfl⟩
  · exact ⟨alike.modifyIndex _, rfl⟩

theorem indexDocumentUnless (alike : one.AsIf other) (cancelled : Nat → Bool) (document : Document) :
    (one.indexDocumentUnless cancelled document).2 =
      (other.indexDocumentUnless cancelled document).2 := by
  unfold Session.indexDocumentUnless
  rw [alike.filter]
  split
  · split <;> rfl
  · rfl

end AsIf
end Session

namespace Refresh
variable {one other next : Session} {refresh : Refresh} {left : Option Refresh}

theorem answer?_asIf (alike : one.AsIf other) (refresh : Refresh) :
    refresh.answer? one = refresh.answer? other := by
  cases refresh with
  | opening path => rfl
  | installing uri table => rw [answer?, answer?, (alike.installFile uri table).2]
  | dropping uri => rw [answer?, answer?, (alike.dropFile uri).2]

theorem Step.follow (alike : one.AsIf other) (step : Step one refresh next left) :
    ∃ twin, Step other refresh twin left ∧ next.AsIf twin := by
  cases step with
  | read document => exact ⟨other, .read document, alike⟩
  | gone => exact ⟨other, .gone, alike⟩
  | @install uri table =>
    obtain ⟨installed, changed⟩ := alike.installFile uri table
    refine ⟨_, .install, ?_⟩
    rw [changed]
    exact installed.saveChange _
  | @drop uri =>
    obtain ⟨dropped, changed⟩ := alike.dropFile uri
    refine ⟨_, .drop, ?_⟩
    rw [changed]
    exact dropped.saveChange _

end Refresh

namespace LiveSession
variable {one other live next last : LiveSession} {event : Event}

/-- The same calls and refreshes are under way in sessions that are alike, and the same have come to
their end with the same answers. -/
structure AsIf (one other : LiveSession) : Prop where
  session : one.session.AsIf other.session
  refreshes : one.refreshes = other.refreshes
  calls : one.calls = other.calls
  answers : one.answers = other.answers

theorem AsIf.symm (alike : one.AsIf other) : other.AsIf one :=
  ⟨alike.session.symm, alike.refreshes.symm, alike.calls.symm, alike.answers.symm⟩

theorem AsIf.trans (first : one.AsIf other) (second : other.AsIf last) : one.AsIf last :=
  ⟨first.session.trans second.session, first.refreshes.trans second.refreshes,
    first.calls.trans second.calls, first.answers.trans second.answers⟩

/-- A step of a call or a refresh is one in the other session as well. -/
theorem AsIf.follow (alike : one.AsIf other) (step : one.Step .call next) :
    ∃ twin, other.Step .call twin ∧ next.AsIf twin := by
  obtain ⟨session, refreshes, calls, answers⟩ := alike
  have appended (more : List (String × Bool)) : one.answers ++ more = other.answers ++ more :=
    congrArg (· ++ more) answers
  cases step with
  | refuse document cancelled refused =>
    have refused' := (session.indexDocumentUnless cancelled document).symm.trans refused
    exact ⟨_, .refuse document cancelled refused', session, refreshes, calls, appended _⟩
  | mark document cancelled accepted scanned =>
    have accepted' : other.session.filter.accepts document := session.filter ▸ accepted
    exact ⟨_, .mark document cancelled accepted' scanned, session.mark _, refreshes,
      congrArg (· ++ _) calls, answers⟩
  | unmark uri =>
    exact ⟨_, .unmark uri, session.unmark uri, refreshes, congrArg (· ++ _) calls, answers⟩
  | @complete earlier later change listed =>
    refine ⟨_, .complete (calls.symm.trans listed), session.complete change, refreshes, rfl, ?_⟩
    rw [session.answer change]
    exact appended _
  | @pass path unwatched =>
    have unwatched' := (session.watches path).symm.trans unwatched
    exact ⟨_, .pass unwatched', session, refreshes, calls, appended _⟩
  | @watch path watched =>
    have watched' : other.session.watches path := session.watches path ▸ watched
    exact ⟨_, .watch watched', session, congrArg (· ++ _) refreshes, calls, answers⟩
  | @refresh earlier later refresh after left listed step =>
    obtain ⟨twin, step', after'⟩ := step.follow session
    refine ⟨_, .refresh (refreshes.symm.trans listed) step', after', rfl, calls, ?_⟩
    rw [refresh.answer?_asIf session]
    exact appended _

/-- Saves, time, shutdowns and other programs leave all of that alone. -/
theorem Step.asIf (step : live.Step event next) (called : event ≠ .call) (started : event ≠ .startUp) :
    next.AsIf live := by
  cases step with
  | refuse | mark | unmark | complete | pass | watch | refresh => exact absurd rfl called
  | startUp => exact absurd rfl started
  | claim _ _ claims =>
    obtain ⟨saver, rfl, -⟩ := Errand.claim?_eq claims
    exact ⟨⟨rfl, rfl, rfl⟩, rfl, rfl, rfl⟩
  | _ => exact ⟨⟨rfl, rfl, rfl⟩, rfl, rfl, rfl⟩

/-- The calls and refreshes of the other session alone can come as far. -/
def MatchedFrom (other live : LiveSession) : Prop :=
  ∃ twin, other.ReachesBy Event.IsCall twin ∧ live.AsIf twin

theorem MatchedFrom.step (reached : other.MatchedFrom live) (step : live.Step event next)
    (started : event ≠ .startUp) : other.MatchedFrom next := by
  obtain ⟨twin, reached, alike⟩ := reached
  by_cases called : event = .call
  · subst called
    obtain ⟨twin', step', alike'⟩ := alike.follow step
    exact ⟨twin', reached.trans (step'.reachesBy rfl), alike'⟩
  · exact ⟨twin, reached, (step.asIf called started).trans alike⟩

/-- A run in which the initialization has no part goes the same way in the other session, where nothing
but its calls and refreshes need take place. -/
theorem AsIf.run (alike : one.AsIf other) (reached : one.ReachesBy (· ≠ .startUp) last) :
    ∃ twin, other.ReachesBy Event.IsCall twin ∧ last.AsIf twin := by
  have begun : other.MatchedFrom one := ⟨other, .refl, alike⟩
  exact reached.keeps begun fun started step matched => matched.step step started

end LiveSession
end AssemblySymbols
