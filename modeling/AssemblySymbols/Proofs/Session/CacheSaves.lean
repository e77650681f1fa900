import AssemblySymbols.Proofs.Disk.Renaming
import AssemblySymbols.Proofs.Session.CacheFile
import AssemblySymbols.Proofs.Symbol.SnapshotText

/-! What a save that succeeds leaves in the cache file. The one thing in its way are links: a snapshot
that is written through a link does not come along when the link is renamed, and a link that leads on
to the cache itself is lost when the cache takes its place. -/
namespace AssemblySymbols.Cache
variable {disk after : Disk} {path : Path} {snapshot : Snapshot}

/-- The directories above the cache are there, or as many of them as can be made. -/
def prepared (disk : Disk) (path : Path) : Disk := ((DiskAction.makeParent path).run disk).2

/-- Relative paths start in a directory, and when it comes to writing the cache there is no link at
the path of the temporary file, and if there is one at that of the cache, neither path leads through
it. -/
structure Unobstructed (disk : Disk) (path : Path) : Prop where
  home : disk.Solid disk.home
  unlinked : (prepared disk path).Unlinked (temporaryPath path)
  bypassed : (prepared disk path).Bypassed path (temporaryPath path)

theorem grows_prepared (home : disk.Solid disk.home) (path : Path) : disk.Grows (prepared disk path) :=
  DiskAction.grows_makeParent path home

/-- The steps of a save that succeeds. -/
theorem steps_of_save (saved : (save path snapshot).run disk = (.ok (), after)) :
    ∃ written, (prepared disk path).write (temporaryPath path) (encode snapshot) = .ok written ∧
      written.rename (temporaryPath path) path = .ok after := by
  unfold save at saved
  rw [DiskAction.run_bind] at saved
  unfold prepared
  rcases made : (DiskAction.makeParent path).run disk with ⟨error | _, ready⟩
  · rw [made] at saved
    cases saved
  · rw [made] at saved
    simp only at saved ⊢
    rw [DiskAction.run_bind, DiskAction.write, DiskAction.run_change] at saved
    cases written : ready.write (temporaryPath path) (encode snapshot) with
    | error error =>
      simp only [written] at saved
      cases saved
    | ok disk =>
      simp only [written] at saved
      rw [DiskAction.rename, DiskAction.run_change] at saved
      cases renamed : disk.rename (temporaryPath path) path with
      | error error =>
        simp only [renamed] at saved
        cases saved
      | ok disk' =>
        simp only [renamed] at saved
        cases saved
        exact ⟨disk, rfl, renamed⟩

/-- A save that succeeds leaves its snapshot in the file, and the next one meets no link either. -/
theorem read_of_save (free : Unobstructed disk path)
    (saved : (save path snapshot).run disk = (.ok (), after)) :
    after.read path = .ok (encode snapshot) ∧ Unobstructed after path := by
  obtain ⟨written, wrote, renamed⟩ := steps_of_save saved
  have home : (prepared disk path).Solid (prepared disk path).home :=
    (grows_prepared free.home path).solid_home free.home
  obtain ⟨source, spare, leads, rfl⟩ := Disk.write_ok home free.unlinked wrote
  let written := (prepared disk path).put source (.file (encode snapshot))
  have keeps : (prepared disk path).Keeps written := Disk.keeps_put spare _
  have homeWritten : written.Solid written.home := keeps.solid home
  have there := (Disk.resolve_arrived home leads spare.ne_directory).2 written keeps false
    fun follow => absurd follow Bool.false_ne_true
  have file : written.node? source = some (.file (encode snapshot)) :=
    (Disk.node?_put (Disk.ne_nil_of_ne_directory spare.ne_directory)).trans (if_pos rfl)
  rw [Disk.destinationAt, file] at there
  obtain ⟨homeAfter, ⟨place, holds⟩, ⟨own, spareOwn, leadsOwn⟩, beside, spareBeside, leadsBeside⟩ :=
    Disk.resolve_of_rename homeWritten (free.bypassed.put home spare leads _) there renamed
  constructor
  · rw [Disk.read, Disk.find?, holds]
    rfl
  · have grows := grows_prepared homeAfter path
    exact ⟨homeAfter, grows.unlinked homeAfter spareBeside leadsBeside,
      (grows.unlinked homeAfter spareOwn leadsOwn).bypassed _⟩

/-- A save that succeeds can be loaded. -/
theorem load_of_save (free : Unobstructed disk path)
    (saved : (save path snapshot).run disk = (.ok (), after)) :
    load after path = .ok snapshot ∧ Unobstructed after path := by
  obtain ⟨read, free'⟩ := read_of_save free saved
  exact ⟨load_eq read snapshot.read?_write, free'⟩

theorem unobstructed_empty : Unobstructed .empty ⟨"/.asmdex/cache/symbols.json"⟩ := by
  have own : (prepared .empty ⟨"/.asmdex/cache/symbols.json"⟩).resolve false
      ⟨"/.asmdex/cache/symbols.json"⟩ =
      .ok (.absent [".asmdex", "cache", "symbols.json"] false) := rfl
  have beside : (prepared .empty ⟨"/.asmdex/cache/symbols.json"⟩).resolve false
      (temporaryPath ⟨"/.asmdex/cache/symbols.json"⟩) =
      .ok (.absent [".asmdex", "cache", "symbols.json.tmp"] false) := rfl
  refine ⟨Disk.solid_nil _, fun place target linked => ?_, fun place target linked => ?_⟩
  · cases beside.symm.trans linked
  · cases own.symm.trans linked

theorem save_empty (snapshot : Snapshot) :
    ((save ⟨"/.asmdex/cache/symbols.json"⟩ snapshot).run .empty).1 = .ok () :=
  rfl

/-- A disk on which the name of the temporary file belongs to a link to the cache. -/
def linkedDisk : Disk where
  nodes := [([".asmdex"], .directory), ([".asmdex", "cache"], .directory),
    ([".asmdex", "cache", "symbols.json.tmp"], .link "symbols.json")]
  home := []

end AssemblySymbols.Cache
