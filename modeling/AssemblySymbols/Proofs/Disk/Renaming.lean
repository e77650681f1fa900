import AssemblySymbols.Proofs.Disk.Changes
import AssemblySymbols.Proofs.Paths

/-! A file that is written at one path and renamed to another. If no link is in the way, the second path
leads to the file afterwards, and the first to nothing. -/
namespace AssemblySymbols

namespace Path

/-- A text whose last piece is empty ends in a slash. -/
theorem getLast?_of_splitSlashes {text : List Char} (some : text ≠ [])
    (last : (splitSlashes text).getLast? = .some []) : text.getLast? = .some '/' := by
  fun_induction splitSlashes text with
  | case1 => contradiction
  | case2 rest ih =>
    by_cases final : rest = []
    · rw [final]
      rfl
    · rw [List.getLast?_cons_of_ne_nil (splitSlashes_ne_nil rest)] at last
      rw [List.getLast?_cons_of_ne_nil final]
      exact ih final last
  | case3 c rest _ none => exact absurd none (splitSlashes_ne_nil rest)
  | case4 c rest _ piece pieces split ih =>
    by_cases final : rest = []
    · subst final
      cases split
      simp at last
    · rw [List.getLast?_cons_of_ne_nil final]
      refine ih final ?_
      rw [split]
      cases pieces with
      | nil => simp at last
      | cons next more => simpa using last

end Path

namespace Disk
variable {disk after : Disk} {source place : Place} {path temporary : Path} {bytes : Text.Bytes}

/-- No link stands at the very end of the path. -/
def Unlinked (disk : Disk) (path : Path) : Prop :=
  ∀ place target, disk.resolve false path ≠ .ok (.present place (.link target))

/-- A link that stands at the end of the path is not on the way to it, nor on that to the other path. -/
def Bypassed (disk : Disk) (path temporary : Path) : Prop :=
  ∀ place target, disk.resolve false path = .ok (.present place (.link target)) →
    (disk.erase place).resolve false path = .ok (.absent place false) ∧
    (disk.erase place).resolve false temporary = disk.resolve false temporary

theorem Unlinked.bypassed (unlinked : disk.Unlinked path) (temporary : Path) :
    disk.Bypassed path temporary :=
  fun place target link => absurd link (unlinked place target)

theorem destinationAt_spare (spare : disk.Spare place) :
    disk.destinationAt place = .absent place false ∨
      ∃ bytes, disk.destinationAt place = .present place (.file bytes) := by
  rcases spare with free | ⟨bytes, file⟩
  · exact Or.inl (by rw [destinationAt, free])
  · exact Or.inr ⟨bytes, by rw [destinationAt, file]⟩

/-- A path that leads to a spare place has no link at its end. -/
theorem unlinked_of_arrived (spare : disk.Spare place)
    (arrived : disk.resolve false path = .ok (disk.destinationAt place)) : disk.Unlinked path := by
  intro other target link
  rcases destinationAt_spare spare with free | ⟨bytes, file⟩
  · rw [arrived, free] at link
    cases link
  · rw [arrived, file] at link
    cases link

theorem Grows.spare (grows : disk.Grows after) (spare : disk.Spare place) :
    after.Spare place ∨ after.node? place = some .directory := by
  rcases grows.grown place with same | ⟨_, made⟩
  · exact Or.inl (by rwa [Spare, same])
  · exact Or.inr made

/-- No link comes to the end of a path by the making of directories. -/
theorem Grows.unlinked (grows : disk.Grows after) (home : disk.Solid disk.home)
    (spare : disk.Spare place) (arrived : disk.resolve false path = .ok (disk.destinationAt place)) :
    after.Unlinked path := by
  have stays := (resolve_arrived home arrived spare.ne_directory).2
  have arrived' := stays after grows.keeps false (fun follow => absurd follow Bool.false_ne_true)
  rcases grows.spare spare with spare' | directory
  · exact unlinked_of_arrived spare' arrived'
  · intro other target link
    rw [arrived', destinationAt, directory] at link
    cases link

/-- A file is written to the spare place that its path leads to. -/
theorem write_ok (home : disk.Solid disk.home) (unlinked : disk.Unlinked path)
    (written : disk.write path bytes = .ok after) :
    ∃ place, disk.Spare place ∧ disk.resolve false path = .ok (disk.destinationAt place) ∧
      after = disk.put place (.file bytes) := by
  unfold write at written
  cases went : disk.resolve true path with
  | error error => simp [went, bind, Except.bind] at written
  | ok destination =>
    have arrived := resolve_follow unlinked went
    have sound := (resolve_sound home arrived).2
    cases destination with
    | present place node =>
      have found : disk.node? place = some node := sound
      cases node with
      | directory | link => simp [went, bind, Except.bind] at written
      | file old =>
        simp only [went, bind, Except.bind, pure, Except.pure] at written
        cases written
        exact ⟨place, Or.inr ⟨old, found⟩, by rw [arrived, destinationAt, found], rfl⟩
    | absent place slashed =>
      have free : disk.node? place = none := sound.1
      cases slashed with
      | true => simp [went, bind, Except.bind] at written
      | false =>
        simp only [went, bind, Except.bind, pure, Except.pure] at written
        cases written
        exact ⟨place, Or.inl free, by rw [arrived, destinationAt, free], rfl⟩

theorem endsInSlash_of_last (some : path.text.toList ≠ [])
    (last : (Path.splitSlashes path.text.toList).getLast? = .some []) : endsInSlash path = true :=
  decide_eq_true (Path.getLast?_of_splitSlashes some last)

theorem rename_ok (home : disk.Solid disk.home)
    (arrived : disk.resolve false temporary = .ok (.present source (.file bytes)))
    (renamed : disk.rename temporary path = .ok after) :
    ∃ place, disk.node? place ≠ some .directory ∧
      disk.resolve false path = .ok (disk.destinationAt place) ∧
      after = if place = source then disk else disk.move source place := by
  unfold rename at renamed
  cases went : disk.resolve false path with
  | error error => simp [arrived, went, bind, Except.bind] at renamed
  | ok destination =>
    obtain ⟨some, sound⟩ := resolve_sound home went
    have file := (resolve_sound home arrived).2
    simp only [arrived, went, bind, Except.bind, pure, Except.pure, throw, throwThe,
      MonadExceptOf.throw] at renamed
    split at renamed
    · contradiction
    · split at renamed
      · contradiction
      · next plain =>
        cases destination with
        | absent place slashed =>
          have free : disk.node? place = none := sound.1
          have apart : place ≠ source := by
            rintro rfl
            exact absurd (free.symm.trans file) (by simp)
          have unslashed : slashed = false := by
            by_contra last
            have slash := endsInSlash_of_last some (sound.2 (Bool.not_eq_false _ ▸ last))
            simp [slash] at plain
          subst unslashed
          simp only at renamed
          split at renamed
          · contradiction
          · cases renamed
            exact ⟨place, by simp [free], by rw [destinationAt, free], (if_neg apart).symm⟩
        | present place old =>
          have found : disk.node? place = .some old := sound
          simp only at renamed
          split at renamed
          · next same =>
            cases renamed
            subst same
            exact ⟨place, by simp [show disk.node? place = _ from file],
              by rw [destinationAt, found], (if_pos rfl).symm⟩
          · next apart =>
            split at renamed
            · contradiction
            · cases old with
              | directory => simp at renamed
              | file | link =>
                cases renamed
                exact ⟨place, by simp [found], by rw [destinationAt, found], (if_neg apart).symm⟩

/-- A free place, or one whose file is taken away, is on no way to anywhere. -/
theorem keeps_erase (spare : disk.Spare place) : disk.Keeps (disk.erase place) := by
  refine ⟨rfl, fun here name found _ kept notFile => ?_⟩
  rw [node?_erase (by simp), if_neg (spare.apart kept notFile), kept]

theorem node?_of_erase {other : Place} {node : Node}
    (found : (disk.erase place).node? other = some node) (named : other ≠ []) :
    other ≠ place ∧ disk.node? other = some node := by
  rw [node?_erase named] at found
  split at found
  · contradiction
  · next apart => exact ⟨apart, found⟩

theorem Keeps.erase (keeps : disk.Keeps after) (place : Place) :
    (disk.erase place).Keeps (after.erase place) := by
  refine ⟨keeps.home, fun here name node solid found notFile => ?_⟩
  have named : here ++ [name] ≠ [] := by simp
  obtain ⟨apart, found'⟩ := node?_of_erase found named
  have solid' : disk.Solid here := by
    intro above inside
    by_cases root : above = []
    · exact root ▸ rfl
    · exact (node?_of_erase (solid above inside) root).2
  rw [node?_erase named, if_neg apart]
  exact keeps.kept here name node solid' found' notFile

theorem Solid.erase {above : Place} (solid : disk.Solid above)
    (other : disk.node? place ≠ some .directory) : (disk.erase place).Solid above := by
  intro prefix' inside
  have directory := solid prefix' inside
  by_cases root : prefix' = []
  · exact root ▸ rfl
  · have apart : prefix' ≠ place := fun same => other (same ▸ directory)
    rw [node?_erase root, if_neg apart, directory]

theorem destinationAt_erase (apart : source ≠ place) (named : source ≠ []) :
    (disk.erase place).destinationAt source = disk.destinationAt source := by
  rw [destinationAt, destinationAt, node?_erase named, if_neg apart]

theorem destinationAt_erase_self (named : place ≠ []) :
    (disk.erase place).destinationAt place = .absent place false := by
  rw [destinationAt, node?_erase named, if_pos rfl]

/-- With the node at the end of a path taken away, that path and the other lead where they did. -/
theorem resolve_erase (home : disk.Solid disk.home) (bypassed : disk.Bypassed path temporary)
    (arrived : disk.resolve false path = .ok (disk.destinationAt place))
    (other : disk.node? place ≠ some .directory)
    (arrived' : disk.resolve false temporary = .ok (disk.destinationAt source))
    (other' : disk.node? source ≠ some .directory) (apart : source ≠ place) :
    (disk.erase place).resolve false path = .ok ((disk.erase place).destinationAt place) ∧
    (disk.erase place).resolve false temporary = .ok ((disk.erase place).destinationAt source) := by
  have stay (spare : disk.Spare place) := by
    have keeps := keeps_erase spare
    exact And.intro ((resolve_arrived home arrived other).2 _ keeps false (by simp))
      ((resolve_arrived home arrived' other').2 _ keeps false (by simp))
  cases found : disk.node? place with
  | none => exact stay (Or.inl found)
  | some node =>
    cases node with
    | directory => exact absurd found other
    | file bytes => exact stay (Or.inr ⟨bytes, found⟩)
    | link target =>
      obtain ⟨leads, beside⟩ := bypassed place target (by rw [arrived, destinationAt, found])
      rw [destinationAt_erase_self (ne_nil_of_ne_directory other),
        destinationAt_erase apart (ne_nil_of_ne_directory other')]
      exact ⟨leads, beside.trans arrived'⟩

/-- A file that is written is no link, and what has been bypassed still is. -/
theorem Bypassed.put (bypassed : disk.Bypassed path temporary) (home : disk.Solid disk.home)
    (spare : disk.Spare source) (arrived : disk.resolve false temporary = .ok (disk.destinationAt source))
    (bytes : Text.Bytes) : (disk.put source (.file bytes)).Bypassed path temporary := by
  intro place target link
  let written := disk.put source (.file bytes)
  have keeps : disk.Keeps written := keeps_put spare _
  have homeWritten : written.Solid written.home := keeps.solid home
  have found : written.node? place = some (.link target) := (resolve_sound homeWritten link).2
  have leads : written.resolve false path = .ok (written.destinationAt place) := by
    rw [destinationAt, found]
    exact link
  obtain ⟨⟨parent, name, solid, rfl⟩, stays⟩ := resolve_arrived homeWritten leads (by simp [found])
  have before := stays disk (keeps_of_put spare bytes) false (by simp)
  have linked := (keeps_of_put spare bytes).kept parent name _ solid found (by simp)
  have other : disk.node? (parent ++ [name]) ≠ some .directory := by simp [linked]
  have named := ne_nil_of_ne_directory spare.ne_directory
  have apart : source ≠ parent ++ [name] := by
    rintro rfl
    rw [node?_put named, if_pos rfl] at found
    simp at found
  obtain ⟨bare, beside⟩ := resolve_erase home bypassed before other arrived spare.ne_directory apart
  have homeBare := home.erase other
  have keepsBare := keeps.erase (parent ++ [name])
  have free : (disk.erase (parent ++ [name])).node? (parent ++ [name]) ≠ some .directory := by
    simp [node?_erase (ne_nil_of_ne_directory other)]
  have held : (disk.erase (parent ++ [name])).node? source ≠ some .directory := by
    rw [node?_erase named, if_neg apart]
    exact spare.ne_directory
  constructor
  · rw [(resolve_arrived homeBare bare free).2 _ keepsBare false (by simp),
      destinationAt_erase_self (ne_nil_of_ne_directory other)]
  · rw [(resolve_arrived homeBare beside held).2 _ keepsBare false (by simp),
      (resolve_arrived home arrived spare.ne_directory).2 written keeps false (by simp),
      destinationAt_erase apart named]

/-- A file that is renamed is what the new path leads to, and its old path leads to nothing but itself
or a free place. -/
theorem resolve_of_rename (home : disk.Solid disk.home) (bypassed : disk.Bypassed path temporary)
    (arrived : disk.resolve false temporary = .ok (.present source (.file bytes)))
    (renamed : disk.rename temporary path = .ok after) :
    after.Solid after.home ∧
    (∃ place, after.resolve true path = .ok (.present place (.file bytes))) ∧
    (∃ place, after.Spare place ∧ after.resolve false path = .ok (after.destinationAt place)) ∧
    ∃ place, after.Spare place ∧ after.resolve false temporary = .ok (after.destinationAt place) := by
  have file : disk.node? source = some (.file bytes) := (resolve_sound home arrived).2
  have held : disk.Spare source := Or.inr ⟨bytes, file⟩
  have arrived' : disk.resolve false temporary = .ok (disk.destinationAt source) := by
    rw [arrived, destinationAt, file]
  obtain ⟨target, other, leads, rfl⟩ := rename_ok home arrived renamed
  by_cases same : target = source
  · rw [if_pos same]
    subst same
    have unfollowed (_ : true = true) (link : String) : disk.node? target ≠ some (.link link) := by
      simp [file]
    have there := (resolve_arrived home leads other).2 disk (.refl disk) true unfollowed
    rw [destinationAt, file] at there
    exact ⟨home, ⟨target, there⟩, ⟨target, held, leads⟩, target, held, arrived'⟩
  · rw [if_neg same]
    let bare := disk.erase target
    let moved := disk.move source target
    have homeBare : bare.Solid bare.home := home.erase other
    have keeps : bare.Keeps moved := keeps_move file other
    have distinct := ne_nil_of_ne_directory held.ne_directory
    have named := ne_nil_of_ne_directory other
    obtain ⟨leads', beside⟩ := resolve_erase home bypassed leads other arrived'
      held.ne_directory (Ne.symm same)
    have free : bare.node? target = none := (node?_erase named).trans (if_pos rfl)
    have heldBare : bare.node? source = some (.file bytes) :=
      (node?_erase distinct).trans ((if_neg (Ne.symm same)).trans file)
    have come : moved.node? target = some (.file bytes) :=
      (node?_move_target distinct named).trans file
    obtain ⟨⟨parent, name, solid, rfl⟩, stays⟩ := resolve_arrived homeBare beside (by simp [heldBare])
    have gone : moved.node? (parent ++ [name]) = none := by
      have outside : ¬ target <+: parent ++ [name] :=
        fun below => same (solid.eq_of_below (by simp [free]) below)
      rw [node?_move_other distinct outside, if_pos (List.prefix_refl _)]
    have staysToo := (resolve_arrived homeBare leads' (by simp [free])).2
    have there := staysToo moved keeps true fun _ link => by simp [come]
    rw [destinationAt, come] at there
    refine ⟨keeps.solid homeBare, ⟨target, there⟩, ⟨target, Or.inr ⟨bytes, come⟩, ?_⟩,
      _, Or.inl gone, ?_⟩
    · exact staysToo moved keeps false (by simp)
    · exact stays moved keeps false (by simp)

end Disk
end AssemblySymbols
