import AssemblySymbols.Disk.Tree
import Mathlib.Data.List.Infix

/-! Where a path leads on a disk that has changed in the meantime. As long as directories and links
stay, a path that led to a file, a link or a free place still leads there. -/
namespace AssemblySymbols.Disk

/-- All names on the way to a place are those of directories, its own too. -/
def Solid (disk : Disk) (place : Place) : Prop :=
  ∀ above, above <+: place → disk.node? above = some .directory

/-- Directories and links that can be reached have stayed, and relative paths start where they did. -/
structure Keeps (before after : Disk) : Prop where
  home : after.home = before.home
  kept : ∀ here name node, before.Solid here → before.node? (here ++ [name]) = some node →
    (∀ bytes, node ≠ .file bytes) → after.node? (here ++ [name]) = some node

def destinationAt (disk : Disk) (place : Place) : Destination :=
  match disk.node? place with
  | none => .absent place false
  | some node => .present place node

def Destination.place : Destination → Place
  | .present place _ => place
  | .absent place _ => place

variable {disk after : Disk} {here place : Place}

theorem solid_nil (disk : Disk) : disk.Solid [] := by
  intro above inside
  rw [List.prefix_nil.mp inside]
  rfl

theorem Solid.node? (solid : disk.Solid here) : disk.node? here = some .directory :=
  solid here (List.prefix_refl here)

theorem Solid.dropLast (solid : disk.Solid here) : disk.Solid here.dropLast :=
  fun above inside => solid above (inside.trans (List.dropLast_prefix here))

theorem Solid.append (solid : disk.Solid here) {name : String}
    (directory : disk.node? (here ++ [name]) = some .directory) : disk.Solid (here ++ [name]) := by
  intro above inside
  rcases List.prefix_concat_iff.mp inside with rfl | inside
  · exact directory
  · exact solid above inside

theorem Solid.startOf (solid : disk.Solid here) (text : List Char) : disk.Solid (startOf here text) := by
  unfold Disk.startOf
  split
  · exact solid_nil disk
  · exact solid

theorem Keeps.refl (disk : Disk) : disk.Keeps disk := ⟨rfl, fun _ _ _ _ found _ => found⟩

theorem Keeps.solid (keeps : disk.Keeps after) (solid : disk.Solid place) : after.Solid place := by
  induction place using List.reverseRecOn with
  | nil => exact solid_nil after
  | append_singleton init name ih =>
    have above : disk.Solid init := fun place inside => solid place (inside.trans (List.prefix_append ..))
    exact (ih above).append (keeps.kept init name _ above solid.node? (by simp))

theorem Keeps.trans {last : Disk} (first : disk.Keeps after) (second : after.Keeps last) :
    disk.Keeps last where
  home := second.home.trans first.home
  kept here name node solid found notFile :=
    second.kept here name node (first.solid solid) (first.kept here name node solid found notFile) notFile

/-! A walk up to the first link. -/

/-- What a name in a directory leads to, with the pieces behind it. -/
def enter (disk : Disk) (followLast : Bool) (here : Place) (name : String)
    (rest : List (List Char)) : Progress :=
  match disk.node? (here ++ [name]) with
  | none =>
    if rest.all (· = []) then .arrived (.absent (here ++ [name]) (rest ≠ [])) else .failed .notFound
  | some .directory => disk.advance followLast (here ++ [name]) rest
  | some (.file bytes) =>
    if rest = [] then .arrived (.present (here ++ [name]) (.file bytes)) else .failed .notADirectory
  | some (.link target) =>
    if rest = [] && !followLast then .arrived (.present (here ++ [name]) (.link target))
    else .link here target rest

/-- A piece names nothing, leads up, cannot be a name, or is one, whatever comes behind it. -/
theorem advance_piece (piece : List Char) :
    (∀ (disk : Disk) follow here rest, disk.advance follow here (piece :: rest) =
      disk.advance follow here rest) ∨
    (∀ (disk : Disk) follow here rest, disk.advance follow here (piece :: rest) =
      disk.advance follow here.dropLast rest) ∨
    (∀ (disk : Disk) follow here rest, disk.advance follow here (piece :: rest) =
      .failed .nameTooLong) ∨
    (∀ (disk : Disk) follow here rest, disk.advance follow here (piece :: rest) =
      disk.enter follow here (String.ofList piece) rest) := by
  by_cases filler : Path.isFiller piece
  · exact Or.inl fun disk follow here rest => by rw [advance, if_pos filler]
  · by_cases up : piece = ['.', '.']
    · exact Or.inr (Or.inl fun disk follow here rest => by rw [advance, if_neg filler, if_pos up])
    · by_cases long : nameLimit < (String.ofList piece).utf8ByteSize
      · refine Or.inr (Or.inr (Or.inl fun disk follow here rest => ?_))
        rw [advance, if_neg filler, if_neg up]
        exact if_pos long
      · refine Or.inr (Or.inr (Or.inr fun disk follow here rest => ?_))
        rw [advance, if_neg filler, if_neg up]
        exact if_neg long

theorem place_destinationAt (disk : Disk) (place : Place) : (disk.destinationAt place).place = place := by
  unfold destinationAt
  cases disk.node? place <;> rfl

theorem enter_directory {followLast : Bool} {name : String} {rest : List (List Char)}
    (directory : disk.node? (here ++ [name]) = some .directory) :
    disk.enter followLast here name rest = disk.advance followLast (here ++ [name]) rest := by
  rw [enter, directory]

/-- A name with nothing behind it leads to its own place. -/
theorem enter_nil {followLast : Bool} {name : String}
    (unfollowed : followLast = true → ∀ target, disk.node? (here ++ [name]) ≠ some (.link target)) :
    disk.enter followLast here name [] = .arrived (disk.destinationAt (here ++ [name])) := by
  unfold enter destinationAt
  cases found : disk.node? (here ++ [name]) with
  | none => rfl
  | some node =>
    cases node with
    | directory | file => rfl
    | link target =>
      have still : followLast = false := by
        by_contra follow
        exact unfollowed (Bool.not_eq_false _ ▸ follow) target found
      rw [still]
      rfl

/-- What is behind a name that is not a directory's can only be slashes, and those only if the name is
free. -/
theorem arrived_of_enter {followLast : Bool} {name : String} {rest : List (List Char)}
    {destination : Destination} (other : disk.node? (here ++ [name]) ≠ some .directory)
    (arrived : disk.enter followLast here name rest = .arrived destination) :
    (disk.node? (here ++ [name]) = none ∧ rest.all (· = []) ∧
      destination = .absent (here ++ [name]) (rest ≠ [])) ∨
    ∃ node, disk.node? (here ++ [name]) = some node ∧ rest = [] ∧
      destination = .present (here ++ [name]) node := by
  unfold enter at arrived
  cases found : disk.node? (here ++ [name]) with
  | none =>
    simp only [found] at arrived
    split at arrived
    · next blank =>
      cases arrived
      exact Or.inl ⟨rfl, blank, rfl⟩
    · contradiction
  | some node =>
    cases node with
    | directory => exact absurd found other
    | file bytes =>
      simp only [found] at arrived
      split at arrived
      · next last =>
        cases arrived
        exact Or.inr ⟨_, rfl, last, rfl⟩
      · contradiction
    | link target =>
      simp only [found] at arrived
      split at arrived
      · next last =>
        cases arrived
        exact Or.inr ⟨_, rfl, by simpa using (Bool.and_eq_true_iff.mp last).1, rfl⟩
      · contradiction

/-- Whoever arrives at the end of a name, and at no directory, has come to the place of the name. -/
theorem last_of_enter {followLast : Bool} {name : String} {rest : List (List Char)}
    (other : disk.node? (here ++ [name]) ≠ some .directory)
    (arrived : disk.enter followLast here name rest = .arrived (disk.destinationAt place)) :
    rest = [] ∧ place = here ++ [name] := by
  have own := place_destinationAt disk place
  rcases arrived_of_enter other arrived with ⟨free, -, there⟩ | ⟨node, -, last, there⟩
  · rw [there] at own
    have place : here ++ [name] = place := own
    rw [← place, destinationAt, free] at there
    simpa [place] using there
  · rw [there] at own
    exact ⟨last, own.symm⟩

/-- A link is met by whoever goes on behind it or follows the last one. -/
theorem enter_link {followLast : Bool} {name target : String} {rest : List (List Char)}
    (link : disk.node? (here ++ [name]) = some (.link target)) (further : followLast = true ∨ rest ≠ []) :
    disk.enter followLast here name rest = .link here target rest := by
  rw [enter, link]
  refine if_neg ?_
  rcases further with rfl | left
  · simp
  · simp [left]

theorem link_of_enter {followLast : Bool} {name target : String} {rest left : List (List Char)}
    {source : Place} (other : disk.node? (here ++ [name]) ≠ some .directory)
    (met : disk.enter followLast here name rest = .link source target left) :
    disk.node? (here ++ [name]) = some (.link target) ∧ source = here ∧ left = rest ∧
      (followLast = true ∨ rest ≠ []) := by
  unfold enter at met
  cases found : disk.node? (here ++ [name]) with
  | none =>
    simp only [found] at met
    split at met <;> contradiction
  | some node =>
    cases node with
    | directory => exact absurd found other
    | file bytes =>
      simp only [found] at met
      split at met <;> contradiction
    | link target' =>
      simp only [found] at met
      split at met
      · contradiction
      · next going =>
        cases met
        exact ⟨rfl, rfl, rfl, by simpa [imp_iff_not_or, or_comm] using going⟩

/-- The directories in a directory are still there. -/
def KeepsIn (before after : Disk) (here : Place) : Prop :=
  ∀ name, before.node? (here ++ [name]) = some .directory → after.node? (here ++ [name]) = some .directory

theorem Keeps.inside (keeps : disk.Keeps after) (solid : disk.Solid here) : disk.KeepsIn after here :=
  fun name stands => keeps.kept here name _ solid stands (by simp)

/-- What one piece does, whatever comes behind it. -/
inductive PieceCase (disk : Disk) (here : Place) (piece : List Char) : Prop
  /-- It leads to a directory, and so it does where the directories in this one are still there. -/
  | leads {there : Place} (same : ∀ follow rest,
        disk.advance follow here (piece :: rest) = disk.advance follow there rest)
      (solid : disk.Solid here → disk.Solid there)
      (stays : ∀ after : Disk, disk.KeepsIn after here → ∀ follow rest,
        after.advance follow here (piece :: rest) = after.advance follow there rest)
  | tooLong (fails : ∀ (after : Disk) follow rest,
        after.advance follow here (piece :: rest) = .failed .nameTooLong)
  /-- It is a name with no directory under it. -/
  | named (other : disk.node? (here ++ [String.ofList piece]) ≠ some .directory)
      (enters : ∀ (after : Disk) follow rest, after.advance follow here (piece :: rest) =
        after.enter follow here (String.ofList piece) rest)

theorem piece_cases (disk : Disk) (here : Place) (piece : List Char) : disk.PieceCase here piece := by
  rcases advance_piece piece with same | same | same | same
  · exact .leads (same disk · here) id fun after _ => (same after · here)
  · exact .leads (same disk · here) Solid.dropLast fun after _ => (same after · here)
  · exact .tooLong (same · · here)
  · by_cases directory : disk.node? (here ++ [String.ofList piece]) = some .directory
    · have leads (after : Disk) (stays : disk.KeepsIn after here) (follow : Bool)
          (rest : List (List Char)) : after.advance follow here (piece :: rest) =
            after.advance follow (here ++ [String.ofList piece]) rest :=
        (same after follow here rest).trans (enter_directory (stays _ directory))
      exact .leads (leads disk fun _ => id) (·.append directory) leads
    · exact .named directory (same · · here)

/-- What a destination says of the disk and of the pieces that lead to it. -/
def Destination.Sound (disk : Disk) (pieces : List (List Char)) : Destination → Prop
  | .present place node => disk.node? place = some node
  | .absent place slashed => disk.node? place = none ∧ (slashed = true → pieces.getLast? = some [])

theorem Destination.Sound.cons {pieces : List (List Char)} {destination : Destination}
    (sound : destination.Sound disk pieces) (piece : List Char) :
    destination.Sound disk (piece :: pieces) := by
  cases destination with
  | present place node => exact sound
  | absent place slashed =>
    refine ⟨sound.1, fun last => ?_⟩
    rw [List.getLast?_cons, sound.2 last]
    rfl

theorem advance_sound {followLast : Bool} {pieces : List (List Char)} {destination : Destination}
    (solid : disk.Solid here)
    (arrived : disk.advance followLast here pieces = .arrived destination) :
    destination.Sound disk pieces := by
  induction pieces generalizing here with
  | nil =>
    cases arrived
    exact solid.node?
  | cons piece rest ih =>
    cases disk.piece_cases here piece with
    | leads same solid' _ =>
      rw [same] at arrived
      exact (ih (solid' solid) arrived).cons piece
    | tooLong fails =>
      rw [fails] at arrived
      contradiction
    | named other enters =>
      rw [enters] at arrived
      rcases arrived_of_enter other arrived with ⟨free, blank, rfl⟩ | ⟨node, found, _, rfl⟩
      · refine ⟨free, fun slashed => ?_⟩
        have left : rest ≠ [] := by simpa using slashed
        have last := List.getLast_mem left
        rw [List.getLast?_cons, List.getLast?_eq_some_getLast left]
        simpa using List.all_eq_true.mp blank _ last
      · exact found

/-- An arrival anywhere but at a directory is at the last piece, whose directory has been reached. -/
theorem advance_arrived {pieces : List (List Char)} (solid : disk.Solid here)
    (arrived : disk.advance false here pieces = .arrived (disk.destinationAt place))
    (other : disk.node? place ≠ some .directory) :
    (∃ parent piece, disk.Solid parent ∧ place = parent ++ [String.ofList piece] ∧
      pieces.getLast? = some piece) ∧
    ∀ after : Disk, disk.Keeps after → ∀ follow : Bool,
      (follow = true → ∀ target, after.node? place ≠ some (.link target)) →
      after.advance follow here pieces = .arrived (after.destinationAt place) := by
  induction pieces generalizing here with
  | nil =>
    have own : here = place :=
      (congrArg Destination.place (Progress.arrived.inj arrived)).trans (place_destinationAt disk place)
    exact absurd (own ▸ solid.node?) other
  | cons piece rest ih =>
    cases disk.piece_cases here piece with
    | leads same solid' stays =>
      rw [same] at arrived
      obtain ⟨⟨parent, last, above, there, final⟩, again⟩ := ih (solid' solid) arrived
      refine ⟨⟨parent, last, above, there, ?_⟩, fun after keeps follow unfollowed => ?_⟩
      · rw [List.getLast?_cons, final, Option.getD_some]
      · rw [stays after (keeps.inside solid)]
        exact again after keeps follow unfollowed
    | tooLong fails =>
      rw [fails] at arrived
      contradiction
    | named other' enters =>
      rw [enters] at arrived
      obtain ⟨rfl, rfl⟩ := last_of_enter other' arrived
      refine ⟨⟨here, piece, solid, rfl, rfl⟩, fun after _ follow unfollowed => ?_⟩
      rw [enters]
      exact enter_nil unfollowed

/-- A link that is met before the last piece is met again. -/
theorem advance_link {pieces rest : List (List Char)} {source : Place} {target : String}
    (solid : disk.Solid here) (met : disk.advance false here pieces = .link source target rest) :
    disk.Solid source ∧ rest ≠ [] ∧ rest <:+ pieces ∧
    ∀ after : Disk, disk.Keeps after → ∀ follow : Bool,
      after.advance follow here pieces = .link source target rest := by
  induction pieces generalizing here with
  | nil => contradiction
  | cons piece more ih =>
    cases disk.piece_cases here piece with
    | leads same solid' stays =>
      rw [same] at met
      obtain ⟨above, left, inside, again⟩ := ih (solid' solid) met
      refine ⟨above, left, inside.trans (List.suffix_cons piece more), fun after keeps follow => ?_⟩
      rw [stays after (keeps.inside solid)]
      exact again after keeps follow
    | tooLong fails =>
      rw [fails] at met
      contradiction
    | named other enters =>
      rw [enters] at met
      obtain ⟨link, rfl, rfl, further⟩ := link_of_enter other met
      have left : rest ≠ [] := further.resolve_left (by simp)
      refine ⟨solid, left, List.suffix_cons piece rest, fun after keeps follow => ?_⟩
      rw [enters]
      exact enter_link (keeps.kept source _ _ solid link (by simp)) (Or.inr left)

/-- The last link makes a difference only to those who arrive at it. -/
theorem advance_follow (disk : Disk) (here : Place) (pieces : List (List Char)) :
    disk.advance true here pieces = disk.advance false here pieces ∨
    ∃ place target, disk.advance false here pieces = .arrived (.present place (.link target)) := by
  induction pieces generalizing here with
  | nil => exact Or.inl (by simp only [advance])
  | cons piece rest ih =>
    cases disk.piece_cases here piece with
    | leads same _ _ =>
      rw [same, same]
      exact ih _
    | tooLong fails => exact Or.inl ((fails ..).trans (fails ..).symm)
    | named other enters =>
      rw [enters, enters]
      cases found : disk.node? (here ++ [String.ofList piece]) with
      | none => exact Or.inl (by simp [enter, found])
      | some node =>
        cases node with
        | directory => exact absurd found other
        | file bytes => exact Or.inl (by simp [enter, found])
        | link target =>
          by_cases last : rest = []
          · subst last
            exact Or.inr ⟨here ++ [String.ofList piece], target, by simp [enter, found]⟩
          · exact Or.inl (by rw [enter_link found (Or.inr last), enter_link found (Or.inr last)])

/-! A walk through links. -/

variable {followLast : Bool} {links : Nat} {pieces : List (List Char)} {destination : Destination}

theorem walk_of_arrived (arrived : disk.advance followLast here pieces = .arrived destination) :
    disk.walk followLast links here pieces = .ok destination := by
  unfold walk
  rw [arrived]

theorem walk_of_link {source : Place} {target : String} {rest : List (List Char)}
    (met : disk.advance followLast here pieces = .link source target rest) (named : ¬ target.isEmpty) :
    disk.walk followLast (links + 1) here pieces =
      disk.walk followLast links (startOf source target.toList)
        (Path.splitSlashes target.toList ++ rest) := by
  rw [walk.eq_def]
  simp only [met]
  exact if_neg named

theorem cases_of_walk (arrived : disk.walk followLast links here pieces = .ok destination) :
    disk.advance followLast here pieces = .arrived destination ∨
    ∃ more source target rest, links = more + 1 ∧ ¬ target.isEmpty ∧
      disk.advance followLast here pieces = .link source target rest ∧
      disk.walk followLast more (startOf source target.toList)
        (Path.splitSlashes target.toList ++ rest) = .ok destination := by
  unfold walk at arrived
  split at arrived
  · next there _ _ went => exact Or.inl (Except.ok.inj arrived ▸ went)
  · contradiction
  · contradiction
  · next source target rest more went =>
    split at arrived
    · contradiction
    · next named => exact Or.inr ⟨more, source, target, rest, rfl, named, went, arrived⟩

/-- A walk that arrives does so without a link, or it meets one and arrives from there. -/
theorem walk_induction {disk : Disk} {followLast : Bool} {destination : Destination}
    {motive : (links : Nat) → (here : Place) → (pieces : List (List Char)) →
      disk.walk followLast links here pieces = .ok destination → Prop}
    (arrives : ∀ {links : Nat} {here : Place} {pieces : List (List Char)}
      (went : disk.advance followLast here pieces = .arrived destination),
      motive links here pieces (walk_of_arrived went))
    (meets : ∀ {links : Nat} {here source : Place} {pieces rest : List (List Char)} {target : String}
      (met : disk.advance followLast here pieces = .link source target rest) (named : ¬ target.isEmpty)
      (onwards : disk.walk followLast links (startOf source target.toList)
        (Path.splitSlashes target.toList ++ rest) = .ok destination),
      motive links _ _ onwards → motive (links + 1) here pieces ((walk_of_link met named).trans onwards))
    {links : Nat} {here : Place} {pieces : List (List Char)}
    (arrived : disk.walk followLast links here pieces = .ok destination) : motive links here pieces arrived := by
  induction links generalizing here pieces with
  | zero =>
    rcases cases_of_walk arrived with went | ⟨_, _, _, _, fewer, _⟩
    · exact arrives went
    · contradiction
  | succ links ih =>
    rcases cases_of_walk arrived with went | ⟨_, _, _, _, fewer, named, met, onwards⟩
    · exact arrives went
    · cases fewer
      exact meets met named onwards (ih onwards)

/-- The end of a walk is that of the path, since links are met before the last piece. -/
theorem walk_sound (solid : disk.Solid here)
    (arrived : disk.walk false links here pieces = .ok destination) :
    destination.Sound disk pieces := by
  induction arrived using walk_induction with
  | arrives went => exact advance_sound solid went
  | meets met _ _ ih =>
    obtain ⟨solid', left, ⟨before, same⟩, -⟩ := advance_link solid met
    have sound := ih (solid'.startOf _)
    cases destination with
    | present place node => exact sound
    | absent place slashed =>
      refine ⟨sound.1, fun last => ?_⟩
      have atEnd := sound.2 last
      rw [List.getLast?_append_of_ne_nil _ left] at atEnd
      rw [← same, List.getLast?_append_of_ne_nil _ left, atEnd]

theorem walk_arrived (solid : disk.Solid here)
    (arrived : disk.walk false links here pieces = .ok (disk.destinationAt place))
    (other : disk.node? place ≠ some .directory) :
    (∃ parent piece, disk.Solid parent ∧ place = parent ++ [String.ofList piece] ∧
      pieces.getLast? = some piece) ∧
    ∀ after : Disk, disk.Keeps after → ∀ follow : Bool,
      (follow = true → ∀ target, after.node? place ≠ some (.link target)) →
      after.walk follow links here pieces = .ok (after.destinationAt place) := by
  induction arrived using walk_induction with
  | arrives went =>
    obtain ⟨parent, stays⟩ := advance_arrived solid went other
    exact ⟨parent, fun after keeps follow unfollowed =>
      walk_of_arrived (stays after keeps follow unfollowed)⟩
  | meets met named _ ih =>
    obtain ⟨solid', left, ⟨before, same⟩, stays⟩ := advance_link solid met
    obtain ⟨⟨parent, piece, above, there, last⟩, stays'⟩ := ih (solid'.startOf _)
    rw [List.getLast?_append_of_ne_nil _ left] at last
    refine ⟨⟨parent, piece, above, there, ?_⟩, fun after keeps follow unfollowed => ?_⟩
    · rw [← same, List.getLast?_append_of_ne_nil _ left, last]
    · rw [walk_of_link (stays after keeps follow) named]
      exact stays' after keeps follow unfollowed

/-- To follow the last link makes no difference if there is none. -/
theorem walk_follow (unlinked : ∀ place target,
      disk.walk false links here pieces ≠ .ok (.present place (.link target)))
    (arrived : disk.walk true links here pieces = .ok destination) :
    disk.walk false links here pieces = .ok destination := by
  induction arrived using walk_induction with
  | @arrives _ here pieces went =>
    rcases advance_follow disk here pieces with same | ⟨place, target, last⟩
    · exact walk_of_arrived (same ▸ went)
    · exact absurd (walk_of_arrived last) (unlinked place target)
  | @meets links here _ pieces _ _ met named _ ih =>
    rcases advance_follow disk here pieces with same | ⟨place, target, last⟩
    · have onwards : disk.walk false (links + 1) here pieces = _ := walk_of_link (same ▸ met) named
      rw [onwards] at unlinked ⊢
      exact ih unlinked
    · exact absurd (walk_of_arrived last) (unlinked place target)

/-! A whole path. -/

variable {path : Path}

/-- A path that cannot be one fails on every disk, and any other is walked. -/
theorem resolve_eq (path : Path) :
    (∃ error, ∀ (disk : Disk) follow, disk.resolve follow path = .error error) ∨
    path.text.toList ≠ [] ∧ ∀ (disk : Disk) follow, disk.resolve follow path =
      disk.walk follow linkLimit (startOf disk.home path.text.toList)
        (Path.splitSlashes path.text.toList) := by
  unfold resolve
  by_cases nul : path.text.toList.contains '\x00'
  · exact Or.inl ⟨.nulInName, fun _ _ => by simp only [if_pos nul]⟩
  · by_cases empty : path.text.toList.isEmpty
    · exact Or.inl ⟨.notFound, fun _ _ => by simp only [if_neg nul, if_pos empty]⟩
    · by_cases long : pathLimit < path.text.utf8ByteSize
      · exact Or.inl ⟨.nameTooLong, fun _ _ => by
          simp only [if_neg nul, if_neg empty, if_pos long]⟩
      · refine Or.inr ⟨by simpa using empty, fun _ _ => ?_⟩
        simp only [if_neg nul, if_neg empty, if_neg long]

theorem resolve_sound (home : disk.Solid disk.home)
    (arrived : disk.resolve false path = .ok destination) :
    path.text.toList ≠ [] ∧ destination.Sound disk (Path.splitSlashes path.text.toList) := by
  rcases resolve_eq path with ⟨error, fails⟩ | ⟨some, walks⟩
  · rw [fails] at arrived
    contradiction
  · rw [walks] at arrived
    exact ⟨some, walk_sound (home.startOf _) arrived⟩

theorem resolve_follow
    (unlinked : ∀ place target, disk.resolve false path ≠ .ok (.present place (.link target)))
    (arrived : disk.resolve true path = .ok destination) :
    disk.resolve false path = .ok destination := by
  rcases resolve_eq path with ⟨error, fails⟩ | ⟨_, walks⟩
  · rw [fails] at arrived
    contradiction
  · rw [walks] at arrived unlinked ⊢
    exact walk_follow unlinked arrived

/-- A path that leads to a file, a link or a free place leads there on every disk that has kept the
directories and links on the way. -/
theorem resolve_arrived (home : disk.Solid disk.home)
    (arrived : disk.resolve false path = .ok (disk.destinationAt place))
    (other : disk.node? place ≠ some .directory) :
    (∃ parent name, disk.Solid parent ∧ place = parent ++ [name]) ∧
    ∀ after : Disk, disk.Keeps after → ∀ follow : Bool,
      (follow = true → ∀ target, after.node? place ≠ some (.link target)) →
      after.resolve follow path = .ok (after.destinationAt place) := by
  rcases resolve_eq path with ⟨error, fails⟩ | ⟨_, walks⟩
  · rw [fails] at arrived
    contradiction
  · rw [walks] at arrived
    obtain ⟨⟨parent, piece, solid, there, -⟩, stays⟩ := walk_arrived (home.startOf _) arrived other
    refine ⟨⟨parent, _, solid, there⟩, fun after keeps follow unfollowed => ?_⟩
    rw [walks, keeps.home]
    exact stays after keeps follow unfollowed

end AssemblySymbols.Disk
