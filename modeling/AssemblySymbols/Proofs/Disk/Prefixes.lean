import AssemblySymbols.Proofs.Disk.Descent
import AssemblySymbols.Proofs.Disk.Renaming

/-! Parts of a way. A way that leads through some pieces and on leads to a directory by the first of them,
and what it has found is found again on a disk with more directories. -/
namespace AssemblySymbols.Disk
variable {disk after : Disk} {here place : Place} {follow : Bool} {links : Nat}

/-! ### From part to part -/

/-- Whoever arrives behind some pieces has come through the directory that they lead to. -/
theorem advance_front {pieces more : List (List Char)} {destination : Destination}
    (onwards : ∃ piece ∈ more, piece ≠ [])
    (arrived : disk.advance follow here (pieces ++ more) = .arrived destination) :
    ∃ place, disk.advance true here pieces = .arrived (.present place .directory) := by
  obtain ⟨further, listed, filled⟩ := onwards
  induction pieces generalizing here with
  | nil => exact ⟨here, rfl⟩
  | cons piece rest ih =>
    rw [List.cons_append] at arrived
    cases disk.piece_cases here piece with
    | leads same _ _ =>
      rw [same] at arrived ⊢
      exact ih arrived
    | tooLong fails =>
      rw [fails] at arrived
      contradiction
    | named other enters =>
      rw [enters] at arrived
      have member : further ∈ rest ++ more := List.mem_append_right rest listed
      rcases arrived_of_enter other arrived with ⟨-, blank, -⟩ | ⟨-, -, last, -⟩
      · exact absurd (by simpa using List.all_eq_true.mp blank further member) filled
      · rw [last] at member
        contradiction

/-- A link is met before the end of the pieces or behind it. -/
theorem advance_front_link {pieces more rest : List (List Char)} {source : Place} {target : String}
    (met : disk.advance follow here (pieces ++ more) = .link source target rest) :
    (∃ place, disk.advance true here pieces = .arrived (.present place .directory)) ∨
    ∃ left, rest = left ++ more ∧ disk.advance true here pieces = .link source target left := by
  induction pieces generalizing here with
  | nil => exact Or.inl ⟨here, rfl⟩
  | cons piece behind ih =>
    rw [List.cons_append] at met
    cases disk.piece_cases here piece with
    | leads same _ _ =>
      rw [same] at met ⊢
      exact ih met
    | tooLong fails =>
      rw [fails] at met
      contradiction
    | named other enters =>
      rw [enters] at met ⊢
      obtain ⟨link, rfl, rfl, -⟩ := link_of_enter other met
      exact Or.inr ⟨behind, rfl, enter_link link (Or.inl rfl)⟩

theorem walk_front {pieces more : List (List Char)} {destination : Destination}
    (onwards : ∃ piece ∈ more, piece ≠ [])
    (arrived : disk.walk follow links here (pieces ++ more) = .ok destination) :
    ∃ place, disk.walk true links here pieces = .ok (.present place .directory) := by
  generalize whole : pieces ++ more = all at arrived
  induction arrived using walk_induction generalizing pieces with
  | arrives went =>
    subst whole
    obtain ⟨place, before⟩ := advance_front onwards went
    exact ⟨place, walk_of_arrived before⟩
  | meets met named _ ih =>
    subst whole
    rcases advance_front_link met with ⟨place, before⟩ | ⟨left, rfl, met'⟩
    · exact ⟨place, walk_of_arrived before⟩
    · obtain ⟨place, before⟩ := ih (List.append_assoc ..)
      exact ⟨place, (walk_of_link met' named).trans before⟩

/-! ### What is found again -/

/-- What a way has come through is still there. -/
theorem Grows.advance (grows : disk.Grows after) {pieces : List (List Char)} :
    (∀ place node, disk.advance follow here pieces = .arrived (.present place node) →
      after.advance follow here pieces = .arrived (.present place node)) ∧
    ∀ source target rest, disk.advance follow here pieces = .link source target rest →
      after.advance follow here pieces = .link source target rest := by
  induction pieces generalizing here with
  | nil => exact ⟨fun _ _ => id, fun _ _ _ => id⟩
  | cons piece rest ih =>
    cases disk.piece_cases here piece with
    | leads same _ stays =>
      rw [same, stays after fun _ => grows.stands]
      exact ih
    | tooLong fails =>
      rw [fails, fails]
      exact ⟨fun _ _ => id, fun _ _ _ => id⟩
    | named other enters =>
      rw [enters, enters]
      cases found : disk.node? (here ++ [String.ofList piece]) with
      | none =>
        simp only [enter, found]
        split <;> simp
      | some node =>
        simp only [enter, found, grows.stands found]
        cases node with
        | directory => exact absurd found other
        | file | link => exact ⟨fun _ _ => id, fun _ _ _ => id⟩

theorem Grows.walk (grows : disk.Grows after) {pieces : List (List Char)} {node : Node}
    (arrived : disk.walk follow links here pieces = .ok (.present place node)) :
    after.walk follow links here pieces = .ok (.present place node) := by
  induction arrived using walk_induction with
  | arrives went => exact walk_of_arrived (grows.advance.1 place node went)
  | meets met named _ ih =>
    rw [walk_of_link (grows.advance.2 _ _ _ met) named]
    exact ih

theorem Grows.resolve (grows : disk.Grows after) {path : Path} {node : Node}
    (arrived : disk.resolve follow path = .ok (.present place node)) :
    after.resolve follow path = .ok (.present place node) := by
  rcases resolve_eq path with ⟨error, fails⟩ | ⟨-, walks⟩
  · rw [fails] at arrived
    contradiction
  · rw [walks] at arrived ⊢
    rw [grows.home]
    exact grows.walk arrived

/-- Disks with the same nodes cannot be told apart. -/
theorem Grows.symm (grows : disk.Grows after) (same : ∀ place, after.node? place = disk.node? place) :
    after.Grows disk :=
  ⟨grows.home.symm, fun place => Or.inl (same place).symm⟩

/-- A way to a directory stays one as long as directories and links stay. -/
theorem Keeps.advance (keeps : disk.Keeps after) {pieces : List (List Char)} (solid : disk.Solid here) :
    (∀ place, disk.advance true here pieces = .arrived (.present place .directory) →
      after.advance true here pieces = .arrived (.present place .directory)) ∧
    ∀ source target rest, disk.advance true here pieces = .link source target rest →
      disk.Solid source ∧ after.advance true here pieces = .link source target rest := by
  induction pieces generalizing here with
  | nil => exact ⟨fun _ => id, by simp [Disk.advance]⟩
  | cons piece rest ih =>
    cases disk.piece_cases here piece with
    | leads same solid' stays =>
      rw [same, stays after (keeps.inside solid)]
      exact ih (solid' solid)
    | tooLong fails => simp [fails]
    | named other enters =>
      rw [enters, enters]
      refine ⟨fun place arrived => absurd (directory_of_enter arrived) other, fun source target left met => ?_⟩
      obtain ⟨link, rfl, rfl, -⟩ := link_of_enter other met
      exact ⟨solid, enter_link (keeps.kept source _ _ solid link (by simp)) (Or.inl rfl)⟩

theorem Keeps.walk_directory (keeps : disk.Keeps after) {pieces : List (List Char)}
    (solid : disk.Solid here) (arrived : disk.walk true links here pieces = .ok (.present place .directory)) :
    after.walk true links here pieces = .ok (.present place .directory) := by
  induction arrived using walk_induction with
  | arrives went => exact walk_of_arrived ((keeps.advance solid).1 place went)
  | meets met named _ ih =>
    obtain ⟨solid', met'⟩ := (keeps.advance solid).2 _ _ _ met
    rw [walk_of_link met' named]
    exact ih (solid'.startOf _)

/-- What a path leads to is still there, if it is still what stands at its place and no link is at the end
of the path. -/
theorem Keeps.resolve (keeps : disk.Keeps after) (home : disk.Solid disk.home) {path : Path}
    (unlinked : disk.Unlinked path) {node : Node} (went : disk.resolve true path = .ok (.present place node))
    (stays : after.node? place = some node) : after.resolve true path = .ok (.present place node) := by
  have arrived := resolve_follow unlinked went
  by_cases directory : node = .directory
  · subst directory
    obtain ⟨legible, some_path, fits, walked⟩ := resolve_eq_ok_iff.mp went
    refine resolve_eq_ok_iff.mpr ⟨legible, some_path, fits, ?_⟩
    rw [keeps.home]
    exact keeps.walk_directory (home.startOf _) walked
  · have stood : disk.node? place = some node := (resolve_sound home arrived).2
    have leads : disk.resolve false path = .ok (disk.destinationAt place) := by
      rw [arrived, destinationAt, stood]
    have stayed := (resolve_arrived home leads (by simpa [stood] using directory)).2 after keeps true
      fun _ target linked => by
        rw [stays] at linked
        cases linked
        exact unlinked place target arrived
    rwa [destinationAt, stays] at stayed

/-! ### Where nothing but directories stands -/

/-- Below the place there are directories at most. -/
def Bare (disk : Disk) (place : Place) : Prop :=
  ∀ other, place <+: other → other ≠ place → disk.node? other = none ∨ disk.node? other = some .directory

/-- The names that pieces stand for where nothing leads up. -/
def namesIn (pieces : List (List Char)) : Place :=
  (pieces.filter fun piece => !Path.isFiller piece).map String.ofList

theorem namesIn_append (pieces more : List (List Char)) :
    namesIn (pieces ++ more) = namesIn pieces ++ namesIn more := by
  rw [namesIn, List.filter_append, List.map_append]
  rfl

theorem Bare.below (bare : disk.Bare here) (name : String) : disk.Bare (here ++ [name]) := by
  intro other inside apart
  refine bare other ((List.prefix_append here [name]).trans inside) ?_
  rintro rfl
  exact absurd inside.length_le (by simp)

/-- A way through such a place ends where its names say, or nowhere. -/
theorem Bare.advance (bare : disk.Bare here) {pieces : List (List Char)}
    (downward : ∀ piece ∈ pieces, piece ≠ ['.', '.']) :
    (∀ place node, disk.advance follow here pieces = .arrived (.present place node) →
      place = here ++ namesIn pieces ∧ node = .directory) ∧
    ∀ source target rest, disk.advance follow here pieces ≠ .link source target rest := by
  induction pieces generalizing here with
  | nil =>
    refine ⟨fun place node arrived => ?_, by simp [Disk.advance]⟩
    cases arrived
    exact ⟨(List.append_nil here).symm, rfl⟩
  | cons piece rest ih =>
    obtain ⟨first, others⟩ := List.forall_mem_cons.mp downward
    by_cases filler : Path.isFiller piece
    · have silent : namesIn (piece :: rest) = namesIn rest := by simp [namesIn, filler]
      simp only [Disk.advance, if_pos filler, silent]
      exact ih bare others
    · have named : namesIn (piece :: rest) = String.ofList piece :: namesIn rest := by
        simp [namesIn, filler]
      simp only [Disk.advance, if_neg filler, if_neg first, named]
      split
      · simp
      · rcases bare (here ++ [String.ofList piece]) (List.prefix_append ..) (by simp) with free | directory
        · simp only [free]
          split <;> simp
        · simp only [directory]
          have onwards := ih (bare.below (String.ofList piece)) others
          rwa [List.append_assoc, List.singleton_append] at onwards

theorem Bare.walk (bare : disk.Bare here) {pieces : List (List Char)}
    (downward : ∀ piece ∈ pieces, piece ≠ ['.', '.']) {node : Node}
    (arrived : disk.walk follow links here pieces = .ok (.present place node)) :
    place = here ++ namesIn pieces ∧ node = .directory := by
  rcases cases_of_walk arrived with went | ⟨_, source, target, rest, -, -, met, -⟩
  · exact (bare.advance downward).1 place node went
  · exact absurd met ((bare.advance downward).2 source target rest)

end AssemblySymbols.Disk
