/-! What a sequence of insertions and removals leaves. The answer looks at the sequence as a whole:
an insertion counts if nothing later concerns the same document. -/
namespace AssemblySymbols

/-- A document gets a content, in place of what it had, or goes. -/
inductive Change (α : Type) where
  | put (uri : String) (content : α)
  | drop (uri : String)
deriving DecidableEq, Repr

namespace Change
variable {α β : Type}

def uri : Change α → String
  | put uri _ => uri
  | drop uri => uri

def map (f : α → β) : Change α → Change β
  | put uri content => .put uri (f content)
  | drop uri => .drop uri

@[simp] theorem uri_map (f : α → β) (change : Change α) : (change.map f).uri = change.uri := by
  cases change <;> rfl

/-- The documents that remain with their contents, in the order of their last insertions. -/
def live : List (Change α) → List (String × α)
  | [] => []
  | .put uri content :: later =>
    if later.any (·.uri = uri) then live later else (uri, content) :: live later
  | .drop _ :: later => live later

theorem mem_live_uri {changes : List (Change α)} {entry : String × α} (member : entry ∈ live changes) :
    ∃ change ∈ changes, change.uri = entry.1 := by
  induction changes with
  | nil => contradiction
  | cons change later ih =>
    have inLater (member : entry ∈ live later) : ∃ change' ∈ change :: later, change'.uri = entry.1 := by
      obtain ⟨change', found, same⟩ := ih member
      exact ⟨change', List.mem_cons_of_mem _ found, same⟩
    cases change with
    | drop uri => exact inLater member
    | put uri content =>
      simp only [live] at member
      split at member
      · exact inLater member
      · rcases List.mem_cons.mp member with rfl | member
        · exact ⟨_, List.mem_cons_self, rfl⟩
        · exact inLater member

/-- A further change takes away what its document had, and an insertion comes at the end. -/
theorem live_append (changes : List (Change α)) (last : Change α) :
    live (changes ++ [last]) =
      (live changes).filter (·.1 ≠ last.uri) ++ live [last] := by
  induction changes with
  | nil => rfl
  | cons change later ih =>
    cases change with
    | drop uri => exact ih
    | put uri content =>
      by_cases overridden : later.any (·.uri = uri)
      · have still : (later ++ [last]).any (·.uri = uri) := by
          rw [List.any_append, overridden, Bool.true_or]
        simpa only [List.cons_append, live, overridden, still, if_true] using ih
      · by_cases hit : last.uri = uri
        · have now : (later ++ [last]).any (·.uri = uri) := by
            rw [List.any_append]
            simp [hit]
          simpa only [List.cons_append, live, overridden, now, if_true, Bool.false_eq_true, if_false,
            List.filter_cons, hit, ne_eq, not_true, decide_false] using ih
        · have still : ¬ (later ++ [last]).any (·.uri = uri) := by
            rw [List.any_append]
            simp [overridden, hit]
          have apart : uri ≠ last.uri := fun same => hit same.symm
          simpa only [List.cons_append, live, overridden, still, Bool.false_eq_true, if_false,
            List.filter_cons, apart, ne_eq, not_false_eq_true, decide_true, if_true,
            List.cons.injEq, true_and] using ih

theorem live_append_put (changes : List (Change α)) (uri : String) (content : α) :
    live (changes ++ [.put uri content]) =
      (live changes).filter (·.1 ≠ uri) ++ [(uri, content)] :=
  live_append changes (.put uri content)

theorem live_append_drop (changes : List (Change α)) (uri : String) :
    live (changes ++ [.drop uri]) = (live changes).filter (·.1 ≠ uri) :=
  (live_append changes (.drop uri)).trans (List.append_nil _)

theorem live_map (f : α → β) (changes : List (Change α)) :
    live (changes.map (Change.map f)) = (live changes).map fun entry => (entry.1, f entry.2) := by
  induction changes with
  | nil => rfl
  | cons change later ih =>
    cases change with
    | drop uri => exact ih
    | put uri content =>
      have same : (later.map (Change.map f)).any (·.uri = uri) = later.any (·.uri = uri) := by
        simp only [List.any_map, Function.comp_def, uri_map]
      simp only [List.map_cons, Change.map, live, same]
      split
      · exact ih
      · rw [ih, List.map_cons]

end Change
end AssemblySymbols
