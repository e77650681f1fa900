import AssemblySymbols.Proofs.Text.Lines
import AssemblySymbols.Symbol.Table

/-! Tables whose making can be cancelled. There is a look at the cancellation before each line. One that
finds it leaves no table, and if none finds it the table is that of the whole text. -/
namespace AssemblySymbols.SymbolTable

theorem scanLinesUnless?_eq_ite (cancelled : Nat → Bool) (table : SymbolTable)
    (lines : List (List Char × Nat)) :
    scanLinesUnless? cancelled table lines =
      if lines.any fun entry => cancelled entry.2 then none else some (scanLines table lines) := by
  induction lines generalizing table with
  | nil => rfl
  | cons entry rest ih =>
    obtain ⟨line, number⟩ := entry
    rw [scanLinesUnless?, ih, List.any_cons, scanLines, scanLines, List.foldl_cons]
    cases cancelled number with
    | true => rfl
    | false => rfl

/-- The look before a line has the number of the line. -/
theorem any_zipIdx_snd {α : Type} (cancelled : Nat → Bool) (lines : List α) :
    (lines.zipIdx.any fun entry => cancelled entry.2) = true ↔
      ∃ look < lines.length, cancelled look = true := by
  have looks : (lines.zipIdx.map Prod.snd).any cancelled = true ↔ _ := List.any_eq_true
  rw [List.any_map, List.zipIdx_map_snd] at looks
  simpa only [Function.comp_def, List.mem_range'_1, Nat.zero_le, Nat.zero_add, true_and] using looks

theorem ofTextUnless?_eq_ite (cancelled : Nat → Bool) (text : String) :
    ofTextUnless? cancelled text =
      if ∃ look < (Text.lines text.toList).length, cancelled look = true then none
      else some (ofText text) := by
  rw [ofTextUnless?, scanLinesUnless?_eq_ite, ofText]
  simp only [any_zipIdx_snd]

theorem ofTextUnless?_eq {cancelled : Nat → Bool} {text : String} {table : SymbolTable}
    (scanned : ofTextUnless? cancelled text = some table) : table = ofText text := by
  rw [ofTextUnless?_eq_ite] at scanned
  split at scanned
  · contradiction
  · exact (Option.some.inj scanned).symm

theorem ofTextUnless?_never (text : String) :
    ofTextUnless? (fun _ => false) text = some (ofText text) := by
  rw [ofTextUnless?_eq_ite, if_neg]
  rintro ⟨look, -, cancelled⟩
  contradiction

/-- A cancellation comes right before a look, which finds it as all later ones do, or it never comes. -/
def cancelledFrom (first? : Option Nat) (look : Nat) : Bool := first?.any (· ≤ look)

theorem exists_cancelledFrom_iff (first? : Option Nat) (looks : Nat) :
    (∃ look < looks, cancelledFrom first? look = true) ↔ ∃ first ∈ first?, first < looks := by
  constructor
  · rintro ⟨look, within, found⟩
    cases first? with
    | none => contradiction
    | some first =>
      have come : first ≤ look := of_decide_eq_true found
      exact ⟨first, rfl, Nat.lt_of_le_of_lt come within⟩
  · rintro ⟨first, rfl, within⟩
    exact ⟨first, within, decide_eq_true (Nat.le_refl first)⟩

/-- A cancellation leaves no table if it comes before the look at some line of the text. If it comes too
late for that, or never, the table is that of the text. -/
theorem ofTextUnless?_cancelledFrom (text : String) (first? : Option Nat) :
    (ofTextUnless? (cancelledFrom first?) text = none ↔
      ∃ first ∈ first?, first < (Text.lines text.toList).length) ∧
    ∀ table, ofTextUnless? (cancelledFrom first?) text = some table ↔
      table = ofText text ∧ ∀ first ∈ first?, (Text.lines text.toList).length ≤ first := by
  rw [ofTextUnless?_eq_ite]
  simp only [exists_cancelledFrom_iff]
  split
  · next cancelled =>
    refine ⟨iff_of_true rfl cancelled, fun table => iff_of_false (by simp) ?_⟩
    rintro ⟨-, late⟩
    obtain ⟨first, came, within⟩ := cancelled
    exact absurd within (Nat.not_lt.mpr (late first came))
  · next late =>
    refine ⟨iff_of_false (by simp) late, fun table => ?_⟩
    rw [Option.some.injEq, eq_comm, and_iff_left]
    exact fun first came => Nat.not_lt.mp fun within => late ⟨first, came, within⟩

end AssemblySymbols.SymbolTable
