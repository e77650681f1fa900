import AssemblySymbols.Proofs.Json.RoundTrip
import AssemblySymbols.Proofs.Lookups
import AssemblySymbols.Proofs.Text.Encoding
import AssemblySymbols.Settings

/-! The format of the settings. They are read as they were written, and an object that holds some of them
is completed field by field, whatever its order and whatever else it holds. -/
namespace AssemblySymbols
open Json

theorem Json.Layout.blank_indented : indented.Blank where
  lineBreak depth c member := by
    rcases List.mem_cons.mp member with rfl | space
    · rfl
    · rw [List.eq_of_mem_replicate space]
      rfl
  colon := ⟨[' '], rfl, by simp [Token.isSpace]⟩

theorem Json.texts?_ofTexts (texts : List String) : (ofTexts texts).texts? = some texts :=
  @mapM_written String ofText text? (fun _ => rfl) texts

theorem Json.eraseDups_of_nodup {names : List String} (distinct : names.Nodup) : names.eraseDups = names := by
  induction names with
  | nil => rfl
  | cons name rest ih =>
    obtain ⟨new, distinct⟩ := List.nodup_cons.mp distinct
    have others : rest.filter (fun other => !other == name) = rest := by
      refine List.filter_eq_self.mpr fun other member => ?_
      have differ : other ≠ name := fun same => new (same ▸ member)
      simpa using differ
    rw [List.eraseDups_cons, others, ih distinct]

/-- An object is read as the record of those of its fields that are known, if each of them stands once. -/
theorem Json.recordFields?_of_known {names : List String} {fields : List (String × Json)}
    (distinct : ((fields.filter (names.contains ·.1)).map (·.1)).Nodup) :
    (ofFields fields).recordFields? names = some (fields.filter (names.contains ·.1)) := by
  have read := fields?_ofFields fields
  have once := congrArg List.length (eraseDups_of_nodup distinct)
  rw [ofFields] at read ⊢
  rw [recordFields?, read, Option.bind_eq_bind, Option.bind_some]
  exact if_pos (once.trans (List.length_map _))

namespace Settings

/-- The fields of settings as they are written. -/
def fields (settings : Settings) : List (String × Json) :=
  fieldNames.zip
    [ofNat settings.saveDelay.toNat, ofText settings.cacheDirectory, ofTexts settings.patterns,
      ofTexts settings.languageIds, ofTexts settings.extensions]

/-- The settings whose fields are the own ones where they are given and others elsewhere. -/
def picked (given : String → Bool) (own other : Settings) : Settings where
  saveDelay := if given "save_debounce_ms" then own.saveDelay else other.saveDelay
  cacheDirectory := if given "cache_dir" then own.cacheDirectory else other.cacheDirectory
  patterns := if given "include" then own.patterns else other.patterns
  languageIds := if given "language_ids" then own.languageIds else other.languageIds
  extensions := if given "extensions" then own.extensions else other.extensions

variable {settings defaults : Settings} {given : String → Bool} {fields : List (String × Json)}

theorem names_fields (settings : Settings) : settings.fields.map (·.1) = fieldNames := rfl

theorem legible_toJson (settings : Settings) : Legible settings.toJson := by
  refine .object fun field member => ?_
  have values := (List.of_mem_zip member).2
  simp only [List.mem_cons, List.not_mem_nil, or_false] at values
  rcases values with same | same | same | same | same <;> rw [same]
  · exact .nat _
  · exact .text _
  all_goals
    refine .array fun item listed => ?_
    obtain ⟨text, _, rfl⟩ := List.mem_map.mp listed
    exact .text text

section
variable (same : (fields.filter (fieldNames.contains ·.1)).Perm (settings.fields.filter (given ·.1)))
include same

theorem nodup_of_given : ((fields.filter (fieldNames.contains ·.1)).map (·.1)).Nodup := by
  have all : (settings.fields.map (·.1)).Nodup := by
    rw [names_fields]
    decide
  exact (same.map (·.1)).nodup_iff.mpr (all.sublist (List.filter_sublist.map _))

/-- What is taken for a field is its own value if it is given, and otherwise that of the defaults. -/
theorem taken_of_given {α : Type} (name : String) {value : Json} (read? : Json → Option α) {own : α}
    (default : α) (listed : settings.fields.lookup name = some value) (read : read? value = some own)
    {taken : Option α}
    (absent : (fields.filter (fieldNames.contains ·.1)).lookup name = none → taken = some default)
    (present : (fields.filter (fieldNames.contains ·.1)).lookup name = some value → taken = read? value) :
    taken = some (if given name then own else default) := by
  have found : (fields.filter (fieldNames.contains ·.1)).lookup name =
      if given name then settings.fields.lookup name else none := by
    rw [lookup_perm (nodup_of_given same) same, lookup_filter _ given]
  cases known : given name with
  | true =>
    rw [known, if_pos rfl, listed] at found
    exact (present found).trans read
  | false =>
    rw [known, if_neg Bool.false_ne_true] at found
    exact absent found

/-- The fields that are given are read as they are, in any order and among any others, and the rest are
those of the defaults. -/
theorem ofJson?_of_given :
    ofJson? defaults (ofFields fields) = some (picked given settings defaults) := by
  have field {α : Type} := @taken_of_given settings given fields same α
  have delay := natBelow?_ofNat settings.saveDelay.toNat_lt
  have directory : text? (ofText settings.cacheDirectory) = some settings.cacheDirectory := rfl
  have number : (if given "save_debounce_ms" then settings.saveDelay.toNat
      else defaults.saveDelay.toNat).toUInt64 = (picked given settings defaults).saveDelay := by
    rw [picked, apply_ite Nat.toUInt64]
    simp only [Nat.toUInt64, UInt64.ofNat_toNat]
  rw [ofJson?, recordFields?_of_known (nodup_of_given same), Option.bind_eq_bind, Option.bind_some]
  dsimp only
  refine Option.bind_eq_some_iff.mpr ⟨_, field "save_debounce_ms" _ defaults.saveDelay.toNat rfl delay
    (fun absent => by rw [absent]) (fun present => by rw [present]), ?_⟩
  refine Option.bind_eq_some_iff.mpr ⟨_, field "cache_dir" _ defaults.cacheDirectory rfl directory
    (fun absent => by rw [absent]) (fun present => by rw [present]), ?_⟩
  refine Option.bind_eq_some_iff.mpr ⟨_, field "include" _ defaults.patterns rfl (texts?_ofTexts _)
    (fun absent => by rw [absent]) (fun present => by rw [present]), ?_⟩
  refine Option.bind_eq_some_iff.mpr ⟨_, field "language_ids" _ defaults.languageIds rfl (texts?_ofTexts _)
    (fun absent => by rw [absent]) (fun present => by rw [present]), ?_⟩
  refine Option.bind_eq_some_iff.mpr ⟨_, field "extensions" _ defaults.extensions rfl (texts?_ofTexts _)
    (fun absent => by rw [absent]) (fun present => by rw [present]), ?_⟩
  rw [number]
  rfl

end

/-- What is read of the bytes of such an object, in whatever way it is spelled. -/
theorem read_of_given {bytes : Text.Bytes} (spelled : parse? (Text.decode bytes) = some (ofFields fields))
    (same : (fields.filter (fieldNames.contains ·.1)).Perm (settings.fields.filter (given ·.1))) :
    read defaults bytes = picked given settings defaults := by
  rw [read, spelled, Option.bind_some, ofJson?_of_given same, Option.getD_some]

theorem read_encode_text (settings defaults : Settings) :
    read defaults (Text.encode settings.text.toList) = settings := by
  have spelled : parse? (Text.decode (Text.encode settings.text.toList)) = some (ofFields settings.fields) := by
    rw [Text.decode_encode, text, indented, String.toList_ofList]
    exact parse?_write Layout.blank_indented settings.legible_toJson
  have whole : settings.fields.filter (fieldNames.contains ·.1) = settings.fields.filter fun _ => true := rfl
  have picked : picked (fun _ => true) settings defaults = settings := rfl
  exact (read_of_given spelled (.of_eq whole)).trans picked

end Settings
end AssemblySymbols
