import AssemblySymbols.Proofs.Session.CacheSaves

/-! The format of the cache. Writing loses nothing, so that a text and what is written again of it mean
the same, and no two snapshots share their bytes. -/
namespace AssemblySymbols
open Json

theorem Cache.decode?_encode_self (snapshot : Snapshot) : decode? (encode snapshot) = some snapshot := by
  rw [decode?_encode]
  exact snapshot.read?_write

theorem Cache.encode_injective {snapshot other : Snapshot} (same : encode snapshot = encode other) :
    snapshot = other := by
  have read := decode?_encode_self snapshot
  rw [same, decode?_encode_self] at read
  exact (Option.some.inj read).symm

/-- The bytes of a snapshot are the words of one JSON value. -/
theorem Cache.parse?_encode (snapshot : Snapshot) :
    parse? (Text.decode (encode snapshot)) = some snapshot.toJson := by
  rw [encode, Text.decode_encode, Snapshot.text, compact, String.toList_ofList]
  exact parse?_write Layout.blank_compact snapshot.legible_toJson

/-- The names that an object spells, in its order. -/
def Json.names (value : Json) : List String := (value.fields?.getD []).map (·.1)

theorem Json.names_ofFields (fields : List (String × Json)) :
    (ofFields fields).names = fields.map (·.1) := by
  rw [names, fields?_ofFields, Option.getD_some]

theorem Bucket.names_toJson (bucket : Bucket) : bucket.toJson.names = bucket.keys := by
  rw [toJson, names_ofFields, List.map_map]
  rfl

/-- The field of a record that holds one of its maps. -/
theorem DocumentRecord.lookup_toJson (record : DocumentRecord) (part : SymbolClass) :
    (record.toJson.fields?.bind fun fields => fields.lookup (recordFieldNames.get part)) =
      some (record.buckets.get part).toJson := by
  rw [toJson, fields?_ofFields, Option.bind_some]
  obtain ⟨kind, policy⟩ := part
  cases kind <;> cases policy <;> rfl

/-- Whatever its names and places, a snapshot is read back from its text, and so from its bytes, which
are those of no other snapshot. A text that is read may be of another spelling, but once written again it
stays as it is. In the written value the names of every map ascend. Where no link is in the way, a
successful save can be loaded. -/
theorem Cache.roundTrip (snapshot : Snapshot) :
    Snapshot.ofText? snapshot.text = some snapshot ∧
    decode? (encode snapshot) = some snapshot ∧
    (∀ text found, Snapshot.ofText? text = some found →
      Snapshot.ofText? found.text = some found ∧
      ∀ again, Snapshot.ofText? found.text = some again → again.text = found.text) ∧
    (∀ bytes found, decode? bytes = some found →
      decode? (encode found) = some found ∧
      ∀ again, decode? (encode found) = some again → encode again = encode found) ∧
    (∀ other, encode other = encode snapshot → other = snapshot) ∧
    (∃ records, parse? (Text.decode (encode snapshot)) =
        some (ofFields [("documents", .array records)]) ∧
      ∀ record ∈ records, ∀ part, ∃ map,
        (record.fields?.bind fun fields => fields.lookup (recordFieldNames.get part)) = some map ∧
        map.names.Pairwise (· < ·)) ∧
    ∀ disk path after, Unobstructed disk path → (save path snapshot).run disk = (.ok (), after) →
      load after path = .ok snapshot := by
  refine ⟨snapshot.ofText?_text, decode?_encode_self snapshot, fun text found _ => ?_,
    fun bytes found _ => ?_, fun other same => encode_injective same,
    ⟨snapshot.documents.map DocumentRecord.toJson, parse?_encode snapshot, ?_⟩,
    fun disk path after free saved => (load_of_save free saved).1⟩
  · refine ⟨found.ofText?_text, fun again read => ?_⟩
    rw [found.ofText?_text] at read
    rw [Option.some.inj read]
  · refine ⟨decode?_encode_self found, fun again read => ?_⟩
    rw [decode?_encode_self] at read
    rw [Option.some.inj read]
  · intro value member part
    obtain ⟨record, _, rfl⟩ := List.mem_map.mp member
    refine ⟨_, record.lookup_toJson part, ?_⟩
    rw [Bucket.names_toJson, KeyMap.keys, List.pairwise_map]
    exact (record.buckets.get part).ascending

/-- A document with an odd name is read from a text with arrays for records, escapes and a repeated key,
and kept on an empty disk. -/
theorem Cache.roundTrip_respelled :
    let path : Path := ⟨"/.asmdex/cache/symbols.json"⟩
    let text := "[[[\"\\u0041\\\"\\ud83d\\ude00\", \x7b\"b\":[],\"a\":[],\"b\":[[1,2,3,4294967295]]\x7d," ++
      "\x7b\x7d,\x7b\x7d,\x7b\x7d]]]"
    ∃ snapshot after, Snapshot.ofText? text = some snapshot ∧ snapshot.text ≠ text ∧
      Snapshot.ofText? snapshot.text = some snapshot ∧
      (save path snapshot).run .empty = (.ok (), after) ∧ load after path = .ok snapshot := by
  intro path text
  let buckets : ByClass Bucket :=
    ⟨.ofList [("a", []), ("b", [⟨⟨1, 2⟩, ⟨3, 4294967295⟩⟩])], .empty, .empty, .empty⟩
  let snapshot : Snapshot := ⟨[⟨"A\"😀", buckets⟩]⟩
  have read : Snapshot.ofText? text = some snapshot := by decide +kernel
  have respelled : snapshot.text ≠ text := by decide +kernel
  have ok : ((save path snapshot).run .empty).1 = .ok () := by decide +kernel
  have saved : (save path snapshot).run .empty = (.ok (), ((save path snapshot).run .empty).2) :=
    Prod.ext ok rfl
  obtain ⟨-, -, texts, -, -, -, loads⟩ := roundTrip snapshot
  exact ⟨snapshot, _, read, respelled, (texts text snapshot read).1, saved,
    loads .empty path _ unobstructed_empty saved⟩

/-- The snapshot goes through the link into the cache and is then replaced by the link itself, so that a
successful save cannot be loaded. -/
theorem Cache.load_linkedDisk :
    let path : Path := ⟨"/.asmdex/cache/symbols.json"⟩
    ∃ after, (save path .empty).run linkedDisk = (.ok (), after) ∧
      load after path = .error (.disk .linkLoop) := by
  intro path
  have ok : ((save path .empty).run linkedDisk).1 = .ok () := by decide +kernel
  have loops : load ((save ⟨"/.asmdex/cache/symbols.json"⟩ .empty).run linkedDisk).2
      ⟨"/.asmdex/cache/symbols.json"⟩ = .error (.disk .linkLoop) := by rfl
  exact ⟨((save path .empty).run linkedDisk).2, Prod.ext ok rfl, loops⟩

end AssemblySymbols
