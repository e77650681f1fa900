import AssemblySymbols.Proofs.Json.RoundTrip
import AssemblySymbols.Proofs.KeyMapFolds
import AssemblySymbols.Symbol.SnapshotFormat

/-! Snapshots survive their text: what is written of a snapshot, however odd its names and whatever its
places, is read as the same snapshot. -/
namespace AssemblySymbols
open Json

namespace Span

theorem ofJson?_toJson (span : Span) : ofJson? span.toJson = some span := by
  let written := spanFieldNames.zip ([span.start.line, span.start.character, span.stop.line,
    span.stop.character].map fun n => ofNat n.toNat)
  have fields : (ofFields written).recordFields? spanFieldNames = some written :=
    recordFields?_ofFields (by decide) rfl
  have number (n : UInt32) : (ofNat n.toNat).natBelow? UInt32.size = some n.toNat :=
    natBelow?_ofNat n.toNat_lt
  have startLine : written.lookup "sl" = some (ofNat span.start.line.toNat) := rfl
  have startCharacter : written.lookup "sc" = some (ofNat span.start.character.toNat) := rfl
  have stopLine : written.lookup "el" = some (ofNat span.stop.line.toNat) := rfl
  have stopCharacter : written.lookup "ec" = some (ofNat span.stop.character.toNat) := rfl
  rw [ofJson?, toJson, fields]
  simp only [Option.bind_eq_bind, Option.bind_some, Option.pure_def, startLine, startCharacter, stopLine,
    stopCharacter, number, Nat.toUInt32, UInt32.ofNat_toNat]

theorem legible_toJson (span : Span) : Legible span.toJson := by
  refine .object fun field member => ?_
  obtain ⟨n, _, written⟩ := List.mem_map.mp (List.of_mem_zip member).2
  exact written ▸ .nat n.toNat

end Span

namespace Bucket

theorem ofJson?_toJson (bucket : Bucket) : ofJson? bucket.toJson = some bucket := by
  have fields := fields?_ofFields (bucket.entries.map fun entry =>
    (entry.1, Json.array (entry.2.map Span.toJson)))
  have entry : ∀ entry : String × List Span,
      ((fun field : String × Json => do
        pure (field.1, ← (← field.2.items?).mapM Span.ofJson?)) ∘
      fun entry : String × List Span => (entry.1, Json.array (entry.2.map Span.toJson))) entry =
        some entry := by
    intro entry
    have spans := mapM_written Span.ofJson?_toJson entry.2
    simp [items?, spans]
  rw [ofJson?, toJson, fields, Option.bind_eq_bind, Option.bind_some, List.mapM_map,
    funext entry]
  have whole : bucket.entries.mapM some = some bucket.entries :=
    List.mapM_pure.trans (congrArg some (List.map_id _))
  rw [whole, Option.bind_eq_bind, Option.bind_some, KeyMap.ofList_entries]
  rfl

theorem legible_toJson (bucket : Bucket) : Legible bucket.toJson := by
  refine .object fun field member => ?_
  obtain ⟨entry, _, rfl⟩ := List.mem_map.mp member
  refine .array fun item found => ?_
  obtain ⟨span, _, rfl⟩ := List.mem_map.mp found
  exact span.legible_toJson

end Bucket

namespace DocumentRecord

theorem ofJson?_toJson (record : DocumentRecord) : ofJson? record.toJson = some record := by
  let written := ("uri", ofText record.uri) ::
    recordFieldNames.toList.zip (record.buckets.map Bucket.toJson).toList
  have fields : (ofFields written).recordFields? ("uri" :: recordFieldNames.toList) = some written :=
    recordFields?_ofFields (by decide) rfl
  have uri : written.lookup "uri" = some (ofText record.uri) := rfl
  have bucket (part : SymbolClass) :
      (written.lookup (recordFieldNames.get part)).bind Bucket.ofJson? =
        some (record.buckets.get part) := by
    have found : written.lookup (recordFieldNames.get part) =
        some (Bucket.toJson (record.buckets.get part)) := by
      obtain ⟨kind, policy⟩ := part
      cases kind <;> cases policy <;> rfl
    rw [found, Option.bind_some, Bucket.ofJson?_toJson]
  rw [ofJson?, toJson, fields]
  simp only [Option.bind_eq_bind, Option.bind_some, Option.pure_def, uri, bucket, ofText, text?]
  rfl

theorem legible_toJson (record : DocumentRecord) : Legible record.toJson := by
  refine .object fun field member => ?_
  rcases List.mem_cons.mp member with rfl | member
  · exact .text record.uri
  · obtain ⟨part, _, written⟩ := List.mem_map.mp (List.of_mem_zip member).2
    rw [← written, ByClass.get_map]
    exact Bucket.legible_toJson _

end DocumentRecord

namespace Snapshot

theorem ofJson?_toJson (snapshot : Snapshot) : ofJson? snapshot.toJson = some snapshot := by
  let written := [("documents", Json.array (snapshot.documents.map DocumentRecord.toJson))]
  have fields : (ofFields written).recordFields? ["documents"] = some written :=
    recordFields?_ofFields (by decide) rfl
  have records := mapM_written DocumentRecord.ofJson?_toJson snapshot.documents
  have found : written.lookup "documents" =
      some (Json.array (snapshot.documents.map DocumentRecord.toJson)) := rfl
  rw [ofJson?, toJson, fields]
  simp only [Option.bind_eq_bind, Option.bind_some, Option.pure_def, found, items?, records]

theorem legible_toJson (snapshot : Snapshot) : Legible snapshot.toJson := by
  refine .object fun field member => ?_
  rw [List.mem_singleton.mp member]
  refine .array fun item found => ?_
  obtain ⟨record, _, rfl⟩ := List.mem_map.mp found
  exact record.legible_toJson

theorem read?_write (snapshot : Snapshot) :
    read? ((Layout.compact.write 0 snapshot.toJson).map some) = some snapshot := by
  rw [read?, parse?_write Layout.blank_compact snapshot.legible_toJson, Option.bind_some,
    ofJson?_toJson]

theorem ofText?_text (snapshot : Snapshot) : ofText? snapshot.text = some snapshot := by
  rw [ofText?, text, compact, String.toList_ofList, read?_write]

end Snapshot
end AssemblySymbols
