import AssemblySymbols.Json.Reader
import AssemblySymbols.Json.Writer
import AssemblySymbols.Symbol.Snapshot

/-! Snapshots as JSON. Every field is required, and a bucket lists its keys in ascending order, so
equal snapshots have equal texts. -/
namespace AssemblySymbols

open Json

/-- The names under which the parts of a record are written. -/
def recordFieldNames : ByClass String :=
  ⟨"labelsSensitive", "labelsInsensitive", "valuesSensitive", "valuesInsensitive"⟩

def spanFieldNames : List String := ["sl", "sc", "el", "ec"]

def Span.toJson (span : Span) : Json :=
  ofFields (spanFieldNames.zip
    ([span.start.line, span.start.character, span.stop.line, span.stop.character].map
      fun n => ofNat n.toNat))

def Span.ofJson? (value : Json) : Option Span := do
  let fields ← value.recordFields? spanFieldNames
  let field (name : String) : Option UInt32 := do
    let n ← (← fields.lookup name).natBelow? UInt32.size
    pure n.toUInt32
  pure ⟨⟨← field "sl", ← field "sc"⟩, ⟨← field "el", ← field "ec"⟩⟩

def Bucket.toJson (bucket : Bucket) : Json :=
  ofFields (bucket.entries.map fun (key, spans) => (key, .array (spans.map Span.toJson)))

/-- A key that is repeated keeps its last spans. -/
def Bucket.ofJson? (value : Json) : Option Bucket := do
  let entries ← (← value.fields?).mapM fun (key, spans) => do
    pure (key, ← (← spans.items?).mapM Span.ofJson?)
  pure (KeyMap.ofList entries)

def DocumentRecord.toJson (record : DocumentRecord) : Json :=
  ofFields (("uri", ofText record.uri) ::
    recordFieldNames.toList.zip (record.buckets.map Bucket.toJson).toList)

def DocumentRecord.ofJson? (value : Json) : Option DocumentRecord := do
  let fields ← value.recordFields? ("uri" :: recordFieldNames.toList)
  let bucket (part : SymbolClass) : Option Bucket :=
    (fields.lookup (recordFieldNames.get part)).bind Bucket.ofJson?
  pure ⟨← (fields.lookup "uri").bind text?,
    ⟨← bucket ⟨.label, .sensitive⟩, ← bucket ⟨.label, .insensitive⟩,
      ← bucket ⟨.value, .sensitive⟩, ← bucket ⟨.value, .insensitive⟩⟩⟩

namespace Snapshot

def toJson (snapshot : Snapshot) : Json :=
  ofFields [("documents", .array (snapshot.documents.map DocumentRecord.toJson))]

def ofJson? (value : Json) : Option Snapshot := do
  let fields ← value.recordFields? ["documents"]
  let records ← (← (← fields.lookup "documents").items?).mapM DocumentRecord.ofJson?
  pure ⟨records⟩

/-- The text of a snapshot, without any space. -/
def text (snapshot : Snapshot) : String := snapshot.toJson.compact

def read? (symbols : List (Option Char)) : Option Snapshot := (parse? symbols).bind ofJson?

def ofText? (text : String) : Option Snapshot := read? (text.toList.map some)

end Snapshot
end AssemblySymbols
