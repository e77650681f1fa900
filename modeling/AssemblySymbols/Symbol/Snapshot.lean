import AssemblySymbols.Symbol.Table

/-! Plain records of document tables, as they are kept between sessions. -/
namespace AssemblySymbols

/-- The table of a document. Unlike a table it may hold keys without spans. -/
structure DocumentRecord where
  uri : String
  buckets : ByClass Bucket
deriving DecidableEq

namespace DocumentRecord

def ofTable (uri : String) (table : SymbolTable) : DocumentRecord := ⟨uri, table.buckets⟩

/-- The table of a record: its keys as they are, without those that have no spans. -/
def toTable (record : DocumentRecord) : SymbolTable :=
  ⟨record.buckets.map (·.filterValues fun spans => !spans.isEmpty)⟩

end DocumentRecord

/-- The records of a whole index. -/
structure Snapshot where
  documents : List DocumentRecord
deriving DecidableEq

namespace Snapshot

def empty : Snapshot := ⟨[]⟩

instance : Inhabited Snapshot := ⟨empty⟩

end Snapshot
end AssemblySymbols
