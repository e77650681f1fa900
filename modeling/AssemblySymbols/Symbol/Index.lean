import AssemblySymbols.Symbol.Snapshot

/-! The index over all documents. Next to the tables it holds, for each class, every name with the
places that define it, document after document in the order of their last insertion. -/
namespace AssemblySymbols

/-- A place that defines a name, with the document that contributed it. -/
structure Location where
  uri : String
  span : Span
  part : SymbolClass
deriving DecidableEq, Repr

/-- Where a query leads. -/
structure Site where
  uri : String
  span : Span
deriving DecidableEq, Repr

def Location.site (location : Location) : Site := ⟨location.uri, location.span⟩

abbrev Aggregate := KeyMap (List Location)

namespace Aggregate

/-- The places of a document under one key of a class. -/
def locations (uri : String) (part : SymbolClass) (spans : List Span) : List Location :=
  spans.map fun span => ⟨uri, span, part⟩

/-- Puts what a document defines behind what is there. -/
def contribute (uri : String) (part : SymbolClass) (bucket : Bucket) (aggregate : Aggregate) :
    Aggregate :=
  bucket.entries.foldl (fun aggregate (key, spans) =>
    aggregate.alter key fun old => some (old.getD [] ++ locations uri part spans)) aggregate

/-- Takes away what a document defined, and with it the keys that nothing defines any more. -/
def withdraw (uri : String) (bucket : Bucket) (aggregate : Aggregate) : Aggregate :=
  bucket.keys.foldl (fun aggregate key =>
    aggregate.alter key fun old =>
      (old.map fun found => found.filter (·.uri ≠ uri)).filter fun kept => !kept.isEmpty) aggregate

def sites (aggregate : Aggregate) (key : String) : List Site :=
  ((aggregate.get? key).getD []).map Location.site

end Aggregate

structure SymbolIndex where
  /-- The tables by document, the one inserted last at the end. -/
  documents : List (String × SymbolTable)
  aggregates : ByClass Aggregate
deriving DecidableEq

namespace SymbolIndex

def empty : SymbolIndex := ⟨[], .replicate ∅⟩

instance : Inhabited SymbolIndex := ⟨empty⟩

def document? (index : SymbolIndex) (uri : String) : Option SymbolTable :=
  index.documents.lookup uri

def contains (index : SymbolIndex) (uri : String) : Bool := (index.document? uri).isSome

def uris (index : SymbolIndex) : List String := index.documents.map (·.1)

def documentCount (index : SymbolIndex) : Nat := index.documents.length

def definitionCount (index : SymbolIndex) : Nat :=
  index.documents.foldr (fun entry count => entry.2.definitionCount + count) 0

def remove (index : SymbolIndex) (uri : String) : SymbolIndex :=
  match index.document? uri with
  | none => index
  | some table =>
    { documents := index.documents.filter (·.1 ≠ uri)
      aggregates := .ofFn fun part =>
        (index.aggregates.get part).withdraw uri (table.buckets.get part) }

/-- Makes a table the sole contribution of a document, which moves to the end of the order. -/
def replace (index : SymbolIndex) (uri : String) (table : SymbolTable) : SymbolIndex :=
  let rest := index.remove uri
  { documents := rest.documents ++ [(uri, table)]
    aggregates := .ofFn fun part =>
      (rest.aggregates.get part).contribute uri part (table.buckets.get part) }

def indexText (index : SymbolIndex) (uri : String) (text : String) : SymbolIndex :=
  index.replace uri (.ofText text)

/-- The class that answers a query first. Sensitive definitions are passed over by a marked name,
and insensitive ones are found by the lower-cased name. -/
def kindOf? (index : SymbolIndex) (query : String) : Option Kind :=
  match Name.parse? query with
  | none => none
  | some name =>
    let key := Name.insensitiveKey name.base
    if !name.marked && index.aggregates.labelsSensitive.contains name.base then some .label
    else if !name.marked && index.aggregates.valuesSensitive.contains name.base then some .value
    else if index.aggregates.labelsInsensitive.contains key then some .label
    else if index.aggregates.valuesInsensitive.contains key then some .value
    else none

/-- Where a name is defined, labels before values. A sensitive definition hides the insensitive
ones. -/
def definitionsOf (index : SymbolIndex) (query : String) : List Site :=
  match Name.parse? query with
  | none => []
  | some name =>
    let exact :=
      if name.marked then []
      else index.aggregates.labelsSensitive.sites name.base ++
        index.aggregates.valuesSensitive.sites name.base
    if exact.isEmpty then
      let key := Name.insensitiveKey name.base
      index.aggregates.labelsInsensitive.sites key ++ index.aggregates.valuesInsensitive.sites key
    else exact

/-- Records of all documents in ascending order of their URIs. -/
def snapshot (index : SymbolIndex) : Snapshot :=
  ⟨(KeyMap.ofList index.documents).entries.map fun (uri, table) => .ofTable uri table⟩

/-- Adds recorded documents that the index does not hold yet, and counts them. What it holds is newer
and is kept. -/
def restore (index : SymbolIndex) (snapshot : Snapshot) : SymbolIndex × Nat :=
  snapshot.documents.foldl (fun (index, restored) record =>
    if index.contains record.uri then (index, restored)
    else (index.replace record.uri record.toTable, restored + 1)) (index, 0)

end SymbolIndex
end AssemblySymbols
