import AssemblySymbols.Disk.Action
import AssemblySymbols.Json.Reader
import AssemblySymbols.Json.Writer
import AssemblySymbols.Text.Utf8

/-! The settings of a workspace. Each has a default, and a file that cannot be read or understood
counts as one without any. -/
namespace AssemblySymbols

open Json

structure Settings where
  /-- Milliseconds from the last change of the index to the writing of the cache. -/
  saveDelay : UInt64
  /-- Directory of the cache, from the root of the workspace. -/
  cacheDirectory : String
  /-- Patterns of the files to index, relative to the root. -/
  patterns : List String
  /-- Languages whose documents are indexed whatever they are called. -/
  languageIds : List String
  /-- Extensions of the documents to index. -/
  extensions : List String
deriving DecidableEq, Repr

namespace Settings

/-- The directory in which a workspace keeps what belongs to the index. -/
def projectDirectory : String := ".asmdex"

def cacheFileName : String := "symbols.json"

/-- The environment variable that replaces the default delay. -/
def delayVariable : String := "ASMDEX_SAVE_DEBOUNCE_MS"

/-- A number below a bound, in decimal digits after an optional plus. -/
def parseNatBelow? (bound : Nat) (text : String) : Option Nat :=
  let digits := match text.toList with
    | '+' :: digits => digits
    | digits => digits
  (digitsValue? digits).filter (· < bound)

def defaultDelay (delayText? : Option String) : UInt64 :=
  ((delayText?.bind (parseNatBelow? UInt64.size)).getD 1000).toUInt64

/-- The settings where none is given; the environment may hold another delay. -/
def defaults (delayText? : Option String) : Settings where
  saveDelay := defaultDelay delayText?
  cacheDirectory := projectDirectory ++ "/cache"
  patterns := ["**/*.asm", "**/*.inc"]
  languageIds := ["fasm", "fasmg"]
  extensions := ["asm", "inc"]

def fieldNames : List String :=
  ["save_debounce_ms", "cache_dir", "include", "language_ids", "extensions"]

def toJson (settings : Settings) : Json :=
  ofFields (fieldNames.zip
    [ofNat settings.saveDelay.toNat, ofText settings.cacheDirectory, ofTexts settings.patterns,
      ofTexts settings.languageIds, ofTexts settings.extensions])

/-- Reads settings, with `defaults` in place of the fields that are missing. -/
def ofJson? (defaults : Settings) (value : Json) : Option Settings := do
  let fields ← value.recordFields? fieldNames
  let field {α : Type} (name : String) (read? : Json → Option α) (default : α) : Option α :=
    match fields.lookup name with
    | none => some default
    | some value => read? value
  let delay ← field "save_debounce_ms" (natBelow? UInt64.size) defaults.saveDelay.toNat
  pure {
    saveDelay := delay.toUInt64
    cacheDirectory := ← field "cache_dir" text? defaults.cacheDirectory
    patterns := ← field "include" texts? defaults.patterns
    languageIds := ← field "language_ids" texts? defaults.languageIds
    extensions := ← field "extensions" texts? defaults.extensions }

def text (settings : Settings) : String := settings.toJson.indented

/-- The settings that the bytes of a file write. -/
def read (defaults : Settings) (bytes : Text.Bytes) : Settings :=
  ((parse? (Text.decode bytes)).bind (ofJson? defaults)).getD defaults

def cachePath (settings : Settings) (root : Path) : Path :=
  (root.child settings.cacheDirectory).child cacheFileName

/-- Where a workspace keeps its settings. -/
def path (root : Path) : Path := ((root.child projectDirectory).child "config").child "settings.json"

def load (disk : Disk) (root : Path) (delayText? : Option String) : Settings :=
  match disk.read (path root) with
  | .ok bytes => read (defaults delayText?) bytes
  | .error _ => defaults delayText?

def save (settings : Settings) (root : Path) : DiskAction Unit := do
  DiskAction.makeParent (path root)
  DiskAction.write (path root) (Text.encode settings.text.toList)

end Settings
end AssemblySymbols
