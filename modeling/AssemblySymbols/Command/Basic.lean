/-! The commands of the program. -/
namespace AssemblySymbols

inductive Command where
  /-- Writes the settings file. -/
  | init (force : Bool)
  /-- Indexes the workspace and writes the cache. -/
  | scan
  /-- Says what a name stands for. -/
  | kind (name : String)
  /-- Lists the definitions of a name. -/
  | goto (name : String)
  /-- Lists the definitions of the identifier at a place, counted from one. -/
  | at (file : String) (line column : UInt32)
  /-- Keeps the index up to date. -/
  | watch (pause : UInt64)
deriving DecidableEq, Repr

/-- A command and the root of the workspace it is for. -/
structure Invocation where
  root : String
  command : Command
deriving DecidableEq, Repr

end AssemblySymbols
