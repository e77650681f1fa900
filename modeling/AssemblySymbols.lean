import AssemblySymbols.Command.Run
import AssemblySymbols.Command.Shell
import AssemblySymbols.Main
import AssemblySymbols.Proofs.KeyMapFolds
import AssemblySymbols.Proofs.Session.Holdings
import AssemblySymbols.Proofs.Session.CacheFile
import AssemblySymbols.Proofs.Session.CacheTransparency
import AssemblySymbols.Proofs.Session.Consistency
import AssemblySymbols.Proofs.Session.Requests
import AssemblySymbols.Proofs.Session.Survey
import AssemblySymbols.Proofs.Source.DefinedNames
import AssemblySymbols.Proofs.Text.Encoding
import AssemblySymbols.Proofs.Symbol.Coherence
import AssemblySymbols.Proofs.Symbol.Documents
import AssemblySymbols.Proofs.Symbol.History
import AssemblySymbols.Proofs.Symbol.Operations
import AssemblySymbols.Proofs.Symbol.Search
import AssemblySymbols.Proofs.Symbol.TableGrouping
import AssemblySymbols.Session.Watch
import AssemblySymbols.Source.Line
import AssemblySymbols.Symbol.Index
import AssemblySymbols.Workspace.Discovery
import AssemblySymbols.Proofs.Session.Survivors
import AssemblySymbols.Proofs.Json.RoundTrip
import AssemblySymbols.Proofs.Symbol.SnapshotText
import AssemblySymbols.Proofs.Symbol.Reordering
import AssemblySymbols.Proofs.Symbol.Restoration
import AssemblySymbols.Proofs.Session.Interleaving
import AssemblySymbols.Proofs.Session.SequentialRuns
import AssemblySymbols.Proofs.Session.HostPrecedence
import AssemblySymbols.Proofs.Lookups
import AssemblySymbols.Proofs.Disk.Walks
import AssemblySymbols.Proofs.Disk.Changes
import AssemblySymbols.Proofs.Session.CacheSaves
import AssemblySymbols.Proofs.Disk.Renaming
import AssemblySymbols.Proofs.Session.Durability
import AssemblySymbols.Proofs.Session.Reloading
import AssemblySymbols.Proofs.Session.FaithfulCache
import AssemblySymbols.Proofs.Session.SaveInvariant
import AssemblySymbols.Proofs.Session.SaveOrder
import AssemblySymbols.Proofs.Session.SaveTasks
import AssemblySymbols.Proofs.Paths
import AssemblySymbols.Proofs.Symbol.Kinds
import AssemblySymbols.Proofs.Session.IndexRuns
import AssemblySymbols.Proofs.Command.KindAndGoto
import AssemblySymbols.Proofs.Text.Columns
import AssemblySymbols.Proofs.Source.Occurrences
import AssemblySymbols.Proofs.Session.Resolution
import AssemblySymbols.Proofs.Session.PlainScans
import AssemblySymbols.Proofs.Session.IncrementalRefresh
import AssemblySymbols.Proofs.Disk.Descent
import AssemblySymbols.Proofs.Workspace.Discovery
import AssemblySymbols.Proofs.Session.ScanAndWatch
import AssemblySymbols.Proofs.Source.Grammar
import AssemblySymbols.Proofs.Symbol.HistoryIndependence
import AssemblySymbols.Proofs.Session.CacheRoundTrip
import AssemblySymbols.Proofs.Session.LiveSession
import AssemblySymbols.Proofs.Session.ParallelRuns
import AssemblySymbols.Proofs.Session.Shutdown
import AssemblySymbols.Proofs.Session.CancelledIndexing
import AssemblySymbols.Proofs.Session.WatchCompleteness
import AssemblySymbols.Proofs.Command.GotoAndAt
import AssemblySymbols.Proofs.Session.InterruptedScans
import AssemblySymbols.Proofs.Symbol.AnswerOrder
import AssemblySymbols.Proofs.Source.DefinitionPairs
import AssemblySymbols.Proofs.Symbol.CancelledTables
import AssemblySymbols.Proofs.Symbol.TextLayout
import AssemblySymbols.Proofs.Symbol.Merging
import AssemblySymbols.Proofs.Source.CursorRuns
import AssemblySymbols.Proofs.Session.Debounce
import AssemblySymbols.Proofs.Workspace.MatchingFiles
import AssemblySymbols.Proofs.Session.CallEffects
import AssemblySymbols.Proofs.Session.ScanAccounts
import AssemblySymbols.Proofs.Disk.Prefixes
import AssemblySymbols.Proofs.ParentPaths
import AssemblySymbols.Proofs.Disk.NewDirectories
import AssemblySymbols.Proofs.Disk.Faults
import AssemblySymbols.Proofs.Session.AtomicSaves
import AssemblySymbols.Proofs.Disk.WrittenFiles
import AssemblySymbols.Proofs.SettingsFormat
import AssemblySymbols.Proofs.Command.RewrittenSettings
import AssemblySymbols.Proofs.RelativePaths
import AssemblySymbols.Proofs.Command.PrintedPaths
import AssemblySymbols.Proofs.Session.TableOrigins
import AssemblySymbols.Proofs.Command.PrintedPositions
import AssemblySymbols.Proofs.Session.SharedInitialization
import AssemblySymbols.Proofs.Symbol.GroupedAdditions
