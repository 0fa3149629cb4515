import FrameSorter.Artifact
import FrameSorter.CommandLine
import FrameSorter.Compilation
import FrameSorter.Configuration
import FrameSorter.Diagnostic
import FrameSorter.Disk
import FrameSorter.Dispatcher
import FrameSorter.Document.Fault
import FrameSorter.Document.Record
import FrameSorter.FileSystem
import FrameSorter.Frame
import FrameSorter.Identifier
import FrameSorter.Json.Literal
import FrameSorter.Json.Number
import FrameSorter.Json.Reader
import FrameSorter.Json.Value
import FrameSorter.Lifecycle
import FrameSorter.Loading
import FrameSorter.Main
import FrameSorter.Number.Double
import FrameSorter.Numbered
import FrameSorter.Pack.Building
import FrameSorter.Pack.Layout
import FrameSorter.Pack.Writing
import FrameSorter.Path
import FrameSorter.Proofs.ChangedFiles
import FrameSorter.Proofs.ChangedOptions
import FrameSorter.Proofs.CleanConfiguration
import FrameSorter.Proofs.CompiledArtifacts
import FrameSorter.Proofs.CompoundData
import FrameSorter.Proofs.Confinement
import FrameSorter.Proofs.DeclarationOrder
import FrameSorter.Proofs.Diagnosis
import FrameSorter.Proofs.DirectoryEntries
import FrameSorter.Proofs.DirectoryMirror
import FrameSorter.Proofs.DispatchedItems
import FrameSorter.Proofs.DispatcherHeader
import FrameSorter.Proofs.EarlyEnds
import FrameSorter.Proofs.EqualPaths
import FrameSorter.Proofs.FirstComplaint
import FrameSorter.Proofs.FunctionFiles
import FrameSorter.Proofs.FunctionNames
import FrameSorter.Proofs.Identifiers
import FrameSorter.Proofs.JoinedPaths
import FrameSorter.Proofs.JsonData
import FrameSorter.Proofs.JsonDocuments
import FrameSorter.Proofs.JsonLiterals
import FrameSorter.Proofs.JsonNumerals
import FrameSorter.Proofs.JsonRecords
import FrameSorter.Proofs.JsonRoundTrip
import FrameSorter.Proofs.JsonSchemas
import FrameSorter.Proofs.JsonShapes
import FrameSorter.Proofs.JsonTexts
import FrameSorter.Proofs.JsonTokens
import FrameSorter.Proofs.JsonTrees
import FrameSorter.Proofs.KeptEntries
import FrameSorter.Proofs.KeptLines
import FrameSorter.Proofs.LaterGroups
import FrameSorter.Proofs.LedgerReading
import FrameSorter.Proofs.LedgerRecords
import FrameSorter.Proofs.LineFeeds
import FrameSorter.Proofs.LoadingDecision
import FrameSorter.Proofs.MemoryRecords
import FrameSorter.Proofs.MemoryWrites
import FrameSorter.Proofs.NamelessGroups
import FrameSorter.Proofs.NumberFields
import FrameSorter.Proofs.NumberedGroups
import FrameSorter.Proofs.OfferedFiles
import FrameSorter.Proofs.PackReferences
import FrameSorter.Proofs.Planned
import FrameSorter.Proofs.Presentation
import FrameSorter.Proofs.QuotedTexts
import FrameSorter.Proofs.Reading
import FrameSorter.Proofs.Rebuilding
import FrameSorter.Proofs.Rejection
import FrameSorter.Proofs.RemovedDeclarations
import FrameSorter.Proofs.RenamedGroups
import FrameSorter.Proofs.RepeatedGroups
import FrameSorter.Proofs.Resolution
import FrameSorter.Proofs.RonRoundTrip
import FrameSorter.Proofs.RonTokens
import FrameSorter.Proofs.RoutingScripts
import FrameSorter.Proofs.Runs
import FrameSorter.Proofs.Scanning
import FrameSorter.Proofs.Scoreboard
import FrameSorter.Proofs.ScriptCalls
import FrameSorter.Proofs.ScriptCommands
import FrameSorter.Proofs.Simulation
import FrameSorter.Proofs.SoleMembers
import FrameSorter.Proofs.SortingCycle
import FrameSorter.Proofs.Standing
import FrameSorter.Proofs.TakenFiles
import FrameSorter.Proofs.TextLines
import FrameSorter.Proofs.TomlLines
import FrameSorter.Proofs.TomlRoundTrip
import FrameSorter.Proofs.TomlTables
import FrameSorter.Proofs.TomlTokens
import FrameSorter.Proofs.WrittenConfiguration
import FrameSorter.Ron.Reader
import FrameSorter.Ron.Token
import FrameSorter.Sink
import FrameSorter.Text.Quoted
import FrameSorter.Text.Shown
import FrameSorter.Text.Unseen
import FrameSorter.Timer
import FrameSorter.Toml.Number
import FrameSorter.Toml.Reader
import FrameSorter.Toml.Text
import FrameSorter.Toml.Value
