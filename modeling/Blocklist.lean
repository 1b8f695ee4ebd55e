import Blocklist.ByteAmount
import Blocklist.Cli.Arguments
import Blocklist.Cli.LocalHost
import Blocklist.Cli.Run
import Blocklist.Cli.Task
import Blocklist.Clock
import Blocklist.Compiler
import Blocklist.Config
import Blocklist.Config.Json
import Blocklist.Domain
import Blocklist.Engine.Controller
import Blocklist.Engine.ListCache
import Blocklist.Engine.Program
import Blocklist.Engine.RefreshJob
import Blocklist.Engine.Repository
import Blocklist.Engine.Statistics
import Blocklist.Engine.Synchronizer
import Blocklist.EngineError
import Blocklist.Files.Disk
import Blocklist.Files.Path
import Blocklist.Files.Tree
import Blocklist.FilterCache
import Blocklist.FilterList
import Blocklist.Host
import Blocklist.Json.Basic
import Blocklist.Json.Cursor
import Blocklist.Json.Decoding
import Blocklist.Json.Literal
import Blocklist.Json.Numeral
import Blocklist.Json.Printer
import Blocklist.Json.Reader
import Blocklist.Main
import Blocklist.Message
import Blocklist.Mode
import Blocklist.Number.Digits
import Blocklist.Number.Double
import Blocklist.Number.Rounding
import Blocklist.Number.Shortest
import Blocklist.Proofs.Acceptance
import Blocklist.Proofs.Accounting
import Blocklist.Proofs.Answers
import Blocklist.Proofs.ByteAmounts
import Blocklist.Proofs.CachedLists
import Blocklist.Proofs.Confinement
import Blocklist.Proofs.Decoding
import Blocklist.Proofs.Doubles
import Blocklist.Proofs.Enforcement
import Blocklist.Proofs.FileHosts
import Blocklist.Proofs.FileTrees
import Blocklist.Proofs.Formats
import Blocklist.Proofs.Handouts
import Blocklist.Proofs.IdShortage
import Blocklist.Proofs.Interleaving
import Blocklist.Proofs.JsonGrammar
import Blocklist.Proofs.KeyOwners
import Blocklist.Proofs.Lines
import Blocklist.Proofs.ListGrammar
import Blocklist.Proofs.ListLayout
import Blocklist.Proofs.ListRoundTrip
import Blocklist.Proofs.ListTallies
import Blocklist.Proofs.MatchCounts
import Blocklist.Proofs.Messages
import Blocklist.Proofs.ModeChanges
import Blocklist.Proofs.ModeCourse
import Blocklist.Proofs.ModeProtocol
import Blocklist.Proofs.NestedValues
import Blocklist.Proofs.Notices
import Blocklist.Proofs.OfflineCompilation
import Blocklist.Proofs.PartialConfigs
import Blocklist.Proofs.Paths
import Blocklist.Proofs.Printing
import Blocklist.Proofs.ProperValues
import Blocklist.Proofs.Protocol
import Blocklist.Proofs.Reading
import Blocklist.Proofs.Records
import Blocklist.Proofs.RefreshSchedule
import Blocklist.Proofs.Refreshing
import Blocklist.Proofs.Repetition
import Blocklist.Proofs.Replacement
import Blocklist.Proofs.Rollback
import Blocklist.Proofs.RuleDocuments
import Blocklist.Proofs.RuleLayout
import Blocklist.Proofs.RuleSets
import Blocklist.Proofs.Runs
import Blocklist.Proofs.Serialization
import Blocklist.Proofs.ServedLists
import Blocklist.Proofs.Sessions
import Blocklist.Proofs.Standings
import Blocklist.Proofs.StoreFiles
import Blocklist.Proofs.StoreRefinement
import Blocklist.Proofs.StoredMode
import Blocklist.Proofs.Supplies
import Blocklist.Proofs.Synchronization
import Blocklist.Rule
import Blocklist.Rule.Json
import Blocklist.Source.HttpList
import Blocklist.Source.ListFile
import Blocklist.Stats
import Blocklist.Store
import Blocklist.Surface
import Blocklist.Text.Blank
import Blocklist.Text.Lines
import Blocklist.Text.Quoted
import Blocklist.Text.Visible
import Blocklist.Url.Basic
import Blocklist.Url.Host
import Blocklist.Url.Percent
import Blocklist.Url.Reader
