import TricPlus.Lib.OrderedScan
import TricPlus.Lib.ExpiringMap
import TricPlus.Lib.AtomicProgram
import TricPlus.DataBus
import TricPlus.Store
import TricPlus.StoreInvariant
import TricPlus.Reference
import TricPlus.Tric
import TricPlus.Lib.PosixPath
import TricPlus.Lib.Utf8
import TricPlus.PermutiveBus
import TricPlus.BusRefinement
import TricPlus.CachePromotion
import TricPlus.Restart
import TricPlus.LifetimeReports
import TricPlus.DiffExact
import TricPlus.ImportKeys
import TricPlus.ImportCounts
import TricPlus.Sharding
import TricPlus.CloneContents
import TricPlus.TimelySchedules
import TricPlus.ServerSafety
import TricPlus.Padding
import TricPlus.Bridges.CClient
import TricPlus.Bridges.JsClient
import TricPlus.Bridges.PythonClient
import TricPlus.RestoreRequest
import TricPlus.DumpFaults
import TricPlus.AdminQuery
import TricPlus.ArchivePaths
import TricPlus.ArchiveRoundTrip
import TricPlus.Lib.LikePattern
import TricPlus.LikePatterns
import TricPlus.RowColumns
import TricPlus.ForeignKeys
import TricPlus.ImportCommand
import TricPlus.Lib.Base64
import TricPlus.Lib.Lines
import TricPlus.AuthorizedKeys
import TricPlus.SqlExport
import TricPlus.SchemaText
import TricPlus.ExportedRows
import TricPlus.ColumnLists
import TricPlus.ExportedTables
import TricPlus.Lib.RelyGuarantee
import TricPlus.Lib.TimedRuns
import TricPlus.RequestCalls
import TricPlus.OneMap
import TricPlus.Bridges.PythonSession
import TricPlus.Provenance
import TricPlus.Lib.Linearization
import TricPlus.LeasedKeys
import TricPlus.SqlFaults
import TricPlus.CrashRecovery
import TricPlus.Lib.Interruption
import TricPlus.SqlTables
import TricPlus.Lib.Recording
import TricPlus.Workers
import TricPlus.Lib.Gregorian
import TricPlus.Logger
import TricPlus.CheckedDeadlines
import TricPlus.KeyPlans
import TricPlus.SqlExecution
