import GmsvPg.Library.Machine
import GmsvPg.Postgres.BlockingQueue
import GmsvPg.Postgres.IQuery
import GmsvPg.Database.State
import GmsvPg.Database.System
import GmsvPg.Database.Custody
import GmsvPg.Database.Accounting
import GmsvPg.Database.Lifecycle
import GmsvPg.Database.Order
import GmsvPg.Database.HandOver
import GmsvPg.Database.Abort
import GmsvPg.Database.Cancel
import GmsvPg.Database.BulkAbort
import GmsvPg.Library.CondVar
import GmsvPg.Postgres.WaitUntilFinished
import GmsvPg.Postgres.ClosableQueue
import GmsvPg.Library.SqlLexer
import GmsvPg.Library.Raise
import GmsvPg.Postgres.Libpq
import GmsvPg.Postgres.LibpqExecutor
import GmsvPg.Postgres.Query
import GmsvPg.Postgres.PreparedQuery
import GmsvPg.Postgres.ResultData
import GmsvPg.Postgres.ResultStream
import GmsvPg.Postgres.TransactionControl
import GmsvPg.Postgres.Transaction
import GmsvPg.Postgres.Exchange
import GmsvPg.Postgres.Course
import GmsvPg.Database.RunQuery
import GmsvPg.Postgres.Handler
import GmsvPg.Postgres.ErrorText
import GmsvPg.Database.Leak
import GmsvPg.Database.Report
import GmsvPg.Database.Agreement
import GmsvPg.Library.Conninfo
import GmsvPg.Postgres.ConnectionConfig
import GmsvPg.Postgres.ConnectionString
import GmsvPg.Postgres.EffectiveOptions
import GmsvPg.Database.Reconnect
import GmsvPg.Database.LiveConnection
import GmsvPg.Database.Publication
import GmsvPg.Database.ConnectStatus
import GmsvPg.Database.Settled
import GmsvPg.Database.Finished
import GmsvPg.Database.CancelReport
import GmsvPg.Library.Termination
import GmsvPg.Database.Work
import GmsvPg.Database.AtRest
import GmsvPg.Database.Finality
import GmsvPg.Database.SessionUse
import GmsvPg.Lua.Think
import GmsvPg.Lua.LuaDatabase
import GmsvPg.Lua.LifeCycle
import GmsvPg.Lua.Outcome
import GmsvPg.Lua.Batches
import GmsvPg.Lua.Reentrancy
import GmsvPg.Lua.Causality
import GmsvPg.Library.Registry
import GmsvPg.Lua.Release
import GmsvPg.Objects.Machine
import GmsvPg.Objects.References
import GmsvPg.Objects.InUse
import GmsvPg.Objects.Balance
import GmsvPg.Objects.RunningData
import GmsvPg.Objects.Running
import GmsvPg.Objects.Rejected
import GmsvPg.Lua.SwapToFront
import GmsvPg.Lua.LuaQuery
import GmsvPg.Lua.PostgresNumber
import GmsvPg.Library.Precision
import GmsvPg.Lua.NumberText
import GmsvPg.Lua.Ledger
import GmsvPg.Lua.Work
import GmsvPg.Lua.AtRest
import GmsvPg.Lua.Barrier
import GmsvPg.Lua.Reconnects
import GmsvPg.Lua.Answered
import GmsvPg.Lua.FailedWork
import GmsvPg.Lua.Reason
import GmsvPg.Objects.Threads
import GmsvPg.Objects.Collected
import GmsvPg.Objects.Settings
import GmsvPg.Objects.Snapshot
import GmsvPg.Library.LuaStack
import GmsvPg.Library.DecimalLiteral
import GmsvPg.Objects.LuaBase
import GmsvPg.Objects.Callbacks
import GmsvPg.Objects.ResultTables
import GmsvPg.Objects.CallbackStack
import GmsvPg.Objects.ResultMirror
