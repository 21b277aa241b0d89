import DdingGameServer.Common.System
import DdingGameServer.Common.History
import DdingGameServer.Common.Tally
import DdingGameServer.Common.Lending
import DdingGameServer.Common.Streaming
import DdingGameServer.Common.KeyMap
import DdingGameServer.Common.Channels
import DdingGameServer.Common.LittleEndian
import DdingGameServer.Common.PriorityQueue
import DdingGameServer.Common.EntryMap
import DdingGameServer.Common.Circular
import DdingGameServer.Common.Accumulator
import DdingGameServer.Common.Levels
import DdingGameServer.Common.Lines
import DdingGameServer.Common.Autocommit
import DdingGameServer.Common.StdString
import DdingGameServer.Common.OrderedMap
import DdingGameServer.Common.Firsts
import DdingGameServer.Common.Ancestors
import DdingGameServer.Common.Changes
import DdingGameServer.Common.IntegralType
import DdingGameServer.Common.NodeList
import DdingGameServer.Common.Progress
import DdingGameServer.Common.ScopedLocks
import DdingGameServer.Common.MapCalls
import DdingGameServer.Common.Database
import DdingGameServer.RIOServer.Model
import DdingGameServer.RIOServer.Steps
import DdingGameServer.RIOServer.RefCount
import DdingGameServer.RIOServer.Staff
import DdingGameServer.RIOServer.Release
import DdingGameServer.RIOServer.Account
import DdingGameServer.RIOServer.Buffers
import DdingGameServer.RIOServer.Rings
import DdingGameServer.RIOServer.Framing
import DdingGameServer.RIOServer.Dispatch
import DdingGameServer.RIOServer.Parameters
import DdingGameServer.RIOServer.SendPath
import DdingGameServer.RIOServer.Exclusive
import DdingGameServer.RIOServer.Closing
import DdingGameServer.RIOServer.Contexts
import DdingGameServer.RIOServer.Broadcast
import DdingGameServer.RIOServer.NetBuffers
import DdingGameServer.RIOServer.Returns
import DdingGameServer.RIOServer.Mirrors
import DdingGameServer.RIOServer.SendStream
import DdingGameServer.RIOServer.SendSteps
import DdingGameServer.RIOServer.SendAccount
import DdingGameServer.RIOServer.RecvWindow
import DdingGameServer.RIOServer.RecvOffset
import DdingGameServer.RIOServer.Malformed
import DdingGameServer.RIOServer.Balance
import DdingGameServer.RIOServer.Frames
import DdingGameServer.RIOServer.Service
import DdingGameServer.RIOServer.Lifecycle
import DdingGameServer.RIOServer.Shutdown
import DdingGameServer.RIOServer.Work
import DdingGameServer.RIOServer.Drain
import DdingGameServer.GameDB.Protocol
import DdingGameServer.DBServer.Model
import DdingGameServer.DBServer.Transaction
import DdingGameServer.DBServer.Assembly
import DdingGameServer.DBServer.Isolation
import DdingGameServer.DBServer.Pool
import DdingGameServer.DBServer.Cleanup
import DdingGameServer.DBServer.Workers
import DdingGameServer.DBServer.Uninterrupted
import DdingGameServer.DBServer.Announced
import DdingGameServer.DBServer.Treatment
import DdingGameServer.DBServer.Committed
import DdingGameServer.GameDB.Manager
import DdingGameServer.GameDB.Registry
import DdingGameServer.GameDB.Reply
import DdingGameServer.GameDB.Job
import DdingGameServer.GameDB.Report
import DdingGameServer.GameDB.Settle
import DdingGameServer.GameDB.Delivery
import DdingGameServer.GameDB.Wire
import DdingGameServer.GameDB.Lifetime
import DdingGameServer.MultiLanClient.Framing
import DdingGameServer.MultiLanClient.Model
import DdingGameServer.MultiLanClient.Steps
import DdingGameServer.MultiLanClient.Staff
import DdingGameServer.MultiLanClient.Token
import DdingGameServer.MultiLanClient.Wakeup
import DdingGameServer.MultiLanClient.Handover
import DdingGameServer.MultiLanClient.References
import DdingGameServer.MultiLanClient.ReleaseOnce
import DdingGameServer.MultiLanClient.Reconnect
import DdingGameServer.MultiLanClient.Packets
import DdingGameServer.MultiLanClient.Frees
import DdingGameServer.MultiLanClient.FreeOnce
import DdingGameServer.MultiLanClient.Options
import DdingGameServer.MultiLanClient.Stop
import DdingGameServer.MultiLanClient.Work
import DdingGameServer.MultiLanClient.Rest
import DdingGameServer.GameServer.PCManager
import DdingGameServer.GameServer.Interleaved
import DdingGameServer.GameServer.Login
import DdingGameServer.GameServer.LazyRunner
import DdingGameServer.GameServer.Creature
import DdingGameServer.GameServer.Locks
import DdingGameServer.GameServer.GameObjects
import DdingGameServer.GameServer.Zones
import DdingGameServer.RIOCore.Timer
import DdingGameServer.RIOCore.ExpiredTimers
import DdingGameServer.RIOCore.Logger
import DdingGameServer.RIOCore.DeadlockChecker
import DdingGameServer.RIOCore.GlobalUtil
import DdingGameServer.Auth.Registration
import DdingGameServer.Auth.Handshake
import DdingGameServer.Auth.Threads
import DdingGameServer.Auth.Wakeup
import DdingGameServer.Auth.Stop
import DdingGameServer.Auth.Network
import DdingGameServer.DBMigrator.Model
import DdingGameServer.DBMigrator.Generate
import DdingGameServer.DBMigrator.Rerun
import DdingGameServer.ODBC.Model
import DdingGameServer.ODBC.CallText
import DdingGameServer.ODBC.Parameters
import DdingGameServer.ODBC.Probing
import DdingGameServer.ODBC.ResultSet
import DdingGameServer.ODBC.InitDB
import DdingGameServer.Reflection.TypeInfo
import DdingGameServer.Reflection.Listings
import DdingGameServer.Reflection.Hierarchy
import DdingGameServer.ScriptToObject.DataContainer
