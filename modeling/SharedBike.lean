import SharedBike.Lib.Machine
import SharedBike.Lib.Pool
import SharedBike.Lib.Framing
import SharedBike.Lib.Protobuf
import SharedBike.Lib.Keyed
import SharedBike.Lib.Newest
import SharedBike.Lib.Records
import SharedBike.Lib.Arrangements
import SharedBike.Lib.Decimal
import SharedBike.Lib.MachineInt
import SharedBike.Common.RideNo
import SharedBike.Wire.Protocol
import SharedBike.Wire.Codec
import SharedBike.Ipc.SpscRing
import SharedBike.Ipc.SpscLaws
import SharedBike.Ipc.RingNotify
import SharedBike.Ipc.PollRounds
import SharedBike.Ipc.Heartbeats
import SharedBike.Ipc.Region
import SharedBike.Ipc.Recovery
import SharedBike.Ipc.Startup
import SharedBike.Ipc.StartupLaws
import SharedBike.Server.Data
import SharedBike.Server.SqlText
import SharedBike.Server.InMemory
import SharedBike.Server.Sql
import SharedBike.Server.Mysql
import SharedBike.Server.Handlers
import SharedBike.Server.World
import SharedBike.Server.MysqlLaws
import SharedBike.Server.Phases
import SharedBike.Server.Acting
import SharedBike.Server.Courses
import SharedBike.Server.Frames
import SharedBike.Server.ChargeOnce
import SharedBike.Server.Bikes
import SharedBike.Server.BikeOnce
import SharedBike.Server.Spawning
import SharedBike.Server.EndRideLaws
import SharedBike.Server.AccountRefinement
import SharedBike.Server.BikeRepos
import SharedBike.Server.RideRepos
import SharedBike.Server.Rentals
import SharedBike.Server.PoolLaws
import SharedBike.Server.Damage
import SharedBike.Server.Ledger
import SharedBike.Server.Isolation
import SharedBike.Server.Touching
import SharedBike.Server.Replicas
import SharedBike.Server.Identity
import SharedBike.Server.Receipts
import SharedBike.Server.Replays
import SharedBike.Server.LoginCodes
import SharedBike.Server.Messages
import SharedBike.Server.Reports
import SharedBike.Server.Trajectories
import SharedBike.Server.Playback
import SharedBike.Server.Escapes
import SharedBike.Server.Truncation
import SharedBike.Server.Config
import SharedBike.Gateway.Connection
import SharedBike.Gateway.Worker
import SharedBike.Gateway.Outbox
import SharedBike.Gateway.Reassembly
import SharedBike.Gateway.Engine
import SharedBike.Gateway.Books
import SharedBike.Gateway.Lifecycle
import SharedBike.Gateway.Standing
import SharedBike.Gateway.Replies
import SharedBike.Gateway.Draining
import SharedBike.Gateway.Each
import SharedBike.Gateway.Receiving
import SharedBike.Gateway.Streams
import SharedBike.Gateway.Sending
import SharedBike.Gateway.Admission
import SharedBike.Dispatch.Pipeline
import SharedBike.Dispatch.Flush
import SharedBike.Dispatch.Reader
import SharedBike.Dispatch.Routing
import SharedBike.Dispatch.Service
import SharedBike.Dispatch.Accounts
import SharedBike.Dispatch.Modes
import SharedBike.Dispatch.Shutdown
import SharedBike.Client.Bridge
import SharedBike.Client.Matching
import SharedBike.Client.Trajectory
import SharedBike.Client.Pricing
import SharedBike.Client.Frames
import SharedBike.Server.ReplySizes
import SharedBike.Server.MemoryDetail
import SharedBike.Lib.WaitQueue
import SharedBike.Server.ThreadPool
import SharedBike.Server.LeaseQueue
import SharedBike.Lib.Journal
import SharedBike.Server.Authority
import SharedBike.Client.Reconnect
import SharedBike.Client.Panes
